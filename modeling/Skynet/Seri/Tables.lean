import Skynet.Base.Outcome
import Skynet.Lua.Table
import Skynet.Seri.Scalars

/-! What is written for a table is read back as a table that maps the same keys to the same
values: first the array part, then the other entries up to a nil key. -/
namespace Skynet.Seri
open Base Lua List

/-- The bytes are the codes of the values, one after the other. -/
inductive CodesAll : List UInt8 → List Value → Prop
  | nil : CodesAll [] []
  | cons {bytes more : List UInt8} {v : Value} {vs : List Value} (first : Codes bytes v)
      (rest : CodesAll more vs) : CodesAll (bytes ++ more) (v :: vs)

variable {bytes : List UInt8}

theorem Codes.pos {v : Value} (codes : Codes bytes v) : 0 < bytes.length := by
  obtain ⟨t, c, tail, -, -, rfl, -⟩ := codes
  exact Nat.succ_pos _

theorem CodesAll.length_le {vs : List Value} (codes : CodesAll bytes vs) :
    vs.length ≤ bytes.length := by
  induction codes with
  | nil => exact Nat.le_refl 0
  | cons first rest ih =>
    have one := first.pos
    rw [length_cons, length_append]
    omega

section Write
variable {one : WriteBlock → Value → Except Error WriteBlock}

/-- Every valid value that is packed is written by its code. -/
def Packs (one : WriteBlock → Value → Except Error WriteBlock) : Prop :=
  ∀ b b' v, Valid v → one b v = .ok b' → Writes b b' v

theorem packs_list (packs : Packs one) {vs : List Value} (valid : ∀ v ∈ vs, Valid v)
    {b b' : WriteBlock} (packed : vs.foldlM one b = .ok b') {l : List UInt8} (holds : Holds b l) :
    ∃ bytes, CodesAll bytes vs ∧ Holds b' (l ++ bytes) := by
  induction vs generalizing b l with
  | nil =>
    cases packed
    exact ⟨[], .nil, by rwa [append_nil]⟩
  | cons v vs ih =>
    rw [foldlM_cons] at packed
    obtain ⟨b₁, first, rest⟩ := bind_ok packed
    obtain ⟨bytes, codes, holds₁⟩ := packs b b₁ v (valid v (mem_cons_self ..)) first l holds
    obtain ⟨more, others, holds'⟩ :=
      ih (fun v' member => valid v' (mem_cons_of_mem v member)) rest holds₁
    refine ⟨bytes ++ more, .cons codes others, ?_⟩
    rwa [← append_assoc]

/- The values of the array part, and the entries after it. -/
def arrayValues (len : Nat) (entries : List (Key × Value)) : List Value :=
  (List.range len).map fun i => rawgeti entries (i + 1)

def hashEntries (len : Nat) (entries : List (Key × Value)) : List (Key × Value) :=
  entries.filter fun e => !inArray len e.1

def flat (entries : List (Key × Value)) : List Value :=
  entries.flatMap fun e => [e.1.value, e.2]

theorem flat_length (entries : List (Key × Value)) : (flat entries).length = 2 * entries.length := by
  induction entries with
  | nil => rfl
  | cons e entries ih =>
    rw [length_cons, Nat.mul_succ, ← ih]
    rfl

theorem foldlM_array (len : Nat) (entries : List (Key × Value)) (b : WriteBlock) :
    (List.range len).foldlM (fun b i => one b (rawgeti entries (i + 1))) b =
      (arrayValues len entries).foldlM one b := by
  rw [arrayValues, foldlM_map]

theorem foldlM_hash (len : Nat) (entries : List (Key × Value)) (b : WriteBlock) :
    entries.foldlM (fun b e => if inArray len e.1 then .ok b
      else (one b e.1.value).bind fun b => one b e.2) b =
      (flat (hashEntries len entries)).foldlM one b := by
  induction entries generalizing b with
  | nil => rfl
  | cons e entries ih =>
    rw [foldlM_cons, hashEntries]
    by_cases skipped : inArray len e.1 = true
    · rw [if_pos skipped, filter_cons_of_neg (by simpa using skipped)]
      exact ih b
    · rw [if_neg skipped, filter_cons_of_pos (by simpa using skipped)]
      change Except.bind (Except.bind _ _) _ = Except.bind _ _
      cases one b e.1.value with
      | error _ => rfl
      | ok b₁ => exact congrArg (Except.bind (one b₁ e.2)) (funext ih)

end Write

section Read

/- Entries stored one after the other, from index `i` on. -/
def putArray (want : Key → Option Value) (i : Nat) : List Value → Key → Option Value
  | [] => want
  | v :: vs => putArray (put want (.integer (Int64.ofNat i)) v) (i + 1) vs

variable {bytes rest : List UInt8} {rounds : Nat} {want : Key → Option Value}
  {entries : List (Key × Value)} {rb : ReadBlock}

theorem unpackArray_spec {vs : List Value} (codes : CodesAll bytes vs)
    (enough : bytes.length ≤ rounds) (i : Nat) (known : Represents want entries)
    (here : At rb (bytes ++ rest)) :
    ∃ entries' rb', unpackArray (unpackOne rounds) vs.length i entries rb = .ok (entries', rb') ∧
      At rb' rest ∧ Represents (putArray want i vs) entries' := by
  induction codes generalizing i want entries rb with
  | nil => exact ⟨entries, rb, rfl, here, known⟩
  | cons first others ih =>
    rw [length_append] at enough
    rw [append_assoc] at here
    obtain ⟨v', rb₁, read, middle, same⟩ := first.unpackOne (Nat.le_of_add_right_le enough) here
    obtain ⟨entries', rb', done, after, shown⟩ :=
      ih (by omega) (i + 1) (known.set (.integer (Int64.ofNat i)) same) middle
    refine ⟨entries', rb', ?_, after, shown⟩
    simp only [length_cons, unpackArray, read, Except.bind, done]

theorem rawsetValue_key (entries : List (Key × Value)) {k : Key} (normal : k.normal = some k)
    (v : Value) : rawsetValue entries k.value v = .ok (rawset entries k v) := by
  cases k <;> simp only [rawsetValue, Key.value, normal]

theorem key_not_nil (k : Key) : k.value.isNil = false := by
  cases k <;> rfl

theorem unpackHash_spec {hash : List (Key × Value)} (normal : ∀ e ∈ hash, e.1.normal = some e.1)
    {stop : List UInt8} (codes : CodesAll bytes (flat hash)) (ends : Codes stop .nil)
    (enough : (bytes ++ stop).length ≤ rounds) {more : Nat} (loops : hash.length < more)
    (known : Represents want entries) (here : At rb (bytes ++ (stop ++ rest))) :
    ∃ entries' rb', unpackHash (unpackOne rounds) more entries rb = .ok (entries', rb') ∧
      At rb' rest ∧ Represents (putAll want hash) entries' := by
  rw [length_append] at enough
  obtain ⟨more, rfl⟩ := Nat.exists_eq_add_of_lt (Nat.zero_lt_of_lt loops)
  rw [Nat.zero_add] at loops ⊢
  induction hash generalizing bytes more want entries rb with
  | nil =>
    cases codes
    have fits : stop.length ≤ rounds := by omega
    obtain ⟨v', rb', read, after, same⟩ := ends.unpackOne fits here
    cases same
    refine ⟨entries, rb', ?_, after, known⟩
    simp only [unpackHash, read, Except.bind, Value.isNil, if_true]
  | cons e hash ih =>
    cases codes with
    | @cons keyBytes _ _ _ firstKey others =>
    cases others with
    | @cons valueBytes others _ _ firstValue codes =>
    obtain ⟨more, rfl⟩ := Nat.exists_eq_add_of_lt (Nat.lt_of_le_of_lt (Nat.zero_le _)
      (Nat.lt_of_succ_lt_succ loops))
    rw [Nat.zero_add] at loops ⊢
    simp only [length_append] at enough
    simp only [append_assoc] at here
    have fitsKey : keyBytes.length ≤ rounds := by omega
    have fitsValue : valueBytes.length ≤ rounds := by omega
    obtain ⟨k', rb₁, readKey, middle, sameKey⟩ := firstKey.unpackOne fitsKey here
    obtain ⟨v', rb₂, readValue, afterValue, same⟩ := firstValue.unpackOne fitsValue middle
    rw [same_key sameKey] at readKey
    obtain ⟨entries', rb', done, after, shown⟩ :=
      ih (fun e' member => normal e' (mem_cons_of_mem e member)) codes (by omega)
        (known.set e.1 same) afterValue more (by simpa using loops)
    refine ⟨entries', rb', ?_, after, shown⟩
    rw [unpackHash]
    simp only [readKey, readValue, Except.bind, key_not_nil, Bool.false_eq_true, if_false, done,
      rawsetValue_key entries (normal e (mem_cons_self ..))]

end Read

end Skynet.Seri
