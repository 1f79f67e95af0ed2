import Skynet.Base.Decimal

/-! The strings of utils.lua: split, and the encoding of URLs. -/
namespace Skynet.Utils
open Base List

/- string.find of a plain text, and string.sub: position 0 is taken for the first. -/
def find (str delimiter : List UInt8) (pos : Nat) : Option Nat :=
  (range' (max pos 1) (str.length + 2 - max pos 1)).find? fun st =>
    delimiter <+: str.drop (st - 1)

def sub (str : List UInt8) (first last : Nat) : List UInt8 := (str.take last).drop (first - 1)

def splitLoop (str delimiter : List UInt8) :
    Nat → Nat → List (List UInt8) → Option (List (List UInt8))
  | 0, _, _ => none
  | rounds + 1, pos, arr =>
    match find str delimiter pos with
    | some st => splitLoop str delimiter rounds (st + delimiter.length)
        (arr ++ [sub str pos (st - 1)])
    | none => some (arr ++ [sub str pos str.length])

/-- The fields, or false where there is no delimiter, if so many rounds are enough. -/
def split (str delimiter : List UInt8) (rounds : Nat) : Option (Option (List (List UInt8))) :=
  if delimiter = [] then some none else (splitLoop str delimiter rounds 0 []).map some

section
variable {str delimiter : List UInt8} {pos : Nat}

theorem find_missing (missing : find str delimiter pos = none) (i : Nat) (low : pos - 1 ≤ i)
    (high : i < str.length) : ¬ delimiter <+: str.drop i := by
  simpa using find?_range'_eq_none.mp missing (i + 1) (by omega) (by omega)

variable (nonempty : delimiter ≠ [])
include nonempty

theorem find_first {st : Nat} (found : find str delimiter pos = some st) :
    (max pos 1 ≤ st ∧ st ≤ str.length ∧ delimiter <+: str.drop (st - 1)) ∧
      ∀ i, pos - 1 ≤ i → i < st - 1 → ¬ delimiter <+: str.drop i := by
  obtain ⟨here, within, before⟩ := find?_range'_eq_some.mp found
  have starts := of_decide_eq_true here
  have room := starts.length_le
  have long := length_pos_iff.mpr nonempty
  rw [length_drop] at room
  refine ⟨⟨(mem_range'_1.mp within).1, by omega, starts⟩, fun i low high => ?_⟩
  simpa using before (i + 1) (by omega) (by omega)

theorem sub_apart {last : Nat}
    (apart : ∀ i, pos - 1 ≤ i → i < last → ¬ delimiter <+: str.drop i) :
    ¬ delimiter <:+: sub str pos last := by
  rintro ⟨before, after, parts⟩
  have long := length_pos_iff.mpr nonempty
  rw [sub, drop_take] at parts
  have size := congrArg length parts
  simp only [length_append, length_take, length_drop] at size
  refine apart (pos - 1 + before.length) (by omega) (by omega) ?_
  rw [← drop_drop, ← take_append_drop (last - (pos - 1)) (str.drop (pos - 1)), ← parts]
  simp

/- Each round moves the position on, so the rounds are bounded by what is left of the string. -/
theorem splitLoop_fields (pos rounds : Nat) (arr : List (List UInt8))
    (enough : str.length < pos + rounds) : ∃ fields ≠ [],
    splitLoop str delimiter (rounds + 1) pos arr = some (arr ++ fields) ∧
      delimiter.intercalate fields = str.drop (pos - 1) ∧
      ∀ field ∈ fields, ¬ delimiter <:+: field := by
  induction rounds using Nat.strongRecOn generalizing pos arr with
  | ind rounds ih =>
    cases found : find str delimiter pos with
    | none =>
      refine ⟨[sub str pos str.length], by simp, by simp [splitLoop, found], by simp [sub], ?_⟩
      simpa using sub_apart nonempty (find_missing found)
    | some st =>
      obtain ⟨⟨forward, inside, starts⟩, first⟩ := find_first nonempty found
      have long := length_pos_iff.mpr nonempty
      obtain ⟨rounds, rfl⟩ := Nat.exists_eq_succ_of_ne_zero (show rounds ≠ 0 by omega)
      obtain ⟨fields, more, ends, joined, apart⟩ := ih rounds rounds.lt_succ_self
        (st + delimiter.length) (arr ++ [sub str pos (st - 1)]) (by omega)
      refine ⟨sub str pos (st - 1) :: fields, by simp, ?_, ?_, ?_⟩
      · rw [splitLoop, found]
        simp [ends]
      · have rest := prefix_iff_eq_append.mp starts
        rw [drop_drop] at rest
        rw [intercalate_cons_of_ne_nil more, joined, append_assoc,
          show st + delimiter.length - 1 = st - 1 + delimiter.length by omega, rest, sub,
          drop_take, ← Nat.add_sub_cancel' (show pos - 1 ≤ st - 1 by omega), ← drop_drop]
        simp
      · exact forall_mem_cons.mpr ⟨sub_apart nonempty first, apart⟩

end

theorem split_fields (str delimiter : List UInt8) (nonempty : delimiter ≠ []) :
    ∃ rounds fields, split str delimiter rounds = some (some fields) ∧
      delimiter.intercalate fields = str ∧ ∀ field ∈ fields, ¬ delimiter <:+: field := by
  obtain ⟨fields, -, ends, joined, apart⟩ :=
    splitLoop_fields nonempty 0 _ [] (show str.length < 0 + (str.length + 1) by omega)
  exact ⟨str.length + 2, fields, by simp [split, nonempty, ends], joined, apart⟩

theorem split_fields_overlapping : [97, 97] ≠ ([] : List UInt8) ∧
    ∃ rounds fields, split [97, 97, 97] [97, 97] rounds = some (some fields) ∧
      [97, 97].intercalate fields = [97, 97, 97] ∧ ∀ field ∈ fields, ¬ [97, 97] <:+: field :=
  ⟨by decide, split_fields _ _ (by decide)⟩

/- %w, '.', '-' and the space. -/
def Unreserved (c : UInt8) : Prop :=
  48 ≤ c ∧ c ≤ 57 ∨ 65 ≤ c ∧ c ≤ 90 ∨ 97 ≤ c ∧ c ≤ 122 ∨ c = 46 ∨ c = 45 ∨ c = 32

instance : DecidablePred Unreserved := fun _ => inferInstanceAs (Decidable (_ ∨ _))

/- The global c, which the function reads in place of its argument: no one defines it. -/
def c : Option UInt8 := none

def upperHex (n : UInt8) : UInt8 := if n < 10 then 48 + n else 55 + n

/- string.byte of a nil value is an error. -/
def urlencodeChar (_char : UInt8) : Option (List UInt8) :=
  c.map fun byte => [37, upperHex (byte / 16), upperHex (byte % 16)]

def escape : List UInt8 → Option (List UInt8)
  | [] => some []
  | b :: str => do
    let first ← if Unreserved b then some [b] else urlencodeChar b
    return first ++ (← escape str)

def urlencode (str : List UInt8) : Option (List UInt8) :=
  (escape (str.flatMap fun b => if b = 10 then [13, 10] else [b])).map fun str =>
    str.map fun b => if b = 32 then 43 else b

def unpercent : List UInt8 → List UInt8
  | 37 :: hi :: low :: str =>
    match hexDigit hi, hexDigit low with
    | some h, some l => (16 * h + l).toUInt8 :: unpercent str
    | _, _ => 37 :: unpercent (hi :: low :: str)
  | b :: str => b :: unpercent str
  | [] => []

def lineEndings : List UInt8 → List UInt8
  | 13 :: 10 :: str => 10 :: lineEndings str
  | b :: str => b :: lineEndings str
  | [] => []

def urldecode (str : List UInt8) : List UInt8 :=
  lineEndings (unpercent (str.map fun b => if b = 43 then 32 else b))

section
variable (s : List UInt8) (plain : ∀ b ∈ s, Unreserved b)
include plain

theorem plain_ne {b : UInt8} (member : b ∈ s) : b ≠ 10 ∧ b ≠ 13 ∧ b ≠ 37 ∧ b ≠ 43 := by
  have unreserved := plain b member
  refine ⟨?_, ?_, ?_, ?_⟩ <;> (rintro rfl; revert unreserved; decide)

theorem unpercent_plain : unpercent s = s := by
  induction s with
  | nil => rfl
  | cons b s ih =>
    rw [unpercent, ih (forall_mem_of_forall_mem_cons plain)]
    rintro hi low rest rfl
    exact absurd rfl (plain_ne _ plain mem_cons_self).2.2.1

theorem lineEndings_plain : lineEndings s = s := by
  induction s with
  | nil => rfl
  | cons b s ih =>
    rw [lineEndings, ih (forall_mem_of_forall_mem_cons plain)]
    rintro rest rfl
    exact absurd rfl (plain_ne _ plain mem_cons_self).2.1

theorem escape_plain : escape s = some s := by
  induction s with
  | nil => rfl
  | cons b s ih =>
    simp [escape, plain b mem_cons_self, ih (forall_mem_of_forall_mem_cons plain)]

end

end Skynet.Utils
