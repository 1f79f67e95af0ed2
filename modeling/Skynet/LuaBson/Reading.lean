import Skynet.LuaBson.Decode
import Skynet.LuaBson.Grammar

/-! Where a reader is in a document, and that numbers, texts and scalar values are read from
the bytes of the grammar. -/
namespace Skynet.LuaBson
open Base Lua List

def At (doc : List UInt8) (br : Reader) (rest : List UInt8) : Prop :=
  ∃ before after, doc = before ++ (rest ++ after) ∧ br.ptr = (before.length : Int) ∧
    br.size = (rest.length : Int)

section Reads
variable {doc : List UInt8} {br : Reader} {bytes rest : List UInt8}

theorem At.length_le (here : At doc br rest) : rest.length ≤ doc.length := by
  obtain ⟨before, after, rfl, -⟩ := here
  simp only [length_append]
  omega

section
variable (here : At doc br (bytes ++ rest))
include here

theorem At.skip :
    At doc ⟨br.ptr + bytes.length, br.size - bytes.length⟩ rest := by
  obtain ⟨before, after, whole, ptr, size⟩ := here
  refine ⟨before ++ bytes, after, ?_, ?_, ?_⟩
  · simp only [whole, append_assoc]
  · simp only [ptr, length_append, Nat.cast_add]
  · rw [length_append] at size
    dsimp only
    omega

/- A reader of a part only. -/
theorem At.part : At doc ⟨br.ptr, bytes.length⟩ bytes := by
  obtain ⟨before, after, whole, ptr, -⟩ := here
  exact ⟨before, rest ++ after, by rw [whole, append_assoc], ptr, rfl⟩

theorem load_at {n : Nat} (length : bytes.length = n) :
    load doc br.ptr n = .ok bytes := by
  obtain ⟨before, after, rfl, ptr, -⟩ := here
  have inside : 0 ≤ br.ptr ∧ br.ptr + n ≤ (before ++ (bytes ++ rest ++ after)).length := by
    simp only [ptr, length_append]
    omega
  rw [load, if_pos inside, ptr, Int.toNat_natCast, drop_left, append_assoc, ← length, take_left]

theorem checkReader_at {n : Int} (length : bytes.length = n) :
    checkReader br n = .ok () := by
  obtain ⟨before, after, -, -, size⟩ := here
  rw [length_append] at size
  rw [checkReader, if_neg (by omega)]

theorem readWord_at {n : Nat} (length : bytes.length = n) :
    ∃ br', readWord doc br n = .ok (leValue bytes, br') ∧ At doc br' rest := by
  refine ⟨⟨br.ptr + n, br.size - n⟩, ?_, length ▸ here.skip⟩
  rw [readWord, checkReader_at here (congrArg _ length), load_at here length]
  rfl

end

theorem readByte_at {x : UInt8} (here : At doc br (x :: rest)) :
    ∃ br', readByte doc br = .ok (x, br') ∧ At doc br' rest := by
  have single : At doc br ([x] ++ rest) := here
  obtain ⟨br', read, after⟩ := readWord_at single (n := 1) rfl
  refine ⟨br', ?_, after⟩
  rw [readByte, read]
  simp [Except.map, leValue]

theorem readInt32_at (here : At doc br (bytes ++ rest)) {n : Nat} (field : LengthField bytes n) :
    ∃ br', readInt32 doc br = .ok ((n : Int), br') ∧ At doc br' rest := by
  obtain ⟨br', read, after⟩ := readWord_at here field.size
  refine ⟨br', ?_, after⟩
  rw [readInt32, read, ← field.counts]
  rfl

theorem int_of_range {n : Int} (low : 0 ≤ n) (high : n < 2 ^ 31) : int n = .ok n := by
  rw [int, if_pos ⟨by omega, high⟩]

theorem readBytes_at (small : doc.length < 2 ^ 31) (here : At doc br (bytes ++ rest)) {n : Int}
    (length : bytes.length = n) :
    ∃ br', readBytes br n = .ok (br.ptr, br') ∧ At doc br' rest := by
  have room := here.length_le
  have left : br.size - n = rest.length := by
    obtain ⟨before, after, -, -, size⟩ := here
    rw [length_append] at size
    omega
  rw [length_append] at room
  refine ⟨⟨br.ptr + n, br.size - n⟩, ?_, length ▸ here.skip⟩
  rw [readBytes, checkReader_at here length, int_of_range (by omega) (by omega)]
  rfl

/- By the part of the text that is left. -/
theorem load_next {done : List UInt8} {x : UInt8} (here : At doc br (done ++ x :: rest)) :
    (done.length : Int) ≠ br.size ∧ load doc (br.ptr + done.length) 1 = .ok [x] := by
  have next : At doc ⟨br.ptr + done.length, br.size - done.length⟩ ([x] ++ rest) := here.skip
  refine ⟨?_, load_at next rfl⟩
  obtain ⟨before, after, -, -, size⟩ := here
  simp only [length_append, length_cons] at size
  omega

theorem cstringEnd_at {done more : List UInt8} (here : At doc br (done ++ (more ++ 0 :: rest)))
    (clean : 0 ∉ more) {rounds : Nat} (enough : more.length < rounds) :
    cstringEnd doc br rounds done.length = .ok (done.length + more.length) := by
  induction more generalizing done rounds with
  | nil =>
    cases rounds with
    | zero => exact absurd enough (Nat.not_lt_zero _)
    | succ rounds =>
      obtain ⟨inside, found⟩ := load_next here
      rw [cstringEnd, if_neg inside, found]
      rfl
  | cons x more ih =>
    cases rounds with
    | zero => exact absurd enough (Nat.not_lt_zero _)
    | succ rounds =>
      obtain ⟨inside, found⟩ := load_next here
      obtain ⟨other, clean'⟩ := ne_and_not_mem_of_not_mem_cons clean
      have apart : ¬ [x] = [0] := fun same => other (List.cons.inj same).1.symm
      have moved : At doc br ((done ++ [x]) ++ (more ++ 0 :: rest)) := by
        rwa [append_assoc]
      have later := ih moved clean' (Nat.lt_of_succ_lt_succ enough)
      rw [length_append, length_singleton] at later
      rw [cstringEnd, if_neg inside, found]
      change (if [x] = [0] then _ else _) = _
      rw [if_neg apart, later, length_cons, Nat.add_assoc, Nat.add_comm 1]

theorem readCstring_at {key : List UInt8} (here : At doc br (key ++ 0 :: rest)) (clean : 0 ∉ key) :
    ∃ br', readCstring doc br = .ok (key, br') ∧ At doc br' rest := by
  have room := here.length_le
  rw [length_append, length_cons] at room
  have start : At doc br ([] ++ (key ++ 0 :: rest)) := here
  have enough : key.length < doc.length + 1 := by omega
  have stop := cstringEnd_at start clean enough
  have whole : At doc br ((key ++ [0]) ++ rest) := by rwa [append_assoc]
  refine ⟨⟨br.ptr + (key.length + 1), br.size - (key.length + 1)⟩, ?_, ?_⟩
  · rw [length_nil, Nat.zero_add] at stop
    rw [readCstring, stop]
    change (load doc br.ptr key.length >>= _) = _
    rw [load_at here rfl]
    rfl
  · have after := whole.skip
    rwa [length_append, length_singleton, Nat.cast_succ] at after

theorem pushlstring_at (here : At doc br (bytes ++ rest)) {n : Int} (length : bytes.length = n) :
    pushlstring doc br.ptr n = .ok bytes := by
  have natural : n.toNat = bytes.length := by omega
  rw [pushlstring, if_neg (by omega), natural, load_at here rfl]

end Reads

section Values
variable {doc : List UInt8} {read : Bool → Reader → Except Error (Value × Reader)}

/-- The bytes are read as a value like this. -/
def Reads (doc : List UInt8) (read : Bool → Reader → Except Error (Value × Reader)) (type : UInt8)
    (payload : List UInt8) (v : Value) : Prop :=
  ∀ t rest, At doc t (payload ++ rest) →
    ∃ v' t', unpackValue doc read type t = .ok (v', t') ∧ At doc t' rest ∧ Same v v'

theorem reads_int32 {n : Int64} (small : is32bit n = true) :
    Reads doc read bsonInt32 (leBytes 4 (n.toInt % 2 ^ 32).toNat) (.integer n) := by
  intro t rest here
  obtain ⟨t', word, after⟩ := readWord_at here (leBytes_length ..)
  obtain ⟨low, high⟩ := of_decide_eq_true small
  have value : signed 32 (leValue (leBytes 4 (n.toInt % 2 ^ 32).toNat)) = n.toInt := by
    rw [leValue_leBytes_of_lt (by omega), Int.toNat_of_nonneg (by omega), signed_emod,
      signed_of_range (by decide) low high]
  refine ⟨.integer n, t', ?_, after, .integer n⟩
  change (readInt32 doc t).map _ = _
  rw [readInt32, word]
  simp only [Except.map, value, Int64.ofInt_toInt]

theorem reads_int64 (n : Int64) :
    Reads doc read bsonInt64 (leBytes 8 n.toUInt64.toNat) (.integer n) := by
  intro t rest here
  obtain ⟨t', word, after⟩ := readWord_at here (leBytes_length ..)
  have value : Int64.ofNat (leValue (leBytes 8 n.toUInt64.toNat)) = n := by
    rw [leValue_leBytes_of_lt n.toUInt64.toNat_lt]
    exact Int64.toBitVec_inj.mp (by simp)
  refine ⟨.integer n, t', ?_, after, .integer n⟩
  change (readInt64 doc t).map _ = _
  rw [readInt64, word]
  simp only [Except.map, value]

theorem reads_real (d : UInt64) : Reads doc read bsonReal (leBytes 8 d.toNat) (.real d) := by
  intro t rest here
  obtain ⟨t', word, after⟩ := readWord_at here (leBytes_length ..)
  have value : UInt64.ofNat (leValue (leBytes 8 d.toNat)) = d := by
    rw [leValue_leBytes_of_lt d.toNat_lt, UInt64.ofNat_toNat]
  refine ⟨.real d, t', ?_, after, .real d⟩
  change (readDouble doc t).map _ = _
  rw [readDouble, word]
  simp only [Except.map, value]

theorem reads_boolean (x : Bool) :
    Reads doc read bsonBoolean [if x then 1 else 0] (.boolean x) := by
  intro t rest here
  obtain ⟨t', byte, after⟩ := readByte_at here
  refine ⟨.boolean x, t', ?_, after, .boolean x⟩
  change (readByte doc t).map _ = _
  rw [byte]
  cases x <;> rfl

theorem reads_string (small : doc.length < 2 ^ 31) {s field : List UInt8}
    (length : LengthField field (s ++ [0]).length) :
    Reads doc read bsonString (field ++ (s ++ [0])) (.string s) := by
  intro t rest here
  rw [append_assoc] at here
  obtain ⟨t₁, counted, at₁⟩ := readInt32_at here length
  obtain ⟨t₂, passed, at₂⟩ := readBytes_at small at₁ rfl
  rw [append_assoc] at at₁
  have size : ((s ++ [0]).length : Int) - 1 = s.length := by
    rw [length_append, length_singleton]
    omega
  have positive : ¬ ((s ++ [0]).length : Int) ≤ 0 := by
    rw [length_append, length_singleton]
    omega
  have text := pushlstring_at at₁ rfl
  refine ⟨.string s, t₂, ?_, at₂, .string s⟩
  change unpackString doc t = _
  rw [unpackString, counted]
  change (if _ then _ else _) = _
  rw [if_neg positive, passed]
  change (pushlstring doc t₁.ptr _ >>= _) = _
  rw [size, text]
  rfl

theorem Scalar.reads (small : doc.length < 2 ^ 31) {v : Value} {type : UInt8}
    {payload : List UInt8} (scalar : Scalar v type payload) : Reads doc read type payload v := by
  cases scalar with
  | int32 n short => exact reads_int32 short
  | int64 n => exact reads_int64 n
  | real d => exact reads_real d
  | boolean x => exact reads_boolean x
  | string s field length => exact reads_string small length

end Values

end Skynet.LuaBson
