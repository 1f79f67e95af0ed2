import Skynet.Seri.Stream

/-! What is written for a value without tables is read back as that value. -/
namespace Skynet.Seri
open Base Lua List

theorem combineType_fields : ∀ t : Fin 8, ∀ c : Fin 32,
    leValue [combineType t c] &&& 7 = t.val ∧ leValue [combineType t c] >>> 3 = c.val := by
  decide +kernel

/- After the first byte, this type and cookie give back the value. -/
def Pushes (t c : Nat) (tail : List UInt8) (v : Value) : Prop :=
  ∀ rounds, tail.length ≤ rounds → ∀ rb rest, At rb (tail ++ rest) →
    ∃ v' rb', pushValue (unpackOne rounds) rb t c = .ok (v', rb') ∧ At rb' rest ∧ Same v v'

def Codes (bytes : List UInt8) (v : Value) : Prop :=
  ∃ t c tail, t < 8 ∧ c < 32 ∧ bytes = combineType t c :: tail ∧ Pushes t c tail v

/-- From `b` to `b'` the code of the value is appended. -/
def Writes (b b' : WriteBlock) (v : Value) : Prop :=
  ∀ l, Holds b l → ∃ bytes, Codes bytes v ∧ Holds b' (l ++ bytes)

variable {rb : ReadBlock} {t c k line : Nat} {rest l str : List UInt8} {v : Value}

theorem readHeader (small : t < 8) (short : c < 32) (here : At rb (combineType t c :: rest)) :
    ∃ bytes rb', rbRead rb 1 = some (bytes, rb') ∧ At rb' rest ∧ leValue bytes &&& 7 = t ∧
      leValue bytes >>> 3 = c := by
  obtain ⟨rb', found, after⟩ : ∃ rb', rbRead rb 1 = some ([combineType t c], rb') ∧ At rb' rest :=
    rbRead_at here rfl
  obtain ⟨type, cookie⟩ := combineType_fields ⟨t, small⟩ ⟨c, short⟩
  exact ⟨_, rb', found, after, type, cookie⟩

theorem Codes.unpackOne {bytes : List UInt8} (codes : Codes bytes v) {rounds : Nat}
    (enough : bytes.length ≤ rounds) (here : At rb (bytes ++ rest)) :
    ∃ v' rb', unpackOne rounds rb = .ok (v', rb') ∧ At rb' rest ∧ Same v v' := by
  obtain ⟨t, c, tail, small, short, rfl, pushes⟩ := codes
  cases rounds with
  | zero => exact absurd enough (Nat.not_succ_le_zero _)
  | succ rounds =>
    obtain ⟨header, rb₁, found, after, type, cookie⟩ := readHeader small short here
    obtain ⟨v', rb', pushed, done, same⟩ := pushes rounds (Nat.le_of_succ_le_succ enough) rb₁ rest
      after
    refine ⟨v', rb', ?_, done, same⟩
    simp only [Seri.unpackOne, rbReadOr, found, Except.bind, type, cookie, pushed]

theorem codes_header {tail : List UInt8} (small : t < 8) (short : c < 32)
    (pushes : Pushes t c tail v) : Codes (combineType t c :: tail) v :=
  ⟨t, c, tail, small, short, rfl, pushes⟩

theorem writes_nil (b : WriteBlock) : Writes b (wbNil b) .nil := by
  intro l holds
  refine ⟨[combineType 0 0], codes_header (by decide) (by decide) ?_, holds_push holds _⟩
  exact fun rounds _ rb rest here => ⟨.nil, rb, rfl, here, .nil⟩

theorem writes_boolean (b : WriteBlock) (x : Bool) : Writes b (wbBoolean b x) (.boolean x) := by
  intro l holds
  refine ⟨[combineType 1 (if x then 1 else 0)], codes_header (by decide) (by split <;> decide) ?_,
    holds_push holds _⟩
  intro rounds _ rb rest here
  refine ⟨.boolean x, rb, ?_, here, .boolean x⟩
  cases x <;> rfl

theorem holds_number {b : WriteBlock} (holds : Holds b l) (t c : Nat) (bytes : List UInt8) :
    Holds (wbPush (wbPush b [combineType t c]) bytes) (l ++ combineType t c :: bytes) := by
  have both := holds_push (holds_push holds [combineType t c]) bytes
  rwa [append_assoc] at both

theorem writes_real (b : WriteBlock) (bits : UInt64) : Writes b (wbReal b bits) (.real bits) := by
  intro l holds
  refine ⟨_, codes_header (by decide) (by decide) ?_, holds_number holds typeNumber typeNumberReal _⟩
  intro rounds _ rb rest here
  obtain ⟨rb', found, after⟩ : ∃ rb', rbReadOr 405 rb 8 = .ok (leBytes 8 bits.toNat, rb') ∧
      At rb' rest := rbReadOr_at 405 here (by simp)
  have value : UInt64.ofNat (leValue (leBytes 8 bits.toNat)) = bits := by
    rw [leValue_leBytes_of_lt bits.toNat_lt, UInt64.ofNat_toNat]
  refine ⟨.real bits, rb', ?_, after, .real bits⟩
  simp only [pushValue, getReal, found, Except.map, value]
  rfl

theorem writes_pointer (b : WriteBlock) (p : UInt64) :
    Writes b (wbPointer b p) (.lightuserdata p) := by
  intro l holds
  refine ⟨_, codes_header (by decide) (by decide) ?_, holds_number holds typeUserdata 0 _⟩
  intro rounds _ rb rest here
  obtain ⟨rb', found, after⟩ : ∃ rb', rbReadOr 415 rb 8 = .ok (leBytes 8 p.toNat, rb') ∧
      At rb' rest := rbReadOr_at 415 here (by simp)
  have value : UInt64.ofNat (leValue (leBytes 8 p.toNat)) = p := by
    rw [leValue_leBytes_of_lt p.toNat_lt, UInt64.ofNat_toNat]
  refine ⟨.lightuserdata p, rb', ?_, after, .lightuserdata p⟩
  simp only [pushValue, getPointer, found, Except.map, value]
  rfl

theorem signed_toInt (v : Int64) : signed 64 v.toUInt64.toNat = v.toInt := by
  have known : v.toInt = Int.bmod v.toUInt64.toNat (2 ^ 64) := BitVec.toInt_eq_toNat_bmod _
  rw [known, Int.bmod_def, signed]
  norm_num

theorem getInteger_number {n : Nat} {v : Int64} (decode : Nat → Int64)
    (branch : ∀ rb, getInteger rb c = (rbReadOr line rb k).map fun r => (decode (leValue r.1), r.2))
    (small : n < 256 ^ k) (value : decode n = v) (rb : ReadBlock) (rest : List UInt8)
    (here : At rb (leBytes k n ++ rest)) :
    ∃ rb', getInteger rb c = .ok (v, rb') ∧ At rb' rest := by
  obtain ⟨rb', found, after⟩ := rbReadOr_at line here (by rw [leBytes_length])
  refine ⟨rb', ?_, after⟩
  simp only [branch, found, Except.map, leValue_leBytes_of_lt small, value]

theorem getInteger_byte (rb : ReadBlock) : getInteger rb typeNumberByte =
    (rbReadOr 366 rb (1 : Nat)).map fun r => (Int64.ofInt (leValue r.1), r.2) := rfl

theorem getInteger_word (rb : ReadBlock) : getInteger rb typeNumberWord =
    (rbReadOr 374 rb (2 : Nat)).map fun r => (Int64.ofInt (leValue r.1), r.2) := rfl

theorem getInteger_dword (rb : ReadBlock) : getInteger rb typeNumberDword =
    (rbReadOr 382 rb (4 : Nat)).map fun r => (Int64.ofInt (signed 32 (leValue r.1)), r.2) := rfl

theorem getInteger_qword (rb : ReadBlock) : getInteger rb typeNumberQword =
    (rbReadOr 390 rb (8 : Nat)).map fun r => (Int64.ofInt (signed 64 (leValue r.1)), r.2) := rfl

/-- An integer, read by get_integer with the cookie that was written. -/
theorem wbInteger_spec (b : WriteBlock) (v : Int64) (holds : Holds b l) :
    ∃ c tail, c < 32 ∧ c ≠ typeNumberReal ∧
      Holds (wbInteger b v) (l ++ combineType typeNumber c :: tail) ∧
      ∀ rb rest, At rb (tail ++ rest) → ∃ rb', getInteger rb c = .ok (v, rb') ∧ At rb' rest := by
  have range := signed_range (show 0 < 32 by decide) v.toInt
  unfold wbInteger
  dsimp only
  split
  next zero =>
    have value : v = 0 := Int64.toInt_inj.mp zero
    exact ⟨_, [], by decide, by decide, holds_push holds _, fun rb rest here =>
      ⟨rb, by rw [value]; rfl, here⟩⟩
  split
  next wide =>
    exact ⟨_, _, by decide, by decide, holds_number holds typeNumber typeNumberQword _,
      getInteger_number (fun n => Int64.ofInt (signed 64 n)) getInteger_qword v.toUInt64.toNat_lt
        (by rw [signed_toInt, Int64.ofInt_toInt])⟩
  next narrow =>
    rw [not_not] at narrow
    rw [← narrow] at range
    split
    next negative =>
      have low := Int.emod_nonneg v.toInt (show (2 : Int) ^ 32 ≠ 0 by decide)
      have value : Int64.ofInt (signed 32 ((v.toInt % 2 ^ 32).toNat : Int)) = v := by
        rw [Int.toNat_of_nonneg low, signed_emod, ← narrow, Int64.ofInt_toInt]
      exact ⟨_, _, by decide, by decide, holds_number holds typeNumber typeNumberDword _,
        getInteger_number (fun n => Int64.ofInt (signed 32 n)) getInteger_dword (by omega) value⟩
    next positive =>
      have whole : (v.toInt.toNat : Int) = v.toInt := Int.toNat_of_nonneg (by omega)
      split
      next byte =>
        exact ⟨_, _, by decide, by decide, holds_number holds typeNumber typeNumberByte _,
          getInteger_number (fun n => Int64.ofInt n) getInteger_byte (by omega)
            (by rw [whole, Int64.ofInt_toInt])⟩
      split
      next word =>
        exact ⟨_, _, by decide, by decide, holds_number holds typeNumber typeNumberWord _,
          getInteger_number (fun n => Int64.ofInt n) getInteger_word (by omega)
            (by rw [whole, Int64.ofInt_toInt])⟩
      next dword =>
        exact ⟨_, _, by decide, by decide, holds_number holds typeNumber typeNumberDword _,
          getInteger_number (fun n => Int64.ofInt (signed 32 n)) getInteger_dword (by omega)
            (by rw [whole, ← narrow, Int64.ofInt_toInt])⟩

theorem writes_integer (b : WriteBlock) (v : Int64) : Writes b (wbInteger b v) (.integer v) := by
  intro l holds
  obtain ⟨c, tail, short, whole, written, read⟩ := wbInteger_spec b v holds
  refine ⟨_, codes_header (by decide) short ?_, written⟩
  intro rounds _ rb rest here
  obtain ⟨rb', found, after⟩ := read rb rest here
  refine ⟨.integer v, rb', ?_, after, .integer v⟩
  have number : pushValue (unpackOne rounds) rb typeNumber c =
      (getInteger rb c).map fun r => (.integer r.1, r.2) := by
    rw [pushValue, if_neg (by decide), if_neg (by decide), if_pos rfl, if_neg whole]
  rw [number, found]
  rfl

theorem getBuffer_at {len : Int} (here : At rb (str ++ rest)) (length : (str.length : Int) = len) :
    ∃ rb', getBuffer rb len = .ok (.string str, rb') ∧ At rb' rest := by
  obtain ⟨rb', found, after⟩ := rbReadOr_at 425 here length
  refine ⟨rb', ?_, after⟩
  have whole : ¬ len < 0 := by omega
  simp only [getBuffer, found, Except.bind, whole, if_false]

theorem pushes_long (decode : Nat → Int)
    (branch : ∀ one rb, pushValue one rb typeLongString c =
      (rbReadOr line rb k).bind fun r => getBuffer r.2 (decode (leValue r.1)))
    (small : str.length < 256 ^ k) (value : decode str.length = str.length) :
    Pushes typeLongString c (leBytes k str.length ++ str) (.string str) := by
  intro rounds _ rb rest here
  rw [append_assoc] at here
  obtain ⟨rb₁, found, middle⟩ := rbReadOr_at line here (by rw [leBytes_length])
  have length : (str.length : Int) = decode (leValue (leBytes k str.length)) := by
    rw [leValue_leBytes_of_lt small, value]
  obtain ⟨rb', read, after⟩ := getBuffer_at middle length
  refine ⟨.string str, rb', ?_, after, .string str⟩
  simp only [branch, found, Except.bind, read]

theorem pushValue_word (one : ReadBlock → Except Error (Value × ReadBlock)) (rb : ReadBlock) :
    pushValue one rb typeLongString 2 =
      (rbReadOr 491 rb (2 : Nat)).bind fun r => getBuffer r.2 (leValue r.1) := rfl

theorem pushValue_dword (one : ReadBlock → Except Error (Value × ReadBlock)) (rb : ReadBlock) :
    pushValue one rb typeLongString 4 =
      (rbReadOr 502 rb (4 : Nat)).bind fun r => getBuffer r.2 (signed 32 (leValue r.1)) := rfl

theorem writes_string (b : WriteBlock) (short : str.length < 2 ^ 31) :
    Writes b (wbString b str) (.string str) := by
  intro l holds
  unfold wbString
  dsimp only
  split
  next cookie =>
    have written : Holds (if str.length > 0 then
        wbPush (wbPush b [combineType typeShortString str.length]) str
        else wbPush b [combineType typeShortString str.length])
        (l ++ combineType typeShortString str.length :: str) := by
      split
      · exact holds_number holds _ _ _
      next empty =>
        rw [eq_nil_of_length_eq_zero (Nat.eq_zero_of_not_pos empty)]
        exact holds_push holds _
    refine ⟨_, codes_header (by decide) cookie ?_, written⟩
    intro rounds _ rb rest here
    obtain ⟨rb', read, after⟩ := getBuffer_at here rfl
    exact ⟨.string str, rb', read, after, .string str⟩
  split
  next word =>
    have written := holds_push (holds_number holds typeLongString 2 (leBytes 2 str.length)) str
    rw [append_assoc, cons_append] at written
    exact ⟨_, codes_header (by decide) (by decide)
      (pushes_long (fun n => (n : Int)) pushValue_word (by omega) rfl), written⟩
  next dword =>
    have written := holds_push (holds_number holds typeLongString 4 (leBytes 4 str.length)) str
    rw [append_assoc, cons_append] at written
    have value : signed 32 str.length = str.length :=
      signed_of_range (by decide) (by omega) (by omega)
    exact ⟨_, codes_header (by decide) (by decide)
      (pushes_long (fun n => signed 32 n) pushValue_dword (by omega) value), written⟩

end Skynet.Seri
