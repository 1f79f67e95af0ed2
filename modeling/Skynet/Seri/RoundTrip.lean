import Skynet.Seri.Tables

/-! Unpacking what luaseri_pack has written gives equal values, and reads all of it. -/
namespace Skynet.Seri
open Base Lua List Function

section Entries

variable {want : Key → Option Value} {i len : Nat} {vs : List Value}

theorem putArray_other {k : Key} (other : ∀ j < vs.length, k ≠ .integer (Int64.ofNat (i + j))) :
    putArray want i vs k = want k := by
  induction vs generalizing want i with
  | nil => rfl
  | cons v vs ih =>
    have here : k ≠ .integer (Int64.ofNat i) := other 0 (Nat.succ_pos _)
    rw [putArray, ih fun j bound => ?_, put, update_of_ne here]
    have later := other (j + 1) (Nat.succ_lt_succ bound)
    rwa [Nat.add_assoc, Nat.add_comm 1 j]

theorem putArray_index {j : Nat} {v : Value} (bound : i + vs.length ≤ 2 ^ 31)
    (found : vs[j]? = some v) :
    putArray want i vs (.integer (Int64.ofNat (i + j))) = present v := by
  induction vs generalizing want i j with
  | nil => cases found
  | cons w vs ih =>
    rw [length_cons] at bound
    cases j with
    | zero =>
      cases found
      have apart : ∀ j < vs.length,
          Key.integer (Int64.ofNat i) ≠ .integer (Int64.ofNat (i + 1 + j)) := by
        intro j below same
        have equal := index_injective (by omega) (by omega) same
        omega
      change putArray _ _ vs (.integer (Int64.ofNat i)) = present v
      rw [putArray_other apart, put, update_self]
    | succ j =>
      have rest := @ih (put want (.integer (Int64.ofNat i)) w) (i + 1) j (by omega) found
      rwa [Nat.add_assoc, Nat.add_comm 1 j] at rest

theorem inArray_iff (bound : len < 2 ^ 31) (k : Key) :
    inArray len k = true ↔ ∃ j < len, k = .integer (Int64.ofNat (1 + j)) := by
  constructor
  · intro inside
    cases k with
    | integer n =>
      obtain ⟨positive, below⟩ := of_decide_eq_true inside
      refine ⟨n.toInt.toNat - 1, by omega, congrArg Key.integer (Int64.toInt_inj.mp ?_)⟩
      rw [Int64.toInt_ofNat_of_lt (by omega)]
      omega
    | boolean | real | string | lightuserdata => cases inside
  · rintro ⟨j, below, rfl⟩
    have value : (Int64.ofNat (1 + j)).toInt = ((1 + j : Nat) : Int) :=
      Int64.toInt_ofNat_of_lt (by omega)
    refine decide_eq_true ?_
    rw [value]
    omega

theorem parts_find {entries : List (Key × Value)} (bound : len < 2 ^ 31)
    (distinct : (entries.map (·.1)).Nodup) (filled : ∀ e ∈ entries, e.2.isNil = false) :
    putAll (putArray (fun _ => none) 1 (arrayValues len entries)) (hashEntries len entries) =
      find entries := by
  have length : (arrayValues len entries).length = len := by
    rw [arrayValues, length_map, length_range]
  have distinct' : ((hashEntries len entries).map (·.1)).Nodup :=
    distinct.sublist (filter_sublist.map _)
  funext k
  by_cases inside : inArray len k = true
  · have skipped : ∀ e ∈ hashEntries len entries, k ≠ e.1 := by
      rintro e member rfl
      have outside := (mem_filter.mp member).2
      rw [inside] at outside
      cases outside
    obtain ⟨j, below, rfl⟩ := (inArray_iff bound k).mp inside
    have value : (arrayValues len entries)[j]? = some (rawgeti entries (j + 1)) := by
      rw [arrayValues, getElem?_map, getElem?_range below]
      rfl
    rw [putAll_other skipped, putArray_index (by omega) value, rawgeti, Nat.add_comm j 1]
    cases found : find entries (.integer (Int64.ofNat (1 + j))) with
    | none => rfl
    | some v => exact present_of_find filled found
  · have apart : putArray (fun _ => none) 1 (arrayValues len entries) k = none :=
      putArray_other fun j below same =>
        inside ((inArray_iff bound k).mpr ⟨j, by rwa [length] at below, same⟩)
    cases found : find entries k with
    | none =>
      rw [putAll_other, apart]
      rintro e member rfl
      have known := find_of_mem distinct (mem_filter.mp member).1
      rw [found] at known
      cases known
    | some v =>
      have member : (k, v) ∈ hashEntries len entries :=
        mem_filter.mpr ⟨mem_of_find found, by simpa using inside⟩
      rw [putAll_entry distinct' member, present_of_find filled found]

end Entries

section Packing
variable {one : WriteBlock → Value → Except Error WriteBlock}

/- The header of a table, with the length of its array part. -/
def wbTableHeader (b : WriteBlock) (len : Nat) : WriteBlock :=
  if len ≥ maxCookie - 1 then
    wbInteger (wbPush b [combineType typeTable (maxCookie - 1)]) (Int64.ofNat len)
  else wbPush b [combineType typeTable len]

variable {len : Nat} {entries : List (Key × Value)}

theorem wbTableHeader_spec (b : WriteBlock) (bound : len < 2 ^ 31) {l : List UInt8}
    (holds : Holds b l) :
    ∃ c tail, c < 32 ∧ Holds (wbTableHeader b len) (l ++ combineType typeTable c :: tail) ∧
      ∀ rb rest, At rb (tail ++ rest) →
        ∃ rb', arraySize rb c = .ok ((len : Int), rb') ∧ At rb' rest := by
  unfold wbTableHeader
  split
  next long =>
    have first := holds_push holds [combineType typeTable (maxCookie - 1)]
    obtain ⟨c, tail, short, whole, written, read⟩ := wbInteger_spec _ (Int64.ofNat len) first
    rw [append_assoc] at written
    refine ⟨maxCookie - 1, combineType typeNumber c :: tail, by decide, written, ?_⟩
    intro rb rest here
    obtain ⟨bytes, rb₁, found, middle, type, cookie⟩ :=
      readHeader (show typeNumber < 8 by decide) short here
    obtain ⟨rb', size, after⟩ := read rb₁ rest middle
    have value : signed 32 (Int64.ofNat len).toInt = len := by
      rw [Int64.toInt_ofNat_of_lt (by omega)]
      exact signed_of_range (by decide) (by omega) (by omega)
    have number : ¬ (leValue bytes &&& 7 ≠ typeNumber ∨ leValue bytes >>> 3 = typeNumberReal) := by
      rw [type, cookie]
      exact fun bad => bad.elim (fun other => other rfl) whole
    refine ⟨rb', ?_, after⟩
    rw [arraySize, if_pos rfl, rbReadOr, found]
    dsimp only [Except.bind]
    rw [if_neg number, cookie, size, Except.map, value]
  next small =>
    have short : len < 31 := Nat.lt_of_not_le small
    refine ⟨len, [], by omega, holds_push holds _, ?_⟩
    intro rb rest here
    exact ⟨rb, by rw [arraySize, if_neg (by change len ≠ 31; omega)], here⟩

/- What was read of a table, from its two parts. -/
theorem pushes_table {c : Nat} (valid : Valid (.table len entries))
    {size array hash stop : List UInt8}
    (sizes : ∀ rb rest, At rb (size ++ rest) →
      ∃ rb', arraySize rb c = .ok ((len : Int), rb') ∧ At rb' rest)
    (arrays : CodesAll array (arrayValues len entries))
    (hashes : CodesAll hash (flat (hashEntries len entries))) (ends : Codes stop .nil) :
    Pushes typeTable c (size ++ (array ++ (hash ++ stop))) (.table len entries) := by
  cases valid with
  | table _ _ bound distinct normal scalars filled values =>
  intro rounds enough rb rest here
  simp only [length_append] at enough
  simp only [append_assoc] at here
  have length : (arrayValues len entries).length = len := by
    rw [arrayValues, length_map, length_range]
  have fitsArray : array.length ≤ rounds := by omega
  have fitsHash : (hash ++ stop).length ≤ rounds := by
    rw [length_append]
    omega
  obtain ⟨rb₁, sized, at₁⟩ := sizes rb _ here
  obtain ⟨es, rb₂, unpacked, at₂, shown⟩ := unpackArray_spec arrays fitsArray 1 represents_empty at₁
  rw [length] at unpacked
  have loops : (hashEntries len entries).length < rb₂.len.toNat + 1 := by
    obtain ⟨-, -, -, left⟩ := at₂
    have room := hashes.length_le
    rw [flat_length] at room
    rw [left, Int.toNat_natCast, length_append]
    omega
  have normal' : ∀ e ∈ hashEntries len entries, e.1.normal = some e.1 :=
    fun e member => normal e (mem_filter.mp member).1
  obtain ⟨es', rb', done, at', represents⟩ :=
    unpackHash_spec normal' hashes ends fitsHash loops shown at₂
  rw [parts_find bound distinct filled] at represents
  refine ⟨.table (border es') es', rb', ?_, at', .table _ _ _ _ represents⟩
  have table : ∀ read rb, pushValue read rb typeTable c = unpackTable read rb c := fun _ _ => rfl
  rw [table, unpackTable, sized]
  simp only [Except.bind, Int.toNat_natCast, unpacked, done, Except.map]

theorem writes_table (packs : Packs one) {b b' : WriteBlock} (valid : Valid (.table len entries))
    (packed : wbTable one b len entries = .ok b') : Writes b b' (.table len entries) := by
  intro l holds
  obtain ⟨b₁, array, hash⟩ := bind_ok packed
  cases valid with
  | table _ _ bound distinct normal scalars filled values =>
  have valuesArray : ∀ v ∈ arrayValues len entries, Valid v := by
    intro v member
    obtain ⟨i, -, rfl⟩ := mem_map.mp member
    rw [rawgeti]
    cases found : find entries (.integer (Int64.ofNat (i + 1))) with
    | none => exact .nil
    | some v => exact values _ (mem_of_find found)
  have valuesHash : ∀ v ∈ flat (hashEntries len entries), Valid v := by
    intro v member
    obtain ⟨e, inside, here⟩ := mem_flatMap.mp member
    have old := (mem_filter.mp inside).1
    rcases mem_cons.mp here with rfl | here
    · exact scalars e old
    · rw [mem_singleton.mp here]
      exact values e old
  obtain ⟨c, size, short, header, sizes⟩ := wbTableHeader_spec b bound holds
  have first : (arrayValues len entries).foldlM one (wbTableHeader b len) = .ok b₁ :=
    (foldlM_array len entries _).symm.trans array
  obtain ⟨arrayBytes, arrays, holds₁⟩ := packs_list packs valuesArray first header
  obtain ⟨b₂, others, done⟩ : ∃ b₂, (flat (hashEntries len entries)).foldlM one b₁ = .ok b₂ ∧
      b' = wbNil b₂ := by
    rw [wbTableHash, foldlM_hash] at hash
    cases rest : (flat (hashEntries len entries)).foldlM one b₁ with
    | error e =>
      rw [rest] at hash
      cases hash
    | ok b₂ =>
      rw [rest] at hash
      cases hash
      exact ⟨b₂, rfl, rfl⟩
  obtain ⟨hashBytes, hashes, holds₂⟩ := packs_list packs valuesHash others holds₁
  obtain ⟨stop, ends, holds'⟩ := writes_nil b₂ _ holds₂
  have valid : Valid (.table len entries) :=
    .table len entries bound distinct normal scalars filled values
  refine ⟨_, codes_header (by decide) short (pushes_table valid sizes arrays hashes ends), ?_⟩
  rw [done]
  simpa only [append_assoc, cons_append] using holds'

/-- By the depth that is left. -/
theorem packs_packOne (left : Nat) : Packs (packOne left) := by
  induction left with
  | zero =>
    intro b b' v valid packed
    cases packed
  | succ left ih =>
    intro b b' v valid packed
    cases valid with
    | nil =>
      cases packed
      exact writes_nil b
    | boolean x =>
      cases packed
      exact writes_boolean b x
    | integer n =>
      cases packed
      exact writes_integer b n
    | real bits =>
      cases packed
      exact writes_real b bits
    | string s short =>
      cases packed
      exact writes_string b short
    | lightuserdata p =>
      cases packed
      exact writes_pointer b p
    | table len entries bound distinct normal scalars filled values =>
      exact writes_table ih (.table len entries bound distinct normal scalars filled values) packed

end Packing

theorem unpackValues_spec {bytes : List UInt8} {vs : List Value} (codes : CodesAll bytes vs)
    {fuel rounds : Nat} (enough : bytes.length ≤ fuel) (loops : vs.length < rounds)
    {rb : ReadBlock} (here : At rb bytes) :
    ∃ vs' rb', unpackValues fuel rounds rb = .ok (vs', rb') ∧ At rb' [] ∧
      List.Forall₂ Same vs vs' := by
  induction codes generalizing rounds rb with
  | nil =>
    cases rounds with
    | zero => exact absurd loops (Nat.not_lt_zero _)
    | succ rounds =>
      refine ⟨[], rb, ?_, here, .nil⟩
      rw [unpackValues, rbRead_end here]
  | @cons bytes more v vs first others ih =>
    cases rounds with
    | zero => exact absurd loops (Nat.not_lt_zero _)
    | succ rounds =>
      rw [length_append] at enough
      obtain ⟨t, c, tail, small, short, rfl, pushes⟩ := first
      rw [length_cons] at enough
      obtain ⟨header, rb₁, found, middle, type, cookie⟩ := readHeader small short here
      obtain ⟨v', rb₂, pushed, later, same⟩ := pushes fuel (by omega) rb₁ more middle
      obtain ⟨vs', rb', done, after, sames⟩ := ih (by omega) (Nat.lt_of_succ_lt_succ loops) later
      refine ⟨v' :: vs', rb', ?_, after, .cons same sames⟩
      rw [unpackValues, found]
      simp only [type, cookie, pushed, Except.bind, done, Except.map]

/- A table with an array part of one string, and an entry after it. -/
def mixedTable : Value :=
  .table 1 [(.integer 1, .string [97]), (.boolean true, .integer (-5))]

theorem mixedTable_valid : Valid mixedTable := by
  refine .table _ _ (by decide) (by decide) ?_ ?_ ?_ ?_
  · simp [Key.normal]
  · simp [Key.value, Valid.integer, Valid.boolean]
  · simp [Value.isNil]
  · simp [Valid.integer, Valid.string]

end Skynet.Seri
