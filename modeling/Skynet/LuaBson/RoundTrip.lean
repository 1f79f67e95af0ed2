import Skynet.LuaBson.Reading
import Skynet.LuaBson.Written

/-! Decoding what was encoded gives an equal document. -/
namespace Skynet.LuaBson
open Base Lua List

section Elements
variable {fields : List (List UInt8 × Value)} {body : List UInt8}

theorem Elements.filled (elements : Elements fields body) : ∀ f ∈ fields, f.2.isNil = false := by
  induction elements with
  | nil => nofun
  | scalar clean scalar others ih =>
    refine forall_mem_cons.mpr ⟨?_, ih⟩
    cases scalar <;> rfl
  | document clean distinct inside length others _ ih =>
    exact forall_mem_cons.mpr ⟨rfl, ih⟩
  | array clean same inside length others _ ih => exact forall_mem_cons.mpr ⟨rfl, ih⟩

theorem header_length (type : UInt8) (key : List UInt8) :
    (header type key).length = key.length + 2 := by
  rw [header, length_cons, length_append, length_singleton]

theorem Elements.length_le (elements : Elements fields body) : fields.length ≤ body.length := by
  induction elements with
  | nil => exact Nat.le_refl 0
  | scalar _ _ _ ih | document _ _ _ _ _ _ ih | array _ _ _ _ _ _ ih =>
    simp only [length_cons, length_append, header_length]
    omega

end Elements

section Arrays
variable {values : List Value}

/- The key that an array gets for a text. -/
def arrayKey (text : List UInt8) : Key := .integer (Int64.ofInt (signed 32 (strtol text + 1)))

variable {i : Nat}

theorem strtol_numstr (small : i < 2 ^ 31) : strtol (bsonNumstr i) = i := by
  rw [bsonNumstr, Nat.mod_eq_of_lt (by omega), strtol_decimal (by omega)]

theorem arrayKey_numstr (small : i + 1 < 2 ^ 31) : arrayKey (bsonNumstr i) = index i := by
  rw [arrayKey, strtol_numstr (by omega), signed_of_range (by decide) (by omega) (by omega), index]
  rfl

section
variable (small : values.length < 2 ^ 31)
include small

theorem numbered_keys : (numbered values).map (fun f => (arrayKey f.1, f.2)) = indexed values := by
  refine ext_getElem (by simp [numbered, indexed]) fun i _ inside => ?_
  rw [indexed, length_mapIdx] at inside
  simp only [numbered, indexed, getElem_map, getElem_mapIdx,
    arrayKey_numstr (Nat.lt_of_le_of_lt inside small)]

theorem indexed_distinct : ((indexed values).map (·.1)).Nodup := by
  have keys : (indexed values).map (·.1) = (List.range values.length).map index := by
    refine ext_getElem (by simp [indexed]) fun i _ _ => ?_
    simp [indexed]
  rw [keys]
  refine List.Nodup.map_on ?_ nodup_range
  intro i inside j inside' same
  rw [mem_range] at inside inside'
  exact index_inj (by omega) (by omega) same

theorem entryKey_numbered : ∀ f ∈ numbered values, entryKey true f.1 = .ok (arrayKey f.1) := by
  intro f member
  obtain ⟨i, inside, rfl⟩ := mem_mapIdx.mp member
  have value : strtol (bsonNumstr i) = i := strtol_numstr (Nat.lt_trans inside small)
  change (if strtol (bsonNumstr i) + 1 < 2 ^ 63 then _ else _) = _
  rw [if_pos (by omega)]
  rfl

end

end Arrays

section Tables

variable {body : List UInt8}

theorem named_find {fields : List (List UInt8 × Value)} (elements : Elements fields body)
    (distinct : (fields.map (·.1)).Nodup) :
    putAll (fun _ => none) (named fields) = find (named fields) := by
  refine putAll_find ?_ ?_
  · have keys : (named fields).map (·.1) = (fields.map (·.1)).map Key.string := by
      simp only [named, map_map]
      rfl
    rw [keys]
    exact distinct.map fun _ _ => Key.string.inj
  · intro e member
    obtain ⟨f, inside, rfl⟩ := mem_map.mp member
    exact elements.filled f inside

theorem indexed_find {values : List Value} (elements : Elements (numbered values) body)
    (small : values.length < 2 ^ 31) :
    putAll (fun _ => none) (indexed values) = find (indexed values) := by
  refine putAll_find (indexed_distinct small) ?_
  intro e member
  rw [← numbered_keys small] at member
  obtain ⟨f, inside, rfl⟩ := mem_map.mp member
  exact elements.filled f inside

end Tables

section Documents
variable {doc : List UInt8}

/-- The elements are read into a table, whichever keys it has for their names. -/
def ReadsElements (doc : List UInt8) (fields : List (List UInt8 × Value)) (body : List UInt8) :
    Prop :=
  ∀ {array : Bool} {key : List UInt8 → Key} {fuel rounds : Nat} {want : Key → Option Value}
    {entries : List (Key × Value)} {t : Reader},
    (∀ f ∈ fields, entryKey array f.1 = .ok (key f.1)) → body.length ≤ fuel →
    body.length < rounds → Represents want entries → At doc t body →
    ∃ entries', unpackEntries doc (unpackDict doc fuel) array rounds entries t = .ok entries' ∧
      Represents (putAll want (fields.map fun f => (key f.1, f.2))) entries'

variable {fields : List (List UInt8 × Value)} {body rest : List UInt8}

theorem unpackDict_at (small : doc.length < 2 ^ 31) {field : List UInt8}
    (inside : ReadsElements doc fields body)
    (length : LengthField field (field ++ (body ++ [0])).length) {array : Bool}
    {key : List UInt8 → Key} (keys : ∀ f ∈ fields, entryKey array f.1 = .ok (key f.1)) {fuel : Nat}
    (deep : body.length < fuel) {br : Reader} (here : At doc br (field ++ (body ++ [0]) ++ rest)) :
    ∃ len entries br', unpackDict doc fuel array br = .ok (.table len entries, br') ∧
      At doc br' rest ∧
      Represents (putAll (fun _ => none) (fields.map fun f => (key f.1, f.2))) entries := by
  cases fuel with
  | zero => exact absurd deep (Nat.not_lt_zero _)
  | succ fuel =>
    have room := here.length_le
    simp only [length_append, length_singleton] at room
    rw [append_assoc] at here
    obtain ⟨br₁, counted, at₁⟩ := readInt32_at here length
    rw [append_assoc] at at₁
    obtain ⟨br₂, passed, at₂⟩ := readBytes_at small at₁ rfl
    obtain ⟨br₃, closed, at₃⟩ := readByte_at at₂
    have size : ((field ++ (body ++ [0])).length : Int) - 5 = body.length := by
      simp only [length_append, length_singleton, length.size]
      omega
    have range := int_of_range (n := body.length) (by omega) (by omega)
    have fits : body.length < doc.length + 1 := by omega
    obtain ⟨entries, read, shown⟩ :=
      inside keys (Nat.le_of_lt_succ deep) fits represents_empty at₁.part
    refine ⟨border entries, entries, br₃, ?_, at₃, shown⟩
    rw [unpackDict, counted, ok_bind]
    dsimp only
    rw [size, range, ok_bind, passed, ok_bind]
    rw [closed, ok_bind]
    dsimp only
    rw [if_neg (by decide), read, ok_bind]
    rfl

theorem readsElements_nil : ReadsElements doc [] [] := by
  intro array key fuel rounds want entries t keys deep enough known here
  cases rounds with
  | zero => exact absurd enough (Nat.not_lt_zero _)
  | succ rounds =>
    obtain ⟨before, after, -, -, size⟩ := here
    have read : t.size = 0 := size
    refine ⟨entries, ?_, known⟩
    rw [unpackEntries, if_pos read]

theorem readsElements_cons {key : List UInt8} {type : UInt8} {v : Value} {payload : List UInt8}
    {more : List (List UInt8 × Value)} (clean : 0 ∉ key)
    (value : ∀ fuel, payload.length ≤ fuel → Reads doc (unpackDict doc fuel) type payload v)
    (others : ReadsElements doc more rest) :
    ReadsElements doc ((key, v) :: more) (header type key ++ payload ++ rest) := by
  intro array names fuel rounds want entries t keys deep enough known here
  simp only [length_append, header_length] at deep enough
  cases rounds with
  | zero => exact absurd enough (Nat.not_lt_zero _)
  | succ rounds =>
    have unread : t.size ≠ 0 := by
      obtain ⟨before, after, -, -, size⟩ := here
      simp only [length_append, header_length] at size
      omega
    simp only [header, cons_append, append_assoc, nil_append] at here
    obtain ⟨t₁, typed, at₁⟩ := readByte_at here
    obtain ⟨t₂, named, at₂⟩ := readCstring_at at₁ clean
    obtain ⟨name, names'⟩ := forall_mem_cons.mp keys
    obtain ⟨v', t₃, read, at₃, same⟩ := value fuel (by omega) t₂ rest at₂
    have deep' : rest.length ≤ fuel := by omega
    have enough' : rest.length < rounds := by omega
    obtain ⟨entries', done, shown⟩ := others names' deep' enough' (known.set (names key) same) at₃
    refine ⟨entries', ?_, shown⟩
    rw [unpackEntries, if_neg unread, typed, ok_bind]
    dsimp only
    rw [named, ok_bind]
    rw [name, ok_bind, read, ok_bind]
    exact done

/-- By the derivation: nested documents are read as their elements are. -/
theorem Elements.reads (small : doc.length < 2 ^ 31) (elements : Elements fields body) :
    ReadsElements doc fields body := by
  induction elements with
  | nil => exact readsElements_nil
  | scalar clean scalar others ih =>
    exact readsElements_cons clean (fun _ _ => scalar.reads small) ih
  | @document _ _ fields _ _ body _ clean distinct inside length others ihInside ih =>
    refine readsElements_cons clean (fun fuel deep t rest here => ?_) ih
    simp only [length_append, length_singleton] at deep
    have deeper : body.length < fuel := by omega
    have keys : ∀ f ∈ fields, entryKey false f.1 = .ok (.string f.1) := fun _ _ => rfl
    obtain ⟨len, entries, t', read, after, shown⟩ :=
      unpackDict_at small ihInside length keys deeper here
    refine ⟨.table len entries, t', read, after, .table _ _ _ _ ?_⟩
    rw [← named_find inside distinct]
    exact shown
  | @array _ _ _ values _ _ body _ clean same inside length others ihInside ih =>
    refine readsElements_cons clean (fun fuel deep t rest here => ?_) ih
    have room := here.length_le
    simp only [length_append, length_singleton] at deep room
    have count : values.length ≤ body.length := by
      simpa [numbered] using inside.length_le
    have short : values.length < 2 ^ 31 := by omega
    have deeper : body.length < fuel := by omega
    obtain ⟨len, entries, t', read, after, shown⟩ :=
      unpackDict_at small ihInside length (entryKey_numbered short) deeper here
    refine ⟨.table len entries, t', read, after, .table _ _ _ _ ?_⟩
    rw [← same, ← indexed_find inside short, ← numbered_keys short]
    exact shown

end Documents

theorem bson_round_trip (realText : UInt64 → List UInt8) (len : Nat)
    (entries : List (Key × Value)) (names : Named entries)
    (values : ∀ e ∈ entries, Supported e.2) (bytes : List UInt8)
    (encoded : lencode realText (.table len entries) = .ok bytes) :
    (∃ v, ldecode bytes = .ok v ∧ Same (.table len entries) v) ∧
      ∃ fields, named fields = entries ∧ Framed (Elements fields) bytes := by
  have framed := lencode_framed names values encoded
  refine ⟨?_, entries.map fieldOf, names.fields, framed⟩
  obtain ⟨field, body, inside, length⟩ := framed
  have small : (field ++ (body ++ [0])).length < 2 ^ 31 := by
    have range := (signed_range (w := 32) (by decide) (leValue field)).2
    rw [length.counts] at range
    exact_mod_cast range
  have start : At (field ++ (body ++ [0])) ⟨0, (field ++ (body ++ [0])).length⟩
      (field ++ (body ++ [0]) ++ []) := ⟨[], [], by simp, rfl, by simp⟩
  have keys : ∀ f ∈ entries.map fieldOf, entryKey false f.1 = .ok (.string f.1) := fun _ _ => rfl
  have deep : body.length < (field ++ (body ++ [0])).length + 1 := by
    simp only [length_append]
    omega
  obtain ⟨len', entries', br, read, -, shown⟩ :=
    unpackDict_at small (inside.reads small) length keys deep start
  have header : load (field ++ (body ++ [0])) 0 4 = .ok field := by
    rw [append_nil] at start
    exact load_at start length.size
  refine ⟨.table len' entries', ?_, .table _ _ _ _ ?_⟩
  · rw [ldecode, header, ok_bind, length.counts, read, ok_bind]
    rfl
  · have whole := named_find inside names.distinctFields
    rw [names.fields] at whole
    rw [← whole, ← names.fields]
    exact shown

def someArray : List (Key × Value) :=
  [(.integer 1, .integer (-5)), (.integer 2, .string [120])]

def someFields : List (Key × Value) := [(.string [99], .integer 5000000000)]

def someDocument : List (Key × Value) :=
  [(.string [97], .table 2 someArray), (.string [98], .table 0 someFields)]

theorem someArray_supported : Supported (.table 2 someArray) := by
  refine .array 2 2 _ ⟨by decide, .inr ⟨_, rfl⟩, rfl⟩ ⟨by decide, by decide, .refl _, rfl⟩ ?_
  simp [someArray, Supported.integer, Supported.string [120] (by decide)]

theorem someFields_supported : Supported (.table 0 someFields) := by
  refine .document 0 _ ⟨by decide, .inl rfl, rfl⟩ ⟨?_, by decide⟩ ?_
  · simp [someFields]
  · simp [someFields, Supported.integer]

theorem bson_round_trip_nested :
    lencode (fun _ => []) (.table 0 someDocument) =
      .ok [48, 0, 0, 0, 4, 97, 0, 21, 0, 0, 0, 16, 48, 0, 251, 255, 255, 255, 2, 49, 0, 2, 0, 0, 0,
        120, 0, 0, 3, 98, 0, 16, 0, 0, 0, 18, 99, 0, 0, 242, 5, 42, 1, 0, 0, 0, 0, 0] ∧
      ∃ v, ldecode [48, 0, 0, 0, 4, 97, 0, 21, 0, 0, 0, 16, 48, 0, 251, 255, 255, 255, 2, 49, 0,
        2, 0, 0, 0, 120, 0, 0, 3, 98, 0, 16, 0, 0, 0, 18, 99, 0, 0, 242, 5, 42, 1, 0, 0, 0, 0,
        0] = .ok v ∧
        Same (.table 0 someDocument) v := by
  refine ⟨rfl, (bson_round_trip (fun _ => []) 0 someDocument ⟨?_, by decide⟩ ?_ _ rfl).1⟩
  · simp [someDocument]
  · simp [someDocument, someArray_supported, someFields_supported]

end Skynet.LuaBson
