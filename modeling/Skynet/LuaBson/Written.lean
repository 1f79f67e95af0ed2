import Skynet.LuaBson.Grammar

/-! The tables of a document: what lua_rawlen and lua_next tell of them, how they are encoded,
and from that the encoding of a whole document. -/
namespace Skynet.LuaBson
open Base Lua List

section Named
variable {entries : List (Key × Value)} {len : Nat}

def keyText : Key → List UInt8
  | .string key => key
  | _ => []

def fieldOf (e : Key × Value) : List UInt8 × Value := (keyText e.1, e.2)

section
variable (names : Named entries)
include names

theorem Named.key {e : Key × Value} (member : e ∈ entries) :
    e.1 = .string (keyText e.1) ∧ 0 ∉ keyText e.1 := by
  obtain ⟨key, same, clean⟩ := names.keys e member
  rw [same]
  exact ⟨rfl, clean⟩

theorem Named.fields : named (entries.map fieldOf) = entries := by
  have each : ∀ e ∈ entries, ((.string (fieldOf e).1, (fieldOf e).2) : Key × Value) = e :=
    fun e member => Prod.ext (names.key member).1.symm rfl
  rw [named, map_map]
  exact (map_congr_left each).trans (map_id _)

theorem Named.distinctFields : ((entries.map fieldOf).map (·.1)).Nodup := by
  have keys : ((entries.map fieldOf).map (·.1)).map Key.string = entries.map (·.1) := by
    rw [← congrArg (map (·.1)) names.fields, named]
    simp only [map_map]
    rfl
  exact List.Nodup.of_map Key.string (keys ▸ names.distinct)

theorem Named.border (border : IsBorder len entries) : len = 0 := by
  rcases border.inside with zero | ⟨v, found⟩
  · exact zero
  · obtain ⟨key, same, -⟩ := names.keys _ (mem_of_find found)
    cases same

end

end Named

/- The entry that next gives is the one after that of the key. -/
theorem luaNext_append {start rest : List (Key × Value)} {e : Key × Value}
    (distinct : ((start ++ e :: rest).map (·.1)).Nodup) :
    luaNext (start ++ e :: rest) e.1 = .ok rest.head? := by
  rw [map_append, nodup_append] at distinct
  have fresh : ∀ a ∈ start, decide (a.1 ≠ e.1) = true := fun a member =>
    decide_eq_true (distinct.2.2 a.1 (mem_map_of_mem member) e.1 mem_cons_self)
  rw [luaNext, dropWhile_append_of_pos fresh, dropWhile_cons_of_neg (by simp)]

section Listed
variable {entries : List (Key × Value)} {len n : Nat}

def elementOf (entries : List (Key × Value)) (i : Nat) : List UInt8 × Value :=
  (bsonNumstr i, rawgeti entries (i + 1))

def arrayValues (n : Nat) (entries : List (Key × Value)) : List Value :=
  (range n).map fun i => rawgeti entries (i + 1)

theorem mapIdx_arrayValues {A : Type} (f : Nat → Value → A) :
    (arrayValues n entries).mapIdx f =
      (range n).map fun i => f i (rawgeti entries (i + 1)) := by
  refine mapIdx_eq_iff.mpr fun i => ?_
  simp only [arrayValues, getElem?_map]
  by_cases inside : i < n
  · rw [getElem?_range inside]
    rfl
  · rw [getElem?_eq_none (by simpa using inside)]
    rfl

theorem index_inj {i j : Nat} (small : i + 1 < 2 ^ 63) (small' : j + 1 < 2 ^ 63)
    (same : index i = index j) : i = j :=
  Nat.succ.inj (index_injective small small' same)

section
variable (list : Listed n entries)
include list

theorem Listed.distinct : (entries.map (·.1)).Nodup := by
  refine list.keys.nodup_iff.mpr (List.Nodup.map_on ?_ nodup_range)
  intro i inside j inside' same
  have bound := list.bound
  rw [mem_range] at inside inside'
  exact index_inj (by omega) (by omega) same

theorem Listed.mem {k : Key} :
    (∃ v, find entries k = some v) ↔ ∃ i < n, k = index i := by
  have keys : k ∈ entries.map (·.1) ↔ ∃ i < n, k = index i := by
    rw [list.keys.mem_iff]
    simp only [mem_map, mem_range, eq_comm]
  rw [← keys]
  constructor
  · rintro ⟨v, found⟩
    exact mem_map.mpr ⟨_, mem_of_find found, rfl⟩
  · intro member
    obtain ⟨e, inside, rfl⟩ := mem_map.mp member
    exact ⟨e.2, find_of_mem list.distinct inside⟩

theorem Listed.border (border : IsBorder len entries) : len = n := by
  have low : n ≤ len := by
    by_contra above
    obtain ⟨v, found⟩ := list.mem.mpr ⟨len, Nat.lt_of_not_le above, rfl⟩
    have none := border.outside
    rw [index] at found
    rw [found] at none
    cases none
  rcases border.inside with zero | inside
  · omega
  · obtain ⟨i, below, same⟩ := list.mem.mp inside
    have small := border.bound
    have equal := index_injective small (by omega) same
    omega

theorem Listed.isRawarray : isRawarray n entries = .ok true := by
  obtain ⟨before, whole⟩ := getLast?_eq_some_iff.mp list.last
  obtain ⟨start, last, rfl, rfl, single⟩ := map_eq_append_iff.mp whole
  obtain ⟨e, rfl, key⟩ := map_eq_singleton_iff.mp single
  have place : Key.integer (Int64.ofNat n) = index (n - 1) := by
    rw [index, Nat.sub_add_cancel list.positive]
  rw [LuaBson.isRawarray, if_pos list.positive, place, ← key, luaNext_append list.distinct]
  rfl

theorem Listed.element {i : Nat} (below : i < n) :
    ∃ v, (index i, v) ∈ entries ∧ rawgeti entries (i + 1) = v := by
  obtain ⟨v, found⟩ := list.mem.mpr ⟨i, below, rfl⟩
  refine ⟨v, mem_of_find found, ?_⟩
  rw [index] at found
  rw [rawgeti, found, Option.getD_some]

theorem Listed.find_indexed :
    find (indexed (arrayValues n entries)) = find entries := by
  have keys : (indexed (arrayValues n entries)).map (·.1) = (range n).map index := by
    rw [indexed, mapIdx_arrayValues, map_map]
    rfl
  have distinct : ((indexed (arrayValues n entries)).map (·.1)).Nodup := by
    rw [keys]
    exact list.keys.nodup_iff.mp list.distinct
  funext k
  cases found : find entries k with
  | none =>
    cases stored : find (indexed (arrayValues n entries)) k with
    | none => rfl
    | some v =>
      have member : k ∈ (range n).map index := by
        rw [← keys]
        exact mem_map.mpr ⟨_, mem_of_find stored, rfl⟩
      obtain ⟨i, below, rfl⟩ := mem_map.mp member
      obtain ⟨w, there⟩ := list.mem.mpr ⟨i, mem_range.mp below, rfl⟩
      rw [found] at there
      cases there
  | some v =>
    obtain ⟨i, below, rfl⟩ := list.mem.mp ⟨v, found⟩
    have value : rawgeti entries (i + 1) = v := by
      rw [index] at found
      rw [rawgeti, found, Option.getD_some]
    have member : (index i, v) ∈ indexed (arrayValues n entries) := by
      rw [indexed, mapIdx_arrayValues]
      exact mem_map.mpr ⟨i, mem_range.mpr below, by rw [value]⟩
    exact find_of_mem distinct member

end

theorem bsonNumstr_clean (i : Nat) : 0 ∉ bsonNumstr i := by
  intro member
  exact absurd (decimal_digits member) (by decide)

end Listed

section Tables
variable {realText : UInt64 → List UInt8} {one : Bson → Value → List UInt8 → Except Error Bson}
  {b : Bson} {entries : List (Key × Value)} {len : Nat} {key : List UInt8}

theorem appends_packSimpleDict (encoder : Encoder one) (sound : b.Sound) (names : Named entries)
    (values : ∀ e ∈ entries, Supported e.2) :
    Appends b (Framed (Elements (entries.map fieldOf)))
      (packSimpleDict realText one b entries) := by
  refine appends_packDocument sound fun b' sound' => ?_
  refine appends_fields encoder fieldOf ?_ values (fun e member => (names.key member).2) sound'
  rintro ⟨k, v⟩ member b₁
  obtain ⟨text, same, -⟩ := names.keys _ member
  subst same
  rfl

theorem appends_packArray (encoder : Encoder one) (sound : b.Sound) {n : Nat}
    (list : Listed n entries) (values : ∀ e ∈ entries, Supported e.2) :
    Appends b (Framed (Elements (numbered (arrayValues n entries))))
      (packArray one b n entries) := by
  refine appends_packDocument sound fun b' sound' => ?_
  rw [numbered, mapIdx_arrayValues]
  refine appends_fields encoder (elementOf entries) (fun _ _ _ => rfl) ?_
    (fun i _ => bsonNumstr_clean i) sound'
  intro i inside
  obtain ⟨v, member, value⟩ := list.element (mem_range.mp inside)
  rw [elementOf, value]
  exact values _ member

theorem appends_appendTable (encoder : Encoder one) (sound : b.Sound) (clean : 0 ∉ key)
    (supported : Supported (.table len entries)) :
    Appends b (Element key (.table len entries)) (appendTable realText one b len entries key) := by
  cases supported with
  | document _ _ border names values =>
    obtain rfl := names.border border
    refine Appends.bind (appends_appendKey sound bsonDocument key) ?_
    rintro b' _ sound' rfl
    refine (appends_packSimpleDict encoder sound' names values).mono ?_
    rintro _ ⟨field, body, inside, length⟩ more rest others
    rw [← names.fields]
    exact .document clean names.distinctFields inside length others
  | array _ n _ border list values =>
    obtain rfl := list.border border
    rw [appendTable, list.isRawarray]
    refine Appends.bind (appends_appendKey sound bsonArray key) ?_
    rintro b' _ sound' rfl
    refine (appends_packArray encoder sound' list values).mono ?_
    rintro _ ⟨field, body, inside, length⟩ more rest others
    exact .array clean list.find_indexed inside length others

/- Only tables need more depth. -/
theorem appends_appendOne (sound : b.Sound) (clean : 0 ∉ key) {left : Nat} {v : Value}
    (supported : Supported v)
    (tables : ∀ len entries, v = .table len entries →
      Appends b (Element key v) (appendOne realText left b v key)) :
    Appends b (Element key v) (appendOne realText left b v key) := by
  cases supported with
  | integer n =>
    rw [appendOne]
    exact appends_appendNumber sound clean (.inl n)
  | real d =>
    rw [appendOne]
    exact appends_appendNumber sound clean (.inr d)
  | boolean x =>
    rw [appendOne]
    exact appends_boolean sound clean x
  | string s first =>
    rw [appendOne]
    exact appends_appendString sound first clean
  | document len entries => exact tables len entries rfl
  | array len n entries => exact tables len entries rfl

/-- By the depth that is left. -/
theorem encoder_appendOne (left : Nat) : Encoder (appendOne realText left) := by
  induction left with
  | zero =>
    intro b v key sound supported clean
    refine appends_appendOne sound clean supported ?_
    rintro len entries rfl b' done
    cases done
  | succ left ih =>
    intro b v key sound supported clean
    refine appends_appendOne sound clean supported ?_
    rintro len entries rfl
    exact appends_appendTable ih sound clean supported

end Tables

theorem sound_create : bsonCreate.Sound := ⟨Nat.zero_le _, by decide⟩

theorem lencode_framed {realText : UInt64 → List UInt8} {len : Nat} {entries : List (Key × Value)}
    {bytes : List UInt8} (names : Named entries) (values : ∀ e ∈ entries, Supported e.2)
    (encoded : lencode realText (.table len entries) = .ok bytes) :
    Framed (Elements (entries.map fieldOf)) bytes := by
  rw [lencode] at encoded
  cases packed : packSimpleDict realText (appendOne realText maxDepth) bsonCreate entries with
  | error e =>
    rw [packed] at encoded
    cases encoded
  | ok b =>
    rw [packed] at encoded
    cases encoded
    obtain ⟨-, l, framed, whole⟩ :=
      appends_packSimpleDict (encoder_appendOne maxDepth) sound_create names values b packed
    change Framed _ b.bytes
    rw [whole]
    exact framed

end Skynet.LuaBson
