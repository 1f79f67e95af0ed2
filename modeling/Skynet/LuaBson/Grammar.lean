import Skynet.Base.Outcome
import Skynet.Lua.Table
import Skynet.LuaBson.Encode

/-! The documents that can be encoded, what their encodings look like, and that the encoder
writes these. Every length in an encoding counts the bytes that it covers. -/
namespace Skynet.LuaBson
open Base Lua List

/-- A number that lua_rawlen may answer. -/
structure IsBorder (len : Nat) (entries : List (Key × Value)) : Prop where
  bound : len < 2 ^ 63
  inside : len = 0 ∨ ∃ v, find entries (.integer (Int64.ofNat len)) = some v
  outside : find entries (.integer (Int64.ofNat (len + 1))) = none

structure Named (entries : List (Key × Value)) : Prop where
  keys : ∀ e ∈ entries, ∃ key, e.1 = .string key ∧ 0 ∉ key
  distinct : (entries.map (·.1)).Nodup

def index (i : Nat) : Key := .integer (Int64.ofNat (i + 1))

/-- The entries with the indices from 1 to `n`; the last is visited last. -/
structure Listed (n : Nat) (entries : List (Key × Value)) : Prop where
  positive : 0 < n
  bound : n < 2 ^ 63
  keys : (entries.map (·.1)).Perm ((List.range n).map index)
  last : (entries.map (·.1)).getLast? = some (index (n - 1))

inductive Supported : Value → Prop
  | integer (n : Int64) : Supported (.integer n)
  | real (d : UInt64) : Supported (.real d)
  | boolean (x : Bool) : Supported (.boolean x)
  | string (s : List UInt8) (first : s.head? ≠ some 0) : Supported (.string s)
  | document (len : Nat) (entries : List (Key × Value)) (border : IsBorder len entries)
      (named : Named entries) (values : ∀ e ∈ entries, Supported e.2) :
      Supported (.table len entries)
  | array (len n : Nat) (entries : List (Key × Value)) (border : IsBorder len entries)
      (listed : Listed n entries) (values : ∀ e ∈ entries, Supported e.2) :
      Supported (.table len entries)

section Encodings

/-- Four bytes that hold the number of the bytes covered. -/
structure LengthField (field : List UInt8) (covered : Nat) : Prop where
  size : field.length = 4
  counts : signed 32 (leValue field) = covered

/-- A value, its type and the bytes for it. -/
inductive Scalar : Value → UInt8 → List UInt8 → Prop
  | int32 (n : Int64) (small : is32bit n = true) :
      Scalar (.integer n) bsonInt32 (leBytes 4 (n.toInt % 2 ^ 32).toNat)
  | int64 (n : Int64) : Scalar (.integer n) bsonInt64 (leBytes 8 n.toUInt64.toNat)
  | real (d : UInt64) : Scalar (.real d) bsonReal (leBytes 8 d.toNat)
  | boolean (x : Bool) : Scalar (.boolean x) bsonBoolean [if x then 1 else 0]
  | string (s field : List UInt8) (length : LengthField field (s ++ [0]).length) :
      Scalar (.string s) bsonString (field ++ (s ++ [0]))

def header (type : UInt8) (key : List UInt8) : List UInt8 := type :: (key ++ [0])

def named (fields : List (List UInt8 × Value)) : List (Key × Value) :=
  fields.map fun f => (.string f.1, f.2)

def numbered (values : List Value) : List (List UInt8 × Value) :=
  values.mapIdx fun i v => (bsonNumstr i, v)

def indexed (values : List Value) : List (Key × Value) :=
  values.mapIdx fun i v => (index i, v)

/-- The elements of a document: their keys and values, and the bytes for them. -/
inductive Elements : List (List UInt8 × Value) → List UInt8 → Prop
  | nil : Elements [] []
  | scalar {key : List UInt8} {v : Value} {type : UInt8} {payload : List UInt8}
      {more : List (List UInt8 × Value)} {rest : List UInt8} (clean : 0 ∉ key)
      (scalar : Scalar v type payload) (others : Elements more rest) :
      Elements ((key, v) :: more) (header type key ++ payload ++ rest)
  | document {key : List UInt8} {len : Nat} {fields more : List (List UInt8 × Value)}
      {field body rest : List UInt8} (clean : 0 ∉ key)
      (distinct : (fields.map (·.1)).Nodup) (inside : Elements fields body)
      (length : LengthField field (field ++ (body ++ [0])).length) (others : Elements more rest) :
      Elements ((key, .table len (named fields)) :: more)
        (header bsonDocument key ++ (field ++ (body ++ [0])) ++ rest)
  | array {key : List UInt8} {len : Nat} {entries : List (Key × Value)} {values : List Value}
      {more : List (List UInt8 × Value)} {field body rest : List UInt8} (clean : 0 ∉ key)
      (same : find (indexed values) = find entries) (inside : Elements (numbered values) body)
      (length : LengthField field (field ++ (body ++ [0])).length) (others : Elements more rest) :
      Elements ((key, .table len entries) :: more)
        (header bsonArray key ++ (field ++ (body ++ [0])) ++ rest)

/-- A length, the elements, and a zero byte. -/
inductive Framed (elements : List UInt8 → Prop) : List UInt8 → Prop
  | intro (field body : List UInt8) (inside : elements body)
      (length : LengthField field (field ++ (body ++ [0])).length) :
      Framed elements (field ++ (body ++ [0]))

/- One element, before any others. -/
def Element (key : List UInt8) (v : Value) (bytes : List UInt8) : Prop :=
  ∀ more rest, Elements more rest → Elements ((key, v) :: more) (bytes ++ rest)

end Encodings

section Buffer
variable {b : Bson} {P Q : List UInt8 → Prop}

structure Bson.Sound (b : Bson) : Prop where
  room : b.size ≤ b.cap
  bound : b.cap ≤ intMax

/-- What is there stays, and what comes after it is such. -/
def Appends (b : Bson) (P : List UInt8 → Prop) (x : Except Error Bson) : Prop :=
  ∀ b', x = .ok b' → b'.Sound ∧ ∃ l, P l ∧ b'.bytes = b.bytes ++ l

variable {x : Except Error Bson} {b' : Bson} {n : Nat} {l : List UInt8}

theorem Appends.bind {f : Bson → Except Error Bson} (first : Appends b P x)
    (rest : ∀ b' l, b'.Sound → P l → Appends b' (fun more => Q (l ++ more)) (f b')) :
    Appends b Q (x >>= f) := by
  intro b'' done
  obtain ⟨b', done', later⟩ := bind_ok done
  obtain ⟨sound, l, written, bytes⟩ := first b' done'
  obtain ⟨sound', more, written', bytes'⟩ := rest b' l sound written b'' later
  refine ⟨sound', l ++ more, written', ?_⟩
  rw [bytes', bytes, append_assoc]

theorem Appends.mono (first : Appends b P x) (implied : ∀ l, P l → Q l) :
    Appends b Q x := by
  intro b' done
  obtain ⟨sound, l, written, bytes⟩ := first b' done
  exact ⟨sound, l, implied l written, bytes⟩

theorem grow_spec {need : Int} {rounds cap cap' : Nat} (grown : grow need rounds cap = .ok cap') :
    cap ≤ cap' ∧ cap' ≤ intMax := by
  induction rounds generalizing cap with
  | zero => cases grown
  | succ rounds ih =>
    rw [grow] at grown
    split at grown
    · cases grown
    next fits =>
      split at grown
      · have := ih grown
        omega
      · cases grown
        omega

theorem bsonReserve_spec (sound : b.Sound) {sz : Nat} (reserved : bsonReserve b sz = .ok b') :
    b'.Sound ∧ b'.bytes = b.bytes := by
  rw [bsonReserve] at reserved
  split at reserved
  · cases reserved
  split at reserved
  · cases reserved
    exact ⟨sound, rfl⟩
  · cases grown : grow (b.size + signed 32 sz) 31 b.cap with
    | error e =>
      rw [grown] at reserved
      cases reserved
    | ok cap =>
      rw [grown] at reserved
      cases reserved
      obtain ⟨more, bound⟩ := grow_spec grown
      exact ⟨⟨Nat.le_trans sound.room more, bound⟩, rfl⟩

theorem appends_write (sound : b.Sound) (sz : Nat) (bytes : List UInt8) :
    Appends b (· = bytes) (do push (← bsonReserve b sz) bytes) := by
  intro b'' done
  obtain ⟨b', reserved, pushed⟩ := bind_ok done
  obtain ⟨sound', same⟩ := bsonReserve_spec sound reserved
  rw [push] at pushed
  split at pushed
  next fits =>
    cases pushed
    refine ⟨⟨?_, sound'.bound⟩, bytes, rfl, ?_⟩
    · rwa [Bson.size, length_append]
    · rw [same]
  · cases pushed

theorem appends_appendKey (sound : b.Sound) (type : UInt8) (key : List UInt8) :
    Appends b (· = header type key) (appendKey b type key) := by
  refine Appends.bind (appends_write sound 1 [type]) ?_
  rintro b' _ sound' rfl
  refine (appends_write sound' _ (key ++ [0])).mono ?_
  rintro _ rfl
  rfl

theorem reserveLength_spec (sound : b.Sound) {length : Nat}
    (reserved : reserveLength b = .ok (length, b')) :
    length = b.size ∧ b'.Sound ∧ b'.bytes = b.bytes ++ [0, 0, 0, 0] := by
  rw [reserveLength, ← bind_assoc] at reserved
  obtain ⟨b₁, done, pair⟩ := bind_ok reserved
  obtain ⟨sound', _, rfl, bytes⟩ := appends_write sound 4 [0, 0, 0, 0] b₁ done
  cases pair
  exact ⟨rfl, sound', bytes⟩

theorem lengthField_leBytes (small : n < 2 ^ 31) :
    LengthField (leBytes 4 ((n : Int) % 2 ^ 32).toNat) n := by
  have value : ((n : Int) % 2 ^ 32).toNat = n := by
    rw [Int.emod_eq_of_lt (by omega) (by omega), Int.toNat_natCast]
  refine ⟨leBytes_length .., ?_⟩
  rw [value, leValue_leBytes_of_lt (by omega), signed_of_range (by decide) (by omega) (by omega)]

theorem writeLength_bytes (v : Int) (bytes : b'.bytes = b.bytes ++ ([0, 0, 0, 0] ++ l)) :
    (writeLength b' v b.size).bytes = b.bytes ++ (leBytes 4 (v % 2 ^ 32).toNat ++ l) := by
  have before : (b.bytes ++ ([0, 0, 0, 0] ++ l)).take b.size = b.bytes := take_left
  have after : (b.bytes ++ ([0, 0, 0, 0] ++ l)).drop (b.size + 4) = l := by
    rw [← append_assoc]
    exact drop_left' (length_append ..)
  rw [writeLength, bytes, before, after]

/-- A length was reserved, and is written after what it covers. -/
theorem writeLength_spec {b'' : Bson} (sound : b''.Sound)
    (reserved : b'.bytes = b.bytes ++ [0, 0, 0, 0]) (written : b''.bytes = b'.bytes ++ l) {v : Int}
    (counts : v = n) (covered : n ≤ 4 + l.length) :
    (writeLength b'' v b.size).Sound ∧ ∃ field, LengthField field n ∧
      (writeLength b'' v b.size).bytes = b.bytes ++ (field ++ l) := by
  have bytes : b''.bytes = b.bytes ++ ([0, 0, 0, 0] ++ l) := by
    rw [written, reserved, append_assoc]
  have replaced := writeLength_bytes v bytes
  have size : b''.size = b.size + (4 + l.length) := by
    rw [Bson.size, bytes, length_append, length_append]
    rfl
  have room := sound.room
  have bound := sound.bound
  subst counts
  have small : n < 2 ^ 31 := by
    rw [intMax] at bound
    omega
  refine ⟨⟨?_, bound⟩, _, lengthField_leBytes small, replaced⟩
  rw [Bson.size, replaced, length_append, length_append, leBytes_length]
  exact size ▸ room

theorem appends_packDocument (sound : b.Sound) {elements : Bson → Except Error Bson}
    (writes : ∀ b', b'.Sound → Appends b' P (elements b')) :
    Appends b (Framed P) (packDocument elements b) := by
  intro b' done
  obtain ⟨⟨length, b₁⟩, reserved, done⟩ := bind_ok done
  obtain ⟨rfl, sound₁, bytes₁⟩ := reserveLength_spec sound reserved
  obtain ⟨b₂, written, done⟩ := bind_ok done
  obtain ⟨sound₂, body, inside, bytes₂⟩ := writes b₁ sound₁ b₂ written
  obtain ⟨b₃, closed, done⟩ := bind_ok done
  obtain ⟨sound₃, _, rfl, bytes₃⟩ := appends_write sound₂ 1 [0] b₃ closed
  cases done
  have bytes : b₃.bytes = b₁.bytes ++ (body ++ [0]) := by
    rw [bytes₃, bytes₂, append_assoc]
  have counts : (b₃.size : Int) - b.size = (4 + (body ++ [0]).length : Nat) := by
    rw [Bson.size, bytes, bytes₁]
    simp only [Bson.size, length_append, length_cons, length_nil]
    omega
  obtain ⟨sound', field, count, whole⟩ :=
    writeLength_spec sound₃ bytes₁ bytes counts (Nat.le_refl _)
  refine ⟨sound', _, .intro field body inside ?_, whole⟩
  rwa [length_append, count.size]

theorem appends_appendPlain (sound : b.Sound) (str key : List UInt8) (clean : 0 ∉ key) :
    Appends b (Element key (.string str)) (appendPlain b str key) := by
  refine Appends.bind (appends_appendKey sound bsonString key) ?_
  rintro b₀ _ sound₀ rfl b' done
  obtain ⟨⟨off, b₁⟩, reserved, done⟩ := bind_ok done
  obtain ⟨rfl, sound₁, bytes₁⟩ := reserveLength_spec sound₀ reserved
  obtain ⟨b₂, written, done⟩ := bind_ok done
  obtain ⟨sound₂, _, rfl, bytes₂⟩ := appends_write sound₁ _ (str ++ [0]) b₂ written
  cases done
  have counts : (str.length : Int) + 1 = (str ++ [0]).length := by
    rw [length_append]
    rfl
  obtain ⟨sound', field, count, whole⟩ :=
    writeLength_spec sound₂ bytes₁ bytes₂ counts (Nat.le_add_left ..)
  exact ⟨sound', _, fun more rest others => .scalar clean (.string str field count) others, whole⟩

end Buffer

section Values
variable {one : Bson → Value → List UInt8 → Except Error Bson} {b : Bson} {key : List UInt8}

theorem appends_scalar {payload : List UInt8} {v : Value} {type : UInt8} (sound : b.Sound)
    (clean : 0 ∉ key) (scalar : Scalar v type payload) (sz : Nat) :
    Appends b (Element key v)
      (do push (← bsonReserve (← appendKey b type key) sz) payload) := by
  refine Appends.bind (appends_appendKey sound type key) ?_
  rintro b' _ sound' rfl
  refine (appends_write sound' sz payload).mono ?_
  rintro _ rfl
  exact fun _ _ others => .scalar clean scalar others

theorem appends_appendNumber (sound : b.Sound) (clean : 0 ∉ key) (n : Int64 ⊕ UInt64) :
    Appends b (Element key (n.elim .integer .real)) (appendNumber b key n) := by
  cases n with
  | inl i =>
    rw [appendNumber]
    split
    next small => exact appends_scalar sound clean (.int32 i small) 4
    next => exact appends_scalar sound clean (.int64 i) 8
  | inr d => exact appends_scalar sound clean (.real d) 8

theorem appends_boolean (sound : b.Sound) (clean : 0 ∉ key) (x : Bool) :
    Appends b (Element key (.boolean x))
      (do writeByte (← appendKey b bsonBoolean key) (if x then 1 else 0)) :=
  appends_scalar sound clean (.boolean x) 1

theorem appends_appendString (sound : b.Sound) {s : List UInt8} (first : s.head? ≠ some 0)
    (clean : 0 ∉ key) : Appends b (Element key (.string s)) (appendString b s key) := by
  unfold appendString
  split
  · exact absurd rfl first
  · exact appends_appendPlain sound s key clean

/-- Every supported value is appended as an element. -/
def Encoder (one : Bson → Value → List UInt8 → Except Error Bson) : Prop :=
  ∀ b v key, b.Sound → Supported v → 0 ∉ key → Appends b (Element key v) (one b v key)

/-- The loops of both kinds of documents, by the list that they go through. -/
theorem appends_fields {A : Type} (encoder : Encoder one) (field : A → List UInt8 × Value)
    {step : Bson → A → Except Error Bson} {l : List A}
    (steps : ∀ a ∈ l, ∀ b, step b a = one b (field a).2 (field a).1)
    (supported : ∀ a ∈ l, Supported (field a).2) (clean : ∀ a ∈ l, 0 ∉ (field a).1)
    (sound : b.Sound) : Appends b (Elements (l.map field)) (l.foldlM step b) := by
  induction l generalizing b with
  | nil =>
    intro b' done
    cases done
    exact ⟨sound, [], .nil, (append_nil _).symm⟩
  | cons a l ih =>
    have here := mem_cons_self (a := a) (l := l)
    rw [foldlM_cons, steps a here]
    have first := encoder b _ _ sound (supported a here) (clean a here)
    refine Appends.bind first fun b' bytes sound' element => ?_
    have rest := ih (fun a' member => steps a' (mem_cons_of_mem a member))
      (fun a' member => supported a' (mem_cons_of_mem a member))
      (fun a' member => clean a' (mem_cons_of_mem a member)) sound'
    exact rest.mono fun rest others => element _ rest others

end Values

end Skynet.LuaBson
