import Skynet.LuaBson.Encode

/-! Decoding documents in lua-bson.c. The pointers of a reader are offsets into the document;
sizes are ints, and may be negative. -/
namespace Skynet.LuaBson
open Base Lua

structure Reader where
  ptr : Int
  size : Int
  deriving DecidableEq, Repr

/- The result of an addition or a subtraction of ints. -/
def int (n : Int) : Except Error Int :=
  if -2 ^ 31 ≤ n ∧ n < 2 ^ 31 then .ok n else .error .overflow

section Document
variable (doc : List UInt8)

def load (ptr : Int) (n : Nat) : Except Error (List UInt8) :=
  if 0 ≤ ptr ∧ ptr + n ≤ doc.length then .ok ((doc.drop ptr.toNat).take n)
  else .error .outOfBounds

def checkReader (br : Reader) (sz : Int) : Except Error Unit :=
  if br.size < sz then .error (.invalidBlock br.size sz) else .ok ()

def readWord (br : Reader) (n : Nat) : Except Error (Nat × Reader) := do
  checkReader br n
  let bytes ← load doc br.ptr n
  return (leValue bytes, ⟨br.ptr + n, br.size - n⟩)

def readByte (br : Reader) : Except Error (UInt8 × Reader) :=
  (readWord doc br 1).map fun (v, br) => (v.toUInt8, br)

def readInt32 (br : Reader) : Except Error (Int × Reader) :=
  (readWord doc br 4).map fun (v, br) => (signed 32 v, br)

def readInt64 (br : Reader) : Except Error (Int64 × Reader) :=
  (readWord doc br 8).map fun (v, br) => (Int64.ofNat v, br)

def readDouble (br : Reader) : Except Error (UInt64 × Reader) :=
  (readWord doc br 8).map fun (v, br) => (UInt64.ofNat v, br)

/-- Only a pointer: nothing is read of the document. -/
def readBytes (br : Reader) (sz : Int) : Except Error (Int × Reader) := do
  checkReader br sz
  let size ← int (br.size - sz)
  return (br.ptr, ⟨br.ptr + sz, size⟩)

/- From the place `i` on. The document has fewer places than there are rounds. -/
def cstringEnd (br : Reader) : Nat → Nat → Except Error Nat
  | 0, _ => .error .exhausted
  | rounds + 1, i => do
    if (i : Int) = br.size then .error .invalidCstring
    else if (← load doc (br.ptr + i) 1) = [0] then .ok i
    else cstringEnd br rounds (i + 1)

def readCstring (br : Reader) : Except Error (List UInt8 × Reader) := do
  let i ← cstringEnd doc br (doc.length + 1) 0
  let key ← load doc br.ptr i
  return (key, ⟨br.ptr + (i + 1), br.size - (i + 1)⟩)

/- A negative length is too long as a size_t. -/
def pushlstring (ptr sz : Int) : Except Error (List UInt8) :=
  if sz < 0 then .error .tooLong else load doc ptr sz.toNat

def makeObject (type : UInt8) (ptr sz : Int) : Except Error Value := do
  return .string (0 :: type :: (← pushlstring doc ptr sz))

section Value
variable (unpackDict : Bool → Reader → Except Error (Value × Reader))

def unpackString (t : Reader) : Except Error (Value × Reader) := do
  let (sz, t) ← readInt32 doc t
  if sz ≤ 0 then .error (.invalidString sz)
  else
    let (ptr, t) ← readBytes t sz
    return (.string (← pushlstring doc ptr (sz - 1)), t)

def unpackBinary (t : Reader) : Except Error (Value × Reader) := do
  let (sz, t) ← readInt32 doc t
  let (subtype, t) ← readByte doc t
  let (ptr, t) ← readBytes t sz
  return (.string (0 :: bsonBinary :: subtype :: (← pushlstring doc ptr sz)), t)

def unpackDate (t : Reader) : Except Error (Value × Reader) := do
  let (date, t) ← readInt64 doc t
  return (.string (0 :: bsonDate :: leBytes 4 ((date.toInt.tdiv 1000) % 2 ^ 32).toNat), t)

def unpackRegex (t : Reader) : Except Error (Value × Reader) := do
  let (r1, t) ← readCstring doc t
  let (r2, t) ← readCstring doc t
  return (.string (0 :: bsonRegex :: (r1 ++ 0 :: (r2 ++ [0]))), t)

def unpackTimestamp (t : Reader) : Except Error (Value × Reader) := do
  let (inc, t) ← readWord doc t 4
  let (ts, t) ← readWord doc t 4
  return (.string (0 :: bsonTimestamp :: (leBytes 4 inc ++ leBytes 4 ts)), t)

/- The object is what is passed over from its length on: `more` bytes beside those that the
length counts, and four for the length itself. -/
def unpackCounted (bt : UInt8) (more : Int) (t : Reader) : Except Error (Value × Reader) := do
  let (sz, t') ← readInt32 doc t
  let n ← int (sz + more)
  let (_, t') ← readBytes t' n
  return (← makeObject doc bt t.ptr (n + 4), t')

def unpackValue (bt : UInt8) (t : Reader) : Except Error (Value × Reader) :=
  if bt = bsonReal then (readDouble doc t).map fun (d, t) => (.real d, t)
  else if bt = bsonBoolean then (readByte doc t).map fun (x, t) => (.boolean (x ≠ 0), t)
  else if bt = bsonString then unpackString doc t
  else if bt = bsonDocument then unpackDict false t
  else if bt = bsonArray then unpackDict true t
  else if bt = bsonBinary then unpackBinary doc t
  else if bt = bsonObjectid then do
    let (ptr, t) ← readBytes t 12
    return (← makeObject doc bsonObjectid ptr 12, t)
  else if bt = bsonDate then unpackDate doc t
  else if bt = bsonMinkey ∨ bt = bsonMaxkey ∨ bt = bsonNull then .ok (.string [0, bt], t)
  else if bt = bsonRegex then unpackRegex doc t
  else if bt = bsonInt32 then
    (readInt32 doc t).map fun (n, t) => (.integer (Int64.ofInt n), t)
  else if bt = bsonTimestamp then unpackTimestamp doc t
  else if bt = bsonInt64 then (readInt64 doc t).map fun (n, t) => (.integer n, t)
  else if bt = bsonDbpointer then unpackCounted doc bt 12 t
  else if bt = bsonJscode ∨ bt = bsonSymbol then unpackCounted doc bt 0 t
  else if bt = bsonCodews then unpackCounted doc bt (-4) t
  else .error (.invalidType bt)

/-- The key of an array is a number, counted from zero. -/
def entryKey (array : Bool) (key : List UInt8) : Except Error Key :=
  if array then
    let id := strtol key + 1
    if id < 2 ^ 63 then .ok (.integer (Int64.ofInt (signed 32 id))) else .error .overflow
  else .ok (.string key)

def unpackEntries (array : Bool) :
    Nat → List (Key × Value) → Reader → Except Error (List (Key × Value))
  | 0, _, _ => .error .exhausted
  | rounds + 1, entries, t =>
    if t.size = 0 then .ok entries
    else do
      let (bt, t) ← readByte doc t
      let (key, t) ← readCstring doc t
      let k ← entryKey array key
      let (v, t) ← unpackValue doc unpackDict bt t
      unpackEntries array rounds (rawset entries k v) t

end Value

/-- Every document inside takes at least one byte, so as many rounds as bytes are enough. -/
def unpackDict : Nat → Bool → Reader → Except Error (Value × Reader)
  | 0, _, _ => .error .exhausted
  | rounds + 1, array, br => do
    let (sz, br) ← readInt32 doc br
    let n ← int (sz - 5)
    let (bytes, br) ← readBytes br n
    let (last, br) ← readByte doc br
    if last ≠ 0 then .error .invalidEnd
    else
      let entries ← unpackEntries doc (unpackDict rounds) array (doc.length + 1) [] ⟨bytes, n⟩
      return (.table (border entries) entries, br)

def ldecode : Except Error Value := do
  let len ← load doc 0 4
  let (v, _) ← unpackDict doc (doc.length + 1) false ⟨0, signed 32 (leValue len)⟩
  return v

end Document

end Skynet.LuaBson
