import Skynet.Base.Decimal
import Skynet.Base.LittleEndian
import Skynet.Lua.Value

/-! Encoding Lua tables as documents in lua-bson.c. Tables have no metatables, and no value is
a full userdata. -/
namespace Skynet.LuaBson
open Base Lua

def defaultCap : Nat := 64
def maxDepth : Nat := 128
def intMax : Nat := 2 ^ 31 - 1

def bsonReal : UInt8 := 1
def bsonString : UInt8 := 2
def bsonDocument : UInt8 := 3
def bsonArray : UInt8 := 4
def bsonBinary : UInt8 := 5
def bsonObjectid : UInt8 := 7
def bsonBoolean : UInt8 := 8
def bsonDate : UInt8 := 9
def bsonNull : UInt8 := 10
def bsonRegex : UInt8 := 11
def bsonDbpointer : UInt8 := 12
def bsonJscode : UInt8 := 13
def bsonSymbol : UInt8 := 14
def bsonCodews : UInt8 := 15
def bsonInt32 : UInt8 := 16
def bsonTimestamp : UInt8 := 17
def bsonInt64 : UInt8 := 18
def bsonMinkey : UInt8 := 255
def bsonMaxkey : UInt8 := 127

inductive Error where
  | overflow
  | outOfBounds
  | exhausted
  | tableExpected
  | tooDepth
  | invalidNext
  | invalidKeyType (typename : String)
  | invalidValueType (typename : String)
  | invalidObjectId (id : List UInt8)
  | invalidDate
  | invalidTimestamp
  | invalidSubtype (subt : UInt8)
  | invalidBlock (size sz : Int)
  | invalidCstring
  | invalidEnd
  | invalidString (length : Int)
  | invalidType (bt : UInt8)
  | tooLong
  deriving DecidableEq, Repr

/- The first three are no errors of Lua: signed overflow, an access outside of the memory that
the code has, and a loop that runs longer than its bound. -/
def Error.message : Error → String
  | .overflow => ""
  | .outOfBounds => ""
  | .exhausted => ""
  | .tableExpected => "table expected"
  | .tooDepth => "Too depth while encoding bson"
  | .invalidNext => "invalid key to 'next'"
  | .invalidKeyType typename => "Invalid key type : " ++ typename
  | .invalidValueType typename => "Invalid value type : " ++ typename
  | .invalidObjectId id =>
    "Invalid object id " ++ String.ofList (id.map fun b => Char.ofNat b.toNat)
  | .invalidDate => "Invalid date"
  | .invalidTimestamp => "Invalid timestamp"
  | .invalidSubtype subt => "Invalid subtype " ++ toString subt.toNat
  | .invalidBlock size sz =>
    "Invalid bson block (" ++ toString size ++ ":" ++ toString sz ++ ")"
  | .invalidCstring => "Invalid bson block : cstring"
  | .invalidEnd => "Invalid document end"
  | .invalidString length => "Invalid bson string , length = " ++ toString length
  | .invalidType bt => "Invalid bson type : " ++ toString bt.toNat
  | .tooLong => "memory allocation error: block too big"

/-- What is written, and how much there is room for. -/
structure Bson where
  bytes : List UInt8
  cap : Nat
  deriving DecidableEq, Repr

def Bson.size (b : Bson) : Nat := b.bytes.length

def bsonCreate : Bson := ⟨[], defaultCap⟩

/- The loop doubles the capacity, an int, so 31 rounds are enough. -/
def grow (need : Int) : Nat → Nat → Except Error Nat
  | 0, _ => .error .overflow
  | rounds + 1, cap =>
    if intMax < cap * 2 then .error .overflow
    else if cap * 2 ≤ need then grow need rounds (cap * 2)
    else .ok (cap * 2)

/-- The size_t that the callers pass becomes an int. -/
def bsonReserve (b : Bson) (sz : Nat) : Except Error Bson :=
  let need := b.size + signed 32 sz
  if intMax < need then .error .overflow
  else if need ≤ b.cap then .ok b
  else (grow need 31 b.cap).map fun cap => { b with cap }

def push (b : Bson) (bytes : List UInt8) : Except Error Bson :=
  if b.size + bytes.length ≤ b.cap then .ok { b with bytes := b.bytes ++ bytes }
  else .error .outOfBounds

def writeByte (b : Bson) (v : UInt8) : Except Error Bson := do
  push (← bsonReserve b 1) [v]

def writeInt32 (b : Bson) (v : Int) : Except Error Bson := do
  push (← bsonReserve b 4) (leBytes 4 (v % 2 ^ 32).toNat)

def writeLength (b : Bson) (v : Int) (off : Nat) : Bson :=
  { b with
    bytes := b.bytes.take off ++ (leBytes 4 (v % 2 ^ 32).toNat ++ b.bytes.drop (off + 4)) }

def writeString (b : Bson) (key : List UInt8) : Except Error Bson := do
  push (← bsonReserve b (key.length + 1)) (key ++ [0])

/- The four bytes have no value yet. -/
def reserveLength (b : Bson) : Except Error (Nat × Bson) := do
  let b' ← push (← bsonReserve b 4) [0, 0, 0, 0]
  return (b.size, b')

def writeInt64 (b : Bson) (v : Int64) : Except Error Bson := do
  push (← bsonReserve b 8) (leBytes 8 v.toUInt64.toNat)

def writeDouble (b : Bson) (d : UInt64) : Except Error Bson := do
  push (← bsonReserve b 8) (leBytes 8 d.toNat)

def appendKey (b : Bson) (type : UInt8) (key : List UInt8) : Except Error Bson := do
  writeString (← writeByte b type) key

def is32bit (v : Int64) : Bool := -2 ^ 31 ≤ v.toInt ∧ v.toInt < 2 ^ 31

def appendNumber (b : Bson) (key : List UInt8) : Int64 ⊕ UInt64 → Except Error Bson
  | .inl i =>
    if is32bit i then do writeInt32 (← appendKey b bsonInt32 key) i.toInt
    else do writeInt64 (← appendKey b bsonInt64 key) i
  | .inr d => do writeDouble (← appendKey b bsonReal key) d

/- The length leaves out the sub type. -/
def writeBinary (b : Bson) (buffer : List UInt8) : Except Error Bson := do
  let (length, b) ← reserveLength b
  let b ← push (← bsonReserve b buffer.length) buffer
  return writeLength b (buffer.length - 1) length

def writeCopy (b : Bson) (buffer : List UInt8) : Except Error Bson := do
  push (← bsonReserve b buffer.length) buffer

/- The pattern and the options, each followed by a zero byte. Without the first of these the
length that is copied is minus one. -/
def writeRegex (b : Bson) (buffer : List UInt8) : Except Error Bson :=
  let str := buffer.dropLast
  let i := (str.reverse.takeWhile (· ≠ 0)).length
  if buffer = [] ∨ i = str.length then .error .outOfBounds
  else do writeString (← writeString b (str.take (str.length - i - 1))) (str.drop (str.length - i))

/-- A string that starts with a zero byte and the number of a type. -/
def appendObject (b : Bson) (subt : UInt8) (buffer key : List UInt8) : Except Error Bson := do
  let b ← appendKey b subt key
  if subt = bsonBinary then writeBinary b buffer
  else if subt = bsonObjectid then
    if buffer.length ≠ 12 then .error (.invalidObjectId (buffer.takeWhile (· ≠ 0)))
    else writeCopy b buffer
  else if subt = bsonJscode ∨ subt = bsonDbpointer ∨ subt = bsonSymbol ∨ subt = bsonCodews then
    writeCopy b buffer
  else if subt = bsonDate then
    if buffer.length ≠ 4 then .error .invalidDate
    else writeInt64 b (Int64.ofNat (leValue buffer * 1000))
  else if subt = bsonTimestamp then
    if buffer.length ≠ 8 then .error .invalidTimestamp
    else do writeInt32 (← writeInt32 b (leValue (buffer.take 4))) (leValue (buffer.drop 4))
  else if subt = bsonRegex then writeRegex b buffer
  else if subt = bsonMinkey ∨ subt = bsonMaxkey ∨ subt = bsonNull then .ok b
  else .error (.invalidSubtype subt)

def appendPlain (b : Bson) (str key : List UInt8) : Except Error Bson := do
  let b ← appendKey b bsonString key
  let (off, b) ← reserveLength b
  let b ← writeString b str
  return writeLength b (str.length + 1) off

def appendString (b : Bson) (str key : List UInt8) : Except Error Bson :=
  match str with
  | 0 :: subt :: buffer => appendObject b subt buffer key
  | str => appendPlain b str key

/- The table of the first 1024 holds the same texts. -/
def bsonNumstr (i : Nat) : List UInt8 := decimal (i % 2 ^ 32)

def integerText (n : Int64) : List UInt8 :=
  if n.toInt < 0 then 45 :: decimal n.toInt.natAbs else decimal n.toInt.natAbs

def luaNext (entries : List (Key × Value)) (k : Key) : Except Error (Option (Key × Value)) :=
  match entries.dropWhile fun e => e.1 ≠ k with
  | [] => .error .invalidNext
  | _ :: rest => .ok rest.head?

def isRawarray (len : Nat) (entries : List (Key × Value)) : Except Error Bool :=
  if 0 < len then (luaNext entries (.integer (Int64.ofNat len))).map (·.isNone) else .ok false

/- The length of a document is reserved before its elements and written after them. -/
def packDocument (elements : Bson → Except Error Bson) (b : Bson) : Except Error Bson := do
  let (length, b) ← reserveLength b
  let b ← elements b
  let b ← writeByte b 0
  return writeLength b (b.size - length) length

section Table
variable (realText : UInt64 → List UInt8)
  (appendOne : Bson → Value → List UInt8 → Except Error Bson)

def packArray (b : Bson) (len : Nat) (entries : List (Key × Value)) : Except Error Bson :=
  packDocument (fun b => (List.range len).foldlM (fun b i =>
    appendOne b (rawgeti entries (i + 1)) (bsonNumstr i)) b) b

/-- Numbers are keys as lua_tolstring writes them. -/
def packDictData (b : Bson) (k : Key) (v : Value) : Except Error Bson :=
  match k with
  | .integer n => appendOne b v (integerText n)
  | .real d => appendOne b v (realText d)
  | .string key => appendOne b v key
  | .boolean _ => .error (.invalidKeyType "boolean")
  | .lightuserdata _ => .error (.invalidKeyType "userdata")

def packSimpleDict (b : Bson) (entries : List (Key × Value)) : Except Error Bson :=
  packDocument (fun b => entries.foldlM (fun b e =>
    packDictData realText appendOne b e.1 e.2) b) b

def appendTable (b : Bson) (len : Nat) (entries : List (Key × Value)) (key : List UInt8) :
    Except Error Bson := do
  if ← isRawarray len entries then
    packArray appendOne (← appendKey b bsonArray key) len entries
  else packSimpleDict realText appendOne (← appendKey b bsonDocument key) entries

end Table

/-- The number is how far the depth is from its bound. -/
def appendOne (realText : UInt64 → List UInt8) :
    Nat → Bson → Value → List UInt8 → Except Error Bson
  | _, b, .integer n, key => appendNumber b key (.inl n)
  | _, b, .real d, key => appendNumber b key (.inr d)
  | _, b, .string str, key => appendString b str key
  | 0, _, .table .., _ => .error .tooDepth
  | left + 1, b, .table len entries, key =>
    appendTable realText (appendOne realText left) b len entries key
  | _, b, .boolean x, key => do writeByte (← appendKey b bsonBoolean key) (if x then 1 else 0)
  | _, _, .nil, _ => .error (.invalidValueType "nil")
  | _, _, .lightuserdata _, _ => .error (.invalidValueType "userdata")
  | _, _, .unsupported typename, _ => .error (.invalidValueType typename)

def lencode (realText : UInt64 → List UInt8) : Value → Except Error (List UInt8)
  | .table _ entries =>
    (packSimpleDict realText (appendOne realText maxDepth) bsonCreate entries).map (·.bytes)
  | _ => .error .tableExpected

end Skynet.LuaBson
