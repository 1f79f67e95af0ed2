import Skynet.Seri.Pack

/-! Unpacking Lua values in lua-seri.c. -/
namespace Skynet.Seri
open Base Lua

structure ReadBlock where
  buffer : List UInt8
  len : Int
  ptr : Int
  deriving DecidableEq, Repr

def rballInit (buffer : List UInt8) : ReadBlock := ⟨buffer, buffer.length, 0⟩

/-- The bytes read, or nothing when there are not enough. -/
def rbRead (rb : ReadBlock) (sz : Int) : Option (List UInt8 × ReadBlock) :=
  if rb.len < sz then none
  else some ((rb.buffer.drop rb.ptr.toNat).take sz.toNat,
    { rb with ptr := rb.ptr + sz, len := rb.len - sz })

def rbReadOr (line : Nat) (rb : ReadBlock) (sz : Int) : Except Error (List UInt8 × ReadBlock) :=
  match rbRead rb sz with
  | some r => .ok r
  | none => .error (.invalidStream rb.len line)

def getInteger (rb : ReadBlock) (cookie : Nat) : Except Error (Int64 × ReadBlock) :=
  if cookie = typeNumberZero then .ok (0, rb)
  else if cookie = typeNumberByte then
    (rbReadOr 366 rb 1).map fun (bytes, rb) => (Int64.ofInt (leValue bytes), rb)
  else if cookie = typeNumberWord then
    (rbReadOr 374 rb 2).map fun (bytes, rb) => (Int64.ofInt (leValue bytes), rb)
  else if cookie = typeNumberDword then
    (rbReadOr 382 rb 4).map fun (bytes, rb) => (Int64.ofInt (signed 32 (leValue bytes)), rb)
  else if cookie = typeNumberQword then
    (rbReadOr 390 rb 8).map fun (bytes, rb) => (Int64.ofInt (signed 64 (leValue bytes)), rb)
  else .error (.invalidStream rb.len 395)

def getReal (rb : ReadBlock) : Except Error (UInt64 × ReadBlock) :=
  (rbReadOr 405 rb 8).map fun (bytes, rb) => (UInt64.ofNat (leValue bytes), rb)

def getPointer (rb : ReadBlock) : Except Error (UInt64 × ReadBlock) :=
  (rbReadOr 415 rb 8).map fun (bytes, rb) => (UInt64.ofNat (leValue bytes), rb)

/- A negative length is too long as a size_t. -/
def getBuffer (rb : ReadBlock) (len : Int) : Except Error (Value × ReadBlock) :=
  (rbReadOr 425 rb len).bind fun (bytes, rb) =>
    if len < 0 then .error .tooLong else .ok (.string bytes, rb)

section Table
variable (unpackOne : ReadBlock → Except Error (Value × ReadBlock))

def unpackArray : Nat → Nat → List (Key × Value) → ReadBlock →
    Except Error (List (Key × Value) × ReadBlock)
  | 0, _, entries, rb => .ok (entries, rb)
  | n + 1, i, entries, rb =>
    (unpackOne rb).bind fun (v, rb) =>
      unpackArray n (i + 1) (rawset entries (.integer (Int64.ofNat i)) v) rb

/- lua_rawset: the key is a value. -/
def rawsetValue (entries : List (Key × Value)) (k v : Value) :
    Except Error (List (Key × Value)) :=
  let set (k : Key) : Except Error (List (Key × Value)) :=
    match k.normal with
    | some k => .ok (rawset entries k v)
    | none => .error .keyIsNaN
  match k with
  | .boolean b => set (.boolean b)
  | .integer n => set (.integer n)
  | .real bits => set (.real bits)
  | .string s => set (.string s)
  | .lightuserdata p => set (.lightuserdata p)
  | .nil | .table .. | .unsupported _ => .error .keyIsTable

def unpackHash : Nat → List (Key × Value) → ReadBlock →
    Except Error (List (Key × Value) × ReadBlock)
  | 0, _, _ => .error .exhausted
  | rounds + 1, entries, rb =>
    (unpackOne rb).bind fun (k, rb) =>
      if k.isNil then .ok (entries, rb)
      else
        (unpackOne rb).bind fun (v, rb) =>
          (rawsetValue entries k v).bind fun entries => unpackHash rounds entries rb

/- The length of the array, when it does not fit beside the type. -/
def arraySize (rb : ReadBlock) (cookie : Nat) : Except Error (Int × ReadBlock) :=
  if cookie = maxCookie - 1 then
    (rbReadOr 438 rb 1).bind fun (bytes, rb) =>
      let type := leValue bytes
      if type &&& 7 ≠ typeNumber ∨ type >>> 3 = typeNumberReal then
        .error (.invalidStream rb.len 443)
      else (getInteger rb (type >>> 3)).map fun (n, rb) => (signed 32 n.toInt, rb)
  else .ok (cookie, rb)

def unpackTable (rb : ReadBlock) (cookie : Nat) : Except Error (Value × ReadBlock) :=
  (arraySize rb cookie).bind fun (size, rb) =>
    (unpackArray unpackOne size.toNat 1 [] rb).bind fun (entries, rb) =>
      (unpackHash unpackOne (rb.len.toNat + 1) entries rb).map fun (entries, rb) =>
        (.table (border entries) entries, rb)

def pushValue (rb : ReadBlock) (type cookie : Nat) : Except Error (Value × ReadBlock) :=
  if type = typeNil then .ok (.nil, rb)
  else if type = typeBoolean then .ok (.boolean (cookie ≠ 0), rb)
  else if type = typeNumber then
    if cookie = typeNumberReal then (getReal rb).map fun (bits, rb) => (.real bits, rb)
    else (getInteger rb cookie).map fun (n, rb) => (.integer n, rb)
  else if type = typeUserdata then
    (getPointer rb).map fun (p, rb) => (.lightuserdata p, rb)
  else if type = typeShortString then getBuffer rb cookie
  else if type = typeLongString then
    if cookie = 2 then
      (rbReadOr 491 rb 2).bind fun (bytes, rb) => getBuffer rb (leValue bytes)
    else if cookie ≠ 4 then .error (.invalidStream rb.len 498)
    else (rbReadOr 502 rb 4).bind fun (bytes, rb) => getBuffer rb (signed 32 (leValue bytes))
  else if type = typeTable then unpackTable unpackOne rb cookie
  else .error (.invalidStream rb.len 515)

end Table

/-- Every value takes at least one byte, so as many rounds as bytes are enough. -/
def unpackOne : Nat → ReadBlock → Except Error (Value × ReadBlock)
  | 0, _ => .error .exhausted
  | rounds + 1, rb =>
    (rbReadOr 526 rb 1).bind fun (bytes, rb) =>
      pushValue (unpackOne rounds) rb (leValue bytes &&& 7) (leValue bytes >>> 3)

/- The loop of luaseri_unpack ends when no byte is left. -/
def unpackValues (fuel : Nat) : Nat → ReadBlock → Except Error (List Value × ReadBlock)
  | 0, _ => .error .exhausted
  | rounds + 1, rb =>
    match rbRead rb 1 with
    | none => .ok ([], rb)
    | some (bytes, rb) =>
      (pushValue (unpackOne fuel) rb (leValue bytes &&& 7) (leValue bytes >>> 3)).bind
        fun (v, rb) => (unpackValues fuel rounds rb).map fun (vs, rb) => (v :: vs, rb)

/-- The values, and where reading has stopped. -/
def luaseriUnpack (buffer : List UInt8) : Except Error (List Value × ReadBlock) :=
  if buffer.length = 0 then .ok ([], rballInit buffer)
  else unpackValues buffer.length (buffer.length + 1) (rballInit buffer)

end Skynet.Seri
