import Skynet.Base.LittleEndian
import Skynet.Lua.Value

/-! Packing Lua values in lua-seri.c. The bytes go to a chain of blocks; the earlier blocks
and what is written of the current one stand for the chain. Tables have no __pairs. -/
namespace Skynet.Seri
open Base Lua

def typeNil : Nat := 0
def typeBoolean : Nat := 1
def typeNumber : Nat := 2
def typeNumberZero : Nat := 0
def typeNumberByte : Nat := 1
def typeNumberWord : Nat := 2
def typeNumberDword : Nat := 4
def typeNumberQword : Nat := 6
def typeNumberReal : Nat := 8
def typeUserdata : Nat := 3
def typeShortString : Nat := 4
def typeLongString : Nat := 5
def typeTable : Nat := 6

def maxCookie : Nat := 32
def blockSize : Nat := 128
def maxDepth : Nat := 32

def combineType (t v : Nat) : UInt8 := (t ||| v <<< 3).toUInt8

inductive Error where
  | tooDeep
  | unsupported (typename : String)
  | overflow
  | invalidStream (len : Int) (line : Nat)
  | keyIsNaN
  | keyIsTable
  | tooLong
  | exhausted
  deriving DecidableEq, Repr

/- Overflow and exhausted are no errors of Lua: signed overflow of the length, and a loop
that runs longer than its bound. -/
def Error.message : Error → String
  | .tooDeep => "serialize can't pack too depth table"
  | .unsupported typename => "Unsupport type " ++ typename ++ " to serialize"
  | .overflow => ""
  | .invalidStream len line =>
    "Invalid serialize stream " ++ toString len ++ " (line:" ++ toString line ++ ")"
  | .keyIsNaN => "table index is NaN"
  | .keyIsTable => ""
  | .tooLong => "memory allocation error: block too big"
  | .exhausted => ""

structure WriteBlock where
  full : List (List UInt8)
  current : List UInt8
  len : Nat
  deriving DecidableEq, Repr

def WriteBlock.ptr (b : WriteBlock) : Nat := b.current.length

def wbInit : WriteBlock := ⟨[], [], 0⟩

def WriteBlock.copy (b : WriteBlock) (buf : List UInt8) : WriteBlock :=
  { b with current := b.current ++ buf, len := b.len + buf.length }

/- From the label on: a new block is allocated first. -/
def wbAgain (b : WriteBlock) (buf : List UInt8) : WriteBlock :=
  let b : WriteBlock := ⟨b.full ++ [b.current], [], b.len⟩
  if buf.length ≤ blockSize then b.copy buf
  else wbAgain (b.copy (buf.take blockSize)) (buf.drop blockSize)
termination_by buf.length
decreasing_by
  simp only [blockSize, List.length_drop] at *
  omega

def wbPush (b : WriteBlock) (buf : List UInt8) : WriteBlock :=
  if b.ptr = blockSize then wbAgain b buf
  else if b.ptr + buf.length ≤ blockSize then b.copy buf
  else wbAgain (b.copy (buf.take (blockSize - b.ptr))) (buf.drop (blockSize - b.ptr))

def wbNil (b : WriteBlock) : WriteBlock := wbPush b [typeNil.toUInt8]

def wbBoolean (b : WriteBlock) (boolean : Bool) : WriteBlock :=
  wbPush b [combineType typeBoolean (if boolean then 1 else 0)]

def wbInteger (b : WriteBlock) (v : Int64) : WriteBlock :=
  let x := v.toInt
  if x = 0 then wbPush b [combineType typeNumber typeNumberZero]
  else if x ≠ signed 32 x then
    wbPush (wbPush b [combineType typeNumber typeNumberQword]) (leBytes 8 v.toUInt64.toNat)
  else if x < 0 then
    wbPush (wbPush b [combineType typeNumber typeNumberDword]) (leBytes 4 (x % 2 ^ 32).toNat)
  else if x < 0x100 then
    wbPush (wbPush b [combineType typeNumber typeNumberByte]) (leBytes 1 x.toNat)
  else if x < 0x10000 then
    wbPush (wbPush b [combineType typeNumber typeNumberWord]) (leBytes 2 x.toNat)
  else wbPush (wbPush b [combineType typeNumber typeNumberDword]) (leBytes 4 x.toNat)

def wbReal (b : WriteBlock) (v : UInt64) : WriteBlock :=
  wbPush (wbPush b [combineType typeNumber typeNumberReal]) (leBytes 8 v.toNat)

def wbPointer (b : WriteBlock) (v : UInt64) : WriteBlock :=
  wbPush (wbPush b [typeUserdata.toUInt8]) (leBytes 8 v.toNat)

def wbString (b : WriteBlock) (str : List UInt8) : WriteBlock :=
  let len := str.length
  if len < maxCookie then
    let b := wbPush b [combineType typeShortString len]
    if len > 0 then wbPush b str else b
  else if len < 0x10000 then
    wbPush (wbPush (wbPush b [combineType typeLongString 2]) (leBytes 2 len)) str
  else wbPush (wbPush (wbPush b [combineType typeLongString 4]) (leBytes 4 len)) str

section Table
variable (packOne : WriteBlock → Value → Except Error WriteBlock)

/-- The length is an int. -/
def wbTableArray (b : WriteBlock) (arraySize : Nat) (entries : List (Key × Value)) :
    Except Error WriteBlock :=
  let b :=
    if arraySize ≥ maxCookie - 1 then
      wbInteger (wbPush b [combineType typeTable (maxCookie - 1)]) (Int64.ofNat arraySize)
    else wbPush b [combineType typeTable arraySize]
  (List.range arraySize).foldlM (fun b i => packOne b (rawgeti entries (i + 1))) b

/- The keys that the array part has written are left out. -/
def inArray (arraySize : Nat) : Key → Bool
  | .integer x => x.toInt > 0 ∧ x.toInt ≤ arraySize
  | _ => false

def wbTableHash (b : WriteBlock) (arraySize : Nat) (entries : List (Key × Value)) :
    Except Error WriteBlock :=
  (entries.foldlM (fun b e =>
    if inArray arraySize e.1 then .ok b
    else (packOne b e.1.value).bind fun b => packOne b e.2) b).map wbNil

def wbTable (b : WriteBlock) (len : Nat) (entries : List (Key × Value)) :
    Except Error WriteBlock :=
  (wbTableArray packOne b len entries).bind fun b => wbTableHash packOne b len entries

end Table

/-- The first argument is how far the depth is from its bound. -/
def packOne : Nat → WriteBlock → Value → Except Error WriteBlock
  | 0, _, _ => .error .tooDeep
  | left + 1, b, v =>
    match v with
    | .nil => .ok (wbNil b)
    | .integer x => .ok (wbInteger b x)
    | .real n => .ok (wbReal b n)
    | .boolean x => .ok (wbBoolean b x)
    | .string str => .ok (wbString b str)
    | .lightuserdata p => .ok (wbPointer b p)
    | .table len entries => wbTable (packOne left) b len entries
    | .unsupported typename => .error (.unsupported typename)

def packFrom (b : WriteBlock) (values : List Value) : Except Error WriteBlock :=
  values.foldlM (packOne (maxDepth + 1)) b

/- Copies the chain of blocks to one buffer. -/
def seri (blocks : List (List UInt8)) (len : Nat) : List UInt8 :=
  match blocks with
  | [] => []
  | b :: blocks => if len ≥ blockSize then b ++ seri blocks (len - blockSize) else b.take len

def luaseriPack (values : List Value) : Except Error (List UInt8) :=
  (packFrom wbInit values).bind fun wb =>
    if wb.len ≥ 2 ^ 31 then .error .overflow
    else .ok (if wb.len = 0 then [] else seri (wb.full ++ [wb.current]) wb.len)

end Skynet.Seri
