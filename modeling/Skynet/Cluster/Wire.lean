import Skynet.Base.LittleEndian
import Skynet.Base.Memory

/-! The frames of lua-cluster.c. Each of the packing functions fills a buffer on its stack,
whose contents are anything at first, and returns the start of it as a string. -/
namespace Skynet.Cluster
open Base

def tempLength : Nat := 0x8200
def multiPart : Nat := 0x8000

/-- What lua_type finds as the address. -/
inductive Address where
  | number (n : Int)
  | name (s : List UInt8)
  | other
  deriving DecidableEq, Repr

inductive Error where
  | assertion
  | overrun
  | outOfMemory
  | invalidRequest
  | invalidSession (session : Int)
  | nameTooLong (name : Option (List UInt8))
  | invalidSize (sz : Nat)
  | invalidMulti (sz : Nat)
  | invalidPart
  | invalidType (t : UInt8)
  deriving DecidableEq, Repr

/- The first three are no errors of Lua: an assertion fails, an array is left, and no memory
is found for a length that has become negative. -/
def Error.message : Error → String
  | .assertion => "assertion sz < 0x10000"
  | .overrun => ""
  | .outOfMemory => ""
  | .invalidRequest => "Invalid request message"
  | .invalidSession session => "Invalid request session " ++ toString session
  | .nameTooLong none => "name is too long (null)"
  | .nameTooLong (some name) =>
    "name is too long " ++ String.ofList (name.map fun b => Char.ofNat b.toNat)
  | .invalidSize sz => "Invalid cluster message (size=" ++ toString sz ++ ")"
  | .invalidMulti sz =>
    "Invalid cluster message size " ++ toString sz ++ " (multi req must be 13)"
  | .invalidPart => "Invalid cluster multi part message"
  | .invalidType t => "Invalid req package type " ++ toString (signed 8 t.toNat)

abbrev Buffer := Nat → UInt8

section Fill

def put (buf : Buffer) (pos : Nat) (bytes : List UInt8) : Except Error Buffer :=
  if pos + bytes.length ≤ tempLength then .ok (store buf pos bytes) else .error .overrun

def setByte (buf : Buffer) (pos : Nat) (b : UInt8) : Except Error Buffer := put buf pos [b]

def fillUint32 (buf : Buffer) (pos n : Nat) : Except Error Buffer := put buf pos (leBytes 4 n)

/- The length of a frame, high byte first. -/
def header (sz : Nat) : List UInt8 := [(sz >>> 8 &&& 0xff).toUInt8, (sz &&& 0xff).toUInt8]

def fillHeader (buf : Buffer) (sz : Nat) : Except Error Buffer :=
  if sz < 0x10000 then put buf 0 (header sz) else .error .assertion

def memcpy (buf : Buffer) (pos : Nat) (msg : List UInt8) (ptr sz : Nat) : Except Error Buffer :=
  if ptr + sz ≤ msg.length then put buf pos ((msg.drop ptr).take sz) else .error .overrun

end Fill

section Pack
variable (stack : Buffer)

/-- The frame, and how many parts have to follow. -/
def packreqNumber (addr : Int) (session : Nat) (msg : List UInt8) (sz : Nat) :
    Except Error (List UInt8 × Nat) :=
  let addr := (addr % 2 ^ 32).toNat
  if sz < multiPart then do
    let buf ← fillHeader stack (sz + 9)
    let buf ← setByte buf 2 0
    let buf ← fillUint32 buf 3 addr
    let buf ← fillUint32 buf 7 session
    let buf ← memcpy buf 11 msg 0 sz
    return (window buf 0 (11 + sz), 0)
  else do
    let part := (sz - 1) / multiPart + 1
    let buf ← fillHeader stack 13
    let buf ← setByte buf 2 1
    let buf ← fillUint32 buf 3 addr
    let buf ← fillUint32 buf 7 session
    let buf ← fillUint32 buf 11 sz
    return (window buf 0 15, part)

def packreqString (name : List UInt8) (session : Nat) (msg : List UInt8) (sz : Nat) :
    Except Error (List UInt8 × Nat) :=
  let namelen := name.length
  if namelen < 1 ∨ namelen > 255 then .error (.nameTooLong (some name))
  else if sz < multiPart then do
    let buf ← fillHeader stack (sz + 6 + namelen)
    let buf ← setByte buf 2 0x80
    let buf ← setByte buf 3 namelen.toUInt8
    let buf ← put buf 4 name
    let buf ← fillUint32 buf (4 + namelen) session
    let buf ← memcpy buf (8 + namelen) msg 0 sz
    return (window buf 0 (8 + namelen + sz), 0)
  else do
    let part := (sz - 1) / multiPart + 1
    let buf ← fillHeader stack (10 + namelen)
    let buf ← setByte buf 2 0x81
    let buf ← setByte buf 3 namelen.toUInt8
    let buf ← put buf 4 name
    let buf ← fillUint32 buf (4 + namelen) session
    let buf ← fillUint32 buf (8 + namelen) sz
    return (window buf 0 (12 + namelen), part)

/- The loop over the parts: how many are left, the size left and where the next one starts. -/
def packreqParts (session : Nat) (msg : List UInt8) : Nat → Buffer → Nat → Nat →
    Except Error (List (List UInt8))
  | 0, _, _, _ => .ok []
  | parts + 1, buf, sz, ptr => do
    let s := if sz > multiPart then multiPart else sz
    let buf ← setByte buf 2 (if sz > multiPart then 2 else 3)
    let buf ← fillHeader buf (s + 5)
    let buf ← fillUint32 buf 3 session
    let buf ← memcpy buf 7 msg ptr s
    let rest ← packreqParts session msg parts buf (sz - s) (ptr + s)
    return window buf 0 (7 + s) :: rest

def packreqMulti (session : Nat) (msg : List UInt8) (sz : Nat) :
    Except Error (List (List UInt8)) :=
  packreqParts session msg ((sz - 1) / multiPart + 1) stack sz 0

structure Request where
  request : List UInt8
  nextSession : Int
  padding : Option (List (List UInt8))
  deriving DecidableEq, Repr

/- The increment of an int, where it wraps. -/
def nextSession (session : Int) : Int :=
  if signed 32 (session + 1) < 0 then 1 else signed 32 (session + 1)

def lpackrequest (addr : Address) (session : Int) (msg : Option (List UInt8)) (sz : Int) :
    Except Error Request :=
  match msg with
  | none => .error .invalidRequest
  | some msg => do
    let sz := (sz % 2 ^ 32).toNat
    let session := signed 32 session
    if session ≤ 0 then
      throw (.invalidSession session)
    let current := session.toNat
    let (request, multipak) ←
      match addr with
      | .number n => packreqNumber stack n current msg sz
      | .name s => packreqString stack s current msg sz
      | .other => .error (.nameTooLong none)
    if multipak ≠ 0 then
      let padding ← packreqMulti stack current msg sz
      return ⟨request, nextSession session, some padding⟩
    else return ⟨request, nextSession session, none⟩

end Pack

/-- A message on its way: the announced size of a large one, or bytes. -/
inductive Piece where
  | size (n : Nat)
  | bytes (l : List UInt8)
  deriving DecidableEq, Repr

section Unpack

def unpackUint32 (buf : List UInt8) (pos : Nat) : Nat := leValue ((buf.drop pos).take 4)

/-- No address is false, and no padding is nil or false. -/
structure Unpacked where
  addr : Option Address
  session : Nat
  msg : Piece
  padding : Bool
  deriving DecidableEq, Repr

def unpackreqNumber (buf : List UInt8) (sz : Nat) : Except Error Unpacked :=
  if sz < 9 then .error (.invalidSize sz)
  else .ok ⟨some (.number (unpackUint32 buf 1)), unpackUint32 buf 5,
    .bytes ((buf.drop 9).take (sz - 9)), false⟩

def unpackmreqNumber (buf : List UInt8) (sz : Nat) : Except Error Unpacked :=
  if sz ≠ 13 then .error (.invalidMulti sz)
  else .ok ⟨some (.number (unpackUint32 buf 1)), unpackUint32 buf 5,
    .size (unpackUint32 buf 9), true⟩

def unpackmreqPart (buf : List UInt8) (sz : Nat) : Except Error Unpacked :=
  if sz < 5 then .error .invalidPart
  else .ok ⟨none, unpackUint32 buf 1, .bytes ((buf.drop 5).take (sz - 5)), buf.headD 0 = 2⟩

def unpackreqString (buf : List UInt8) (sz : Nat) : Except Error Unpacked :=
  let namesz := (buf.getD 1 0).toNat
  if sz < 2 then .error (.invalidSize sz)
  else if sz < namesz + 6 then .error (.invalidSize sz)
  else .ok ⟨some (.name ((buf.drop 2).take namesz)), unpackUint32 buf (namesz + 2),
    .bytes ((buf.drop (2 + namesz + 4)).take (sz - namesz - 6)), false⟩

def unpackmreqString (buf : List UInt8) (sz : Nat) : Except Error Unpacked :=
  let namesz := (buf.getD 1 0).toNat
  if sz < 2 then .error (.invalidSize sz)
  else if sz < namesz + 10 then .error (.invalidSize sz)
  else .ok ⟨some (.name ((buf.drop 2).take namesz)), unpackUint32 buf (namesz + 2),
    .size (unpackUint32 buf (namesz + 6)), true⟩

/-- An empty string has a zero after it. -/
def lunpackrequest (msg : List UInt8) : Except Error Unpacked :=
  let sz := msg.length
  match msg.headD 0 with
  | 0 => unpackreqNumber msg sz
  | 1 => unpackmreqNumber msg sz
  | 2 => unpackmreqPart msg sz
  | 3 => unpackmreqPart msg sz
  | 0x80 => unpackreqString msg sz
  | 0x81 => unpackmreqString msg sz
  | t => .error (.invalidType t)

end Unpack

section Response
variable (stack : Buffer)

inductive Response where
  | string (frame : List UInt8)
  | table (frames : List (List UInt8))
  deriving DecidableEq, Repr

def Response.frames : Response → List (List UInt8)
  | .string frame => [frame]
  | .table frames => frames

/- The parts of a large response. -/
def packParts (session : Nat) (msg : List UInt8) : Nat → Buffer → Nat → Nat →
    Except Error (List (List UInt8))
  | 0, _, _, _ => .ok []
  | parts + 1, buf, sz, ptr => do
    let s := if sz > multiPart then multiPart else sz
    let buf ← setByte buf 6 (if sz > multiPart then 3 else 4)
    let buf ← fillHeader buf (s + 5)
    let buf ← fillUint32 buf 2 session
    let buf ← memcpy buf 7 msg ptr s
    let rest ← packParts session msg parts buf (sz - s) (ptr + s)
    return window buf 0 (7 + s) :: rest

def packLarge (session : Nat) (msg : List UInt8) (sz : Nat) :
    Except Error (List (List UInt8)) := do
  let part := (sz - 1) / multiPart + 1
  let buf ← fillHeader stack 9
  let buf ← fillUint32 buf 2 session
  let buf ← setByte buf 6 2
  let buf ← fillUint32 buf 7 sz
  let rest ← packParts session msg part buf sz 0
  return window buf 0 11 :: rest

def packSmall (session : Nat) (ok : Bool) (msg : List UInt8) (sz : Nat) :
    Except Error (List UInt8) := do
  let buf ← fillHeader stack (sz + 5)
  let buf ← fillUint32 buf 2 session
  let buf ← setByte buf 6 (if ok then 1 else 0)
  let buf ← memcpy buf 7 msg 0 sz
  return window buf 0 (7 + sz)

def lpackresponse (session : Int) (ok : Bool) (msg : List UInt8) : Except Error Response :=
  let session := (session % 2 ^ 32).toNat
  let sz := msg.length
  if ok then
    if sz > multiPart then (packLarge stack session msg sz).map .table
    else (packSmall stack session ok msg sz).map .string
  else (packSmall stack session ok msg (if sz > multiPart then multiPart else sz)).map .string

structure Answer where
  session : Nat
  ok : Bool
  msg : Piece
  padding : Bool
  deriving DecidableEq, Repr

def lunpackresponse (buf : List UInt8) : Option Answer :=
  let sz := buf.length
  let session := unpackUint32 buf 0
  if sz < 5 then none
  else
    match buf.getD 4 0 with
    | 0 => some ⟨session, false, .bytes (buf.drop 5), false⟩
    | 1 => some ⟨session, true, .bytes (buf.drop 5), false⟩
    | 4 => some ⟨session, true, .bytes (buf.drop 5), false⟩
    | 2 => if sz ≠ 9 then none else some ⟨session, true, .size (unpackUint32 buf 5), true⟩
    | 3 => some ⟨session, true, .bytes (buf.drop 5), true⟩
    | _ => none

end Response

section Concat

/- The loop ends at the first entry that is no string. -/
def concatParts (sz : Nat) : List Piece → List UInt8 → Option (List UInt8)
  | .bytes str :: rest, buff =>
    if str.length + buff.length > sz then none else concatParts sz rest (buff ++ str)
  | _, buff => if buff.length ≠ sz then none else some buff

def lconcat (req : List Piece) : Except Error (Option (List UInt8)) :=
  match req with
  | .size n :: rest =>
    let sz := signed 32 n
    if sz < 0 then .error .outOfMemory else .ok (concatParts sz.toNat rest [])
  | _ => .ok none

end Concat

end Skynet.Cluster
