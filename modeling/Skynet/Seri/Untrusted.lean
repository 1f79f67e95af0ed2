import Skynet.Seri.Pack

/-! luaseri_unpack on any block of bytes. The read block carries a record of what happens to
it, also up to an error: the moves of its position, the lengths of four bytes that announce
strings, how deep tables are nested, and the slots of the Lua stack in use. A table is given by
the values read for it, because lua_rawset takes any key but NaN. -/
namespace Skynet.Seri.Untrusted
open Base

inductive Item where
  | nil
  | boolean (b : Bool)
  | integer (n : Int64)
  | real (bits : UInt64)
  | string (s : List UInt8)
  | lightuserdata (p : UInt64)
  | table (array : List Item) (fields : List (Item × Item))

def Item.isNil : Item → Bool
  | .nil => true
  | _ => false

def Item.isNaN : Item → Bool
  | .real bits => Lua.isNaN bits
  | _ => false

/-- A successful rb_read: the position before it and after it. -/
structure Move where
  start : Int
  stop : Int
  deriving DecidableEq, Repr

structure Tape where
  buffer : List UInt8
  len : Int
  ptr : Int
  moves : List Move
  lengths : List Nat
  depth : Nat
  deepest : Nat
  top : Nat

/-- An error of Lua, that of luaL_checkstack among them, the C stack used up by nested tables,
or a loop longer than its bound. -/
inductive Stop where
  | lua (cause : Error)
  | luaStack
  | cStack
  | exhausted
  deriving DecidableEq, Repr

def Stop.Raised : Stop → Prop
  | .lua _ => True
  | .luaStack => True
  | .cStack => False
  | .exhausted => False

abbrev Reading : Type → Type := EStateM Stop Tape

def rbRead (sz : Int) : Reading (Option (List UInt8)) := fun t =>
  if t.len < sz then .ok none t
  else
    .ok (some ((t.buffer.drop t.ptr.toNat).take sz.toNat)) { t with
      ptr := t.ptr + sz
      len := t.len - sz
      moves := ⟨t.ptr, t.ptr + sz⟩ :: t.moves }

def invalidStream {α : Type} (line : Nat) : Reading α := fun t =>
  .error (.lua (.invalidStream t.len line)) t

def rbReadOr (line : Nat) (sz : Int) : Reading (List UInt8) := do
  match ← rbRead sz with
  | some bytes => return bytes
  | none => invalidStream line

def getInteger (cookie : Nat) : Reading Int64 :=
  if cookie = typeNumberZero then pure 0
  else if cookie = typeNumberByte then
    rbReadOr 366 1 >>= fun bytes => pure (Int64.ofInt (leValue bytes))
  else if cookie = typeNumberWord then
    rbReadOr 374 2 >>= fun bytes => pure (Int64.ofInt (leValue bytes))
  else if cookie = typeNumberDword then
    rbReadOr 382 4 >>= fun bytes => pure (Int64.ofInt (signed 32 (leValue bytes)))
  else if cookie = typeNumberQword then
    rbReadOr 390 8 >>= fun bytes => pure (Int64.ofInt (signed 64 (leValue bytes)))
  else invalidStream 395

def getReal : Reading UInt64 :=
  rbReadOr 405 8 >>= fun bytes => pure (UInt64.ofNat (leValue bytes))

def getPointer : Reading UInt64 :=
  rbReadOr 415 8 >>= fun bytes => pure (UInt64.ofNat (leValue bytes))

/- A negative length is a size_t that lua_pushlstring refuses before it reads. -/
def getBuffer (len : Int) : Reading Item :=
  rbReadOr 425 len >>= fun bytes =>
    if len < 0 then throw (.lua .tooLong) else pure (.string bytes)

def note (n : Nat) : Reading Unit := modify fun t => { t with lengths := n :: t.lengths }

/- The length of four bytes is narrowed to int. -/
def getLongBuffer (n : Nat) : Reading Item := note n >>= fun _ => getBuffer (signed 32 n)

def luaiMaxstack : Nat := 1000000

def extraStack : Nat := 5

def luaMinstack : Nat := 20

/-- luaL_checkstack for LUA_MINSTACK slots. -/
def checkStack : Reading Unit := fun t =>
  if luaiMaxstack - luaMinstack < t.top + extraStack then .error .luaStack t else .ok () t

def grow : Reading Unit := modify fun t => { t with top := t.top + 1 }

def pop (n : Nat) : Reading Unit := modify fun t => { t with top := t.top - n }

/- A call of unpack_table takes its frame of the C stack, which holds so many of them;
without a limit it holds any number. -/
def enter (frames : Option Nat) : Reading Unit := fun t =>
  if ∃ limit ∈ frames, limit ≤ t.depth then .error .cStack t
  else .ok () { t with depth := t.depth + 1, deepest := max t.deepest (t.depth + 1) }

def leave : Reading Unit := modify fun t => { t with depth := t.depth - 1 }

def arraySize (cookie : Nat) : Reading Int :=
  if cookie = maxCookie - 1 then
    rbReadOr 438 1 >>= fun bytes =>
      let type := leValue bytes
      if type &&& 7 ≠ typeNumber ∨ type >>> 3 = typeNumberReal then invalidStream 443
      else getInteger (type >>> 3) >>= fun n => pure (signed 32 n.toInt)
  else pure cookie

section Table
variable (unpackOne : Reading Item)

def unpackArray : Nat → Reading (List Item)
  | 0 => pure []
  | n + 1 =>
    unpackOne >>= fun v => pop 1 >>= fun _ => unpackArray n >>= fun vs => pure (v :: vs)

def unpackFields : Nat → Reading (List (Item × Item))
  | 0 => throw .exhausted
  | rounds + 1 =>
    unpackOne >>= fun k =>
      if k.isNil then pop 1 >>= fun _ => pure []
      else
        unpackOne >>= fun v =>
          if k.isNaN then throw (.lua .keyIsNaN)
          else pop 2 >>= fun _ => unpackFields rounds >>= fun rest => pure ((k, v) :: rest)

/- Every key takes at least one byte, so the bytes left bound the rounds. -/
def unpackHash : Reading (List (Item × Item)) := fun t =>
  unpackFields unpackOne (t.len.toNat + 1) t

def unpackTable (frames : Option Nat) (cookie : Nat) : Reading Item :=
  enter frames >>= fun _ =>
    arraySize cookie >>= fun size =>
      checkStack >>= fun _ =>
        grow >>= fun _ =>
          unpackArray unpackOne size.toNat >>= fun array =>
            unpackHash unpackOne >>= fun fields =>
              leave >>= fun _ => pure (.table array fields)

def pushed (value : Reading Item) : Reading Item := value >>= fun v => grow >>= fun _ => pure v

def pushValue (frames : Option Nat) (type cookie : Nat) : Reading Item :=
  if type = typeNil then pushed (pure .nil)
  else if type = typeBoolean then pushed (pure (.boolean (cookie ≠ 0)))
  else if type = typeNumber then
    if cookie = typeNumberReal then pushed (getReal >>= fun bits => pure (.real bits))
    else pushed (getInteger cookie >>= fun n => pure (.integer n))
  else if type = typeUserdata then pushed (getPointer >>= fun p => pure (.lightuserdata p))
  else if type = typeShortString then pushed (getBuffer cookie)
  else if type = typeLongString then
    if cookie = 2 then pushed (rbReadOr 491 2 >>= fun bytes => getBuffer (leValue bytes))
    else if cookie ≠ 4 then invalidStream 498
    else pushed (rbReadOr 502 4 >>= fun bytes => getLongBuffer (leValue bytes))
  else if type = typeTable then unpackTable unpackOne frames cookie
  else invalidStream 515

end Table

/-- Every value takes at least one byte, so as many rounds as bytes are enough. -/
def unpackOne (frames : Option Nat) : Nat → Reading Item
  | 0 => throw .exhausted
  | rounds + 1 =>
    rbReadOr 526 1 >>= fun bytes =>
      pushValue (unpackOne frames rounds) frames (leValue bytes &&& 7) (leValue bytes >>> 3)

/- The stack is looked at before every eighth value. -/
def checkEighth (i : Nat) : Reading Unit := if i % 8 = 7 then checkStack else pure ()

def unpackValues (frames : Option Nat) (fuel : Nat) : Nat → Nat → Reading (List Item)
  | 0, _ => throw .exhausted
  | rounds + 1, i =>
    checkEighth i >>= fun _ =>
      rbRead 1 >>= fun
        | none => pure []
        | some bytes =>
          pushValue (unpackOne frames fuel) frames (leValue bytes &&& 7) (leValue bytes >>> 3) >>=
            fun v => unpackValues frames fuel rounds (i + 1) >>= fun vs => pure (v :: vs)

/-- The block before the first read, with `used` slots of the Lua stack in use. -/
def rballInit (used : Nat) (block : List UInt8) (len : Int) : Tape :=
  ⟨block, len, 0, [], [], 0, 0, used⟩

def unpackBlock (frames : Option Nat) (used : Nat) (block : List UInt8) (len : Int) :
    EStateM.Result Stop Tape (List Item) :=
  if len = 0 then .ok [] (rballInit used block len)
  else unpackValues frames (block.length + 1) (block.length + 1) 0 (rballInit used block len)

/-- The length of the block is narrowed to int. -/
def luaseriUnpack (frames : Option Nat) (used : Nat) (block : List UInt8) :
    EStateM.Result Stop Tape (List Item) :=
  unpackBlock frames used block (signed 32 block.length)

/-- A part of the record at the end, whatever the end is. -/
def recorded {α γ : Type} (part : Tape → γ) : EStateM.Result Stop Tape α → γ
  | .ok _ t => part t
  | .error _ t => part t

/-- The call returns values or raises an error of Lua. -/
def Ends {α : Type} : EStateM.Result Stop Tape α → Prop
  | .ok _ _ => True
  | .error e _ => e.Raised

/-- The position stays in the block and does not go back. -/
def Move.Forward (size : Nat) (m : Move) : Prop :=
  0 ≤ m.start ∧ m.start ≤ m.stop ∧ m.stop ≤ size

/-- With a C stack for so many nested tables and so many slots of the Lua stack in use. -/
def SafeOn (frames used : Nat) (block : List UInt8) : Prop :=
  Ends (luaseriUnpack (some frames) used block) ∧
    ∀ m ∈ recorded Tape.moves (luaseriUnpack (some frames) used block), m.Forward block.length

/-- The lengths of four bytes and the nesting that the call meets when the C stack does not
stop it. -/
def lengths (used : Nat) (block : List UInt8) : List Nat :=
  recorded Tape.lengths (luaseriUnpack none used block)

def nesting (used : Nat) (block : List UInt8) : Nat :=
  recorded Tape.deepest (luaseriUnpack none used block)

end Skynet.Seri.Untrusted
