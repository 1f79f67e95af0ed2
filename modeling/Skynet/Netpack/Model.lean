import Skynet.Base.Ring
import Skynet.Base.Bucket

/-! The packet queue of lua-netpack.c. The queue is a userdata at the first place of the Lua
stack, nil before it is needed. The bytes of a buffer are those written to it so far. -/
namespace Skynet.LuaNetpack
open Base

def queuesize : Nat := 1024
def hashsize : Nat := 4096

structure Netpack where
  id : Int
  size : Nat
  buffer : List UInt8
  deriving DecidableEq, Repr

/- `read` is -1 when only the first byte of the length is there, in `header`. -/
structure Uncomplete where
  pack : Netpack
  read : Int
  header : Nat
  deriving DecidableEq, Repr

structure Queue where
  ring : RingBuffer Netpack
  hash : Nat → List Uncomplete

inductive Fault where
  | readAssertion
  | readBeyond
  deriving DecidableEq, Repr

def hashFd (fd : Int) : Nat :=
  let a := fd / 2 ^ 24
  let b := fd / 2 ^ 12
  let c := fd
  ((a + b + c) % 2 ^ 32).toNat % hashsize

def Uncomplete.id (uc : Uncomplete) : Int := uc.pack.id

/- Takes the incomplete packet of a connection out of its chain. -/
def findUncomplete (q : Option Queue) (fd : Int) : Option (Uncomplete × Queue) :=
  q.bind fun q => (takeBucket Uncomplete.id hashFd q.hash fd).map fun (uc, hash) =>
    (uc, { q with hash := hash })

def getQueue (q : Option Queue) : Queue := q.getD ⟨.empty queuesize, fun _ => []⟩

def expandQueue (cap : Nat) : Nat := cap + queuesize

def pushData (q : Option Queue) (fd : Int) (buffer : List UInt8) (size : Nat) : Queue :=
  let q := getQueue q
  { q with ring := q.ring.push expandQueue ⟨fd, size, buffer.take size⟩ }

def saveUncomplete (q : Option Queue) (uc : Uncomplete) : Queue :=
  let q := getQueue q
  { q with hash := putBucket Uncomplete.id hashFd q.hash uc }

def readSize (b₀ b₁ : UInt8) : Nat := b₀.toNat <<< 8 ||| b₁.toNat

/- memcpy into a buffer, at an offset. -/
def copyAt (buffer : List UInt8) (offset : Nat) (l : List UInt8) : List UInt8 :=
  buffer.take offset ++ l ++ buffer.drop (offset + l.length)

def headerOnly (fd : Int) (b : UInt8) : Uncomplete := ⟨⟨fd, 0, []⟩, -1, b.toNat⟩

def started (fd : Int) (size : Nat) (buffer : List UInt8) : Uncomplete :=
  ⟨⟨fd, size, copyAt [] 0 buffer⟩, buffer.length, 0⟩

def pushMore (q : Option Queue) (fd : Int) (buffer : List UInt8) : Except Fault (Option Queue) :=
  match buffer with
  | [] => .error .readBeyond
  | [b] => .ok (some (saveUncomplete q (headerOnly fd b)))
  | b₀ :: b₁ :: buffer =>
    let packSize := readSize b₀ b₁
    if buffer.length < packSize then .ok (some (saveUncomplete q (started fd packSize buffer)))
    else
      let q := pushData q fd buffer packSize
      let rest := buffer.drop packSize
      if rest.length > 0 then pushMore (some q) fd rest else .ok (some q)
termination_by buffer.length
decreasing_by
  simp only [List.length_drop, List.length_cons]
  omega

def closeUncomplete (q : Option Queue) (fd : Int) : Option Queue :=
  match findUncomplete q fd with
  | some (_, q) => some q
  | none => q

inductive Result where
  | nothing
  | data (fd : Int) (buffer : List UInt8)
  | more
  | error (fd : Int) (msg : List UInt8)
  | opened (fd : Int) (msg : List UInt8)
  | closed (fd : Int)
  | warning (fd : Int) (size : Int)
  deriving DecidableEq, Repr

/- The second byte of the length is read, if it is missing. -/
def fillHeader (uc : Uncomplete) (buffer : List UInt8) :
    Except Fault (Uncomplete × List UInt8) :=
  if uc.read < 0 then
    if uc.read ≠ -1 then .error .readAssertion
    else
      match buffer with
      | [] => .error .readBeyond
      | b :: buffer =>
        let packSize := b.toNat ||| uc.header <<< 8
        .ok ({ uc with pack := { uc.pack with size := packSize, buffer := [] }, read := 0 }, buffer)
  else .ok (uc, buffer)

/- An incomplete packet was taken out of the queue. -/
def fillUncomplete (q : Queue) (fd : Int) (uc : Uncomplete) (buffer : List UInt8) :
    Except Fault (Option Queue × Result) :=
  let need := uc.pack.size - uc.read
  if buffer.length < need then
    let pack := { uc.pack with buffer := copyAt uc.pack.buffer uc.read.toNat buffer }
    let uc := { uc with pack := pack, read := uc.read + buffer.length }
    .ok (some { q with hash := putBucket Uncomplete.id hashFd q.hash uc }, .nothing)
  else
    let filled := copyAt uc.pack.buffer uc.read.toNat (buffer.take need.toNat)
    let rest := buffer.drop need.toNat
    if rest.length = 0 then .ok (some q, .data fd (filled.take uc.pack.size))
    else
      let q := pushData (some q) fd filled uc.pack.size
      (pushMore (some q) fd rest).map fun q => (q, .more)

def filterData (q : Option Queue) (fd : Int) (buffer : List UInt8) :
    Except Fault (Option Queue × Result) :=
  match findUncomplete q fd with
  | some (uc, q) =>
    (fillHeader uc buffer).bind fun (uc, buffer) => fillUncomplete q fd uc buffer
  | none =>
    match buffer with
    | [] => .error .readBeyond
    | [b] => .ok (some (saveUncomplete q (headerOnly fd b)), .nothing)
    | b₀ :: b₁ :: buffer =>
      let packSize := readSize b₀ b₁
      if buffer.length < packSize then
        .ok (some (saveUncomplete q (started fd packSize buffer)), .nothing)
      else if buffer.length = packSize then .ok (q, .data fd buffer)
      else
        let q := pushData q fd buffer packSize
        (pushMore (some q) fd (buffer.drop packSize)).map fun q => (q, .more)

/- The messages of skynet_socket.c; data comes in a buffer, texts behind the message. -/
inductive SocketMessage where
  | data (id : Int) (buffer : List UInt8)
  | connect (id : Int)
  | close (id : Int)
  | accept (id ud : Int) (msg : List UInt8)
  | error (id : Int) (msg : List UInt8)
  | warning (id ud : Int)
  deriving DecidableEq, Repr

def lfilter (q : Option Queue) : SocketMessage → Except Fault (Option Queue × Result)
  | .data id buffer => filterData q id buffer
  | .connect _ => .ok (q, .nothing)
  | .close id => .ok (closeUncomplete q id, .closed id)
  | .accept _ ud msg => .ok (q, .opened ud msg)
  | .error id msg => .ok (closeUncomplete q id, .error id msg)
  | .warning id ud => .ok (q, .warning id ud)

def lpop (q : Option Queue) : Option (Netpack × Queue) :=
  q.bind fun q => q.ring.pop.map fun (np, ring) => (np, { q with ring := ring })

def writeSize (len : Nat) : List UInt8 := [((len >>> 8) &&& 0xff).toUInt8, (len &&& 0xff).toUInt8]

/-- The message and its length before it; no answer for one that is too long. -/
def lpack (msg : List UInt8) : Option (List UInt8) :=
  if msg.length ≥ 0x10000 then none else some (writeSize msg.length ++ msg)

end Skynet.LuaNetpack
