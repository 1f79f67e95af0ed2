import Skynet.Base.Linked
import Skynet.Base.Chunks
import Skynet.Base.Run

/-! The read buffer of a Lua socket: chunks in a linked list of nodes, which come from a
pool that all buffers of a service share. Nothing stands for a crash of the C code. -/
namespace Skynet.SocketBuffer
open Base

abbrev Addr := Nat

/-- A node with its bytes; `sz` is how many they are. -/
structure BufferNode where
  msg : List UInt8
  next : Option Addr

/-- The nodes, the free ones among them, and the length of the pool table. The addresses
from `fresh` on are not allocated. -/
structure Pool where
  node : Addr → BufferNode
  freeNode : Option Addr
  rawlen : Nat
  fresh : Addr

structure Buffer where
  size : Int
  offset : Nat
  head : Option Addr
  tail : Option Addr

def newbuffer : Buffer := ⟨0, 0, none, none⟩

/-- The value of an `int` that a number is assigned to. -/
def toInt (n : Int) : Int := n.bmod 0x100000000

def Pool.set (pool : Pool) (a : Addr) (node : BufferNode) : Pool :=
  { pool with node := Function.update pool.node a node }

def largePageNode : Nat := 12

/- The new nodes are linked in the order of their addresses. -/
def newpool (pool : Pool) (size : Nat) : Pool where
  node a :=
    if pool.fresh ≤ a ∧ a < pool.fresh + size then
      ⟨[], if a + 1 < pool.fresh + size then some (a + 1) else none⟩
    else pool.node a
  freeNode := pool.freeNode
  rawlen := pool.rawlen
  fresh := pool.fresh + size

/- A free node is taken, and before that the pool grows if there is none. -/
def takeNode (pool : Pool) : Addr × Pool :=
  match pool.freeNode with
  | some a => (a, { pool with freeNode := (pool.node a).next })
  | none =>
    let tsz := if pool.rawlen = 0 then 1 else pool.rawlen
    let size := if tsz ≤ largePageNode - 3 then 8 <<< tsz else 8 <<< (largePageNode - 3)
    let grown := newpool pool size
    (pool.fresh, { grown with freeNode := (grown.node pool.fresh).next, rawlen := tsz + 1 })

def pushbuffer (pool : Pool) (sb : Buffer) (msg : List UInt8) : Option (Int × Pool × Buffer) :=
  let a := (takeNode pool).1
  let pool := (takeNode pool).2.set a ⟨msg, none⟩
  let size := toInt (sb.size + msg.length)
  match sb.head, sb.tail with
  | none, none => some (size, pool, { sb with size := size, head := some a, tail := some a })
  | none, some _ => none
  | some _, some last =>
    some (size, pool.set last { pool.node last with next := some a },
      { sb with size := size, tail := some a })
  | some _, none => none

def returnFreeNode (pool : Pool) (sb : Buffer) : Option (Pool × Buffer) :=
  match sb.head with
  | none => none
  | some a =>
    let head := (pool.node a).next
    some ({ pool.set a ⟨[], pool.freeNode⟩ with freeNode := some a },
      { sb with offset := 0, head := head, tail := if head = none then none else sb.tail })

/- The loop of pop_lstring, for so many rounds, with the bytes that are added so far. -/
def popLoop : Nat → Pool → Buffer → Nat → Nat → List UInt8 → Option (List UInt8 × Pool × Buffer)
  | 0, _, _, _, _, _ => none
  | rounds + 1, pool, sb, sz, skip, b =>
    match sb.head with
    | none => none
    | some current =>
      let rest := (pool.node current).msg.drop sb.offset
      let bytes := (pool.node current).msg.length - sb.offset
      if sz ≤ bytes then
        let b := if skip < sz then b ++ rest.take (sz - skip) else b
        let sb := { sb with offset := sb.offset + sz }
        if bytes = sz then (returnFreeNode pool sb).map fun (pool, sb) => (b, pool, sb)
        else some (b, pool, sb)
      else
        let realSz := sz - skip
        let b := if 0 < realSz then b ++ rest.take (if realSz < bytes then realSz else bytes) else b
        match returnFreeNode pool sb with
        | none => none
        | some (pool, sb) =>
          if sz - bytes = 0 then some (b, pool, sb)
          else popLoop rounds pool sb (sz - bytes) skip b

def popLstring (pool : Pool) (sb : Buffer) (sz skip : Nat) : Option (List UInt8 × Pool × Buffer) :=
  match sb.head with
  | none => none
  | some current =>
    let rest := (pool.node current).msg.drop sb.offset
    let bytes := (pool.node current).msg.length - sb.offset
    if sz < bytes then
      some (rest.take (sz - skip), pool, { sb with offset := sb.offset + sz })
    else if sz = bytes then
      (returnFreeNode pool sb).map fun (pool, sb) => (rest.take (sz - skip), pool, sb)
    else popLoop sz pool sb sz skip []

/- A negative length is no length of a string. -/
def popbuffer (pool : Pool) (sb : Buffer) (n : Int) :
    Option ((Option (List UInt8) × Int) × Pool × Buffer) :=
  let sz := toInt n
  if sb.size < sz ∨ sz = 0 then some ((none, sb.size), pool, sb)
  else if sz < 0 then none
  else
    (popLstring pool sb sz.toNat 0).map fun (l, pool, sb) =>
      let sb := { sb with size := toInt (sb.size - sz) }
      ((some l, sb.size), pool, sb)

/- A buffer has no more nodes than there are. -/
def clearLoop : Nat → Pool → Buffer → Option (Pool × Buffer)
  | 0, _, _ => none
  | rounds + 1, pool, sb =>
    if sb.head = none then some (pool, sb)
    else (returnFreeNode pool sb).bind fun (pool, sb) => clearLoop rounds pool sb

def clearbuffer (pool : Pool) (sb : Buffer) : Option (Pool × Buffer) :=
  (clearLoop (pool.fresh + 1) pool sb).map fun (pool, sb) => (pool, { sb with size := 0 })

def readallLoop : Nat → Pool → Buffer → List UInt8 → Option (List UInt8 × Pool × Buffer)
  | 0, _, _, _ => none
  | rounds + 1, pool, sb, b =>
    match sb.head with
    | none => some (b, pool, sb)
    | some current =>
      (returnFreeNode pool sb).bind fun (pool', sb') =>
        readallLoop rounds pool' sb' (b ++ (pool.node current).msg.drop sb.offset)

def readall (pool : Pool) (sb : Buffer) : Option (List UInt8 × Pool × Buffer) :=
  (readallLoop (pool.fresh + 1) pool sb []).map fun (b, pool, sb) =>
    (b, pool, { sb with size := 0 })

/- Every round but the last goes past some of the separator. -/
def checkSepLoop (pool : Pool) : Nat → Option Addr → Nat → List UInt8 → Option Bool
  | 0, _, _, _ => none
  | _ + 1, none, _, _ => none
  | rounds + 1, some node, start, sep =>
    let rest := (pool.node node).msg.drop start
    let sz := (pool.node node).msg.length - start
    if sep.length ≤ sz then some (rest.take sep.length == sep)
    else if rest.take sz != sep.take sz then some false
    else checkSepLoop pool rounds (pool.node node).next 0 (sep.drop sz)

def checkSep (pool : Pool) (node : Addr) (start : Nat) (sep : List UInt8) : Option Bool :=
  checkSepLoop pool (sep.length + 1) (some node) start sep

/- So many places of the buffer are left where the separator may begin. -/
def readlineLoop (pool : Pool) (sep : List UInt8) :
    Nat → Nat → Addr → Nat → Nat → Option (Option Nat)
  | 0, _, _, _, _ => some none
  | left + 1, i, current, start, bytes =>
    match checkSep pool current start sep with
    | none => none
    | some true => some (some i)
    | some false =>
      if bytes - 1 = 0 then
        match (pool.node current).next with
        | none => some none
        | some next => readlineLoop pool sep left (i + 1) next 0 (pool.node next).msg.length
      else readlineLoop pool sep left (i + 1) current (start + 1) (bytes - 1)

/-- What `readline` gives: nothing, a line, or that there is one. -/
inductive Line
  | none
  | some (line : List UInt8)
  | found
deriving DecidableEq

def readline (pool : Pool) (sb : Buffer) (check : Bool) (sep : List UInt8) :
    Option (Line × Pool × Buffer) :=
  match sb.head with
  | none => some (.none, pool, sb)
  | some current =>
    let places := (sb.size - toInt sep.length + 1).toNat
    match readlineLoop pool sep places 0 current sb.offset
        ((pool.node current).msg.length - sb.offset) with
    | none => none
    | some none => some (.none, pool, sb)
    | some (some i) =>
      if check then some (.found, pool, sb)
      else
        (popLstring pool sb (i + sep.length) sep.length).map fun (l, pool, sb) =>
          (.some l, pool, { sb with size := toInt (sb.size - (i + sep.length : Nat)) })

inductive Op
  | push (msg : List UInt8)
  | pop (n : Int)
  | readline (check : Bool) (sep : List UInt8)
  | readall
  | clear
deriving DecidableEq

inductive Answer
  | size (n : Int)
  | popped (l : Option (List UInt8)) (size : Int)
  | line (l : Line)
  | all (l : List UInt8)
  | cleared
deriving DecidableEq

def perform (pool : Pool) (sb : Buffer) : Op → Option (Answer × Pool × Buffer)
  | .push msg => (pushbuffer pool sb msg).map fun (n, done) => (.size n, done)
  | .pop n => (popbuffer pool sb n).map fun (r, done) => (.popped r.1 r.2, done)
  | .readline check sep => (readline pool sb check sep).map fun (l, done) => (.line l, done)
  | .readall => (readall pool sb).map fun (l, done) => (.all l, done)
  | .clear => (clearbuffer pool sb).map fun done => (.cleared, done)

/-- The buffers of a service, with a record of what was done and answered. -/
structure World where
  pool : Pool
  buffer : Nat → Buffer
  record : List (Nat × Op × Answer)

structure Action where
  id : Nat
  op : Op

def step (w : World) (act : Action) : Option World :=
  (perform w.pool (w.buffer act.id) act.op).map fun (answer, pool, sb) =>
    { pool := pool
      buffer := Function.update w.buffer act.id sb
      record := w.record ++ [(act.id, act.op, answer)] }

def start : World where
  pool := ⟨fun _ => ⟨[], none⟩, none, 0, 0⟩
  buffer := fun _ => newbuffer
  record := []

end Skynet.SocketBuffer
