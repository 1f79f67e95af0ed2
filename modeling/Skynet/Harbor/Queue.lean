import Skynet.Base.Ring

/-! The queues of messages in service_harbor.c: circular buffers that are doubled before a push
would fill them. -/
namespace Skynet.HarborService
open Base

structure RemoteMessageHeader where
  source : UInt32
  destination : UInt32
  session : UInt32
  deriving DecidableEq, Repr

/-- A message in memory. The tag stands for where it is: it tells messages apart that have
the same bytes. -/
structure Message where
  tag : Nat
  bytes : List UInt8
  deriving DecidableEq, Repr

structure HarborMsg where
  header : RemoteMessageHeader
  buffer : Message
  deriving DecidableEq, Repr

def defaultQueueSize : Nat := 1024

structure HarborMsgQueue where
  ring : RingBuffer HarborMsg
  sound : ring.Sound

def newQueue : HarborMsgQueue := ⟨.empty defaultQueueSize, ring_empty_sound (by decide)⟩

def pushQueueMsg (queue : HarborMsgQueue) (m : HarborMsg) : HarborMsgQueue :=
  ⟨queue.ring.reserve.put m, (ring_reserve_put queue.sound m).1⟩

def pushQueue (queue : HarborMsgQueue) (buffer : Message) (header : RemoteMessageHeader) :
    HarborMsgQueue :=
  pushQueueMsg queue ⟨header, buffer⟩

def popQueue (queue : HarborMsgQueue) : Option (HarborMsg × HarborMsgQueue) :=
  match taken : queue.ring.take with
  | none => none
  | some (m, ring) =>
    some (m, ⟨ring, (ring_pop_some queue.sound ((ring_take queue.sound).symm.trans taken)).1⟩)

def HarborMsgQueue.items (queue : HarborMsgQueue) : List HarborMsg := queue.ring.items

@[simp] theorem items_push (queue : HarborMsgQueue) (m : HarborMsg) :
    (pushQueueMsg queue m).items = queue.items ++ [m] :=
  (ring_reserve_put queue.sound m).2

theorem pop_none {queue : HarborMsgQueue} (empty : popQueue queue = none) : queue.items = [] := by
  unfold popQueue at empty
  split at empty
  next taken =>
    rw [ring_take queue.sound] at taken
    exact ring_pop_none queue.sound taken
  next => cases empty

theorem pop_some {queue queue' : HarborMsgQueue} {m : HarborMsg}
    (popped : popQueue queue = some (m, queue')) : queue.items = m :: queue'.items := by
  unfold popQueue at popped
  split at popped
  next => cases popped
  next taken =>
    rw [ring_take queue.sound] at taken
    cases popped
    exact (ring_pop_some queue.sound taken).2

/- The loops that pop until nothing is left. -/
def drain {σ : Type} (body : σ → HarborMsg → σ) (queue : HarborMsgQueue) (s : σ) : σ :=
  match _popped : popQueue queue with
  | none => s
  | some (m, queue') => drain body queue' (body s m)
termination_by queue.items.length
decreasing_by
  rw [pop_some _popped]
  exact Nat.lt_succ_self _

theorem drain_eq {σ : Type} (body : σ → HarborMsg → σ) (queue : HarborMsgQueue) (s : σ) :
    drain body queue s = queue.items.foldl body s := by
  fun_induction drain body queue s with
  | case1 queue s popped => rw [pop_none popped, List.foldl_nil]
  | case2 queue s m queue' popped ih => rw [pop_some popped, List.foldl_cons, ih]

end Skynet.HarborService
