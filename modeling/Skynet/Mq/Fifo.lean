import Skynet.Server.Model

/-! One message queue of skynet_mq.c. The record keeps what the operations on a single
queue read and write; the flag a push answers says that skynet_globalmq_push follows. -/
namespace Skynet.Mq
open Base Skynet.Server List

def intMax : Nat := 2 ^ 31 - 1

/-- The capacity is an int, and doubling it beyond the range of int is undefined. -/
inductive MqFault where
  | capOverflow
  deriving DecidableEq, Repr

/-- The ring holds the fields queue, cap, head and tail. -/
structure MessageQueue where
  ring : RingBuffer SkynetMessage
  inGlobal : Bool
  overload : Nat
  overloadThreshold : Nat

def mqCreate : MessageQueue where
  ring := RingBuffer.empty defaultQueueSize
  inGlobal := true
  overload := 0
  overloadThreshold := mqOverloadMark

def mqLength (q : MessageQueue) : Nat := q.ring.length

def mqPop (q : MessageQueue) : Option SkynetMessage × MessageQueue :=
  match q.ring.pop with
  | some (message, ring) =>
    let marks := raiseThreshold ring.length ring.length (q.overload, q.overloadThreshold)
    (some message, { q with ring := ring, overload := marks.1, overloadThreshold := marks.2 })
  | none => (none, { q with overloadThreshold := mqOverloadMark, inGlobal := false })

/- A push that takes the last free cell brings the tail to the head, and expand_queue follows. -/
def mqPush (q : MessageQueue) (message : SkynetMessage) : Except MqFault (MessageQueue × Bool) :=
  if q.ring.head = q.ring.advance q.ring.tail ∧ intMax < q.ring.cap * 2 then .error .capOverflow
  else .ok ({ q with ring := q.ring.push (2 * ·) message, inGlobal := true }, !q.inGlobal)

/-! The queue of the scheduler's model at an address is this queue. -/

def queueAt (s : Shared) (q : Nat) : MessageQueue where
  ring := s.ring q
  inGlobal := s.inGlobal q
  overload := s.overload q
  overloadThreshold := s.overloadThreshold q

theorem shared_pop (s : Shared) (q : Nat) :
    (s.mqPop q).1 = (mqPop (queueAt s q)).1 ∧
      queueAt (s.mqPop q).2 q = (mqPop (queueAt s q)).2 := by
  unfold Shared.mqPop mqPop
  cases taken : (s.ring q).pop with
  | none => simp [queueAt, taken]
  | some pair => simp [queueAt, taken]

variable {message : SkynetMessage} {queue : MessageQueue} {announced : Bool} {t : Traffic}
  {cap stored : Nat}

theorem shared_push {s s' : Shared} {q : Nat} (pushed : s.mqPush q message = .ok s')
    (alone : mqPush (queueAt s q) message = .ok (queue, announced)) :
    queueAt s' q = queue := by
  unfold mqPush at alone
  split at alone
  · cases alone
  · cases alone
    unfold Shared.mqPush Shared.globalmqPush at pushed
    dsimp only at pushed
    split at pushed
    · rename_i inGlobal
      cases pushed
      simp [queueAt, inGlobal]
    · split at pushed
      · cases pushed
        simp [queueAt]
      · cases pushed

inductive MqOp where
  | push (message : SkynetMessage)
  | pop
  deriving DecidableEq, Repr

/-- The queue with the messages pushed and popped so far, in that order. -/
structure Traffic where
  queue : MessageQueue
  pushed : List SkynetMessage
  popped : List SkynetMessage

def Traffic.start : Traffic := ⟨mqCreate, [], []⟩

def Traffic.step (t : Traffic) : MqOp → Option Traffic
  | .push message =>
    match mqPush t.queue message with
    | .ok (queue, _) => some { t with queue := queue, pushed := t.pushed ++ [message] }
    | .error _ => none
  | .pop =>
    match mqPop t.queue with
    | (some message, queue) => some { t with queue := queue, popped := t.popped ++ [message] }
    | (none, queue) => some { t with queue := queue }

structure Traffic.InOrder (t : Traffic) : Prop where
  sound : t.queue.ring.Sound
  split : t.pushed = t.popped ++ t.queue.ring.items

theorem start_inOrder : Traffic.start.InOrder := by
  constructor
  · exact ring_empty_sound (by decide)
  · rfl

theorem push_inOrder (inOrder : t.InOrder)
    (pushed : mqPush t.queue message = .ok (queue, announced)) :
    Traffic.InOrder { t with queue := queue, pushed := t.pushed ++ [message] } := by
  unfold mqPush at pushed
  split at pushed
  · cases pushed
  · cases pushed
    have doubles : ∀ cap, 0 < cap → cap < 2 * cap := fun cap positive => by omega
    obtain ⟨sound, items⟩ := ring_push doubles inOrder.sound message
    constructor
    · exact sound
    · simp [items, inOrder.split]

theorem pop_inOrder (inOrder : t.InOrder) :
    (mqPop t.queue).1 = t.queue.ring.items.head? ∧ (mqPop t.queue).2.ring.Sound ∧
      (mqPop t.queue).2.ring.items = t.queue.ring.items.tail := by
  unfold mqPop
  cases taken : t.queue.ring.pop with
  | none =>
    have empty := ring_pop_none inOrder.sound taken
    simp [empty, inOrder.sound]
  | some pair =>
    obtain ⟨sound, items⟩ := ring_pop_some inOrder.sound taken
    simp [items, sound]

theorem step_inOrder (t : Traffic) (op : MqOp) (t' : Traffic) (inOrder : t.InOrder)
    (taken : t.step op = some t') : t'.InOrder := by
  cases op with
  | push message =>
    cases pushed : mqPush t.queue message with
    | error fault => simp [Traffic.step, pushed] at taken
    | ok result =>
      simp only [Traffic.step, pushed, Option.some.injEq] at taken
      cases taken
      exact push_inOrder inOrder pushed
  | pop =>
    obtain ⟨first, sound, rest⟩ := pop_inOrder inOrder
    rcases result : mqPop t.queue with ⟨message, queue⟩
    simp only [result] at first sound rest
    cases message with
    | none =>
      have empty := head?_eq_none_iff.mp first.symm
      simp only [Traffic.step, result, Option.some.injEq] at taken
      cases taken
      constructor
      · exact sound
      · simp [rest, empty, inOrder.split]
    | some message =>
      have items := eq_cons_of_mem_head? (l := t.queue.ring.items) first.symm
      simp only [Traffic.step, result, Option.some.injEq] at taken
      cases taken
      constructor
      · exact sound
      · rw [inOrder.split, items, rest]
        simp

theorem push_isOk {q : MessageQueue} (sound : q.ring.Sound) (room : mqLength q + 1 < 2 ^ 30)
    (message : SkynetMessage) : (mqPush q message).isOk := by
  unfold mqPush
  split
  next overflow =>
    obtain ⟨fills, large⟩ := overflow
    have full : q.ring.length + 1 = q.ring.cap := by
      have tail := sound.tail
      unfold RingBuffer.advance at fills
      unfold RingBuffer.length
      split at fills <;> split <;> omega
    simp only [mqLength, intMax] at room large
    omega
  next => rfl

/-- A push into a queue that can still double: fewer than 2 ^ 30 - 1 messages are stored. -/
def Roomy (t : Traffic) : MqOp → Prop
  | .push _ => mqLength t.queue + 1 < 2 ^ 30
  | .pop => True

instance (t : Traffic) (op : MqOp) : Decidable (Roomy t op) :=
  match op with
  | .push _ => inferInstanceAs (Decidable (mqLength t.queue + 1 < 2 ^ 30))
  | .pop => inferInstanceAs (Decidable True)

theorem step_isSome (inOrder : t.InOrder) {op : MqOp} (roomy : Roomy t op) :
    (t.step op).isSome := by
  cases op with
  | push message =>
    have works := push_isOk inOrder.sound roomy message
    cases pushed : mqPush t.queue message with
    | error fault => simp [pushed, Except.isOk, Except.toBool] at works
    | ok result => simp [Traffic.step, pushed]
  | pop =>
    rcases result : mqPop t.queue with ⟨message, queue⟩
    cases message with
    | none => simp [Traffic.step, result]
    | some message => simp [Traffic.step, result]

/-- A pop answers the first message not yet popped, in the order of the pushes, and reports
the queue empty when there is none. -/
theorem message_ring_fifo (t : Traffic) (run : Reaches Traffic.step Roomy Traffic.start t) :
    t.popped <+: t.pushed ∧
    (mqPop t.queue).1 = t.pushed[t.popped.length]? ∧
    mqLength t.queue + t.popped.length = t.pushed.length ∧
    ∀ op, Roomy t op → (t.step op).isSome := by
  have inOrder : t.InOrder := run.invariant Traffic.InOrder start_inOrder
      fun t op t' inOrder _ taken => step_inOrder t op t' inOrder taken
  obtain ⟨first, -, -⟩ := pop_inOrder inOrder
  have length := ring_items_length inOrder.sound
  refine ⟨⟨t.queue.ring.items, inOrder.split.symm⟩, ?_, ?_, ?_⟩
  · rw [first, inOrder.split, getElem?_append_right (Nat.le_refl _), Nat.sub_self,
      head?_eq_getElem?]
  · simp [inOrder.split, mqLength, length, Nat.add_comm]
  · intro op roomy
    exact step_isSome inOrder roomy

def letter (n : Nat) : SkynetMessage := ⟨1, 0, .buffer n, 0⟩

/- The tail wraps, and the ring of 64 cells is expanded with its head at the tenth cell. -/
def wrapped : List MqOp :=
  (range 20).map (fun n => .push (letter n)) ++ replicate 10 .pop ++
    (range 54).map (fun n => .push (letter (n + 20)))

theorem message_ring_fifo_expanded :
    ∃ t, Reaches Traffic.step Roomy Traffic.start t ∧ t.queue.ring.cap = 128 ∧
      mqLength t.queue = 64 ∧ (mqPop t.queue).1 = some (letter 10) := by
  obtain ⟨t, taken, cap, pushed, popped⟩ :
      ∃ t, wrapped.foldlM (fun t op => if decide (Roomy t op) then t.step op else none)
        Traffic.start =
        some t ∧ t.queue.ring.cap = 128 ∧ t.pushed = (range 74).map letter ∧
        t.popped.length = 10 := ⟨_, rfl, rfl, rfl, rfl⟩
  have run := reaches_of_checked (fun t op => decide (Roomy t op))
    (fun _ _ => of_decide_eq_true) wrapped taken
  obtain ⟨-, next, length, -⟩ := message_ring_fifo t run
  refine ⟨t, run, cap, ?_, ?_⟩
  · simp only [pushed, popped, length_map, length_range] at length
    omega
  · rw [next, pushed, popped]
    rfl

/-! Pushes alone: the ring of 64 cells doubles until its capacity no longer fits an int. -/

/- The head stays at the first cell and the tail counts the pushes. -/
structure Traffic.Filled (t : Traffic) (cap stored : Nat) : Prop where
  run : Run Traffic.step Traffic.start t
  cap : t.queue.ring.cap = cap
  head : t.queue.ring.head = 0
  tail : t.queue.ring.tail = stored

theorem push_step (message : SkynetMessage)
    (fits : ¬ (t.queue.ring.head = t.queue.ring.advance t.queue.ring.tail ∧
      intMax < t.queue.ring.cap * 2)) :
    ∃ t', t.step (.push message) = some t' ∧
      t'.queue.ring = t.queue.ring.push (2 * ·) message := by
  simp [Traffic.step, mqPush, if_neg fits]

theorem filled_store (filled : t.Filled cap stored) (room : stored + 1 < cap) :
    ∃ t' : Traffic, t'.Filled cap (stored + 1) := by
  have tail : t.queue.ring.advance t.queue.ring.tail = stored + 1 := by
    simp [RingBuffer.advance, filled.tail, filled.cap, Nat.not_le.mpr room]
  have apart : t.queue.ring.head ≠ t.queue.ring.advance t.queue.ring.tail := by
    simp [tail, filled.head]
  obtain ⟨t', taken, ring⟩ := push_step (letter 0) fun overflow => apart overflow.1
  have stores : t'.queue.ring = { t.queue.ring with
      cells := Function.update t.queue.ring.cells t.queue.ring.tail (some (letter 0))
      tail := t.queue.ring.advance t.queue.ring.tail } := by
    rw [ring, RingBuffer.push]
    exact if_neg apart
  refine ⟨t', .next filled.run trivial taken, ?_, ?_, ?_⟩
  · simp [stores, filled.cap]
  · simp [stores, filled.head]
  · simp [stores, tail]

theorem filled_expand (filled : t.Filled (cap + 1) cap) (small : (cap + 1) * 2 ≤ intMax) :
    ∃ t' : Traffic, t'.Filled (2 * (cap + 1)) (cap + 1) := by
  have meets : t.queue.ring.head = t.queue.ring.advance t.queue.ring.tail := by
    simp [RingBuffer.advance, filled.tail, filled.cap, filled.head]
  have fits : ¬ intMax < t.queue.ring.cap * 2 := by
    rw [filled.cap]
    omega
  obtain ⟨t', taken, ring⟩ := push_step (letter 0) fun overflow => fits overflow.2
  refine ⟨t', .next filled.run trivial taken, ?_, ?_, ?_⟩
  all_goals simp [ring, RingBuffer.push, ← meets, RingBuffer.expand, filled.cap]

theorem filled_more (filled : t.Filled cap stored) (more : Nat) (room : stored + more < cap) :
    ∃ t' : Traffic, t'.Filled cap (stored + more) := by
  induction more with
  | zero => exact ⟨t, filled⟩
  | succ more ih =>
    obtain ⟨t', filled'⟩ := ih (by omega)
    exact filled_store filled' room

theorem filled_doubled (k : Nat) (small : 2 ^ (k + 6) ≤ 2 ^ 30) :
    ∃ t : Traffic, t.Filled (2 ^ (k + 6)) (2 ^ (k + 6) - 1) := by
  induction k with
  | zero =>
    have created : Traffic.start.Filled 64 0 := ⟨.start, rfl, rfl, rfl⟩
    exact filled_more created 63 (by decide)
  | succ k ih =>
    have double : 2 ^ (k + 1 + 6) = 2 * 2 ^ (k + 6) := by ring
    rw [double] at small ⊢
    have positive : 0 < 2 ^ (k + 6) := Nat.pow_pos (by decide)
    obtain ⟨t, filled⟩ := ih (by omega)
    obtain ⟨cap, eq⟩ : ∃ cap, 2 ^ (k + 6) = cap + 1 := ⟨2 ^ (k + 6) - 1, by omega⟩
    rw [eq] at filled small ⊢
    obtain ⟨t', filled'⟩ := filled_expand filled (by unfold intMax; omega)
    obtain ⟨full, filled''⟩ := filled_more filled' cap (by omega)
    exact ⟨full, by rwa [show 2 * (cap + 1) - 1 = cap + 1 + cap by omega]⟩

/-- After 2 ^ 30 - 1 pushes the next one doubles the capacity beyond the range of int. -/
theorem message_ring_overflow :
    ∃ t, Run Traffic.step Traffic.start t ∧ mqLength t.queue = 2 ^ 30 - 1 ∧
      mqPush t.queue (letter 0) = .error .capOverflow := by
  obtain ⟨t, filled⟩ := filled_doubled 24 (by decide)
  refine ⟨t, filled.run, ?_, ?_⟩
  · simp [mqLength, RingBuffer.length, filled.head, filled.tail]
  · simp [mqPush, RingBuffer.advance, filled.head, filled.tail, filled.cap, intMax]

end Skynet.Mq
