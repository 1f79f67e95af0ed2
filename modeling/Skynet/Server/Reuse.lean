import Skynet.Server.Wrap

/-! What happens when the handle index has gone round and the handle of a retired service,
or the handle 0, is given out again. -/
namespace Skynet.Server
open Base Skynet.Handle Function Option

def letter (session : Int) : SkynetMessage := ⟨0x1000009, session, .buffer 0, 0⟩

/-- The first service is retired while a sender still holds a reference to it: its queue is
in the global queue and carries its handle. -/
structure Orphan (base : Shared) : Prop extends Idle base where
  harbor : base.storage.harbor = 0x1000000
  context : base.live 0 = true ∧ base.ref 0 = 1 ∧ base.queue 0 = some 0
  counts : base.contextCount = 1 ∧ base.queueCount = 1
  mq : base.mqLive 0 = true ∧ base.mqHandle 0 = 0x1000001 ∧
    base.ring 0 = RingBuffer.empty defaultQueueSize ∧ base.inGlobal 0 = true ∧ base.owner 0 = 0 ∧
    base.taken 0 = []
  global : base.global = ⟨some 0, some 0, fun _ => none⟩
  index : base.storage.handleIndex = 2

theorem orphan_reached : ∃ base, Run step (State.initial 1 5)
    ⟨base, [] :: [.pushTo 0 (letter 1)] :: [[], [], []], none⟩ ∧ Orphan base := by
  obtain ⟨base, run, slot, live, mqLive, facts⟩ : ∃ base, Run step (State.initial 1 5)
      ⟨base, [] :: [.pushTo 0 (letter 1)] :: [[], [], []], none⟩ ∧
      base.storage.slot = update (update (fun _ => none) 1 (some 0)) 1 none ∧
      base.live = update (fun _ => false) 0 true ∧
      base.mqLive = update (fun _ => false) 0 true ∧
      base.storage.slotSize = 4 ∧ base.storage.name = [] ∧ base.storage.harbor = 0x1000000 ∧
      base.ref 0 = 1 ∧ base.queue 0 = some 0 ∧ base.contextCount = 1 ∧ base.queueCount = 1 ∧
      base.mqHandle 0 = 0x1000001 ∧ base.ring 0 = RingBuffer.empty defaultQueueSize ∧
      base.inGlobal 0 = true ∧ base.owner 0 = 0 ∧ base.taken 0 = [] ∧
      base.global = ⟨some 0, some 0, fun _ => none⟩ ∧ base.storage.handleIndex = 2 :=
    ⟨_, run_of_list [.call 0 .launch, .run 0 true, .run 0 true, .run 0 true, .run 0 true,
      .run 0 true, .run 0 true, .call 1 (.contextPush 0x1000001 (letter 1)), .run 1 true,
      .call 2 (.retire 0x1000001), .run 2 true, .run 2 true] rfl,
      rfl, rfl, rfl, rfl, rfl, rfl, rfl, rfl, rfl, rfl, rfl, rfl, rfl, rfl, rfl, rfl, rfl⟩
  obtain ⟨size, name, harbor, ref, queue, contexts, queues, mqHandle, ring, inGlobal, owner, taken,
    global, index⟩ := facts
  refine ⟨base, run, ⟨⟨?_, size, name, by rw [harbor]; rfl, ?_, ?_, ?_⟩, harbor,
    ⟨by simp [live], ref, queue⟩, ⟨contexts, queues⟩,
    ⟨by simp [mqLive], mqHandle, ring, inGlobal, owner, taken⟩, global, index⟩⟩
  · rw [slot, update_idem]
    exact update_eq_self 1 _
  · intro c bound
    rw [live, update_of_ne (by omega)]
  · intro q bound
    rw [mqLive, update_of_ne (by omega)]
  · intro q _
    rw [global]

section Delivery
variable {s : Shared} {l : List (List Frame)} {t c q h : Nat} {m : SkynetMessage}

theorem run_frame {s' : Shared} {f : Frame} (new below : List Frame)
    (inside : t < l.length) (done : act s true f = .ok (s', new)) :
    Run step ⟨s, l.set t (f :: below), none⟩ ⟨s', l.set t (new ++ below), none⟩ := by
  refine .next (a := .run t true) .start trivial ?_
  simp only [step, List.getElem?_set_self inside, done, State.finish, List.set_set]

theorem run_call (what : Call) {f : Frame} (here : l[t]? = some [])
    (started : start s none what = some (.ok (s, [f]))) :
    Run step ⟨s, l, none⟩ ⟨s, l.set t [f], none⟩ := by
  refine .next (a := .call t what) .start trivial ?_
  simp only [step, here, callerOf, started, State.finish, bind_eq_bind, bind_some,
    pure_def, List.append_nil]

/- A push to a queue that is already scheduled. -/
def Shared.stored (s : Shared) (q : Nat) (m : SkynetMessage) : Shared :=
  { s with
    ring := update s.ring q ((s.ring q).push (2 * ·) m)
    accepted := update s.accepted q (s.accepted q ++ [m]) }

theorem pushTo_stored (live : s.live c = true) (queue : s.queue c = some q)
    (mqLive : s.mqLive q = true) (scheduled : s.inGlobal q = true) :
    act s true (.pushTo c m) = .ok (s.stored q m, [.release c]) := by
  simp only [act, Shared.pushContext, live, if_true, queue, mqLive, Shared.mqPush, scheduled]
  rfl

theorem contextPush_stored (here : l[t]? = some [])
    (grabbed : Handle.handleGrab s.handle s.storage h = some c) (live : s.live c = true)
    (queue : s.queue c = some q) (mqLive : s.mqLive q = true) (scheduled : s.inGlobal q = true) :
    Run step ⟨s, l, none⟩ ⟨(s.counted c (s.ref c + 1)).stored q m, l.set t [.release c], none⟩ := by
  obtain ⟨inside, -⟩ := List.getElem?_eq_some_iff.mp here
  have called := run_call (s := s) (.contextPush h m) here rfl
  have first : act s true (.contextPush h m) = .ok (s.counted c (s.ref c + 1), [.pushTo c m]) := by
    simp only [act, Shared.handleGrab, grabbed, map_some]
    rfl
  have second := pushTo_stored (s := s.counted c (s.ref c + 1)) (m := m) live queue mqLive scheduled
  exact called.trans ((run_frame _ _ inside first).trans (run_frame _ _ inside second))

def Shared.delivered (s : Shared) (global : Chain) (q c : Nat) (m : SkynetMessage)
    (r : RingBuffer SkynetMessage) : Shared :=
  let marks := raiseThreshold r.length r.length (s.overload q, s.overloadThreshold q)
  { s with
    global := global
    ref := update s.ref c (s.ref c + 1)
    ring := update s.ring q r
    overload := update s.overload q 0
    overloadThreshold := update s.overloadThreshold q marks.2
    hand := update s.hand q []
    taken := update s.taken q (s.taken q ++ [(m, .callback c)]) }

/- A worker takes the first message of the first queue and hands it to the context that the
handle of the queue finds. -/
theorem worker_delivers {global : Chain} {r : RingBuffer SkynetMessage} (here : l[t]? = some [])
    (popped : s.global.pop = some (some q, global)) (mqLive : s.mqLive q = true)
    (grabbed : Handle.handleGrab s.handle s.storage (s.mqHandle q) = some c)
    (message : (s.ring q).pop = some (m, r)) (live : s.live c = true) (cb : s.cb c = true)
    (init : s.init c = true) :
    Run step ⟨s, l, none⟩
      ⟨s.delivered global q c m r, l.set t [.callback ⟨q, c, -1, 0, 1⟩ m], none⟩ := by
  obtain ⟨inside, -⟩ := List.getElem?_eq_some_iff.mp here
  have called := run_call (s := s) (.dispatch (-1)) here rfl
  have first : act s true (.popNext (-1)) = .ok ({ s with global := global }, [.worker (-1) q]) := by
    simp only [act, Shared.globalmqPop, popped]
  have second : act { s with global := global } true (.worker (-1) q) = .ok ({ s with
      global := global
      ref := update s.ref c (s.ref c + 1) }, [.loop ⟨q, c, -1, 0, 1⟩]) := by
    simp only [act, mqLive, if_true, Shared.handleGrab, grabbed, map_some]
  let s₃ : Shared := { s with
    global := global
    ref := update s.ref c (s.ref c + 1)
    ring := update s.ring q r
    overload := update s.overload q
      (raiseThreshold r.length r.length (s.overload q, s.overloadThreshold q)).1
    overloadThreshold := update s.overloadThreshold q
      (raiseThreshold r.length r.length (s.overload q, s.overloadThreshold q)).2
    hand := update s.hand q [m] }
  have third : act { s with global := global, ref := update s.ref c (s.ref c + 1) } true
      (.loop ⟨q, c, -1, 0, 1⟩) = .ok (s₃, [.consume ⟨q, c, -1, 0, 1⟩ m]) := by
    simp [s₃, act, mqLive, Shared.mqPop, message]
  have fourth : act s₃ true (.consume ⟨q, c, -1, 0, 1⟩ m) =
      .ok (s.delivered global q c m r, [.callback ⟨q, c, -1, 0, 1⟩ m]) := by
    simp only [s₃, act, live, if_true, cb, init, update_idem, Shared.delivered]
  exact called.trans ((run_frame _ _ inside first).trans ((run_frame _ _ inside second).trans
    ((run_frame _ _ inside third).trans (run_frame _ _ inside fourth))))

end Delivery

/- The second service has the handle of the first, and both queues are scheduled. -/
structure Reused (s : Shared) (c q : Nat) : Prop where
  apart : c ≠ 0 ∧ q ≠ 0
  first : s.live 0 = true ∧ s.queue 0 = some 0
  second : s.live c = true ∧ s.queue c = some q ∧ s.cb c = true ∧ s.init c = true
  mqLive : s.mqLive 0 = true ∧ s.mqLive q = true
  inGlobal : s.inGlobal 0 = true ∧ s.inGlobal q = true
  ring : s.ring 0 = RingBuffer.empty defaultQueueSize ∧ s.ring q = RingBuffer.empty defaultQueueSize
  global : s.global = ⟨some 0, some q, update (fun _ => none) 0 (some q)⟩
  mqHandle : s.mqHandle 0 = 0x1000001 ∧ s.mqHandle q = 0x1000001
  grabbed : Handle.handleGrab s.handle s.storage 0x1000001 = some c
  history : s.owner 0 = 0 ∧ s.taken 0 = []

/- After the handle index has gone round, the next launch is given the handle of the first
service. -/
theorem reused_reached : ∃ s c q, Run step (State.initial 1 5)
    ⟨s, [] :: [.pushTo 0 (letter 1)] :: [[], [], []], none⟩ ∧ Reused s c q := by
  obtain ⟨base, first, orphan⟩ := orphan_reached
  have start : Quiet base base 2 :=
    ⟨by rw [← orphan.index], rfl, rfl, rfl, rfl, fun _ _ => ⟨rfl, rfl, rfl, rfl, rfl⟩,
      fun _ _ => ⟨rfl, rfl, rfl, rfl, rfl⟩, rfl, rfl, Nat.le_refl _, Nat.le_refl _⟩
  obtain ⟨s₁, second, quiet₁⟩ := quiet_cycles (t := [.pushTo 0 (letter 1)] :: [[], [], []])
    orphan.toIdle (2 ^ 24 - 2) start (by omega)
  obtain ⟨s, third, quiet⟩ := quiet_cycle (t := [.pushTo 0 (letter 1)] :: [[], [], []])
    orphan.toIdle quiet₁ (by omega)
  rw [show (2 + (2 ^ 24 - 2)) % 2 ^ 24 + 1 = 1 from rfl] at quiet
  have registered := quiet_registered orphan.toIdle quiet (by omega)
    (update s.handle s.contextCount 0)
  have bounds := quiet.contextCount
  have bounds' := quiet.queueCount
  rw [orphan.counts.1] at bounds
  rw [orphan.counts.2] at bounds'
  have global : s.global.push s.queueCount = some ⟨some 0, some s.queueCount,
      update (fun _ => none) 0 (some s.queueCount)⟩ := by
    rw [quiet.global, orphan.global]
    rfl
  refine ⟨_, s.contextCount, s.queueCount, first.trans (second.trans (third.trans
    ((launch_registered registered).trans (launch_succeeded ?_ ?_ global)))), ?_⟩
  · exact update_self ..
  · exact update_self ..
  · obtain ⟨-, -, queue, -, -⟩ := quiet.contexts 0 (by rw [orphan.counts.1]; exact Nat.one_pos)
    obtain ⟨mqHandle, ring, -, inGlobal, owner⟩ :=
      quiet.queues 0 (by rw [orphan.counts.2]; exact Nat.one_pos)
    obtain ⟨live', -, queue'⟩ := orphan.context
    obtain ⟨mqLive', mqHandle', ring', inGlobal', owner', taken'⟩ := orphan.mq
    have other : (0 : Nat) ≠ s.contextCount := by omega
    have other' : (0 : Nat) ≠ s.queueCount := by omega
    have handle : 1 % 2 ^ 24 ||| base.storage.harbor = 0x1000001 := by rw [orphan.harbor]; rfl
    refine ⟨⟨other.symm, other'.symm⟩, ⟨?_, ?_⟩, ⟨?_, ?_, ?_, ?_⟩, ⟨?_, ?_⟩, ⟨?_, ?_⟩, ⟨?_, ?_⟩,
      rfl, ⟨?_, ?_⟩, ?_, ⟨?_, ?_⟩⟩
    · exact (update_of_ne other ..).trans (quiet.live ▸ live')
    · simp [Shared.registered, Shared.queued, Shared.mqCreate, other, queue, queue']
    · exact update_self ..
    · exact update_self ..
    · exact update_self ..
    · exact update_self ..
    · exact (update_of_ne other' ..).trans (quiet.mqLive ▸ mqLive')
    · exact update_self ..
    · exact (update_of_ne other' ..).trans (inGlobal.trans inGlobal')
    · exact update_self ..
    · exact (update_of_ne other' ..).trans (ring.trans ring')
    · exact update_self ..
    · exact (update_of_ne other' ..).trans (mqHandle.trans mqHandle')
    · simp only [Shared.registered, Shared.queued, Shared.mqCreate, update_self, handle]
    · simp only [Shared.registered, Shared.queued, Shared.mqCreate, Handle.handleGrab, handle,
        orphan.size]
      rw [show 0x1000001 &&& (4 - 1) = 1 % 2 ^ 24 &&& 3 from rfl, update_self]
      simp
    · exact (update_of_ne other' ..).trans (owner.trans owner')
    · exact (congrFun quiet.taken 0).trans taken'

theorem ring_single (m : SkynetMessage) :
    ((RingBuffer.empty defaultQueueSize).push (2 * ·) m).pop =
      some (m, { (RingBuffer.empty defaultQueueSize).push (2 * ·) m with head := 1 }) := rfl

/- One worker takes the queue of the first service and delivers its message to the second,
while another dispatches the queue of the second. -/
theorem reused_delivered {s : Shared} {c q : Nat} (reused : Reused s c q) :
    ∃ s', Run step ⟨s, [] :: [.pushTo 0 (letter 1)] :: [[], [], []], none⟩
      ⟨s', [[], [.release 0], [.release c], [.callback ⟨0, c, -1, 0, 1⟩ (letter 1)],
        [.callback ⟨q, c, -1, 0, 1⟩ (letter 2)]], none⟩ ∧
      s'.owner 0 = 0 ∧ s'.taken 0 = [(letter 1, .callback c)] := by
  obtain ⟨⟨otherC, otherQ⟩, ⟨live, queue⟩, ⟨live', queue', cb, init⟩, ⟨mqLive, mqLive'⟩,
    ⟨inGlobal, inGlobal'⟩, ⟨ring, ring'⟩, global, ⟨mqHandle, mqHandle'⟩, grabbed,
    ⟨owner, taken⟩⟩ := reused
  have first := run_frame (l := [[], [], [], [], []]) (t := 1) [.release 0] []
    (by decide) (pushTo_stored (m := letter 1) live queue mqLive inGlobal)
  have second := contextPush_stored (s := s.stored 0 (letter 1)) (m := letter 2)
    (l := [[], [.release 0], [], [], []]) (t := 2) rfl grabbed live' queue' mqLive' inGlobal'
  let g₁ : Chain := ⟨some q, some q, update (update (fun _ => none) 0 (some q)) 0 none⟩
  let r₁ : RingBuffer SkynetMessage :=
    { (RingBuffer.empty defaultQueueSize).push (2 * ·) (letter 1) with head := 1 }
  let s₂ : Shared := ((s.stored 0 (letter 1)).counted c (s.ref c + 1)).stored q (letter 2)
  let s₃ : Shared := s₂.delivered g₁ 0 c (letter 1) r₁
  have front : s.global.pop = some (some 0, g₁) := by
    rw [global]
    rfl
  have message : (s₂.ring 0).pop = some (letter 1, r₁) := by
    rw [← ring_single (letter 1)]
    simp [s₂, Shared.stored, Shared.counted, Ne.symm otherQ, ring]
  have third := worker_delivers (s := s₂) (l := [[], [.release 0], [.release c], [], []]) (t := 3)
    rfl front mqLive (mqHandle ▸ grabbed) message live' cb init
  have back : g₁.pop = some (some q, ⟨none, none, update g₁.next q none⟩) := by
    simp [g₁, Chain.pop, otherQ]
  have message' : (s₃.ring q).pop = some (letter 2,
      { (RingBuffer.empty defaultQueueSize).push (2 * ·) (letter 2) with head := 1 }) := by
    rw [← ring_single (letter 2)]
    simp [s₃, s₂, Shared.delivered, Shared.stored, Shared.counted, otherQ, ring']
  have fourth := worker_delivers (s := s₃) (l := [[], [.release 0], [.release c],
    [.callback ⟨0, c, -1, 0, 1⟩ (letter 1)], []]) (t := 4) rfl back mqLive' (mqHandle' ▸ grabbed)
    message' live' cb init
  refine ⟨_, first.trans (second.trans (third.trans fourth)), owner, ?_⟩
  simp [s₃, s₂, Shared.delivered, Shared.stored, Shared.counted, Ne.symm otherQ, taken]

/- A service with the handle 0 and a scheduled, empty queue. -/
structure Zero (s : Shared) (storage : HandleStorage) (c q : Nat) : Prop where
  context : s.live c = true ∧ s.ref c = 1 ∧ s.queue c = some q
  mq : s.mqLive q = true ∧ s.mqHandle q = 0 ∧ s.release q = false ∧ s.inGlobal q = true
  ring : s.ring q = RingBuffer.empty defaultQueueSize
  global : s.global = ⟨some q, some q, fun _ => none⟩
  grabbed : Handle.handleGrab s.handle s.storage 0 = some c
  retired : handleRetire s.handle s.storage 0 = some (storage, c)
  gone : Handle.handleGrab s.handle storage 0 = none
  errors : s.errors q = []

theorem zero_reached : ∃ s storage c q, Run step (State.initial 0 2) ⟨s, [[], []], none⟩ ∧
    Zero s storage c q := by
  have idle : Idle (Shared.initial 0) :=
    ⟨rfl, rfl, rfl, rfl, fun _ _ => rfl, fun _ _ => rfl, fun _ _ => rfl⟩
  have start : Quiet (Shared.initial 0) (Shared.initial 0) 1 :=
    ⟨rfl, rfl, rfl, rfl, rfl, fun _ _ => ⟨rfl, rfl, rfl, rfl, rfl⟩,
      fun _ _ => ⟨rfl, rfl, rfl, rfl, rfl⟩, rfl, rfl, Nat.le_refl _, Nat.le_refl _⟩
  obtain ⟨s, first, quiet⟩ := quiet_cycles (t := [[]]) idle (2 ^ 24 - 1) start (by omega)
  rw [show 1 + (2 ^ 24 - 1) = 2 ^ 24 from rfl] at quiet
  have registered := quiet_registered idle quiet (by omega) (update s.handle s.contextCount 0)
  have global : s.global.push s.queueCount =
      some ⟨some s.queueCount, some s.queueCount, fun _ => none⟩ := by
    rw [quiet.global]
    rfl
  have handle : 2 ^ 24 % 2 ^ 24 ||| (Shared.initial 0).storage.harbor = 0 := rfl
  refine ⟨_, { (Shared.initial 0).storage with handleIndex := 2 ^ 24 % 2 ^ 24 + 1 },
    s.contextCount, s.queueCount, first.trans
    ((launch_registered registered).trans (launch_succeeded ?_ ?_ global)), ⟨?_, ?_, ?_⟩,
    ⟨?_, ?_, ?_, ?_⟩, ?_, rfl, ?_, ?_, ?_, ?_⟩
  · exact update_self ..
  · exact update_self ..
  · exact update_self ..
  · exact update_self ..
  · exact update_self ..
  · exact update_self ..
  · exact update_self ..
  · exact update_self ..
  · exact update_self ..
  · exact update_self ..
  · simp only [Shared.registered, Shared.queued, Shared.mqCreate, Handle.handleGrab, idle.size]
    rw [show 0 &&& (4 - 1) = 2 ^ 24 % 2 ^ 24 &&& 3 from rfl, update_self]
    simp only [update_self, handle, if_true]
  · exact retire_only idle.empty idle.size idle.name rfl (update_self ..)
  · rfl
  · exact congrFun quiet.errors s.queueCount

/- Its messages are dropped after it has retired, and drop_message asserts a source. -/
theorem zero_dropped {s : Shared} {storage : HandleStorage} {c q : Nat} (zero : Zero s storage c q) :
    ∃ st, Run step ⟨s, [[], []], none⟩ st ∧ st.fault = some .noSource ∧
      st.shared.hand q = [letter 1] ∧ st.shared.errors q = [] := by
  obtain ⟨⟨live, ref, queue⟩, ⟨mqLive, mqHandle, release, inGlobal⟩, ring, global, grabbed, retired,
    gone, errors⟩ := zero
  have pushed := contextPush_stored (m := letter 1) (l := [[], []]) (t := 1) rfl grabbed live queue
    mqLive inGlobal
  let s₁ : Shared := (s.counted c (s.ref c + 1)).stored q (letter 1)
  have released : act s₁ true (.release c) = .ok (s₁.counted c 1, []) := by
    simp [s₁, act, Shared.counted, Shared.stored, Shared.contextRelease, live, ref]
  let s₂ : Shared := s₁.counted c 1
  have retiring : act s₂ true (.retire 0) = .ok ({ s₂ with storage := storage }, [.release c]) := by
    simp only [s₂, s₁, act, Shared.counted, Shared.stored, retired]
  let s₃ : Shared := { s₂ with storage := storage }
  have last : act s₃ true (.release c) = .ok (s₃.counted c 0, [.delete c]) := by
    simp [s₃, s₂, s₁, act, Shared.counted, Shared.stored, Shared.contextRelease, live]
  let s₄ : Shared := s₃.counted c 0
  have deleting : act s₄ true (.delete c) = .ok (s₄.deleted c q, []) := by
    simp [s₄, s₃, s₂, s₁, act, Shared.counted, Shared.stored, Shared.deleted, queue, mqLive,
      Shared.mqMarkRelease, release, inGlobal]
  let s₅ : Shared := s₄.deleted c q
  let s₆ : Shared := { s₅ with global := ⟨none, none, update (fun _ => none) q none⟩ }
  have popping : act s₅ true (.popNext 0) = .ok (s₆, [.worker 0 q]) := by
    simp [s₆, s₅, s₄, s₃, s₂, s₁, act, Shared.counted, Shared.stored, Shared.deleted,
      Shared.globalmqPop, global, Chain.pop]
  have missing : act s₆ true (.worker 0 q) = .ok (s₆, [.mqRelease q 0, .popNext 0]) := by
    simp [s₆, s₅, s₄, s₃, s₂, s₁, act, Shared.counted, Shared.stored, Shared.deleted, mqLive,
      mqHandle, Shared.handleGrab, gone]
  have marked : act s₆ true (.mqRelease q 0) = .ok (s₆, [.dropQueue q 0]) := by
    simp [s₆, s₅, s₄, s₃, s₂, s₁, act, Shared.counted, Shared.stored, Shared.deleted, mqLive]
  obtain ⟨s₇, dropping, hand, kept⟩ : ∃ s₇, act s₆ true (.dropQueue q 0) =
      .ok (s₇, [.dropMessage q 0 (letter 1)]) ∧ s₇.hand q = [letter 1] ∧ s₇.errors = s.errors := by
    have message : (s₆.ring q).pop = some (letter 1,
        { (RingBuffer.empty defaultQueueSize).push (2 * ·) (letter 1) with head := 1 }) := by
      rw [← ring_single (letter 1)]
      simp [s₆, s₅, s₄, s₃, s₂, s₁, Shared.counted, Shared.stored, Shared.deleted, ring]
    have alive : s₆.mqLive q = true := mqLive
    simp only [act, alive, if_true, Shared.mqPop, message]
    exact ⟨_, rfl, update_self .., rfl⟩
  have inside : 1 < ([[], []] : List (List Frame)).length := by decide
  have run := pushed.trans ((run_frame [] _ inside released).trans
    ((run_call (l := [[], []]) (t := 1) (.retire 0) rfl rfl).trans
    ((run_frame _ _ inside retiring).trans ((run_frame _ _ inside last).trans
    ((run_frame [] _ inside deleting).trans
    ((run_call (l := [[], []]) (t := 1) (.dispatch 0) rfl rfl).trans
    ((run_frame _ _ inside popping).trans ((run_frame _ _ inside missing).trans
    ((run_frame _ _ inside marked).trans (run_frame _ _ inside dropping))))))))))
  exact ⟨_, .next (a := .run 1 true) run trivial rfl, rfl, hand, (congrFun kept q).trans errors⟩

end Skynet.Server
