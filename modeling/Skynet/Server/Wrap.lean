import Skynet.Server.Model

/-! The handle index goes round. A launch whose init function fails takes the next handle
and gives everything back, so failing launches count the index up to any value. -/
namespace Skynet.Server
open Base Skynet.Handle List Function

/- The state is `base` apart from the handle index and what launches that failed left
behind at addresses `base` has not given out. -/
structure Quiet (base s : Shared) (index : Nat) : Prop where
  storage : s.storage = { base.storage with handleIndex := index }
  live : s.live = base.live
  mqLive : s.mqLive = base.mqLive
  global : s.global = base.global
  remote : s.remote = base.remote
  contexts : ∀ c < base.contextCount, s.ref c = base.ref c ∧ s.handle c = base.handle c ∧
    s.queue c = base.queue c ∧ s.cb c = base.cb c ∧ s.init c = base.init c
  queues : ∀ q < base.queueCount, s.mqHandle q = base.mqHandle q ∧ s.ring q = base.ring q ∧
    s.release q = base.release q ∧ s.inGlobal q = base.inGlobal q ∧ s.owner q = base.owner q
  taken : s.taken = base.taken
  errors : s.errors = base.errors
  contextCount : base.contextCount ≤ s.contextCount
  queueCount : base.queueCount ≤ s.queueCount

/- The first handle tried by the search finds its slot free in an empty table. -/
theorem register_empty {handleOf : Nat → Nat} {st : HandleStorage} {ctx : Nat}
    (empty : st.slot = fun _ => none) (size : st.slotSize = 4) (index : st.handleIndex ≤ 2 ^ 24) :
    handleRegister handleOf st ctx = .ok ({ st with
      slot := update st.slot (st.handleIndex % 2 ^ 24 &&& 3) (some ctx)
      handleIndex := st.handleIndex % 2 ^ 24 + 1 }, st.handleIndex % 2 ^ 24 ||| st.harbor) := by
  have raw : (0 + st.handleIndex) % 2 ^ 32 &&& handleMask = st.handleIndex % 2 ^ 24 := by
    rw [Nat.zero_add, Nat.mod_eq_of_lt (by omega)]
    exact Nat.and_two_pow_sub_one_eq_mod _ 24
  have found : st.scan = some (st.handleIndex % 2 ^ 24) := by
    simp only [HandleStorage.scan, size, empty]
    rw [show range 4 = [0, 1, 2, 3] from rfl, findSome?_cons, if_pos trivial, raw]
  simp only [handleRegister, registerLoop, found, size]

/-! The states that one failing launch goes through. -/
section FailingLaunch

def Shared.registered (s : Shared) (storage : HandleStorage) (handle : Nat) : Shared :=
  { s with
    storage := storage
    contextCount := s.contextCount + 1
    live := update s.live s.contextCount true
    ref := update s.ref s.contextCount 2
    handle := update s.handle s.contextCount handle
    queue := update s.queue s.contextCount none
    cb := update s.cb s.contextCount false
    init := update s.init s.contextCount false
    given := update s.given s.contextCount handle }

def Shared.queued (s : Shared) (ctx handle : Nat) : Shared :=
  { s.mqCreate handle with
    queue := update s.queue ctx (some s.queueCount)
    owner := update s.owner s.queueCount ctx }

def Shared.counted (s : Shared) (ctx n : Nat) : Shared :=
  { s with ref := update s.ref ctx n }

def Shared.deleted (s : Shared) (ctx q : Nat) : Shared :=
  { s with
    release := update s.release q true
    live := update s.live ctx false }

def Shared.emptied (s : Shared) (q : Nat) : Shared :=
  { s with
    overloadThreshold := update s.overloadThreshold q mqOverloadMark
    inGlobal := update s.inGlobal q false
    mqLive := update s.mqLive q false }

variable {s : Shared} {t : List (List Frame)} {storage : HandleStorage} {c q : Nat}

theorem launch_registered {handle : Nat}
    (registered : handleRegister (update s.handle s.contextCount 0) s.storage s.contextCount = .ok (storage, handle)) :
    Run step ⟨s, [] :: t, none⟩
      ⟨(s.registered storage handle).queued s.contextCount handle,
        [.init s.contextCount s.queueCount] :: t, none⟩ := by
  refine run_of_list [.call 0 .launch, .run 0 true, .run 0 true] ?_
  simp only [foldlM_cons, foldlM_nil, step, getElem?_cons_zero, callerOf,
      start, Shared.contextNew, registered, State.finish, Option.bind_eq_bind, Option.bind_some,
      Option.pure_def, set_cons_zero, append_nil, act, Shared.mqCreate, update_self,
      update_idem, Shared.registered, Shared.queued]

/- What is left when the init function has failed. -/
def Shared.discarded (s : Shared) (storage : HandleStorage) (ctx q : Nat) : Shared :=
  ({ s with storage := storage }.counted ctx 0).deleted ctx q |>.emptied q

theorem launch_failed {h : Nat} (live : s.live c = true) (ref : s.ref c = 2)
    (queue : s.queue c = some q) (mqLive : s.mqLive q = true) (release : s.release q = false)
    (inGlobal : s.inGlobal q = true) (ring : s.ring q = RingBuffer.empty defaultQueueSize)
    (alone : s.global.next q = none) (handle : s.handle c = h)
    (retired : handleRetire s.handle s.storage h = some (storage, c)) :
    Run step ⟨s, [.init c q] :: t, none⟩ ⟨s.discarded storage c q, [] :: t, none⟩ := by
  have empty : (RingBuffer.empty defaultQueueSize : RingBuffer SkynetMessage).pop = none := rfl
  refine run_of_list [.run 0 false, .run 0 true, .run 0 true, .run 0 true, .run 0 true, .run 0 true,
    .run 0 true, .run 0 true] ?_
  simp only [foldlM_cons, foldlM_nil, Option.bind_eq_bind, Option.bind_some, step,
    Option.pure_def, act, handle, Bool.false_eq_true, if_false, live, if_true, Shared.contextRelease,
    ref, getElem?_cons_zero, State.finish, set_cons_zero, cons_append,
    nil_append, append_nil, retired, Nat.reduceSub, decide_true, decide_false,
    update_self, update_idem, queue, mqLive, Shared.mqMarkRelease, release, inGlobal,
    Shared.mqPop, ring, empty, alone, Shared.discarded, Shared.counted, Shared.deleted,
      Shared.emptied, one_ne_zero]

theorem launch_succeeded {global : Chain} (live : s.live c = true) (ref : s.ref c = 2)
    (pushed : s.global.push q = some global) :
    Run step ⟨s, [.init c q] :: t, none⟩ ⟨{ s with
      cb := update s.cb c true
      ref := update s.ref c 1
      init := update s.init c true
      global := global }, [] :: t, none⟩ := by
  refine run_of_list [.call 0 (.setCallback true), .run 0 true, .run 0 true, .run 0 true,
    .run 0 true] ?_
  simp only [foldlM_cons, foldlM_nil, Option.bind_eq_bind, Option.bind_some, step,
    Option.pure_def, callerOf, Frame.running, Option.map_some, start, act, live, if_true,
    Shared.contextRelease, ref, getElem?_cons_zero, State.finish, set_cons_zero,
    cons_append, nil_append, Nat.reduceSub, decide_false, Bool.false_eq_true, if_false,
    one_ne_zero, Shared.globalmqPush, pushed]

end FailingLaunch

section Cycle
variable {base s : Shared} {index : Nat} {t : List (List Frame)}

/-- The handle table is empty and nothing is known beyond the addresses given out. -/
structure Idle (base : Shared) : Prop where
  empty : base.storage.slot = fun _ => none
  size : base.storage.slotSize = 4
  name : base.storage.name = []
  masked : base.storage.harbor &&& 3 = 0
  live : ∀ c, base.contextCount ≤ c → base.live c = false
  mqLive : ∀ q, base.queueCount ≤ q → base.mqLive q = false
  next : ∀ q, base.queueCount ≤ q → base.global.next q = none

theorem quiet_registered (idle : Idle base) (quiet : Quiet base s index) (bound : index ≤ 2 ^ 24)
    (handleOf : Nat → Nat) :
    handleRegister handleOf s.storage s.contextCount = .ok ({ base.storage with
      slot := update base.storage.slot (index % 2 ^ 24 &&& 3) (some s.contextCount)
      handleIndex := index % 2 ^ 24 + 1 }, index % 2 ^ 24 ||| base.storage.harbor) := by
  rw [quiet.storage]
  exact register_empty idle.empty idle.size bound

theorem retire_only {handleOf : Nat → Nat} {st : HandleStorage} {i h k ctx : Nat}
    (empty : st.slot = fun _ => none) (size : st.slotSize = 4) (name : st.name = [])
    (slot : h &&& 3 = k) (mine : handleOf ctx = h) :
    handleRetire handleOf { st with
      slot := update st.slot k (some ctx), handleIndex := i } h =
        some ({ st with handleIndex := i }, ctx) := by
  have cleared : update (fun _ => none) k none = (fun _ => none : Nat → Option Nat) :=
    update_eq_self k _
  simp only [handleRetire, size, Nat.reduceSub, slot, update_self, mine, if_true, name,
    filter_nil, update_idem, empty, cleared]

theorem quiet_cycle (idle : Idle base) (quiet : Quiet base s index) (bound : index ≤ 2 ^ 24) :
    ∃ s', Run step ⟨s, [] :: t, none⟩ ⟨s', [] :: t, none⟩ ∧
      Quiet base s' (index % 2 ^ 24 + 1) := by
  have registered := quiet_registered idle quiet bound (update s.handle s.contextCount 0)
  have slot : (index % 2 ^ 24 ||| base.storage.harbor) &&& 3 = index % 2 ^ 24 &&& 3 := by
    rw [Nat.and_or_distrib_right, idle.masked, Nat.or_zero]
  have unlive : s.live s.contextCount = false := by
    rw [quiet.live]
    exact idle.live _ quiet.contextCount
  have unmade : s.mqLive s.queueCount = false := by
    rw [quiet.mqLive]
    exact idle.mqLive _ quiet.queueCount
  have alone : s.global.next s.queueCount = none := by
    rw [quiet.global]
    exact idle.next _ quiet.queueCount
  have ended := launch_failed (t := t) (c := s.contextCount) (q := s.queueCount)
    (s := (s.registered _ (index % 2 ^ 24 ||| base.storage.harbor)).queued s.contextCount
      (index % 2 ^ 24 ||| base.storage.harbor)) (update_self ..) (update_self ..)
    (update_self ..) (update_self ..) (update_self ..)
    (update_self ..) (update_self ..) alone (update_self ..)
    (retire_only (i := index % 2 ^ 24 + 1) idle.empty idle.size idle.name slot (update_self ..))
  refine ⟨_, (launch_registered registered).trans ended, ⟨rfl, ?_, ?_, quiet.global, quiet.remote,
    ?_, ?_, quiet.taken, quiet.errors, ?_, ?_⟩⟩
  · exact (update_idem ..).trans ((update_eq_self_iff.mpr unlive.symm).trans quiet.live)
  · exact (update_idem ..).trans ((update_eq_self_iff.mpr unmade.symm).trans quiet.mqLive)
  · intro c old
    have other : c ≠ s.contextCount := by have := quiet.contextCount; omega
    have same := quiet.contexts c old
    simpa [Shared.discarded, Shared.counted, Shared.deleted, Shared.emptied, Shared.registered,
      Shared.queued, Shared.mqCreate, other] using same
  · intro q old
    have other : q ≠ s.queueCount := by have := quiet.queueCount; omega
    have same := quiet.queues q old
    simpa [Shared.discarded, Shared.counted, Shared.deleted, Shared.emptied, Shared.registered,
      Shared.queued, Shared.mqCreate, other] using same
  · exact Nat.le_succ_of_le quiet.contextCount
  · exact Nat.le_succ_of_le quiet.queueCount

/- Failing launches count the handle index up to any value below the mask. -/
theorem quiet_cycles (idle : Idle base) (n : Nat) (quiet : Quiet base s index)
    (bound : index + n ≤ 2 ^ 24) :
    ∃ s', Run step ⟨s, [] :: t, none⟩ ⟨s', [] :: t, none⟩ ∧ Quiet base s' (index + n) := by
  induction n with
  | zero => exact ⟨s, .start, quiet⟩
  | succ n ih =>
    obtain ⟨s', run, quiet'⟩ := ih (by omega)
    obtain ⟨s'', last, quiet''⟩ := quiet_cycle (t := t) idle quiet' (by omega)
    rw [Nat.mod_eq_of_lt (by omega)] at quiet''
    exact ⟨s'', run.trans last, quiet''⟩

end Cycle

end Skynet.Server
