import Skynet.Server.Model

/-! The invariant of the scheduler. It counts, over the frames of all threads, the
references to contexts and the possession of queues, and relates the counts to the
fields of the two structures. Each part names the fields it is about, so a step that
touches none of them keeps it. -/
namespace Skynet.Server
open Base Skynet.Handle List Function

/- The context a frame holds a reference to. -/
def Frame.grabbed : Frame → Option Nat
  | .pushTo ctx _ | .release ctx | .assign ctx _ | .createQueue ctx | .init ctx _
  | .launched ctx _ => some ctx
  | .loop b | .measure b _ | .consume b _ | .callback b _ => some b.ctx
  | _ => none

def Frame.deleting : Frame → Option Nat
  | .delete ctx => some ctx
  | _ => none

def Frame.building : Frame → Option Nat
  | .assign ctx _ | .createQueue ctx => some ctx
  | _ => none

/- The queue that a worker, or a thread that releases it, has taken from everyone else. -/
def Frame.workerQueue : Frame → Option Nat
  | .worker _ q | .pushBack q | .mqRelease q _ | .dropQueue q _ | .dropMessage q _ _
  | .free q => some q
  | .loop b | .measure b _ | .consume b _ | .callback b _ => some b.q
  | _ => none

/- The queue of a launch that has not pushed or released it yet. -/
def Frame.launchQueue : Frame → Option Nat
  | .init _ q | .launched _ q | .setInit _ q | .publish q | .failed _ q => some q
  | _ => none

def Frame.holding (f : Frame) : Option Nat := f.workerQueue.or f.launchQueue

/- The message a frame has taken out of its queue and not yet passed on. -/
def Frame.hand : Frame → List SkynetMessage
  | .measure _ m | .consume _ m | .dropMessage _ _ m => [m]
  | _ => []

/-- A live context has as many references as there are holders, and the thread that
took the last one away is deleting it. -/
structure References (storage : HandleStorage) (live : Nat → Bool) (ref reserved : Nat → Nat)
    (remote : Option Nat) (count : Nat) (refs dels : Nat → Nat) : Prop where
  tidy : storage.Tidy
  size : ∃ k, storage.slotSize = 2 ^ k
  table : ∀ c, storage.Holds c → live c = true
  inTable : ∀ c, storage.Holds c → ref c = reserved c + refs c + 1
  outside : ∀ c, live c = true → ¬ storage.Holds c → ref c = reserved c + refs c
  deleted : ∀ c, live c = true → dels c = if ref c = 0 then 1 else 0
  gone : ∀ c, live c = false → reserved c = 0 ∧ refs c = 0 ∧ dels c = 0
  remote : ∀ c, remote = some c → 0 < reserved c
  fresh : ∀ c, count ≤ c → live c = false

/-- A queue that is scheduled or marked for release is in the global queue or with one
thread, any other is with nobody. -/
structure Presence (global : Chain) (mqLive inGlobal release : Nat → Bool) (count : Nat)
    (entries : List Nat) (holds : Nat → Nat) : Prop where
  linked : global.Linked entries
  counted : ∀ q, mqLive q = true →
    entries.count q + holds q = if inGlobal q || release q then 1 else 0
  gone : ∀ q, mqLive q = false → entries.count q + holds q = 0
  fresh : ∀ q, count ≤ q → mqLive q = false

/-- A context and its queue point at each other until the queue is marked for release. -/
structure Ownership (live : Nat → Bool) (queue : Nat → Option Nat) (mqLive release : Nat → Bool)
    (owner : Nat → Nat) (building : Nat → Nat) : Prop where
  context : ∀ c q, live c = true → queue c = some q →
    mqLive q = true ∧ release q = false ∧ owner q = c
  mq : ∀ q, mqLive q = true → release q = false →
    live (owner q) = true ∧ queue (owner q) = some q
  building : ∀ c, live c = true → building c = if queue c = none then 1 else 0

/-- No two contexts were given one handle, and a queue carries the handle of no context
but its own. -/
structure Handles (live : Nat → Bool) (handle given : Nat → Nat) (queue : Nat → Option Nat)
    (mqLive : Nat → Bool) (mqHandle : Nat → Nat) : Prop where
  nonzero : ∀ q, mqLive q = true → mqHandle q ≠ 0
  issued : ∀ c, live c = true → given c ≠ 0
  stored : ∀ c, live c = true → handle c = 0 ∨ handle c = given c
  injective : ∀ c c', live c = true → live c' = true → given c = given c' → c = c'
  own : ∀ c q, live c = true → queue c = some q → mqHandle q = given c
  only : ∀ c q, live c = true → mqLive q = true → mqHandle q = given c → queue c = some q

/-- Every accepted message of a queue is taken, in a thread's hand, or still stored, in
this order. -/
structure Logs (mqLive inGlobal : Nat → Bool) (ring : Nat → RingBuffer SkynetMessage)
    (accepted hand : Nat → List SkynetMessage) (taken : Nat → List (SkynetMessage × Fate))
    (errors : Nat → List ErrorSend) (owner mqHandle : Nat → Nat) (count : Nat) : Prop where
  sound : ∀ q, mqLive q = true → (ring q).Sound
  idle : ∀ q, mqLive q = true → inGlobal q = false → (ring q).items = []
  account : ∀ q, mqLive q = true →
    accepted q = (taken q).map Prod.fst ++ hand q ++ (ring q).items
  done : ∀ q, mqLive q = false → accepted q = (taken q).map Prod.fst
  unused : ∀ q, count ≤ q → taken q = []
  callback : ∀ q m c, (m, Fate.callback c) ∈ taken q → owner q = c
  freed : ∀ q m c, (m, Fate.freed c) ∈ taken q → owner q = c
  errors : ∀ q, errors q = ((taken q).filter (fun t => t.2 = .dropped)).map
    (fun t => ⟨mqHandle q, t.1.source, ptypeError⟩)

structure Hands (hand : Nat → List SkynetMessage) (all : Multiset Frame) : Prop where
  frame : ∀ f ∈ all, ∀ q, f.holding = some q → hand q = f.hand
  none : ∀ q, held Frame.holding all q = 0 → hand q = []

def Local (s : Shared) : Frame → Prop
  | .assign ctx handle => handle = s.given ctx
  | .createQueue ctx => s.handle ctx = s.given ctx
  | .init ctx q => s.queue ctx = some q ∧ s.handle ctx = s.given ctx
  | .launched ctx q => s.queue ctx = some q
  | .loop b | .measure b _ | .consume b _ | .callback b _ => s.queue b.ctx = some b.q
  | .mqRelease q handle | .failed handle q => s.mqHandle q = handle
  | .dropQueue q handle | .dropMessage q handle _ => s.mqHandle q = handle ∧ s.release q = true
  | .free q => s.release q = true ∧ s.inGlobal q = false
  | _ => True

structure Inv (s : Shared) (all : Multiset Frame) : Prop where
  references : References s.storage s.live s.ref s.reserved s.remote s.contextCount
    (held Frame.grabbed all) (held Frame.deleting all)
  presence : ∃ entries, Presence s.global s.mqLive s.inGlobal s.release s.queueCount entries
    (held Frame.holding all)
  ownership : Ownership s.live s.queue s.mqLive s.release s.owner (held Frame.building all)
  handles : Handles s.live s.handle s.given s.queue s.mqLive s.mqHandle
  logs : Logs s.mqLive s.inGlobal s.ring s.accepted s.hand s.taken s.errors s.owner s.mqHandle
    s.queueCount
  hands : Hands s.hand all
  locals : ∀ f ∈ all, Local s f

section References
variable {storage : HandleStorage} {live : Nat → Bool} {ref reserved : Nat → Nat}
  {remote : Option Nat} {count : Nat} {refs dels refs' dels' : Nat → Nat} {c handle : Nat}
  {handleOf : Nat → Nat} {storage' : HandleStorage}

variable (h : References storage live ref reserved remote count refs dels)
include h

theorem References.live_of_held (owned : 0 < refs c) :
    live c = true := by
  by_contra dead
  have := (h.gone c (by simpa using dead)).2.1
  omega

theorem References.positive (owned : 0 < refs c) :
    ref c ≠ 0 := by
  by_cases inside : storage.Holds c
  · have := h.inTable c inside
    omega
  · have := h.outside c (h.live_of_held owned) inside
    omega

theorem References.congr (refs_eq : ∀ x, refs' x = refs x) (dels_eq : ∀ x, dels' x = dels x) :
    References storage live ref reserved remote count refs' dels' := by
  cases funext refs_eq
  cases funext dels_eq
  exact h

theorem References.recount {ref' reserved' : Nat → Nat} {remote' : Option Nat}
    (alive : live c = true)
    (others : ∀ x, x ≠ c → ref' x = ref x ∧ reserved' x = reserved x ∧ refs' x = refs x ∧
      dels' x = dels x)
    (balance : ref' c + reserved c + refs c = ref c + reserved' c + refs' c)
    (last : dels' c = if ref' c = 0 then 1 else 0)
    (kept : ∀ x, remote' = some x → 0 < reserved' x) :
    References storage live ref' reserved' remote' count refs' dels' := by
  refine ⟨h.tidy, h.size, h.table, ?_, ?_, ?_, ?_, kept, h.fresh⟩
  · intro x inside
    have old := h.inTable x inside
    rcases eq_or_ne x c with rfl | other
    · omega
    · obtain ⟨first, second, third, -⟩ := others x other
      rw [first, second, third, old]
  · intro x known out
    have old := h.outside x known out
    rcases eq_or_ne x c with rfl | other
    · omega
    · obtain ⟨first, second, third, -⟩ := others x other
      rw [first, second, third, old]
  · intro x known
    rcases eq_or_ne x c with rfl | other
    · exact last
    · obtain ⟨first, -, -, fourth⟩ := others x other
      rw [first, fourth, h.deleted x known]
  · intro x dead
    have other : x ≠ c := by rintro rfl; simp [alive] at dead
    obtain ⟨-, second, third, fourth⟩ := others x other
    rw [second, third, fourth]
    exact h.gone x dead

theorem References.grab (alive : live c = true) (positive : ref c ≠ 0)
    (refs_eq : ∀ x, refs' x = refs x + if x = c then 1 else 0) (dels_eq : ∀ x, dels' x = dels x) :
    References storage live (update ref c (ref c + 1)) reserved remote count
      refs' dels' := by
  refine h.recount alive (fun x other => ?_) ?_ ?_ h.remote
  · simp [other, refs_eq, dels_eq]
  · rw [update_self, refs_eq, if_pos rfl]
    omega
  · rw [dels_eq, h.deleted c alive, if_neg positive, update_self, if_neg (Nat.succ_ne_zero _)]

theorem References.release (refs_eq : ∀ x, refs x = refs' x + if x = c then 1 else 0)
    (dels_eq : ∀ x, dels' x = dels x + if x = c ∧ ref c - 1 = 0 then 1 else 0) :
    References storage live (update ref c (ref c - 1)) reserved remote count
      refs' dels' := by
  have owned : 0 < refs c := by rw [refs_eq]; simp
  have alive := h.live_of_held owned
  have positive := h.positive owned
  refine h.recount alive (fun x other => ?_) ?_ ?_ h.remote
  · simp [other, refs_eq, dels_eq]
  · rw [update_self, refs_eq c, if_pos rfl]
    omega
  · rw [dels_eq, h.deleted c alive, if_neg positive, update_self]
    simp

/- The deleted context had no reference left. -/
theorem References.delete (refs_eq : ∀ x, refs' x = refs x)
    (dels_eq : ∀ x, dels x = dels' x + if x = c then 1 else 0) :
    References storage (update live c false) ref reserved remote count refs' dels' := by
  have owned : 0 < dels c := by rw [dels_eq]; simp
  have alive : live c = true := by
    by_contra dead
    have := (h.gone c (by simpa using dead)).2.2
    omega
  have zero : ref c = 0 := by
    by_contra positive
    have := h.deleted c alive
    rw [if_neg positive] at this
    omega
  have out : ¬ storage.Holds c := by
    intro inside
    have := h.inTable c inside
    omega
  have last := h.outside c alive out
  have one := h.deleted c alive
  rw [if_pos zero, dels_eq, if_pos rfl] at one
  have dels_other : ∀ x, x ≠ c → dels' x = dels x := fun x other => by
    rw [dels_eq, if_neg other, Nat.add_zero]
  refine ⟨h.tidy, h.size, ?_, ?_, ?_, ?_, ?_, h.remote, ?_⟩
  · intro x inside
    rw [update_of_ne (by rintro rfl; exact out inside)]
    exact h.table x inside
  · intro x inside
    rw [refs_eq]
    exact h.inTable x inside
  · intro x known outside
    rw [update_apply] at known
    split_ifs at known
    rw [refs_eq]
    exact h.outside x known outside
  · intro x known
    rw [update_apply] at known
    split_ifs at known with same
    rw [dels_other x same, h.deleted x known]
  · intro x dead
    by_cases same : x = c
    · subst same
      rw [refs_eq]
      omega
    · rw [update_of_ne same] at dead
      rw [refs_eq, dels_other x same]
      exact h.gone x dead
  · intro x bound
    rw [update_apply]
    split_ifs
    · rfl
    · exact h.fresh x bound

theorem References.retire (retired : handleRetire handleOf storage handle = some (storage', c))
    (refs_eq : ∀ x, refs' x = refs x + if x = c then 1 else 0) (dels_eq : ∀ x, dels' x = dels x) :
    References storage' live ref reserved remote count refs' dels' := by
  have holds := retire_holds h.tidy retired
  have inside : storage.Holds c := ⟨_, (retire_some retired).1⟩
  have alive := h.table c inside
  refine ⟨retire_tidy h.tidy retired, ?_, ?_, ?_, ?_, ?_, ?_, h.remote, h.fresh⟩
  · obtain ⟨-, -, rfl⟩ := retire_some retired
    exact h.size
  · intro x kept
    exact h.table x ((holds x).mp kept).1
  · intro x kept
    obtain ⟨old, other⟩ := (holds x).mp kept
    rw [refs_eq, if_neg other]
    exact h.inTable x old
  · intro x known out
    rw [refs_eq]
    by_cases same : x = c
    · subst same
      rw [if_pos rfl]
      have := h.inTable x inside
      omega
    · rw [if_neg same]
      exact h.outside x known fun old => out ((holds x).mpr ⟨old, same⟩)
  · intro x known
    rw [dels_eq]
    exact h.deleted x known
  · intro x dead
    have other : x ≠ c := by rintro rfl; simp [alive] at dead
    simpa [refs_eq, dels_eq, other] using h.gone x dead

/- A new context starts with two references, one of the table and one of the launch. -/
theorem References.launch
    (registered : handleRegister handleOf storage count = .ok (storage', handle))
    (refs_eq : ∀ x, refs' x = refs x + if x = count then 1 else 0)
    (dels_eq : ∀ x, dels' x = dels x) :
    References storage' (update live count true) (update ref count 2) reserved
      remote (count + 1) refs' dels' := by
  have dead := h.fresh count (Nat.le_refl _)
  have fresh : ¬ storage.Holds count := fun inside => by simp [h.table count inside] at dead
  obtain ⟨tidy, size, holds, -⟩ := registerLoop_tidy 32 h.tidy h.size fresh registered
  obtain ⟨unreserved, unreferenced, undeleted⟩ := h.gone count dead
  refine ⟨tidy, size, ?_, ?_, ?_, ?_, ?_, h.remote, ?_⟩
  · intro x inside
    rw [update_apply]
    split_ifs with same
    · rfl
    · exact h.table x (((holds x).mp inside).resolve_right same)
  · intro x inside
    rw [refs_eq, update_apply]
    split_ifs with same
    · subst same; omega
    · exact h.inTable x (((holds x).mp inside).resolve_right same)
  · intro x known out
    have same : x ≠ count := fun same => out ((holds x).mpr (.inr same))
    rw [update_of_ne same] at known
    rw [refs_eq, update_of_ne same, if_neg same]
    exact h.outside x known fun old => out ((holds x).mpr (.inl old))
  · intro x known
    rw [dels_eq, update_apply]
    by_cases same : x = count
    · subst same; simp [undeleted]
    · rw [update_of_ne same] at known
      rw [if_neg same]
      exact h.deleted x known
  · intro x dead
    rw [update_apply] at dead
    split_ifs at dead with same
    simpa [refs_eq, dels_eq, same] using h.gone x dead
  · intro x bound
    rw [update_of_ne (by omega)]
    exact h.fresh x (by omega)

theorem References.reserve (owned : 0 < refs c) :
    References storage live (update ref c (ref c + 1))
      (update reserved c (reserved c + 1)) (some c) count refs dels := by
  have alive := h.live_of_held owned
  have positive := h.positive owned
  refine h.recount alive (fun x other => ?_) ?_ ?_ fun x set => ?_
  · simp [other]
  · rw [update_self, update_self]
    omega
  · rw [h.deleted c alive, if_neg positive, update_self, if_neg (Nat.succ_ne_zero _)]
  · cases Option.some.inj set
    rw [update_self]
    omega

end References

section Presence
variable {global : Chain} {mqLive inGlobal release : Nat → Bool} {count : Nat}
  {entries : List Nat} {holds holds' : Nat → Nat}

theorem Presence.congr (h : Presence global mqLive inGlobal release count entries holds)
    (holds_eq : ∀ x, holds' x = holds x) :
    Presence global mqLive inGlobal release count entries holds' := by
  cases funext holds_eq
  exact h

variable {q : Nat}

section
variable (h : Presence global mqLive inGlobal release count entries holds)
include h

theorem Presence.live_of_held (owned : 0 < holds q) :
    mqLive q = true := by
  by_contra dead
  have := h.gone q (by simpa using dead)
  omega

theorem Presence.total :
    entries.count q + holds q ≤ 1 := by
  cases known : mqLive q with
  | false => rw [h.gone q known]; omega
  | true => rw [h.counted q known]; split <;> omega

theorem Presence.absent (owned : 0 < holds q) :
    q ∉ entries := by
  intro member
  have listed := count_pos_iff.mpr member
  have := h.total (q := q)
  omega

theorem Presence.handOver (holds_eq : ∀ x, holds x = holds' x + if x = q then 1 else 0) :
    ∃ global', global.push q = some global' ∧
      Presence global' mqLive inGlobal release count (entries ++ [q]) holds' := by
  have owned : 0 < holds q := by rw [holds_eq]; simp
  obtain ⟨global', pushed, linked⟩ := chain_push h.linked (h.absent owned)
  have same : ∀ x, (entries ++ [q]).count x + holds' x = entries.count x + holds x := by
    intro x
    rw [count_append, count_singleton, holds_eq]
    by_cases eq : x = q
    · simp [eq]; omega
    · simp [eq, Ne.symm eq]
  exact ⟨global', pushed, linked, fun x known => by rw [same, h.counted x known],
    fun x dead => by rw [same, h.gone x dead], h.fresh⟩

/- A queue nobody has enters the global queue when one of its flags is set. -/
theorem Presence.enter (alive : mqLive q = true) (idle : (inGlobal q || release q) = false)
    (inGlobal' release' : Nat → Bool) (flagged : (inGlobal' q || release' q) = true)
    (others : ∀ x, x ≠ q → inGlobal' x = inGlobal x ∧ release' x = release x) :
    ∃ global', global.push q = some global' ∧
      Presence global' mqLive inGlobal' release' count (entries ++ [q]) holds := by
  have zero := h.counted q alive
  rw [idle] at zero
  simp only [Bool.false_eq_true, if_false] at zero
  have absent : q ∉ entries := by
    intro member
    have listed := count_pos_iff.mpr member
    omega
  obtain ⟨global', pushed, linked⟩ := chain_push h.linked absent
  refine ⟨global', pushed, linked, ?_, ?_, h.fresh⟩
  · intro x known
    by_cases eq : x = q
    · subst eq
      rw [flagged]
      simp
      omega
    · obtain ⟨ig, rel⟩ := others x eq
      rw [ig, rel, ← h.counted x known]
      simp [Ne.symm eq]
  · intro x dead
    have other : x ≠ q := by rintro rfl; simp [alive] at dead
    simpa [Ne.symm other] using h.gone x dead

theorem Presence.pop :
    (global.pop = some (none, global) ∧ entries = []) ∨
    ∃ q global' rest, global.pop = some (some q, global') ∧ entries = q :: rest ∧
      ∀ holds' : Nat → Nat, (∀ x, holds' x = holds x + if x = q then 1 else 0) →
        Presence global' mqLive inGlobal release count rest holds' := by
  cases entries with
  | nil => exact .inl ⟨chain_pop_nil h.linked, rfl⟩
  | cons q rest =>
    obtain ⟨global', popped, linked⟩ := chain_pop_cons h.linked
    refine .inr ⟨q, global', rest, popped, rfl, fun holds' holds_eq => ?_⟩
    have same : ∀ x, rest.count x + holds' x = (q :: rest).count x + holds x := by
      intro x
      rw [count_cons, holds_eq]
      by_cases eq : x = q
      · simp [eq]; omega
      · simp [eq, Ne.symm eq]
    exact ⟨linked, fun x known => by rw [same, h.counted x known],
      fun x dead => by rw [same, h.gone x dead], h.fresh⟩

end

end Presence

theorem Ownership.congr {live mqLive release : Nat → Bool} {queue : Nat → Option Nat}
    {owner building building' : Nat → Nat}
    (h : Ownership live queue mqLive release owner building)
    (building_eq : ∀ x, building' x = building x) :
    Ownership live queue mqLive release owner building' := by
  cases funext building_eq
  exact h

variable {f : Frame} {s s' : Shared}

theorem Hands.replace {hand hand' : Nat → List SkynetMessage} {new : List Frame}
    {rest : Multiset Frame} (h : Hands hand (f ::ₘ rest))
    (once : ∀ q, f.holding = some q → held Frame.holding rest q = 0)
    (kept : ∀ q, f.holding ≠ some q → hand' q = hand q)
    (arrived : ∀ g ∈ new, ∀ q, g.holding = some q → hand' q = g.hand)
    (left : ∀ q, f.holding = some q → (∀ g ∈ new, g.holding ≠ some q) → hand' q = []) :
    Hands hand' ((new : Multiset Frame) + rest) := by
  constructor
  · intro g member q holding
    rcases Multiset.mem_add.mp member with fresh | old
    · exact arrived g (by simpa using fresh) q holding
    · have other : f.holding ≠ some q := by
        intro same
        have := held_pos old holding
        have := once q same
        omega
      rw [kept q other]
      exact h.frame g (Multiset.mem_cons_of_mem old) q holding
  · intro q nobody
    rw [held_add, Nat.add_eq_zero_iff, tally_eq_zero] at nobody
    by_cases same : f.holding = some q
    · exact left q same nobody.2
    · rw [kept q same]
      refine h.none q ?_
      rw [held_cons, nobody.1, if_neg fun eq => same eq.symm]

/- The changes of the state that no frame of another thread notices. -/
structure Extends (s s' : Shared) : Prop where
  queue : ∀ c q, s.live c = true → s.queue c = some q → s'.queue c = some q
  handle : ∀ c, s.live c = true → s.handle c = s.given c → s'.handle c = s'.given c
  given : ∀ c, s.live c = true → s'.given c = s.given c
  mqHandle : ∀ q, s.mqLive q = true → s'.mqHandle q = s.mqHandle q
  released : ∀ q, s.mqLive q = true → s.release q = true →
    s'.release q = true ∧ (s.inGlobal q = false → s'.inGlobal q = false)

theorem Extends.of_eq (queue : s'.queue = s.queue) (handle : s'.handle = s.handle)
    (given : s'.given = s.given) (mqHandle : s'.mqHandle = s.mqHandle)
    (release : s'.release = s.release) (inGlobal : s'.inGlobal = s.inGlobal) : Extends s s' where
  queue := by rw [queue]; exact fun _ _ _ h => h
  handle := by rw [handle, given]; exact fun _ _ h => h
  given := by rw [given]; exact fun _ _ => rfl
  mqHandle := by rw [mqHandle]; exact fun _ _ => rfl
  released := by rw [release, inGlobal]; exact fun _ _ h => ⟨h, id⟩

theorem local_extend (extended : Extends s s') (grabbed : ∀ c, f.grabbed = some c → s.live c = true)
    (holding : ∀ q, f.holding = some q → s.mqLive q = true) (known : Local s f) : Local s' f := by
  cases f with
  | assign ctx handle => exact known.trans (extended.given ctx (grabbed ctx rfl)).symm
  | createQueue ctx => exact extended.handle ctx (grabbed ctx rfl) known
  | init ctx q =>
    exact ⟨extended.queue ctx q (grabbed ctx rfl) known.1,
      extended.handle ctx (grabbed ctx rfl) known.2⟩
  | launched ctx q => exact extended.queue ctx q (grabbed ctx rfl) known
  | loop b | measure b _ | consume b _ | callback b _ =>
    exact extended.queue b.ctx b.q (grabbed b.ctx rfl) known
  | mqRelease q _ | failed _ q => exact (extended.mqHandle q (holding q rfl)).trans known
  | dropQueue q _ | dropMessage q _ _ =>
    exact ⟨(extended.mqHandle q (holding q rfl)).trans known.1,
      (extended.released q (holding q rfl) known.2).1⟩
  | free q =>
    obtain ⟨release, inGlobal⟩ := extended.released q (holding q rfl) known.1
    exact ⟨release, inGlobal known.2⟩
  | _ => trivial

/-! What the invariant says about the frame that acts. -/
section Inv
variable {s : Shared} {f : Frame} {rest : Multiset Frame}

theorem Inv.live {c : Nat} (inv : Inv s (f ::ₘ rest)) (grabbed : f.grabbed = some c) :
    s.live c = true :=
  inv.references.live_of_held (held_pos (Multiset.mem_cons_self f rest) grabbed)

variable {q : Nat} {s' : Shared}

section
variable (inv : Inv s (f ::ₘ rest))
include inv

theorem Inv.mqLive (holding : f.holding = some q) : s.mqLive q = true := by
  obtain ⟨entries, presence⟩ := inv.presence
  exact presence.live_of_held (held_pos (Multiset.mem_cons_self f rest) holding)

theorem Inv.once (q : Nat) (holding : f.holding = some q) : held Frame.holding rest q = 0 := by
  obtain ⟨entries, presence⟩ := inv.presence
  have total := presence.total (q := q)
  rw [held_cons, holding, if_pos rfl] at total
  omega

theorem Inv.local_here : Local s f :=
  inv.locals f (Multiset.mem_cons_self f rest)

theorem Inv.hand_here (holding : f.holding = some q) : s.hand q = f.hand :=
  inv.hands.frame f (Multiset.mem_cons_self f rest) q holding

end

theorem Inv.locals_same {all : Multiset Frame} (inv : Inv s all) (extended : Extends s s') :
    ∀ g ∈ all, Local s' g := by
  intro g member
  obtain ⟨entries, presence⟩ := inv.presence
  exact local_extend extended
    (fun c grabbed => inv.references.live_of_held (held_pos member grabbed))
    (fun q holding => presence.live_of_held (held_pos member holding)) (inv.locals g member)

theorem Inv.locals_extend {new : List Frame} (inv : Inv s (f ::ₘ rest)) (extended : Extends s s')
    (arrived : ∀ g ∈ new, Local s' g) :
    ∀ g ∈ (new : Multiset Frame) + rest, Local s' g := by
  intro g member
  rcases Multiset.mem_add.mp member with fresh | old
  · exact arrived g (by simpa using fresh)
  · exact inv.locals_same extended g (Multiset.mem_cons_of_mem old)

end Inv
end Skynet.Server
