import Skynet.Server.QueueSteps

/-! The steps of dispatching, dropping and launching, and the step of the whole system. -/
namespace Skynet.Server
open Base Skynet.Handle List Function Option

section Steps
variable {s : Shared} {f : Frame} {all rest : Multiset Frame} {ok : Bool} {q h : Nat}
  {m : SkynetMessage} {b : Batch} {new : List Frame}

theorem fine_pushBack (inv : Inv s (.pushBack q ::ₘ rest)) :
    Fine rest (act s ok (.pushBack q)) :=
  inv.giveBack rfl rfl rfl rfl rfl

theorem fine_publish (inv : Inv s (.publish q ::ₘ rest)) :
    Fine rest (act s ok (.publish q)) :=
  inv.giveBack rfl rfl rfl rfl rfl

theorem fine_mqRelease (inv : Inv s (.mqRelease q h ::ₘ rest)) :
    Fine rest (act s ok (.mqRelease q h)) := by
  have alive := inv.mqLive (q := q) rfl
  have known : s.mqHandle q = h := inv.local_here
  cases released : s.release q with
  | true =>
    simp only [act, alive, released, if_true]
    refine inv.swap ?_ ?_ ?_ ?_ ?_ ?_ <;> simp [Balanced, known, released]
  | false =>
    simp only [act, alive, released, if_true, Bool.false_eq_true, if_false]
    exact inv.giveBack rfl rfl rfl rfl rfl

theorem Inv.take {g : Frame} {r : RingBuffer SkynetMessage} (inv : Inv s (f ::ₘ rest))
    (holding : f.holding = some q) (empty : f.hand = []) (popped : (s.ring q).pop = some (m, r))
    (overload overloadThreshold : Nat → Nat) (holding' : g.holding = some q) (hand : g.hand = [m])
    (grabbed : g.grabbed = f.grabbed) (deleting : g.deleting = f.deleting)
    (building : g.building = f.building) (known : Local s g) :
    Inv { s with
      ring := update s.ring q r
      overload := overload
      overloadThreshold := overloadThreshold
      hand := update s.hand q [m] } (([g] : List Frame) + rest) := by
  obtain ⟨entries, presence⟩ := inv.presence
  have alive := inv.mqLive holding
  have kept : ∀ select : Frame → Option Nat, select g = select f → ∀ x,
      held select ((([g] : List Frame) : Multiset Frame) + rest) x =
        held select (f ::ₘ rest) x := by
    intro select same x
    rw [held_add, held_cons, tally, tally, same, Nat.zero_add]
  refine ⟨inv.references.congr (kept _ grabbed) (kept _ deleting),
    ⟨entries, presence.congr (kept _ (holding'.trans holding.symm))⟩,
    inv.ownership.congr (kept _ building), inv.handles,
    inv.logs.pop alive ((inv.hand_here holding).trans empty) popped,
    inv.hands.replace inv.once ?_ ?_ ?_, inv.locals_extend (.of_eq rfl rfl rfl rfl rfl rfl) ?_⟩
  · intro p other
    exact update_of_ne (fun eq => other (holding.trans (congrArg some eq.symm))) _ _
  · intro g' member p here
    cases mem_singleton.mp member
    cases some.inj (holding'.symm.trans here)
    exact (update_self ..).trans hand.symm
  · intro p here nobody
    exact absurd (holding'.trans (holding.symm.trans here)) (nobody g (mem_singleton_self g))
  · intro g' member
    cases mem_singleton.mp member
    cases g <;> exact known

theorem extends_idle (s : Shared) (q : Nat) (overloadThreshold : Nat → Nat) : Extends s { s with
    overloadThreshold := overloadThreshold, inGlobal := update s.inGlobal q false } := by
  refine ⟨fun _ _ _ h => h, fun _ _ h => h, fun _ _ => rfl, fun _ _ => rfl, ?_⟩
  intro p _ released
  refine ⟨released, fun idle => ?_⟩
  dsimp only
  rw [update_apply]
  split_ifs
  · rfl
  · exact idle

theorem Presence.leave {global : Chain} {mqLive inGlobal release : Nat → Bool} {count : Nat}
    {entries : List Nat} {holds holds' : Nat → Nat}
    (h : Presence global mqLive inGlobal release count entries holds)
    (unreleased : release q = false) (holds_eq : ∀ x, holds x = holds' x + if x = q then 1 else 0) :
    Presence global mqLive (update inGlobal q false) release count entries holds' := by
  have total := h.total (q := q)
  have here := holds_eq q
  rw [if_pos rfl] at here
  refine ⟨h.linked, ?_, ?_, h.fresh⟩
  · intro x known
    have old := h.counted x known
    rw [holds_eq] at old
    by_cases same : x = q
    · subst same
      rw [update_self, unreleased]
      simp only [Bool.or_self, Bool.false_eq_true, if_false]
      omega
    · rw [if_neg same] at old
      rw [update_of_ne same]
      exact old
  · intro x dead
    have old := h.gone x dead
    rw [holds_eq] at old
    omega

section
variable (inv : Inv s (.loop b ::ₘ rest))
include inv

theorem fine_loop_pop (more : b.i < b.n) : Fine rest (act s ok (.loop b)) := by
  have alive := inv.mqLive (q := b.q) rfl
  have queue : s.queue b.ctx = some b.q := inv.local_here
  obtain ⟨-, unreleased, -⟩ := inv.ownership.context b.ctx b.q (inv.live rfl) queue
  cases popped : (s.ring b.q).pop with
  | none =>
    obtain ⟨entries, presence⟩ := inv.presence
    have idle : s.hand b.q = [] := inv.hand_here rfl
    simp only [act, if_pos more, alive, if_true, Shared.mqPop, popped]
    refine ⟨inv.references.congr ?_ ?_, ⟨entries, presence.leave unreleased ?_⟩,
      inv.ownership.congr ?_, inv.handles, inv.logs.idle_pop alive popped,
      inv.hands.replace inv.once (fun _ _ => rfl) ?_ ?_,
      inv.locals_extend (extends_idle ..) ?_⟩ <;> simp [idle]
  | some pair =>
    simp only [act, if_pos more, alive, if_true, Shared.mqPop, popped]
    split_ifs
    · exact inv.take rfl rfl popped _ _ rfl rfl rfl rfl rfl queue
    · exact inv.take rfl rfl popped _ _ rfl rfl rfl rfl rfl queue

theorem fine_loop_end (done : ¬ b.i < b.n) : Fine rest (act s ok (.loop b)) := by
  have queue : s.queue b.ctx = some b.q := inv.local_here
  have idle : s.hand b.q = [] := inv.hand_here rfl
  obtain ⟨entries, presence⟩ := inv.presence
  rcases presence.pop with ⟨popped, -⟩ | ⟨q, global, left, popped, rfl, presence'⟩
  · simp only [act, if_neg done, inv.live rfl, if_true, queue, Shared.globalmqPop, popped]
    refine inv.swap ?_ ?_ ?_ ?_ ?_ ?_ <;> simp [Balanced]
  · have next := inv.hand_listed presence (mem_cons_self ..)
    simp only [act, if_neg done, inv.live rfl, if_true, queue, Shared.globalmqPop, popped]
    refine ⟨inv.references.congr ?_ ?_, ⟨left, presence' _ ?_⟩, inv.ownership.congr ?_, inv.handles,
      inv.logs, inv.hands.replace inv.once (fun _ _ => rfl) ?_ ?_,
      inv.locals_extend (.of_eq rfl rfl rfl rfl rfl rfl) ?_⟩ <;> simp [idle, next]
    omega

theorem fine_loop : Fine rest (act s ok (.loop b)) := by
  by_cases more : b.i < b.n
  · exact fine_loop_pop inv more
  · exact fine_loop_end inv more

end

theorem Inv.settle {fate : Fate} (inv : Inv s (f ::ₘ rest)) (holding : f.holding = some q)
    (hand : f.hand = [m]) (callback : ∀ c, fate = .callback c → s.owner q = c)
    (freed : ∀ c, fate = .freed c → s.owner q = c) (overload : Nat → Nat)
    {errors : Nat → List ErrorSend} (others : ∀ x, x ≠ q → errors x = s.errors x)
    (sent : errors q = s.errors q ++ if fate =
      .dropped then [⟨s.mqHandle q, m.source, ptypeError⟩] else [])
    (balanced : ∀ select ∈ [Frame.grabbed, Frame.deleting, Frame.building, Frame.holding],
      Balanced select f new)
    (hands : ∀ g ∈ new, g.hand = []) (locals : ∀ g ∈ new, Local s g) :
    Inv { s with
      overload := overload
      hand := update s.hand q []
      taken := update s.taken q (s.taken q ++ [(m, fate)])
      errors := errors } ((new : Multiset Frame) + rest) := by
  obtain ⟨entries, presence⟩ := inv.presence
  have alive := inv.mqLive holding
  have used : q < s.queueCount := by
    by_contra beyond
    have := presence.fresh q (by omega)
    simp [alive] at this
  have held := inv.hand_here holding
  rw [hand] at held
  refine ⟨inv.references.congr (balanced_held (balanced _ (by simp)))
      (balanced_held (balanced _ (by simp))),
    ⟨entries, presence.congr (balanced_held (balanced _ (by simp)))⟩,
    inv.ownership.congr (balanced_held (balanced _ (by simp))), inv.handles,
    inv.logs.take alive used held callback freed others sent,
    inv.hands.replace inv.once ?_ ?_ ?_, inv.locals_extend (.of_eq rfl rfl rfl rfl rfl rfl) ?_⟩
  · intro p other
    exact update_of_ne (fun eq => other (holding.trans (congrArg some eq.symm))) _ _
  · intro g member p here
    have same : p = q := by
      by_contra other
      have zero := balanced Frame.holding (by simp) p
      rw [holding, if_neg fun eq => other (some.inj eq), tally_eq_zero] at zero
      exact zero g member here
    rw [same, hands g member]
    exact update_self ..
  · intro p here _
    cases some.inj (holding.symm.trans here)
    exact update_self ..
  · intro g member
    have known := locals g member
    cases g <;> exact known

theorem fine_consume (inv : Inv s (.consume b m ::ₘ rest)) :
    Fine rest (act s ok (.consume b m)) := by
  have alive := inv.live (c := b.ctx) rfl
  have queue : s.queue b.ctx = some b.q := inv.local_here
  obtain ⟨-, -, owner⟩ := inv.ownership.context b.ctx b.q alive queue
  cases callback : s.cb b.ctx with
  | true =>
    cases init : s.init b.ctx with
    | true =>
      simp only [act, alive, if_true, callback, init]
      refine inv.settle rfl rfl ?_ ?_ _ (fun _ _ => rfl) ?_ ?_ ?_ ?_ <;>
        simp [Balanced, owner, queue]
    | false =>
      simp only [act, alive, if_true, callback, init, Bool.false_eq_true, if_false]
      trivial
  | false =>
    simp only [act, alive, if_true, callback, Bool.false_eq_true, if_false]
    refine inv.settle rfl rfl ?_ ?_ _ (fun _ _ => rfl) ?_ ?_ ?_ ?_ <;> simp [Balanced, owner, queue]

theorem fine_dropQueue (inv : Inv s (.dropQueue q h ::ₘ rest)) :
    Fine rest (act s ok (.dropQueue q h)) := by
  have alive := inv.mqLive (q := q) rfl
  obtain ⟨handle, released⟩ := inv.local_here
  cases popped : (s.ring q).pop with
  | none =>
    obtain ⟨entries, presence⟩ := inv.presence
    have idle : s.hand q = [] := inv.hand_here rfl
    have counted : ∀ x, s.mqLive x = true →
        (update s.inGlobal q false x || s.release x) = (s.inGlobal x || s.release x) := by
      intro x _
      rw [update_apply]
      split_ifs with same
      · rw [same, released, Bool.or_true, Bool.or_true]
      · rfl
    simp only [act, alive, if_true, Shared.mqPop, popped]
    refine ⟨inv.references.congr ?_ ?_, ⟨entries, presence.linked, ?_, ?_, presence.fresh⟩,
      inv.ownership.congr ?_, inv.handles, inv.logs.idle_pop alive popped,
      inv.hands.replace inv.once (fun _ _ => rfl) ?_ ?_, inv.locals_extend (extends_idle ..) ?_⟩
    · simp
    · simp
    · intro x known
      rw [counted x known, ← presence.counted x known]
      simp
    · intro x dead
      simpa using presence.gone x dead
    · simp
    · simp [idle]
    · simp [idle]
    · simp [released]
  | some pair =>
    simp only [act, alive, if_true, Shared.mqPop, popped]
    exact inv.take rfl rfl popped _ _ rfl rfl rfl rfl rfl ⟨handle, released⟩

/- Frames of a send own nothing. -/
theorem skynetSend_light (harbor source destination type : Nat) (session : Int) (data sz : Nat) :
    ∀ g ∈ skynetSend harbor source destination type session data sz,
      g.grabbed = none ∧ g.deleting = none ∧ g.building = none ∧ g.holding = none ∧ g.hand = [] ∧
        Local s g := by
  intro g member
  unfold skynetSend at member
  split_ifs at member
  · cases member
  · cases member
  · cases mem_singleton.mp member
    simp
  · cases mem_singleton.mp member
    simp

theorem tally_append_light {select : Frame → Option Nat} {light : List Frame}
    (none : ∀ g ∈ light, select g = Option.none) (x : Nat) :
    tally select (light ++ new) x = tally select new x := by
  induction light with
  | nil => rfl
  | cons g light ih =>
    rw [cons_append, tally, ih fun g' member => none g' (mem_cons_of_mem g member),
      none g (mem_cons_self ..)]
    simp

theorem fine_dropMessage (inv : Inv s (.dropMessage q h m ::ₘ rest)) :
    Fine rest (act s ok (.dropMessage q h m)) := by
  obtain ⟨handle, released⟩ := inv.local_here
  have nonzero : h ≠ 0 := handle ▸ inv.handles.nonzero q (inv.mqLive rfl)
  have light := skynetSend_light (s := s) s.storage.harbor h m.source ptypeError 0 0 0
  simp only [act, if_neg nonzero]
  refine inv.settle (q := q) rfl rfl ?_ ?_ _ ?_ ?_ ?_ ?_ ?_
  · exact fun c impossible => Fate.noConfusion impossible
  · exact fun c impossible => Fate.noConfusion impossible
  · intro x other
    exact update_of_ne other _ _
  · rw [update_self, handle, if_pos rfl]
  · intro select member x
    simp only [mem_cons, not_mem_nil, or_false] at member
    rcases member with rfl | rfl | rfl | rfl
    · rw [tally_append_light fun g here => (light g here).1]; simp
    · rw [tally_append_light fun g here => (light g here).2.1]; simp
    · rw [tally_append_light fun g here => (light g here).2.2.1]; simp
    · rw [tally_append_light fun g here => (light g here).2.2.2.1]; simp
  · intro g member
    rcases mem_append.mp member with sent | last
    · exact (light g sent).2.2.2.2.1
    · cases mem_singleton.mp last
      rfl
  · intro g member
    rcases mem_append.mp member with sent | last
    · exact (light g sent).2.2.2.2.2
    · cases mem_singleton.mp last
      exact ⟨handle, released⟩

/- A freed queue is empty, in nobody's chain and belongs to no context any more. -/
theorem fine_free (inv : Inv s (.free q ::ₘ rest)) : Fine rest (act s ok (.free q)) := by
  obtain ⟨released, idle⟩ := inv.local_here
  obtain ⟨entries, presence⟩ := inv.presence
  have alive := inv.mqLive (q := q) rfl
  have holds : ∀ x, held Frame.holding (.free q ::ₘ rest) x =
      held Frame.holding rest x + if x = q then 1 else 0 := by simp
  have alone : s.global.next q = none := by
    rw [presence.linked.next]
    exact successor_absent (presence.absent (by rw [holds]; simp))
  have total := presence.total (q := q)
  rw [holds, if_pos rfl] at total
  simp only [act, alone, if_true]
  refine ⟨inv.references.congr ?_ ?_, ⟨entries, presence.linked, ?_, ?_, ?_⟩, ⟨?_, ?_, ?_⟩,
    inv.handles.mono (fun _ => id) (fun _ => of_update_false),
    ⟨?_, ?_, ?_, ?_, inv.logs.unused, inv.logs.callback, inv.logs.freed, inv.logs.errors⟩,
    inv.hands.replace inv.once (fun _ _ => rfl) ?_ ?_,
    inv.locals_extend (.of_eq rfl rfl rfl rfl rfl rfl) ?_⟩
  · simp
  · simp
  · intro x known
    have other : x ≠ q := by rintro rfl; simp at known
    have old := presence.counted x (of_update_false known)
    rw [holds, if_neg other] at old
    simpa using old
  · intro x dead
    dsimp only at dead
    rw [update_apply] at dead
    split_ifs at dead with same
    · subst same
      simp only [held_add, tally, Nat.add_zero]
      omega
    · have old := presence.gone x dead
      rw [holds, if_neg same] at old
      simpa using old
  · intro x bound
    dsimp only
    rw [update_apply]
    split_ifs
    · rfl
    · exact presence.fresh x bound
  · intro c p known here
    obtain ⟨first, second, third⟩ := inv.ownership.context c p known here
    refine ⟨?_, second, third⟩
    dsimp only
    rw [update_of_ne (by rintro rfl; simp [released] at second)]
    exact first
  · intro p known unreleased
    exact inv.ownership.mq p (of_update_false known) unreleased
  · intro c known
    simpa using inv.ownership.building c known
  · exact fun x known => inv.logs.sound x (of_update_false known)
  · exact fun x known => inv.logs.idle x (of_update_false known)
  · exact fun x known => inv.logs.account x (of_update_false known)
  · intro x dead
    dsimp only at dead
    rw [update_apply] at dead
    split_ifs at dead with same
    · have empty : s.hand x = [] := same ▸ inv.hand_here rfl
      subst same
      rw [inv.logs.account x alive, inv.logs.idle x alive idle, empty]
      simp
    · exact inv.logs.done x dead
  · simp
  · intro p here _
    exact inv.hand_here here
  · simp

end Steps
end Skynet.Server
