import Skynet.Server.Dispatch

/-! The steps of launching a service. -/
namespace Skynet.Server
open Base Skynet.Handle Function

section Steps
variable {s : Shared} {f : Frame} {all rest : Multiset Frame} {ok : Bool}

theorem fine_assign {c h : Nat} (inv : Inv s (.assign c h ::ₘ rest)) :
    Fine rest (act s ok (.assign c h)) := by
  have known : h = s.given c := inv.local_here
  obtain ⟨entries, presence⟩ := inv.presence
  have stored : ∀ x, s.handle x = s.given x → update s.handle c h x = s.given x := by
    intro x old
    rw [update_apply]
    split_ifs with same
    · rw [known, same]
    · exact old
  have handles : Handles s.live (update s.handle c h) s.given s.queue s.mqLive s.mqHandle := by
    refine ⟨inv.handles.nonzero, inv.handles.issued, ?_, inv.handles.injective, inv.handles.own,
      inv.handles.only⟩
    intro x alive
    rw [update_apply]
    split_ifs with same
    · exact .inr (by rw [known, same])
    · exact inv.handles.stored x alive
  refine ⟨inv.references.congr ?_ ?_, ⟨entries, presence.congr ?_⟩, inv.ownership.congr ?_, handles,
    inv.logs, inv.hands_keep ?_ ?_, inv.locals_extend ⟨fun _ _ _ h => h, fun x _ => stored x,
      fun _ _ => rfl, fun _ _ => rfl, fun _ _ h => ⟨h, id⟩⟩ ?_⟩ <;> simp [Balanced, known]

section CreateQueue
variable {c : Nat}

/- The context has no queue yet, and no other thread is building it. -/
theorem Inv.building_here (inv : Inv s (.createQueue c ::ₘ rest)) :
    s.queue c = none ∧ held Frame.building rest c = 0 := by
  have counted := inv.ownership.building c (inv.live rfl)
  simp only [held_cons, Frame.building, if_true] at counted
  split_ifs at counted with empty
  exact ⟨empty, by omega⟩

theorem Inv.create_presence (inv : Inv s (.createQueue c ::ₘ rest)) :
    ∃ entries, Presence s.global (update s.mqLive s.queueCount true)
      (update s.inGlobal s.queueCount true)
      (update s.release s.queueCount false) (s.queueCount + 1) entries
      (held Frame.holding (([.init c s.queueCount] : List Frame) + rest)) := by
  obtain ⟨entries, presence⟩ := inv.presence
  have zero := presence.gone s.queueCount (presence.fresh _ (Nat.le_refl _))
  have holds : ∀ x, held Frame.holding (([.init c s.queueCount] : List Frame) + rest) x =
      held Frame.holding (.createQueue c ::ₘ rest) x + if x = s.queueCount then 1 else 0 := by
    simp
  refine ⟨entries, presence.linked, ?_, ?_, ?_⟩
  · intro x known
    rw [holds]
    by_cases same : x = s.queueCount
    · subst same
      simp only [update_self, Bool.true_or, if_true]
      omega
    · rw [update_of_ne same] at known
      rw [update_of_ne same, update_of_ne same, if_neg same]
      exact presence.counted x known
  · intro x dead
    have other : x ≠ s.queueCount := by rintro rfl; simp at dead
    rw [update_of_ne other] at dead
    rw [holds, if_neg other]
    exact presence.gone x dead
  · intro x bound
    rw [update_of_ne (by omega)]
    exact presence.fresh x (by omega)

theorem Inv.create_fresh (inv : Inv s all) : s.mqLive s.queueCount = false := by
  obtain ⟨entries, presence⟩ := inv.presence
  exact presence.fresh _ (Nat.le_refl _)

section
variable (inv : Inv s (.createQueue c ::ₘ rest))
include inv

theorem Inv.create_ownership :
    Ownership s.live (update s.queue c (some s.queueCount))
      (update s.mqLive s.queueCount true) (update s.release s.queueCount false)
      (update s.owner s.queueCount c)
      (held Frame.building (([.init c s.queueCount] : List Frame) + rest)) := by
  have alive := inv.live (c := c) rfl
  have dead := inv.create_fresh
  obtain ⟨empty, alone⟩ := inv.building_here
  refine ⟨?_, ?_, ?_⟩
  · intro x p known here
    rw [update_apply] at here
    split_ifs at here with same
    · cases Option.some.inj here
      simp [same]
    · obtain ⟨first, second, third⟩ := inv.ownership.context x p known here
      have other : p ≠ s.queueCount := by rintro rfl; simp [first] at dead
      simp [other, first, second, third]
  · intro p known unreleased
    by_cases same : p = s.queueCount
    · subst same
      simp [alive]
    · rw [update_of_ne same] at known unreleased
      obtain ⟨first, second⟩ := inv.ownership.mq p known unreleased
      rw [update_of_ne same]
      have other : s.owner p ≠ c := by
        intro eq
        rw [eq, empty] at second
        cases second
      rw [update_of_ne other]
      exact ⟨first, second⟩
  · intro x known
    have old := inv.ownership.building x known
    by_cases same : x = c
    · subst same
      simp [alone]
    · rw [update_of_ne same, ← old]
      simp [same]

theorem Inv.create_handles :
    Handles s.live s.handle s.given (update s.queue c (some s.queueCount))
      (update s.mqLive s.queueCount true)
      (update s.mqHandle s.queueCount (s.handle c)) := by
  have alive := inv.live (c := c) rfl
  have dead := inv.create_fresh
  have stored : s.handle c = s.given c := inv.local_here
  obtain ⟨empty, -⟩ := inv.building_here
  refine ⟨?_, inv.handles.issued, inv.handles.stored, inv.handles.injective, ?_, ?_⟩
  · intro p known
    rw [update_apply] at known ⊢
    split_ifs at known ⊢ with same
    · rw [stored]
      exact inv.handles.issued c alive
    · exact inv.handles.nonzero p known
  · intro x p known here
    rw [update_apply] at here
    split_ifs at here with same
    · cases Option.some.inj here
      rw [update_self, stored, same]
    · have first := (inv.ownership.context x p known here).1
      rw [update_of_ne (by rintro rfl; simp [first] at dead)]
      exact inv.handles.own x p known here
  · intro x p known queued carried
    by_cases same : p = s.queueCount
    · subst same
      rw [update_self, stored] at carried
      cases inv.handles.injective c x alive known carried
      exact update_self ..
    · rw [update_of_ne same] at queued carried
      have old := inv.handles.only x p known queued carried
      rw [update_of_ne (by rintro rfl; simp [empty] at old)]
      exact old

theorem Inv.create_idle : s.hand s.queueCount = [] := by
  obtain ⟨entries, presence⟩ := inv.presence
  refine inv.hands.none _ ?_
  have := presence.gone _ inv.create_fresh
  omega

theorem Inv.create_logs :
    Logs (update s.mqLive s.queueCount true) (update s.inGlobal s.queueCount true)
      (update s.ring s.queueCount (RingBuffer.empty defaultQueueSize)) s.accepted s.hand
      s.taken s.errors (update s.owner s.queueCount c)
      (update s.mqHandle s.queueCount (s.handle c)) (s.queueCount + 1) := by
  have dead := inv.create_fresh
  have unused := inv.logs.unused s.queueCount (Nat.le_refl _)
  have idle := inv.create_idle
  refine ⟨?_, ?_, ?_, ?_, ?_, ?_, ?_, ?_⟩
  · intro x known
    rw [update_apply] at known ⊢
    split_ifs at known ⊢
    · exact ring_empty_sound (by decide)
    · exact inv.logs.sound x known
  · intro x known unscheduled
    rw [update_apply] at known unscheduled ⊢
    split_ifs at known unscheduled ⊢
    exact inv.logs.idle x known unscheduled
  · intro x known
    rw [update_apply] at known ⊢
    split_ifs at known ⊢ with same
    · subst same
      rw [inv.logs.done _ dead, idle]
      simp
    · exact inv.logs.account x known
  · intro x gone
    rw [update_apply] at gone
    split_ifs at gone
    exact inv.logs.done x gone
  · intro x bound
    exact inv.logs.unused x (by omega)
  · intro x m c' member
    rw [update_of_ne (by rintro rfl; simp [unused] at member)]
    exact inv.logs.callback x m c' member
  · intro x m c' member
    rw [update_of_ne (by rintro rfl; simp [unused] at member)]
    exact inv.logs.freed x m c' member
  · intro x
    rw [inv.logs.errors x]
    by_cases same : x = s.queueCount
    · simp [same, unused]
    · rw [update_of_ne same]

theorem fine_createQueue :
    Fine rest (act s ok (.createQueue c)) := by
  have dead := inv.create_fresh
  have stored : s.handle c = s.given c := inv.local_here
  obtain ⟨empty, -⟩ := inv.building_here
  have idle := inv.create_idle
  have extended : Extends s { s.mqCreate (s.handle c) with
      queue := update s.queue c (some s.queueCount)
      owner := update s.owner s.queueCount c } := by
    refine ⟨?_, fun _ _ h => h, fun _ _ => rfl, ?_, ?_⟩
    · intro x p _ here
      dsimp only
      rw [update_of_ne (by rintro rfl; simp [empty] at here)]
      exact here
    · intro p known
      simp only [Shared.mqCreate]
      rw [update_of_ne (by rintro rfl; simp [known] at dead)]
    · intro p known released
      simp only [Shared.mqCreate]
      have other : p ≠ s.queueCount := by rintro rfl; simp [known] at dead
      rw [update_of_ne other, update_of_ne other]
      exact ⟨released, id⟩
  refine ⟨inv.references.congr ?_ ?_, inv.create_presence, inv.create_ownership, inv.create_handles,
    inv.create_logs, inv.hands.replace inv.once (fun _ _ => rfl) ?_ ?_,
    inv.locals_extend extended ?_⟩ <;> simp [idle, Shared.mqCreate, stored]

end

end CreateQueue

/-- The handle is not 0, and no context that is not yet freed was given it and no queue
that is not yet freed carries it. -/
def HandleUnused (s : Shared) (handle : Nat) : Prop :=
  handle ≠ 0 ∧ (∀ q, s.mqLive q = true → s.mqHandle q ≠ handle) ∧
    ∀ c, s.live c = true → s.given c ≠ handle

theorem Inv.light (inv : Inv s all) : Inv s (.popNext 0 ::ₘ all) := by
  obtain ⟨entries, presence⟩ := inv.presence
  refine ⟨inv.references.congr ?_ ?_, ⟨entries, presence.congr ?_⟩, inv.ownership.congr ?_,
    inv.handles, inv.logs, ⟨?_, ?_⟩, ?_⟩
  · simp
  · simp
  · simp
  · simp
  · intro g member q here
    rcases Multiset.mem_cons.mp member with rfl | old
    · simp at here
    · exact inv.hands.frame g old q here
  · intro q nobody
    exact inv.hands.none q (by simpa using nobody)
  · intro g member
    rcases Multiset.mem_cons.mp member with rfl | old
    · trivial
    · exact inv.locals g old

theorem building_grabbed {g : Frame} {c : Nat} (building : g.building = some c) :
    g.grabbed = some c := by
  cases g <;> simp_all

section ContextNew

theorem Inv.launch_ownership (inv : Inv s all) (handle : Nat) :
    Ownership (update s.live s.contextCount true)
      (update s.queue s.contextCount none) s.mqLive s.release s.owner
      (held Frame.building (([.assign s.contextCount handle] : List Frame) + all)) := by
  have dead := inv.references.fresh _ (Nat.le_refl _)
  refine ⟨?_, ?_, ?_⟩
  · intro x p known here
    rw [update_apply] at known here
    split_ifs at known here
    exact inv.ownership.context x p known here
  · intro p known unreleased
    obtain ⟨first, second⟩ := inv.ownership.mq p known unreleased
    have other : s.owner p ≠ s.contextCount := by
      intro eq
      rw [eq, dead] at first
      cases first
    rw [update_of_ne other, update_of_ne other]
    exact ⟨first, second⟩
  · intro x known
    by_cases same : x = s.contextCount
    · subst same
      have few : held Frame.building all s.contextCount ≤ held Frame.grabbed all s.contextCount :=
        held_le fun g _ => building_grabbed
      have none := (inv.references.gone _ dead).2.1
      simp
      omega
    · rw [update_of_ne same] at known
      rw [update_of_ne same, ← inv.ownership.building x known]
      simp [same]

theorem Inv.launch_handles (inv : Inv s all) {handle : Nat} (unused : HandleUnused s handle) :
    Handles (update s.live s.contextCount true) (update s.handle s.contextCount 0)
      (update s.given s.contextCount handle)
      (update s.queue s.contextCount none) s.mqLive s.mqHandle := by
  obtain ⟨nonzero, queues, contexts⟩ := unused
  refine ⟨inv.handles.nonzero, ?_, ?_, ?_, ?_, ?_⟩
  · intro x known
    rw [update_apply] at known ⊢
    split_ifs at known ⊢
    · exact nonzero
    · exact inv.handles.issued x known
  · intro x known
    by_cases same : x = s.contextCount
    · subst same
      exact .inl (update_self ..)
    · rw [update_of_ne same] at known ⊢
      rw [update_of_ne same]
      exact inv.handles.stored x known
  · intro x y hx hy equal
    rw [update_apply] at hx hy
    rw [update_apply, update_apply] at equal
    split_ifs at hx hy equal with first second second
    · rw [first, second]
    · exact absurd equal.symm (contexts y hy)
    · exact absurd equal (contexts x hx)
    · exact inv.handles.injective x y hx hy equal
  · intro x p known here
    rw [update_apply] at known here
    split_ifs at known here with same
    rw [update_of_ne same]
    exact inv.handles.own x p known here
  · intro x p known queued carried
    rw [update_apply] at known carried ⊢
    split_ifs at known carried ⊢
    · exact absurd carried (queues p queued)
    · exact inv.handles.only x p known queued carried

theorem fine_contextNew (inv : Inv s all)
    (unused : ∀ storage handle,
      handleRegister (update s.handle s.contextCount 0) s.storage s.contextCount =
        .ok (storage, handle) → HandleUnused s handle) : Fine all s.contextNew := by
  have dead := inv.references.fresh _ (Nat.le_refl _)
  have other : ∀ x, s.live x = true → x ≠ s.contextCount := by
    rintro x known rfl
    simp [known] at dead
  simp only [Shared.contextNew]
  split
  · rename_i storage handle registered
    have extended : Extends s { s with
        contextCount := s.contextCount + 1
        live := update s.live s.contextCount true
        ref := update s.ref s.contextCount 2
        handle := update s.handle s.contextCount 0
        queue := update s.queue s.contextCount none
        cb := update s.cb s.contextCount false
        init := update s.init s.contextCount false
        storage := storage
        given := update s.given s.contextCount handle } := by
      refine ⟨?_, ?_, ?_, fun _ _ => rfl, fun _ _ h => ⟨h, id⟩⟩
      · intro x p known here
        dsimp only
        rw [update_of_ne (other x known)]
        exact here
      · intro x known here
        dsimp only
        rw [update_of_ne (other x known), update_of_ne (other x known)]
        exact here
      · intro x known
        exact update_of_ne (other x known) _ _
    obtain ⟨entries, presence⟩ := inv.presence
    refine ⟨inv.references.launch registered ?_ ?_, ⟨entries, presence.congr ?_⟩,
      inv.launch_ownership handle, inv.launch_handles (unused storage handle registered), inv.logs,
      inv.light.hands_keep ?_ ?_, inv.light.locals_extend extended ?_⟩ <;> simp [Balanced]
  · trivial

end ContextNew
end Steps
end Skynet.Server
