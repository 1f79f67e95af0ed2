import Skynet.Server.Steps

/-! The steps that change message queues, the global queue or the records of the run. -/
namespace Skynet.Server
open Base Skynet.Handle List Function

section Logs
variable {mqLive inGlobal inGlobal' : Nat → Bool} {ring : Nat → RingBuffer SkynetMessage}
  {accepted hand : Nat → List SkynetMessage} {taken : Nat → List (SkynetMessage × Fate)}
  {errors : Nat → List ErrorSend} {owner mqHandle : Nat → Nat} {count q : Nat}

theorem Logs.push (h : Logs mqLive inGlobal ring accepted hand taken errors owner mqHandle count)
    (alive : mqLive q = true) (scheduled : inGlobal' q = true)
    (others : ∀ x, x ≠ q → inGlobal' x = inGlobal x) (m : SkynetMessage) :
    Logs mqLive inGlobal' (update ring q ((ring q).push (2 * ·) m))
      (update accepted q (accepted q ++ [m])) hand taken errors owner mqHandle count := by
  have sound := h.sound q alive
  have larger : ∀ cap, 0 < cap → cap < 2 * cap := fun cap _ => by omega
  refine ⟨?_, ?_, ?_, ?_, h.unused, h.callback, h.freed, h.errors⟩
  · intro x known
    rw [update_apply]
    split_ifs
    · exact (ring_push larger sound m).1
    · exact h.sound x known
  · intro x known idle
    by_cases same : x = q
    · rw [same, scheduled] at idle
      cases idle
    · rw [update_of_ne same]
      exact h.idle x known (others x same ▸ idle)
  · intro x known
    rw [update_apply, update_apply]
    split_ifs with same
    · rw [same, (ring_push larger sound m).2, h.account q alive, append_assoc _ _ [m]]
    · exact h.account x known
  · intro x dead
    rw [update_of_ne (by rintro rfl; simp [alive] at dead)]
    exact h.done x dead

variable {m : SkynetMessage}

section
variable (h : Logs mqLive inGlobal ring accepted hand taken errors owner mqHandle count)
include h

theorem Logs.pop (alive : mqLive q = true) (empty : hand q = []) {r : RingBuffer SkynetMessage}
    (popped : (ring q).pop = some (m, r)) :
    Logs mqLive inGlobal (update ring q r) accepted (update hand q [m]) taken
      errors owner mqHandle count := by
  obtain ⟨sound, items⟩ := ring_pop_some (h.sound q alive) popped
  refine ⟨?_, ?_, ?_, h.done, h.unused, h.callback, h.freed, h.errors⟩
  · intro x known
    rw [update_apply]
    split_ifs
    · exact sound
    · exact h.sound x known
  · intro x known idle
    have old := h.idle x known idle
    rw [update_apply]
    split_ifs with same
    · rw [same, items] at old
      cases old
    · exact old
  · intro x known
    rw [update_apply, update_apply]
    split_ifs with same
    · rw [same, h.account q alive, empty, items, append_nil, append_assoc]
      rfl
    · exact h.account x known

theorem Logs.idle_pop (alive : mqLive q = true) (popped : (ring q).pop = none) :
    Logs mqLive (update inGlobal q false) ring accepted hand taken errors owner mqHandle
      count := by
  refine ⟨h.sound, ?_, h.account, h.done, h.unused, h.callback, h.freed, h.errors⟩
  intro x known idle
  by_cases same : x = q
  · rw [same]
    exact ring_pop_none (h.sound q alive) popped
  · rw [update_of_ne same] at idle
    exact h.idle x known idle

theorem Logs.take (alive : mqLive q = true) (used : q < count) (held : hand q = [m]) {fate : Fate}
    (callback : ∀ c, fate = .callback c → owner q = c) (freed : ∀ c, fate = .freed c → owner q = c)
    {errors' : Nat → List ErrorSend} (others : ∀ x, x ≠ q → errors' x = errors x)
    (sent : errors' q = errors q ++ if fate =
      .dropped then [⟨mqHandle q, m.source, ptypeError⟩] else []) :
    Logs mqLive inGlobal ring accepted (update hand q [])
      (update taken q (taken q ++ [(m, fate)])) errors' owner mqHandle count := by
  refine ⟨h.sound, h.idle, ?_, ?_, ?_, ?_, ?_, ?_⟩
  · intro x known
    rw [update_apply, update_apply]
    split_ifs with same
    · rw [same, h.account q alive, held]
      simp
    · exact h.account x known
  · intro x dead
    rw [update_of_ne (by rintro rfl; simp [alive] at dead)]
    exact h.done x dead
  · intro x unused
    rw [update_of_ne (by omega)]
    exact h.unused x unused
  · intro x m' c member
    rw [update_apply] at member
    split_ifs at member with same
    · rw [same]
      rcases mem_append.mp member with old | new
      · exact h.callback q m' c old
      · exact callback c (Prod.mk.inj (mem_singleton.mp new)).2.symm
    · exact h.callback x m' c member
  · intro x m' c member
    rw [update_apply] at member
    split_ifs at member with same
    · rw [same]
      rcases mem_append.mp member with old | new
      · exact h.freed q m' c old
      · exact freed c (Prod.mk.inj (mem_singleton.mp new)).2.symm
    · exact h.freed x m' c member
  · intro x
    rw [update_apply]
    split_ifs with same
    · rw [same, sent, h.errors q, filter_append, map_append]
      congr 1
      by_cases dropped : fate = .dropped <;> simp [dropped]
    · rw [others x same, h.errors x]

end

end Logs

section Steps
variable {s : Shared} {f : Frame} {all rest : Multiset Frame} {ok : Bool} {c q : Nat}
  {m : SkynetMessage} {live mqLive : Nat → Bool} {queue : Nat → Option Nat}

theorem Inv.push (inv : Inv s all) (alive : s.live c = true) (queue : s.queue c = some q)
    (m : SkynetMessage) :
    ∃ s', s.mqPush q m = .ok s' ∧ Inv s' all := by
  obtain ⟨mqLive, unreleased, -⟩ := inv.ownership.context c q alive queue
  obtain ⟨entries, presence⟩ := inv.presence
  cases scheduled : s.inGlobal q with
  | true =>
    have pushed : s.mqPush q m = .ok { s with
        ring := update s.ring q ((s.ring q).push (2 * ·) m)
        accepted := update s.accepted q (s.accepted q ++ [m]) } := by
      simp only [Shared.mqPush, scheduled, if_true]
    refine ⟨_, pushed, inv.references, ⟨entries, presence⟩, inv.ownership, inv.handles,
      inv.logs.push mqLive scheduled (fun _ _ => rfl) m, inv.hands,
      inv.locals_same (.of_eq rfl rfl rfl rfl rfl rfl)⟩
  | false =>
    have idle : (s.inGlobal q || s.release q) = false := by rw [scheduled, unreleased]; rfl
    obtain ⟨global, linked, presence'⟩ := presence.enter mqLive idle
      (update s.inGlobal q true) s.release (by simp)
      (fun x other => ⟨update_of_ne other _ _, rfl⟩)
    have pushed : s.mqPush q m = .ok { s with
        ring := update s.ring q ((s.ring q).push (2 * ·) m)
        accepted := update s.accepted q (s.accepted q ++ [m])
        inGlobal := update s.inGlobal q true
        global := global } := by
      simp only [Shared.mqPush, scheduled, Bool.false_eq_true, if_false, Shared.globalmqPush, linked]
    refine ⟨_, pushed, inv.references, ⟨_, presence'⟩, inv.ownership, inv.handles,
      inv.logs.push mqLive (update_self ..) (fun x other => update_of_ne other _ _) m,
      inv.hands, inv.locals_same ⟨fun _ _ _ h => h, fun _ _ h => h, fun _ _ => rfl,
        fun _ _ => rfl, ?_⟩⟩
    intro x _ released
    refine ⟨released, fun idle => ?_⟩
    have other : x ≠ q := by rintro rfl; simp [unreleased] at released
    simpa [other] using idle

theorem Inv.pushContext (inv : Inv s all) (alive : s.live c = true) (m : SkynetMessage) :
    s.pushContext c m = .error .noQueue ∨ ∃ s', s.pushContext c m = .ok s' ∧ Inv s' all := by
  cases queue : s.queue c with
  | none => exact .inl (by simp only [Shared.pushContext, alive, if_true, queue])
  | some q =>
    obtain ⟨s', pushed, inv'⟩ := inv.push alive queue m
    obtain ⟨mqLive, -, -⟩ := inv.ownership.context c q alive queue
    exact .inr ⟨s', by simp only [Shared.pushContext, alive, if_true, queue, mqLive, pushed], inv'⟩

theorem fine_pushTo (inv : Inv s (.pushTo c m ::ₘ rest)) :
    Fine rest (act s ok (.pushTo c m)) := by
  rcases inv.pushContext (inv.live rfl) m with failed | ⟨s', pushed, inv'⟩
  · simp only [act, failed]
    trivial
  · simp only [act, pushed]
    refine inv'.swap ?_ ?_ ?_ ?_ ?_ ?_ <;> simp [Balanced]

theorem fine_harborSend {type : Nat} (inv : Inv s (.harborSend type m ::ₘ rest)) :
    Fine rest (act s ok (.harborSend type m)) := by
  cases remote : s.remote with
  | none => simp only [act, remote]; trivial
  | some c =>
    have alive : s.live c = true := by
      by_contra dead
      have := (inv.references.gone c (by simpa using dead)).1
      have := inv.references.remote c remote
      omega
    by_cases wrong : type = ptypeSystem ∨ type = ptypeHarbor
    · simp only [act, remote, if_pos wrong]; trivial
    · rcases inv.pushContext alive m with failed | ⟨s', pushed, inv'⟩
      · simp only [act, remote, if_neg wrong, failed]
        trivial
      · simp only [act, remote, if_neg wrong, pushed]
        refine inv'.swap ?_ ?_ ?_ ?_ ?_ ?_ <;> simp [Balanced]

theorem Inv.markRelease (inv : Inv s all) (alive : s.mqLive q = true)
    (unreleased : s.release q = false) :
    ∃ global entries, s.mqMarkRelease q = .ok { s with
        release := update s.release q true, global := global } ∧
      Presence global s.mqLive s.inGlobal (update s.release q true) s.queueCount entries
        (held Frame.holding all) := by
  obtain ⟨entries, presence⟩ := inv.presence
  cases scheduled : s.inGlobal q with
  | true =>
    refine ⟨s.global, entries, ?_, presence.linked, ?_, presence.gone, presence.fresh⟩
    · simp only [Shared.mqMarkRelease, unreleased, Bool.false_eq_true, if_false, scheduled, if_true]
    · intro x known
      rw [presence.counted x known, update_apply]
      split_ifs with same <;> simp_all
  | false =>
    obtain ⟨global, linked, presence'⟩ := presence.enter alive
      (by rw [scheduled, unreleased]; rfl) s.inGlobal (update s.release q true) (by simp)
      (fun x other => ⟨rfl, update_of_ne other _ _⟩)
    refine ⟨global, _, ?_, presence'⟩
    simp only [Shared.mqMarkRelease, unreleased, Bool.false_eq_true, if_false, scheduled,
      Shared.globalmqPush, linked]

theorem Ownership.delete {release : Nat → Bool} {owner building : Nat → Nat}
    (h : Ownership live queue mqLive release owner building) (alive : live c = true)
    (here : queue c = some q) :
    Ownership (update live c false) queue mqLive (update release q true) owner
      building := by
  have kept : ∀ x, update live c false x = true → x ≠ c ∧ live x = true := by
    intro x known
    rw [update_apply] at known
    split_ifs at known with same
    exact ⟨same, known⟩
  refine ⟨?_, ?_, fun x known => h.building x (kept x known).2⟩
  · intro x p known queued
    obtain ⟨first, second, third⟩ := h.context x p (kept x known).2 queued
    have apart : p ≠ q := by
      rintro rfl
      exact (kept x known).1 (third.symm.trans (h.context c p alive here).2.2)
    exact ⟨first, by rw [update_of_ne apart]; exact second, third⟩
  · intro p known unmarked
    rw [update_apply] at unmarked
    split_ifs at unmarked with same
    obtain ⟨first, second⟩ := h.mq p known unmarked
    have apart : owner p ≠ c := by
      intro eq
      rw [eq, here] at second
      exact same (Option.some.inj second).symm
    exact ⟨by rw [update_of_ne apart]; exact first, second⟩

/- Fewer live contexts and queues keep the handles apart. -/
theorem Handles.mono {live' mqLive' : Nat → Bool} {handle given mqHandle : Nat → Nat}
    (h : Handles live handle given queue mqLive mqHandle)
    (contexts : ∀ c, live' c = true → live c = true)
    (queues : ∀ q, mqLive' q = true → mqLive q = true) :
    Handles live' handle given queue mqLive' mqHandle where
  nonzero q known := h.nonzero q (queues q known)
  issued c known := h.issued c (contexts c known)
  stored c known := h.stored c (contexts c known)
  injective c c' known known' := h.injective c c' (contexts c known) (contexts c' known')
  own c q known := h.own c q (contexts c known)
  only c q known known' := h.only c q (contexts c known) (queues q known')

theorem of_update_false {flags : Nat → Bool} {x y : Nat}
    (set : update flags x false y = true) : flags y = true := by
  rw [update_apply] at set
  split_ifs at set
  exact set

theorem fine_delete (inv : Inv s (.delete c ::ₘ rest)) :
    Fine rest (act s ok (.delete c)) := by
  have alive : s.live c = true := by
    by_contra dead
    have := (inv.references.gone c (by simpa using dead)).2.2
    simp at this
  cases queue : s.queue c with
  | none => simp only [act, queue]; trivial
  | some q =>
    obtain ⟨mqLive, unreleased, owner⟩ := inv.ownership.context c q alive queue
    obtain ⟨global, entries, marked, presence⟩ := inv.markRelease mqLive unreleased
    have extended : Extends s { s with
        release := update s.release q true, global := global
        live := update s.live c false } := by
      refine ⟨fun _ _ _ h => h, fun _ _ h => h, fun _ _ => rfl, fun _ _ => rfl, ?_⟩
      intro p _ released
      refine ⟨?_, id⟩
      dsimp only
      rw [update_apply]
      split_ifs
      · rfl
      · exact released
    simp only [act, queue, mqLive, if_true, marked]
    refine ⟨inv.references.delete ?_ ?_, ⟨entries, presence.congr ?_⟩,
      (inv.ownership.delete alive queue).congr ?_,
      inv.handles.mono (fun _ => of_update_false) (fun _ => id), inv.logs, inv.hands_keep ?_ ?_,
      inv.locals_extend extended ?_⟩ <;> simp [Balanced]

theorem Inv.hand_listed {entries : List Nat} (inv : Inv s all)
    (presence : Presence s.global s.mqLive s.inGlobal s.release s.queueCount entries (held Frame.holding all))
    (listed : q ∈ entries) : s.hand q = [] := by
  refine inv.hands.none q ?_
  have := presence.total (q := q)
  have := count_pos_iff.mpr listed
  omega

theorem fine_popNext {w : Int} (inv : Inv s (.popNext w ::ₘ rest)) :
    Fine rest (act s ok (.popNext w)) := by
  obtain ⟨entries, presence⟩ := inv.presence
  rcases presence.pop with ⟨popped, -⟩ | ⟨q, global, left, popped, rfl, presence'⟩
  · simp only [act, Shared.globalmqPop, popped]
    refine inv.swap ?_ ?_ ?_ ?_ ?_ ?_ <;> simp [Balanced]
  · have idle := inv.hand_listed presence (mem_cons_self ..)
    simp only [act, Shared.globalmqPop, popped]
    refine ⟨inv.references.congr ?_ ?_, ⟨left, presence' _ ?_⟩, inv.ownership.congr ?_, inv.handles,
      inv.logs, inv.hands.replace inv.once (fun _ _ => rfl) ?_ ?_,
      inv.locals_extend (.of_eq rfl rfl rfl rfl rfl rfl) ?_⟩ <;> simp [idle]

theorem Inv.giveBack (inv : Inv s (f ::ₘ rest)) (holding : f.holding = some q) (empty : f.hand = [])
    (grabbed : f.grabbed = none) (deleting : f.deleting = none) (building : f.building = none) :
    Fine rest (match s.globalmqPush q with
      | .ok s => .ok (s, [])
      | .error e => .error e) := by
  obtain ⟨entries, presence⟩ := inv.presence
  have left : ∀ x, held Frame.holding (f ::ₘ rest) x =
      held Frame.holding ((([] : List Frame) : Multiset Frame) + rest) x + if x = q then 1 else 0
        := by
    intro x
    rw [held_cons, held_add, holding]
    simp [-Frame.holding]
  obtain ⟨global, pushed, presence'⟩ := presence.handOver left
  simp only [Shared.globalmqPush, pushed]
  refine ⟨inv.references.congr ?_ ?_, ⟨_, presence'⟩, inv.ownership.congr ?_, inv.handles,
    inv.logs, inv.hands.replace inv.once (fun _ _ => rfl) ?_ ?_,
    inv.locals_extend (.of_eq rfl rfl rfl rfl rfl rfl) ?_⟩
  · intro x
    rw [held_cons, held_add, grabbed]
    rfl
  · intro x
    rw [held_cons, held_add, deleting]
    rfl
  · intro x
    rw [held_cons, held_add, building]
    rfl
  · exact nofun
  · intro p same _
    rw [inv.hand_here same, empty]
  · exact nofun

end Steps
end Skynet.Server
