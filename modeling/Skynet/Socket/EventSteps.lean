import Skynet.Socket.Attached

/-! What commands, clearing, waiting and handling do to the events that are pending. -/
namespace Skynet.SocketEvents

open Base List Function Option
open SocketServer (SocketType)

variable {w w' : World} {id k : Nat} {stage : Stage} {type : SocketType} {registered : Bool}
  {e : Event}

/- Nothing is said about the control flag, and the stage matters in two places only. -/
theorem Inv.restage (inv : Inv w) (settled : ∀ id, w.stage ≠ .clearing id)
    (failing : ∀ id error, stage ≠ .failing id error) (flag : Bool) :
    Inv { w with stage := stage, checkctrl := flag } := by
  refine ⟨inv.reserved, inv.known, inv.once, inv.registered, ?_, inv.distinct, ?_, inv.log⟩
  · intro e member k points
    have attached := inv.attached e member k points
    exact ⟨attached.same, attached.place, .inl (inv.alive_of_loop settled member points)⟩
  · intro id error now
    exact absurd now (failing id error)

theorem loop_settled (loop : w.stage = .loop) (id : Nat) : w.stage ≠ .clearing id := by
  rw [loop]
  intro h
  cases h

section
variable (inv : Inv w)
include inv

theorem Inv.unregistered (closed : ¬alive (w.slot k).type) :
    (w.slot k).registered = false := by
  by_contra there
  exact closed (inv.registered k (Bool.eq_true_of_not_eq_false there)).1

section
variable (loop : w.stage = .loop)
include loop

section
variable (member : id ∈ w.outstanding)
include member

theorem Inv.newFd (opened : alive type)
    (taken : newFd { w with outstanding := w.outstanding.erase id } id type registered = some w') :
    Inv w' := by
  obtain ⟨-, same⟩ := ite_none_right_eq_some.mp taken
  cases same
  refine inv.opens (loop_settled loop) member opened.2 (fun _ => ⟨opened, rfl⟩) ?_
  intro other error now
  rw [loop] at now
  cases now

theorem Inv.givesUp (stages : stage = .clearing id ∨ ∃ error, stage = .failing id error) :
    Inv { setInvalid { w with outstanding := w.outstanding.erase id } id with stage := stage } := by
  have closed : ¬alive (w.slot (hashId id)).type := fun h => h.2 (inv.reserved id member).1
  refine inv.opens (loop_settled loop) member (by intro h; cases h) ?_ ?_
  · intro there
    have gone := inv.unregistered closed
    rw [gone] at there
    cases there
  · intro other error now
    rcases stages with same | ⟨e, same⟩
    · rw [same] at now
      cases now
    · rw [same] at now
      cases now
      exact ⟨rfl, rfl⟩

theorem Inv.openSocket {opening : Opening}
    (taken : openSocket { w with outstanding := w.outstanding.erase id } id opening = some w') :
    Inv w' := by
  cases opening with
  | unresolved =>
    cases taken
    exact inv.givesUp loop member (.inl rfl)
  | unadded =>
    obtain ⟨-, same⟩ := ite_none_right_eq_some.mp taken
    cases same
    exact inv.givesUp loop member (.inr ⟨true, rfl⟩)
  | connected | connecting => exact inv.newFd loop member (by decide) taken

end

theorem Inv.close_slot (same : (w.slot (hashId id)).id = id)
    (taken : (forceClose w (hashId id)).map (reported id) = some w') : Inv w' := by
  obtain ⟨closed, force, equal⟩ := map_eq_some_iff.mp taken
  unfold forceClose at force
  split at force
  · cases force
    cases equal
    exact inv.restage (loop_settled loop) (by intro _ _ h; cases h) w.checkctrl
  · cases force
  · rename_i valid unreserved
    cases force
    cases equal
    refine inv.changes (loop_settled loop) ⟨valid, unreserved⟩ rfl (by intro h; cases h)
      (by intro h; cases h) ?_ (by intro _ _ h; cases h)
    intro e _ _
    rw [same]
    exact .inr ⟨rfl, rfl⟩

end

theorem Inv.alive_of_known (unknown : id ∉ w.outstanding)
    (valid : ¬((w.slot (hashId id)).type = .invalid ∨ (w.slot (hashId id)).id ≠ id)) :
    alive (w.slot (hashId id)).type ∧ (w.slot (hashId id)).id = id := by
  push Not at valid
  refine ⟨⟨valid.1, ?_⟩, valid.2⟩
  intro reserve
  have member := (inv.known (hashId id) reserve).1
  rw [valid.2] at member
  exact unknown member

section
variable (loop : w.stage = .loop)
include loop

theorem Inv.goes_on (opened : alive (w.slot k).type) (stays : alive type)
    (place : registered = true → hashId (w.slot k).id = k) :
    Inv (w.set k { w.slot k with type := type, registered := registered }) := by
  refine inv.changes (loop_settled loop) opened rfl stays.2 (fun there => ⟨stays, place there⟩)
    (fun _ _ _ => .inl stays) ?_
  · intro id error now
    rw [loop] at now
    cases now

theorem Inv.startSocket {added : Bool} (unknown : id ∉ w.outstanding)
    (taken : startSocket w id added = some w') : Inv w' := by
  unfold SocketEvents.startSocket at taken
  dsimp only at taken
  split at taken
  · cases taken
    exact inv.restage (loop_settled loop) (by intro _ _ h; cases h) w.checkctrl
  · rename_i valid
    obtain ⟨opened, same⟩ := inv.alive_of_known unknown valid
    split at taken
    · split at taken
      · cases taken
        apply inv.goes_on loop opened
        · split <;> decide
        · intro _
          rw [same]
      · exact inv.close_slot loop same taken
    · cases taken
      exact inv

theorem Inv.sendSocket {fails : Bool} (taken : sendSocket w id fails = some w') : Inv w' := by
  unfold SocketEvents.sendSocket at taken
  dsimp only at taken
  split at taken
  · cases taken
    exact inv
  · rename_i valid
    push Not at valid
    split at taken
    · exact inv.close_slot loop valid.2.1 taken
    · cases taken
      exact inv

theorem Inv.closeSocket {now : Bool} (unknown : id ∉ w.outstanding)
    (taken : closeSocket w id now = some w') : Inv w' := by
  unfold SocketEvents.closeSocket at taken
  dsimp only at taken
  split at taken
  · cases taken
    exact inv.restage (loop_settled loop) (by intro _ _ h; cases h) w.checkctrl
  · rename_i valid
    obtain ⟨opened, same⟩ := inv.alive_of_known unknown valid
    split at taken
    · exact inv.close_slot loop same taken
    · cases taken
      apply inv.goes_on loop opened (by decide)
      intro there
      rw [same]

theorem Inv.ctrlCmd {c : Command} (taken : ctrlCmd w c = some w') : Inv w' := by
  have waits : ∀ {id : Nat} {f : World → Option World}, (openOnce w id).bind f = some w' →
      id ∈ w.outstanding ∧ f { w with outstanding := w.outstanding.erase id } = some w' := by
    intro id f bound
    obtain ⟨once, found, rest⟩ := bind_eq_some_iff.mp bound
    obtain ⟨member, same⟩ := ite_none_right_eq_some.mp found
    cases same
    exact ⟨member, rest⟩
  cases c with
  | «open» id opening =>
    obtain ⟨member, rest⟩ := waits taken
    exact inv.openSocket loop member rest
  | listen id =>
    obtain ⟨member, rest⟩ := waits taken
    exact inv.newFd loop member (by decide) rest
  | bind id added =>
    obtain ⟨member, rest⟩ := waits taken
    unfold bindSocket at rest
    split at rest
    · exact inv.newFd loop member (by decide) rest
    · obtain ⟨-, same⟩ := ite_none_right_eq_some.mp rest
      cases same
      exact inv.givesUp loop member (.inl rfl)
  | udp id added =>
    obtain ⟨member, rest⟩ := waits taken
    unfold addUdpSocket at rest
    split at rest
    · exact inv.newFd loop member (by decide) rest
    · obtain ⟨-, same⟩ := ite_none_right_eq_some.mp rest
      cases same
      exact inv.givesUp loop member (.inr ⟨false, rfl⟩)
  | start id added =>
    obtain ⟨unknown, rest⟩ := ite_none_left_eq_some.mp taken
    exact inv.startSocket loop unknown rest
  | send id fails =>
    obtain ⟨unknown, rest⟩ := ite_none_left_eq_some.mp taken
    exact inv.sendSocket loop rest
  | close id now =>
    obtain ⟨unknown, rest⟩ := ite_none_left_eq_some.mp taken
    exact inv.closeSocket loop unknown rest
  | other =>
    cases taken
    exact inv

end

/- The second time the slot is freed it is free still. -/
theorem Inv.failed {error : Bool} (failing : w.stage = .failing id error) :
    Inv { setInvalid w id with stage := if error then .clearing id else .loop } := by
  have free := inv.failing id error failing
  have same : setInvalid w id = w := by
    unfold setInvalid World.set
    rw [← free, update_eq_self]
  rw [same]
  refine inv.restage ?_ ?_ w.checkctrl
  · intro other h
    rw [failing] at h
    cases h
  · intro other e
    cases error <;> intro h <;> cases h

end

theorem clearClosedEvent_sublist (slot : Nat → Slot) (id : Nat) (l : List Event) :
    List.Sublist ((clearClosedEvent slot id l).filterMap (·.s)) (l.filterMap (·.s)) := by
  induction l with
  | nil => exact List.Sublist.refl _
  | cons e rest ih =>
    unfold clearClosedEvent
    split
    · rename_i none'
      simpa [filterMap_cons, none'] using ih
    · rename_i j points
      split
      · simp [points]
      · simpa [filterMap_cons, points] using ih

theorem clearClosedEvent_spec (slot : Nat → Slot) (id : Nat) (l : List Event)
    (distinct : (l.filterMap (·.s)).Nodup)
    (place : ∀ e ∈ l, ∀ j, e.s = some j → (slot j).type = .invalid →
      j = hashId id ∧ (slot j).id = id)
    (member : e ∈ clearClosedEvent slot id l) (points : e.s = some k) :
    e ∈ l ∧ (slot k).type ≠ .invalid := by
  induction l with
  | nil => cases member
  | cons first rest ih =>
    have later : ∀ e ∈ rest, ∀ j, e.s = some j → (slot j).type = .invalid →
        j = hashId id ∧ (slot j).id = id :=
      fun e member => place e (mem_cons_of_mem first member)
    unfold clearClosedEvent at member
    split at member
    · rename_i none'
      rw [filterMap_cons_none none'] at distinct
      rcases mem_cons.mp member with rfl | there
      · rw [points] at none'
        cases none'
      · obtain ⟨old, fine⟩ := ih distinct later there
        exact ⟨mem_cons_of_mem first old, fine⟩
    · rename_i j here
      rw [filterMap_cons_some here] at distinct
      obtain ⟨absent, distinct⟩ := nodup_cons.mp distinct
      split at member
      · rename_i closed
        rcases mem_cons.mp member with rfl | there
        · cases points
        · refine ⟨mem_cons_of_mem first there, fun invalid => ?_⟩
          have one := (place first (mem_cons_self ..) j here closed.1).1
          have two := (later e there k points invalid).1
          exact absent (mem_filterMap.mpr ⟨e, there, by rw [points, two, one]⟩)
      · rename_i other
        rcases mem_cons.mp member with rfl | there
        · rw [here] at points
          cases points
          refine ⟨mem_cons_self .., fun invalid => other ⟨invalid, ?_⟩⟩
          exact (place e (mem_cons_self ..) _ here invalid).2
        · obtain ⟨old, fine⟩ := ih distinct later there
          exact ⟨mem_cons_of_mem first old, fine⟩

section
variable (inv : Inv w)
include inv

theorem Inv.clear (clearing : w.stage = .clearing id) :
    Inv { w with pending := clearClosedEvent w.slot id w.pending, stage := .loop } := by
  have place : ∀ e ∈ w.pending, ∀ j, e.s = some j → (w.slot j).type = .invalid →
      j = hashId id ∧ (w.slot j).id = id := by
    intro e member j points invalid
    have attached := inv.attached e member j points
    rcases attached.open' with h | ⟨-, stage⟩
    · exact absurd invalid h.1
    · rw [clearing] at stage
      cases stage
      exact ⟨attached.place.symm, attached.same⟩
  refine ⟨inv.reserved, inv.known, inv.once, inv.registered, ?_, ?_, ?_, inv.log⟩
  · intro e member j points
    obtain ⟨old, valid⟩ :=
      clearClosedEvent_spec w.slot id w.pending inv.distinct place member points
    have attached := inv.attached e old j points
    refine ⟨attached.same, attached.place, .inl ?_⟩
    rcases attached.open' with h | ⟨invalid, -⟩
    · exact h
    · exact absurd invalid valid
  · exact inv.distinct.sublist (clearClosedEvent_sublist ..)
  · intro other error h
    cases h

theorem Inv.wait {reports : List (Option Nat × Bool × Bool)}
    (can : canReport w reports) (failing : ∀ id error, stage ≠ .failing id error) :
    Inv { w with pending := reports.map (report w), checkctrl := true, stage := stage } := by
  have slots : (reports.map (report w)).filterMap (·.s) = reports.filterMap (·.1) := by
    rw [filterMap_map]
    apply filterMap_congr
    rintro ⟨s, read, write⟩ _
    cases s <;> rfl
  refine ⟨inv.reserved, inv.known, inv.once, inv.registered, ?_, ?_, ?_, inv.log⟩
  · intro e member k points
    obtain ⟨⟨s, read, write⟩, there, same⟩ := mem_map.mp member
    cases same
    cases s with
    | none => cases points
    | some j =>
      cases points
      have registered := can.2 k (mem_filterMap.mpr ⟨_, there, rfl⟩)
      obtain ⟨opened, place⟩ := inv.registered k registered
      exact ⟨rfl, place, .inl opened⟩
  · rw [slots]
    exact can.1
  · intro id error now
    exact absurd now (failing id error)

theorem Inv.alloc (n : Nat) : Inv { w with allocId := n } := by
  refine ⟨inv.reserved, inv.known, inv.once, inv.registered, ?_, inv.distinct, inv.failing, inv.log⟩
  intro e member k points
  have attached := inv.attached e member k points
  exact ⟨attached.same, attached.place, attached.open'⟩

/- A new connection takes a free slot, which has no event. -/
theorem Inv.reportAccept (loop : w.stage = .loop) : Inv (reportAccept w) := by
  unfold SocketEvents.reportAccept
  split
  · exact inv
  · rename_i id w' taken
    obtain ⟨free, n, rfl⟩ := reserveLoop_spec maxSocket w taken
    have made : (SocketEvents.newFd { w with
          allocId := n
          slot := update w.slot (hashId id)
            { w.slot (hashId id) with type := .reserve, id := id } } id .paccept false) =
        some { w with
          allocId := n
          slot := update w.slot (hashId id) ⟨.paccept, id, false⟩ } := by
      unfold SocketEvents.newFd
      rw [if_pos (by dsimp only; rw [update_self]), World.set]
      rw [update_idem]
    rw [made]
    have accepted : Turns w (hashId id) ⟨.paccept, id, false⟩ w.outstanding w.stage := by
      constructor
      · intro e member points
        have opened := inv.alive_of_loop (loop_settled loop) member points
        exact absurd free opened.1
      · intro h
        cases h
      · intro h
        cases h
      · intro other
        refine ⟨fun member => ⟨member, fun place => ?_⟩, And.left⟩
        have reserve := (inv.reserved other member).1
        rw [place, free] at reserve
        cases reserve
      · exact inv.once
      · intro other error now
        rw [loop] at now
        cases now
    exact (inv.turn (loop_settled loop) accepted).alloc n

theorem Inv.handle {outcome : Outcome} (loop : w.stage = .loop)
    (opened : alive (w.slot k).type) (place : hashId e.id = k) (same : (w.slot k).id = e.id)
    (absent : k ∉ w.pending.filterMap (·.s)) (points : e.s = some k)
    (taken : handle w k e outcome = some w') : Inv w' := by
  have closes : ∀ {w'}, forceClose w k = some w' → Inv w' := by
    intro w' force
    unfold forceClose at force
    split at force
    · cases force
      exact inv
    · cases force
    · cases force
      refine inv.changes (loop_settled loop) opened rfl (by intro h; cases h)
        (by intro h; cases h) ?_ ?_
      · intro e' member points'
        exact absurd (mem_filterMap.mpr ⟨e', member, points'⟩) absent
      · intro id error now
        rw [loop] at now
        cases now
  unfold SocketEvents.handle at taken
  split at taken
  · split at taken
    · exact closes taken
    · cases taken
      apply inv.goes_on loop opened (by decide)
      intro _
      rw [same, place]
  · split at taken
    · cases taken
      exact inv.reportAccept loop
    · cases taken
      exact inv
  · cases taken
    exact inv
  · cases outcome with
    | done =>
      cases taken
      exact inv
    | closed => exact closes taken
    | again read =>
      cases taken
      refine ⟨inv.reserved, inv.known, inv.once, inv.registered, ?_, ?_, inv.failing, inv.log⟩
      · intro e' member j points'
        rcases mem_cons.mp member with rfl | old
        · rw [points] at points'
          cases points'
          exact ⟨same, place, .inl opened⟩
        · have attached := inv.attached e' old j points'
          exact ⟨attached.same, attached.place, attached.open'⟩
      · have slots : ({ e with read := read } :: w.pending).filterMap (·.s) =
            k :: w.pending.filterMap (·.s) := filterMap_cons_some points
        rw [slots]
        exact nodup_cons.mpr ⟨absent, inv.distinct⟩

end

end Skynet.SocketEvents
