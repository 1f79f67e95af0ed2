import Skynet.Socket.Events

/-! Every pending event points to the slot it was reported for. -/
namespace Skynet.SocketEvents

open Base List Function
open SocketServer (SocketType)

def alive (type : SocketType) : Prop := type ≠ .invalid ∧ type ≠ .reserve

instance (type : SocketType) : Decidable (alive type) := inferInstanceAs (Decidable (_ ∧ _))

/-- The event's slot still has the id the event was reported for, and is open, or has just been
closed and is about to be cleared from the events. -/
structure Attached (w : World) (e : Event) (k : Nat) : Prop where
  same : (w.slot k).id = e.id
  place : hashId e.id = k
  open' : alive (w.slot k).type ∨ (w.slot k).type = .invalid ∧ w.stage = .clearing e.id

structure Inv (w : World) : Prop where
  reserved : ∀ id ∈ w.outstanding,
    (w.slot (hashId id)).type = .reserve ∧ (w.slot (hashId id)).id = id
  known : ∀ k, (w.slot k).type = .reserve →
    (w.slot k).id ∈ w.outstanding ∧ hashId (w.slot k).id = k
  once : w.outstanding.Nodup
  registered : ∀ k, (w.slot k).registered = true →
    alive (w.slot k).type ∧ hashId (w.slot k).id = k
  attached : ∀ e ∈ w.pending, ∀ k, e.s = some k → Attached w e k
  distinct : (w.pending.filterMap (·.s)).Nodup
  failing : ∀ id error, w.stage = .failing id error → (w.slot (hashId id)).type = .invalid
  log : ∀ entry ∈ w.dispatched, entry.1 = entry.2

theorem inv_start : Inv .start := by
  constructor
  · intro id member
    cases member
  · intro k reserve
    cases reserve
  · exact nodup_nil
  · intro k h
    cases h
  · intro e member
    cases member
  · exact nodup_nil
  · intro id error h
    cases h
  · intro entry member
    cases member

variable {w w' : World} {id k : Nat} {e : Event} {s' : Slot} {stage : Stage}

theorem Inv.alive_of_loop (inv : Inv w) (stage : ∀ id, w.stage ≠ .clearing id)
    (member : e ∈ w.pending) (points : e.s = some k) : alive (w.slot k).type := by
  rcases (inv.attached e member k points).open' with h | ⟨-, h⟩
  · exact h
  · exact absurd h (stage _)

/- What reserve_id does: the counter moves, and a free slot gets the id. -/
theorem reserveLoop_spec (i : Nat) (w : World) (taken : reserveLoop i w = some (id, w')) :
    (w.slot (hashId id)).type = .invalid ∧ ∃ n, w' = { w with
      allocId := n
      slot := update w.slot (hashId id)
        { w.slot (hashId id) with type := .reserve, id := id } } := by
  induction i generalizing w with
  | zero => cases taken
  | succ i ih =>
    unfold reserveLoop at taken
    dsimp only at taken
    split at taken
    · rename_i free
      cases taken
      exact ⟨free, _, rfl⟩
    · obtain ⟨before, n, same⟩ := ih _ taken
      exact ⟨before, n, same⟩

theorem reserveLoop_lt (i : Nat) (w : World) (taken : reserveLoop i w = some (id, w')) :
    id < 2147483648 := by
  induction i generalizing w with
  | zero => cases taken
  | succ i ih =>
    unfold reserveLoop at taken
    dsimp only at taken
    split at taken
    · cases taken
      exact Nat.mod_lt _ (by decide)
    · exact ih _ taken

theorem reserveLoop_none (i : Nat) (w : World) (full : reserveLoop i w = none) :
    ∀ j < i, (w.slot (hashId (w.allocId + 1 + j))).type ≠ .invalid := by
  induction i generalizing w with
  | zero => exact fun j below => absurd below j.not_lt_zero
  | succ i ih =>
    unfold reserveLoop at full
    dsimp only at full
    split at full
    · cases full
    · intro j below
      /- The mask does not move the slot, as the number of slots divides 2 ^ 31. -/
      have masked : ∀ n,
          hashId ((w.allocId + 1) % 2147483648 + n) = hashId (w.allocId + 1 + n) := by
        intro n
        simp only [hashId, maxSocket]
        omega
      cases j with
      | zero => rwa [← masked]
      | succ j =>
        have later := ih _ full j (by omega)
        rwa [Nat.add_assoc, masked, Nat.add_comm 1] at later

theorem reserveId_outcome (w : World) :
    (reserveId w = none ↔ ∀ k < maxSocket, (w.slot k).type ≠ .invalid) ∧
    ∀ id w', reserveId w = some (id, w') → id < 2147483648 ∧
      (w.slot (hashId id)).type = .invalid ∧
      (w'.slot (hashId id)).type = .reserve ∧ (w'.slot (hashId id)).id = id ∧
      (∀ k ≠ hashId id, w'.slot k = w.slot k) ∧
      ∀ k, (w.slot k).type ≠ .invalid → hashId (w.slot k).id = k → (w.slot k).id ≠ id := by
  refine ⟨⟨?_, ?_⟩, ?_⟩
  · intro full k below
    have visited := reserveLoop_none maxSocket w full
      ((k + 2 * maxSocket - 1 - w.allocId % maxSocket) % maxSocket) (Nat.mod_lt _ (by decide))
    have place : hashId (w.allocId + 1 +
        (k + 2 * maxSocket - 1 - w.allocId % maxSocket) % maxSocket) = k := by
      simp only [hashId, maxSocket] at below ⊢
      omega
    rwa [place] at visited
  · intro busy
    apply Option.eq_none_iff_forall_ne_some.mpr
    rintro ⟨id, w'⟩ taken
    exact busy (hashId id) (Nat.mod_lt _ (by decide)) (reserveLoop_spec maxSocket w taken).1
  · intro id w' taken
    have small := reserveLoop_lt maxSocket w taken
    obtain ⟨free, n, rfl⟩ := reserveLoop_spec maxSocket w taken
    dsimp only
    rw [update_self]
    refine ⟨small, free, rfl, rfl, fun k other => update_of_ne other .., ?_⟩
    rintro k live place rfl
    rw [place] at free
    exact live free

/-- No other thread reserves the slot of a socket that was just closed, or whose opening just
failed, before the socket thread is done with it. -/
def Undisturbed (w : World) : Action → Prop
  | .reserve => ∀ id w', reserveId w = some (id, w') →
      ∀ closed, (w.stage = .clearing closed ∨ ∃ error, w.stage = .failing closed error) →
        hashId id ≠ hashId closed
  | _ => True

theorem Inv.reserve (inv : Inv w) (undisturbed : Undisturbed w .reserve)
    (taken : reserveId w = some (id, w')) :
    Inv { w' with outstanding := id :: w'.outstanding } := by
  have clear := undisturbed id w' taken
  obtain ⟨free, n, rfl⟩ := reserveLoop_spec maxSocket w taken
  have self : update w.slot (hashId id)
      { w.slot (hashId id) with type := .reserve, id := id } (hashId id) =
      { w.slot (hashId id) with type := .reserve, id := id } := update_self ..
  have others : ∀ k ≠ hashId id, update w.slot (hashId id)
      { w.slot (hashId id) with type := .reserve, id := id } k = w.slot k :=
    fun k other => update_of_ne other ..
  have apart : ∀ other ∈ w.outstanding, hashId other ≠ hashId id := by
    intro other member same
    have reserve := (inv.reserved other member).1
    rw [same, free] at reserve
    cases reserve
  constructor
  · intro other member
    dsimp only
    rcases mem_cons.mp member with rfl | old
    · rw [self]
      exact ⟨rfl, rfl⟩
    · rw [others _ (apart other old)]
      exact inv.reserved other old
  · intro k reserve
    dsimp only at reserve ⊢
    by_cases same : k = hashId id
    · rw [same, self]
      exact ⟨mem_cons_self .., rfl⟩
    · rw [others k same] at reserve ⊢
      obtain ⟨member, place⟩ := inv.known k reserve
      exact ⟨mem_cons_of_mem id member, place⟩
  · apply nodup_cons.mpr
    exact ⟨fun member => apart id member rfl, inv.once⟩
  · intro k there
    dsimp only at there ⊢
    by_cases same : k = hashId id
    · rw [same, self] at there
      have before := (inv.registered (hashId id) there).1.1
      exact absurd free before
    · rw [others k same] at there ⊢
      exact inv.registered k there
  · intro e member k points
    have attached := inv.attached e member k points
    have other : k ≠ hashId id := by
      rintro rfl
      rcases attached.open' with h | ⟨-, stage⟩
      · exact h.1 free
      · exact clear e.id (.inl stage) attached.place.symm
    constructor
    · dsimp only
      rw [others k other]
      exact attached.same
    · exact attached.place
    · dsimp only
      rw [others k other]
      exact attached.open'
  · exact inv.distinct
  · intro closed error stage
    have other : hashId closed ≠ hashId id :=
      fun same => clear closed (.inr ⟨error, stage⟩) same.symm
    dsimp only
    rw [others _ other]
    exact inv.failing closed error stage
  · exact inv.log

/-- What one slot may become while the socket thread works on it, with the ids that still wait to be
opened and the stage it leaves. -/
structure Turns (w : World) (k : Nat) (s' : Slot) (waiting : List Nat) (stage : Stage) : Prop where
  events : ∀ e ∈ w.pending, e.s = some k →
    s'.id = e.id ∧ (alive s'.type ∨ s'.type = .invalid ∧ stage = .clearing e.id)
  unreserved : s'.type ≠ .reserve
  registered : s'.registered = true → alive s'.type ∧ hashId s'.id = k
  waits : ∀ id, id ∈ waiting ↔ id ∈ w.outstanding ∧ hashId id ≠ k
  once : waiting.Nodup
  failing : ∀ id error, stage = .failing id error → hashId id = k ∧ s'.type = .invalid

section
variable (inv : Inv w) (settled : ∀ id, w.stage ≠ .clearing id)
include inv settled

theorem Inv.turn {waiting : List Nat} (turns : Turns w k s' waiting stage) :
    Inv { w with
      slot := update w.slot k s', outstanding := waiting, stage := stage } := by
  have self : update w.slot k s' k = s' := update_self ..
  have others : ∀ j ≠ k, update w.slot k s' j = w.slot j := fun j other => update_of_ne other ..
  constructor
  · intro id member
    obtain ⟨old, apart⟩ := (turns.waits id).mp member
    dsimp only
    rw [others _ apart]
    exact inv.reserved id old
  · intro j reserve
    dsimp only at reserve ⊢
    by_cases same : j = k
    · rw [same, self] at reserve
      exact absurd reserve turns.unreserved
    · rw [others j same] at reserve ⊢
      obtain ⟨member, place⟩ := inv.known j reserve
      exact ⟨(turns.waits _).mpr ⟨member, fun h => same (place.symm.trans h)⟩, place⟩
  · exact turns.once
  · intro j there
    dsimp only at there ⊢
    by_cases same : j = k
    · rw [same, self] at there ⊢
      exact turns.registered there
    · rw [others j same] at there ⊢
      exact inv.registered j there
  · intro e member j points
    have attached := inv.attached e member j points
    by_cases same : j = k
    · subst same
      obtain ⟨id, type⟩ := turns.events e member points
      constructor
      · dsimp only
        rw [self]
        exact id
      · exact attached.place
      · dsimp only
        rw [self]
        exact type
    · constructor
      · dsimp only
        rw [others j same]
        exact attached.same
      · exact attached.place
      · dsimp only
        rw [others j same]
        exact .inl (inv.alive_of_loop settled member points)
  · exact inv.distinct
  · intro id error now
    obtain ⟨place, invalid⟩ := turns.failing id error now
    dsimp only
    rw [place, self]
    exact invalid
  · exact inv.log

theorem Inv.no_event (closed : ¬alive (w.slot k).type) (member : e ∈ w.pending) : e.s ≠ some k :=
  fun points => closed (inv.alive_of_loop settled member points)

theorem Inv.opens (member : id ∈ w.outstanding) (unreserved : s'.type ≠ .reserve)
    (registered : s'.registered = true → alive s'.type ∧ hashId s'.id = hashId id)
    (failing : ∀ other error, stage = .failing other error → other = id ∧ s'.type = .invalid) :
    Inv { w with
      slot := update w.slot (hashId id) s'
      outstanding := w.outstanding.erase id, stage := stage } := by
  obtain ⟨reserve, same⟩ := inv.reserved id member
  have closed : ¬alive (w.slot (hashId id)).type := fun h => h.2 reserve
  apply inv.turn settled
  constructor
  · intro e pending points
    exact absurd points (inv.no_event settled closed pending)
  · exact unreserved
  · exact registered
  · intro other
    rw [inv.once.mem_erase_iff]
    constructor
    · rintro ⟨different, old⟩
      refine ⟨old, fun place => different ?_⟩
      have there := (inv.reserved other old).2
      rw [place, same] at there
      exact there.symm
    · rintro ⟨old, apart⟩
      exact ⟨fun equal => apart (congrArg hashId equal), old⟩
  · exact inv.once.erase id
  · intro other error now
    obtain ⟨equal, invalid⟩ := failing other error now
    exact ⟨congrArg hashId equal, invalid⟩

theorem Inv.changes (opened : alive (w.slot k).type) (id : s'.id = (w.slot k).id)
    (unreserved : s'.type ≠ .reserve)
    (registered : s'.registered = true → alive s'.type ∧ hashId s'.id = k)
    (events : ∀ e ∈ w.pending, e.s = some k →
      alive s'.type ∨ s'.type = .invalid ∧ stage = .clearing (w.slot k).id)
    (failing : ∀ id error, stage ≠ .failing id error) :
    Inv { w with slot := update w.slot k s', stage := stage } := by
  apply inv.turn settled
  constructor
  · intro e member points
    have same := (inv.attached e member k points).same
    rw [id, same]
    refine ⟨rfl, ?_⟩
    rw [← same]
    exact events e member points
  · exact unreserved
  · exact registered
  · intro other
    refine ⟨fun member => ⟨member, ?_⟩, And.left⟩
    rintro place
    have reserve := (inv.reserved other member).1
    rw [place] at reserve
    exact opened.2 reserve
  · exact inv.once
  · intro other error now
    exact absurd now (failing other error)

end

end Skynet.SocketEvents
