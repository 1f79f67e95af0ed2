import Skynet.Socket.EventSteps

/-! An event is dispatched on the socket it was reported for. -/
namespace Skynet.SocketEvents

open Base List Function Option
open SocketServer (SocketType)

variable {w w' : World} {id k : Nat}

theorem Inv.dispatch {outcome : Outcome} (inv : Inv w)
    (settled : ∀ id, w.stage ≠ .clearing id) (taken : dispatch w outcome = some w') : Inv w' := by
  unfold SocketEvents.dispatch at taken
  split at taken
  · cases taken
  · rename_i e rest pending
    have distinct := inv.distinct
    rw [pending] at distinct
    have later : ∀ log, (∀ entry ∈ log, entry.1 = entry.2) →
        Inv { w with pending := rest, stage := .loop, dispatched := log } := by
      intro log fine
      refine ⟨inv.reserved, inv.known, inv.once, inv.registered, ?_, ?_, ?_, fine⟩
      · intro e' member k points
        have old : e' ∈ w.pending := pending ▸ mem_cons_of_mem e member
        have attached := inv.attached e' old k points
        exact ⟨attached.same, attached.place, .inl (inv.alive_of_loop settled old points)⟩
      · exact distinct.sublist ((sublist_cons_self e rest).filterMap _)
      · intro id error now
        cases now
    split at taken
    · cases taken
      exact later _ inv.log
    · rename_i k points
      have here : e ∈ w.pending := pending ▸ mem_cons_self ..
      have attached := inv.attached e here k points
      rw [filterMap_cons_some points] at distinct
      refine (later _ ?_).handle rfl (inv.alive_of_loop settled here points) attached.place
        attached.same (nodup_cons.mp distinct).1 points taken
      intro entry member
      rcases mem_cons.mp member with rfl | old
      · exact attached.same.symm
      · exact inv.log entry old

theorem step_inv {a : Action} (inv : Inv w) (undisturbed : Undisturbed w a)
    (taken : step w a = some w') : Inv w' := by
  cases a with
  | reserve =>
    obtain ⟨⟨id, made⟩, reserved, same⟩ := map_eq_some_iff.mp taken
    cases same
    exact inv.reserve undisturbed reserved
  | command c =>
    obtain ⟨⟨loop, -⟩, rest⟩ := ite_none_right_eq_some.mp taken
    exact inv.ctrlCmd loop rest
  | failed =>
    unfold step at taken
    dsimp only at taken
    split at taken
    · rename_i id error failing
      cases taken
      exact inv.failed failing
    · cases taken
  | clear =>
    unfold step at taken
    dsimp only at taken
    split at taken
    · rename_i id clearing
      cases taken
      exact inv.clear clearing
    · cases taken
  | noCommand =>
    obtain ⟨⟨loop, -⟩, same⟩ := ite_none_right_eq_some.mp taken
    cases same
    refine inv.restage (loop_settled loop) ?_ false
    intro id error h
    rw [loop] at h
    cases h
  | wait reports =>
    obtain ⟨⟨-, -, -, can⟩, same⟩ := ite_none_right_eq_some.mp taken
    cases same
    apply inv.wait can
    intro id error
    split <;> intro h <;> cases h
  | dispatch outcome =>
    obtain ⟨stage, rest⟩ := ite_none_right_eq_some.mp taken
    refine inv.dispatch ?_ rest
    rintro id h
    rw [h] at stage
    rcases stage with now | ⟨now, -⟩
    · cases now
    · cases now

def checkedUndisturbed (w : World) : Action → Bool
  | .reserve => w.stage = .loop
  | _ => true

theorem undisturbed_of_checked (w : World) (a : Action) (checked : checkedUndisturbed w a = true) :
    Undisturbed w a := by
  cases a with
  | reserve =>
    have loop : w.stage = .loop := of_decide_eq_true checked
    rintro id w' _ closed (clearing | ⟨error, failing⟩)
    · rw [loop] at clearing
      cases clearing
    · rw [loop] at failing
      cases failing
  | _ => trivial

def twoConnections : List Action :=
  [.reserve, .reserve, .command (.open 1 .connected), .command (.open 2 .connected), .noCommand,
    .wait [(some 2, true, false), (some 1, true, false)], .dispatch .done]

theorem reserve_next (w : World) (free : (w.slot (hashId (w.allocId + 1))).type = .invalid)
    (small : w.allocId + 1 < 2147483648) :
    step w .reserve = some { w with
      allocId := w.allocId + 1
      slot := Function.update w.slot (hashId (w.allocId + 1))
        { w.slot (hashId (w.allocId + 1)) with type := .reserve, id := w.allocId + 1 }
      outstanding := (w.allocId + 1) :: w.outstanding } := by
  have first : reserveId w = reserveLoop (65535 + 1) w := rfl
  unfold step
  rw [first]
  unfold reserveLoop
  rw [Nat.mod_eq_of_lt small, if_pos free]
  rfl

/-- What many reservations leave as it was. -/
structure Advanced (w w' : World) (n : Nat) : Prop where
  run : Run step w w'
  allocId : w'.allocId = w.allocId + n
  slot : ∀ k, (∀ i, w.allocId < i → i ≤ w.allocId + n → hashId i ≠ k) → w'.slot k = w.slot k
  outstanding : ∀ id ∈ w'.outstanding, id ∈ w.outstanding ∨ w.allocId < id
  pending : w'.pending = w.pending
  checkctrl : w'.checkctrl = w.checkctrl
  stage : w'.stage = w.stage
  dispatched : w'.dispatched = w.dispatched

theorem reserve_many (w : World) (n : Nat) (few : n ≤ 65536) (small : w.allocId + n < 2147483648)
    (free : ∀ i, w.allocId < i → i ≤ w.allocId + n → (w.slot (hashId i)).type = .invalid) :
    ∃ w', Advanced w w' n := by
  induction n with
  | zero => exact ⟨w, .start, rfl, fun _ _ => rfl, fun _ h => .inl h, rfl, rfl, rfl, rfl⟩
  | succ n ih =>
    obtain ⟨w', before⟩ := ih (by omega) (by omega) fun i low high => free i low (by omega)
    have apart : ∀ i, w.allocId < i → i ≤ w.allocId + n →
        hashId i ≠ hashId (w.allocId + n + 1) := by
      intro i low high
      unfold hashId maxSocket
      omega
    have next : (w'.slot (hashId (w'.allocId + 1))).type = .invalid := by
      rw [before.allocId, before.slot _ apart]
      exact free _ (by omega) (by omega)
    have taken := reserve_next w' next (by rw [before.allocId]; omega)
    refine ⟨_, .next before.run trivial taken, ?_, ?_, ?_, before.pending, before.checkctrl,
      before.stage, before.dispatched⟩
    · dsimp only
      rw [before.allocId]
      omega
    · intro k outside
      dsimp only
      have other : k ≠ hashId (w'.allocId + 1) := by
        rw [before.allocId]
        exact (outside (w.allocId + n + 1) (by omega) (by omega)).symm
      rw [update_of_ne other]
      exact before.slot k fun i low high => outside i low (by omega)
    · intro id member
      rcases mem_cons.mp member with rfl | old
      · right
        rw [before.allocId]
        omega
      · exact before.outstanding id old

/- The close of socket 1, an id of the same slot for another thread before the event is cleared, the
clearing, which finds the slot reserved, and the opening of the new id. -/
def reuseSlot : List Action :=
  [.command (.close 1 true), .reserve, .clear, .command (.open 65537 .connected), .noCommand,
    .dispatch .done]

theorem reuse_slot {w : World} (alloc : w.allocId = 65536)
    (there : w.slot 1 = ⟨.connected, 1, true⟩) (known : 1 ∉ w.outstanding)
    (pending : w.pending = [⟨some 1, 1, true, false⟩]) (check : w.checkctrl = true)
    (loop : w.stage = .loop) :
    ∃ w', reuseSlot.foldlM step w = some w' ∧ (1, 65537) ∈ w'.dispatched := by
  obtain ⟨slot, allocId, outstanding, pend, checkctrl, stage, dispatched⟩ := w
  dsimp only at alloc there known pending check loop
  subst alloc pending check loop
  have closed : step ⟨slot, 65536, outstanding, [⟨some 1, 1, true, false⟩], true, .loop, dispatched⟩
      (.command (.close 1 true)) =
      some ⟨update slot 1 ⟨.invalid, 1, false⟩, 65536, outstanding,
        [⟨some 1, 1, true, false⟩], true, .clearing 1, dispatched⟩ := by
    simp [step, ctrlCmd, onceKnown, known, closeSocket, hashId, maxSocket, there, forceClose,
      World.set, reported]
  have reserved : step ⟨update slot 1 ⟨.invalid, 1, false⟩, 65536, outstanding,
      [⟨some 1, 1, true, false⟩], true, .clearing 1, dispatched⟩ .reserve =
      some ⟨update slot 1 ⟨.reserve, 65537, false⟩, 65537, 65537 :: outstanding,
        [⟨some 1, 1, true, false⟩], true, .clearing 1, dispatched⟩ := by
    rw [reserve_next _ (by simp [hashId, maxSocket]) (by simp)]
    simp [hashId, maxSocket]
  have cleared : step ⟨update slot 1 ⟨.reserve, 65537, false⟩, 65537,
      65537 :: outstanding, [⟨some 1, 1, true, false⟩], true, .clearing 1, dispatched⟩ .clear =
      some ⟨update slot 1 ⟨.reserve, 65537, false⟩, 65537, 65537 :: outstanding,
        [⟨some 1, 1, true, false⟩], true, .loop, dispatched⟩ := by
    simp [step, clearClosedEvent]
  have opened : step ⟨update slot 1 ⟨.reserve, 65537, false⟩, 65537,
      65537 :: outstanding, [⟨some 1, 1, true, false⟩], true, .loop, dispatched⟩
      (.command (.open 65537 .connected)) =
      some ⟨update slot 1 ⟨.connected, 65537, true⟩, 65537, outstanding,
        [⟨some 1, 1, true, false⟩], true, .loop, dispatched⟩ := by
    simp [step, ctrlCmd, openOnce, openSocket, newFd, hashId, maxSocket, World.set]
  refine ⟨⟨update slot 1 ⟨.connected, 65537, true⟩, 65537, outstanding, [], false, .loop,
    (1, 65537) :: dispatched⟩, ?_, mem_cons_self ..⟩
  unfold reuseSlot
  rw [foldlM_cons, closed, bind_eq_bind, bind_some, foldlM_cons, reserved,
    bind_eq_bind, bind_some, foldlM_cons, cleared, bind_eq_bind,
    bind_some, foldlM_cons, opened, bind_eq_bind, bind_some]
  rfl

end Skynet.SocketEvents
