import Skynet.Socket.Watching

/-! When a socket has something queued, the poller is told to report that it can be written to. -/
namespace Skynet.SocketSlot

open Base Option
open SocketServer (SocketType Priority WriteResult)

variable {s : Slot} {shutdown : Bool} {id : Nat} {r : Except Fault Slot} {st : State} {a : Action}

theorem tends_closeEmpty (watched : Watched s) :
    Tends (closeEmpty s shutdown) := by
  unfold closeEmpty
  apply Yields.either
  · exact tends_forceClose watched
  · constructor
    · constructor
      · exact watched.watched
      · rintro (h | h | h | h) <;> cases h
      · rintro (h | h) <;> cases h
      · intro h
        cases h
    · intro h
      cases h

theorem tends_closeSocket {script : List WriteResult} (tended : Tended s) :
    Tends (closeSocket s id shutdown script) := by
  unfold closeSocket
  apply Yields.ite
  · intro _
    exact tended
  intro _
  apply Yields.ite
  · intro _
    exact tends_closeEmpty tended.toWatched
  intro _
  apply Yields.bind (sends_sendBuffer tended.toWatched)
  rintro s' ⟨watched, -⟩
  apply Yields.ite
  · intro invalid
    exact watched.tended (by rw [invalid]; decide)
  · intro _
    exact tends_closeEmpty watched

theorem newFd_empty (s : Slot) (id : Nat) (protocol : Protocol) (add : Option Bool) :
    Yields (fun _ => True)
      (fun made => ∀ ns, made = some ns → sendBufferEmpty ns ∧ ns.registered = add.isSome)
      (newFd s id protocol add) := by
  unfold newFd
  apply Yields.ite
  · intro _
    trivial
  intro _
  apply Yields.ite
  · intro _ ns made
    cases made
  intro _
  apply Yields.after
  intro _ high
  apply Yields.after
  intro _ low ns made
  cases made
  have cleared : ∀ {list : WbList} {u}, checkWbList list = .ok u → list.head = none := by
    intro list u checked
    unfold checkWbList at checked
    split at checked
    · cases checked
    · rename_i empty
      push Not at empty
      exact empty.1
  exact ⟨(empty_iff _).mpr ⟨cleared high, cleared low⟩, rfl⟩

/- What opens a slot leaves the event on exactly when the socket still connects. -/
theorem tends_newFd {protocol : Protocol} {add : Option Bool} {use : Slot → Slot}
    (away : s.registered = false)
    (used : ∀ ns, sendBufferEmpty ns → ns.registered = add.isSome → Tended (use ns)) :
    Tends ((newFd s id protocol add).map fun made => orInvalid s made use) := by
  apply (newFd_empty s id protocol add).map
  intro made empty
  cases made with
  | none => exact tended_away away (.inl rfl)
  | some ns => exact used ns (empty ns rfl).1 (empty ns rfl).2

theorem tended_of_empty (empty : sendBufferEmpty s)
    (waiting : s.type = .paccept ∨ s.type = .plisten → s.registered = false)
    (alive : live s.type = true) (connecting : s.type = .connecting → s.writing) : Tended s := by
  constructor
  · constructor
    · intro _ filled
      exact absurd empty filled
    · intro _
      exact empty
    · exact waiting
    · intro h
      rw [alive] at h
      cases h
  · exact connecting

theorem tends_openSocket {attempt : Attempt} (away : s.registered = false) :
    Tends (openSocket s id attempt) := by
  cases attempt with
  | failed => exact tended_away away (.inl rfl)
  | connected added =>
    apply tends_newFd away
    intro ns empty _
    exact tended_of_empty empty (by rintro (h | h) <;> cases h) rfl (by intro h; cases h)
  | connecting added =>
    apply tends_newFd away
    intro ns empty _
    exact tended_of_empty empty (by rintro (h | h) <;> cases h) rfl (fun _ => rfl)

section
variable (tended : Tended s)
include tended

theorem tends_startSocket {added : Bool} : Tends (startSocket s id added) := by
  unfold startSocket
  apply Yields.ite
  · intro _
    exact tended
  intro _
  apply Yields.ite
  · intro waits
    have empty : sendBufferEmpty s := by
      apply tended.quiet
      rcases waits with h | h
      · exact .inr (.inr (.inl h))
      · exact .inl h
    apply Yields.either
    · exact tends_forceClose tended.toWatched
    · apply tended_of_empty (s := { s with registered := true, writing := false, type := _ }) empty
      · split <;> rintro (h | h) <;> cases h
      · split <;> rfl
      · split <;> intro h <;> cases h
  · intro _
    exact tended

theorem tended_setUdpAddress {address : List UInt8} : Tended (setUdpAddress s id address) := by
  unfold setUdpAddress
  split
  · exact tended
  · split
    · exact tended
    · exact ⟨tended.toWatched.fewer rfl rfl rfl fun empty => empty, tended.connecting⟩

theorem tends_reportConnect {error : Bool} (event : s.writing) : Tends (reportConnect s error) := by
  unfold reportConnect
  apply Yields.either
  · exact tends_forceClose tended.toWatched
  · change Tended (if sendBufferEmpty { s with type := .connected } = true then _ else _)
    split
    · rename_i empty
      exact tended_of_empty empty (by rintro (h | h) <;> cases h) rfl (by intro h; cases h)
    · constructor
      · constructor
        · intro _ _
          exact event
        · rintro (h | h | h | h) <;> cases h
        · rintro (h | h) <;> cases h
        · intro h
          cases h
      · intro h
        cases h

theorem tends_dispatch {e : Event} : Tends (dispatch s e) := by
  unfold dispatch
  split
  · rename_i connecting
    exact tends_reportConnect tended (tended.connecting connecting)
  · exact tended
  · exact tended
  · rename_i other _ _
    apply Yields.either
    · apply Yields.ite
      · intro _
        exact tends_forceClose tended.toWatched
      · intro _
        exact tended
    · apply Yields.ite
      · intro _
        apply (sends_sendBuffer tended.toWatched).mono
        rintro s' ⟨watched, same | invalid⟩
        · exact watched.tended (fun h => other (same ▸ h))
        · exact watched.tended (by rw [invalid]; decide)
      · intro _
        exact tended

end

/-- Nothing is sent to a socket that was made by bind. -/
def Unbound (st : State) : Action → Prop
  | .send request _ => st.slot.id = request.id → st.slot.type ≠ .bind
  | _ => True

theorem tends_ifReserved {made : Except Fault Slot} (tended : Tended s)
    (makes : s.registered = false → Tends made) (taken : ifReserved s id made = some r) :
    Tends r := by
  obtain ⟨⟨reserved, -⟩, same⟩ := ite_none_right_eq_some.mp taken
  cases same
  exact makes (tended.away (by rw [reserved]; rfl))

theorem tends_perform (tended : Tended st.slot) (unbound : Unbound st a)
    (taken : perform st.slot a = some r) : Tends r := by
  have waits : ∀ ns : Slot, sendBufferEmpty ns → ns.registered = false →
      Tended { ns with type := .plisten } ∧ Tended { ns with type := .paccept } := by
    intro ns empty away
    exact ⟨tended_of_empty empty (fun _ => away) rfl (by intro h; cases h),
      tended_of_empty empty (fun _ => away) rfl (by intro h; cases h)⟩
  cases a with
  | reserve id =>
    obtain ⟨free, same⟩ := ite_none_right_eq_some.mp taken
    cases same
    exact tended_away (tended.away (by rw [free]; rfl)) (.inr rfl)
  | «open» id attempt => exact tends_ifReserved tended tends_openSocket taken
  | listen id =>
    apply tends_ifReserved tended _ taken
    intro away
    exact tends_newFd away fun ns empty there => (waits ns empty there).1
  | bind id added | udp id family added =>
    apply tends_ifReserved tended _ taken
    intro away
    apply tends_newFd away
    intro ns empty _
    exact tended_of_empty empty (by rintro (h | h) <;> cases h) rfl (by intro h; cases h)
  | accept id =>
    apply tends_ifReserved tended _ taken
    intro away
    exact tends_newFd away fun ns empty there => (waits ns empty there).2
  | start id added =>
    cases taken
    exact tends_startSocket tended
  | setUdp id address =>
    cases taken
    exact tended_setUdpAddress tended
  | send request answer =>
    obtain ⟨-, same⟩ := ite_none_right_eq_some.mp taken
    cases same
    exact tends_sendSocket tended unbound
  | close id shutdown script =>
    cases taken
    exact tends_closeSocket tended
  | event e =>
    obtain ⟨-, same⟩ := ite_none_right_eq_some.mp taken
    cases same
    exact tends_dispatch tended

theorem step_tended {st' : State} (tended : Tended st.slot) (unbound : Unbound st a)
    (taken : step st a = some st') : Tended st'.slot := by
  obtain ⟨-, moved⟩ := ite_none_left_eq_some.mp taken
  obtain ⟨r, performed, same⟩ := map_eq_some_iff.mp moved
  have tends := tends_perform tended unbound performed
  cases r with
  | ok s =>
    cases same
    exact tends
  | error f =>
    cases same
    exact tended

/-- What is queued on a registered socket is tried again: the poller watches for it. -/
theorem queued_has_write_event (st : State) (run : Reaches step Unbound .start st)
    (registered : st.slot.registered = true)
    (queued : st.slot.high.head ≠ none ∨ st.slot.low.head ≠ none) : st.slot.writing = true := by
  have tended : Tended st.slot :=
    run.invariant (fun st => Tended st.slot) (tended_away rfl (.inl rfl))
      fun _ _ _ tended unbound taken => step_tended tended unbound taken
  apply tended.watched registered
  intro empty
  obtain ⟨high, low⟩ := (empty_iff st.slot).mp empty
  rcases queued with h | h
  · exact h high
  · exact h low

def checkedUnbound (st : State) : Action → Bool
  | .send _ _ => st.slot.type ≠ .bind
  | _ => true

theorem unbound_of_checked (st : State) (a : Action) (checked : checkedUnbound st a = true) :
    Unbound st a := by
  cases a with
  | send request answer =>
    intro _
    exact of_decide_eq_true checked
  | _ => trivial

def threeBytes : RequestSend := ⟨1, .high, none, [1, 2, 3], 0⟩

/- One byte of three is taken, the rest waits in the high list. -/
theorem queued_has_write_event_partial :
    ∃ st, Reaches step Unbound .start st ∧ st.slot.high.head = some 0 ∧
      st.slot.writing = true := by
  have run : Reaches step Unbound .start _ := reaches_of_checked checkedUnbound unbound_of_checked
    [.reserve 1, .open 1 (.connected true), .send threeBytes (.wrote 1)] rfl
  exact ⟨_, run, rfl, queued_has_write_event _ run rfl (.inl (by decide))⟩

/- A descriptor taken over by bind is registered, and what is sent to it is only put into a list. -/
theorem queued_without_write_event :
    ∃ st, Run step .start st ∧ live st.slot.type = true ∧ st.slot.registered = true ∧
      st.slot.high.head ≠ none ∧ st.slot.writing = false := by
  have run : Run step .start _ :=
    run_of_list [.reserve 1, .bind 1 true, .send threeBytes (.wrote 3)] rfl
  exact ⟨_, run, rfl, rfl, by decide, rfl⟩

end Skynet.SocketSlot
