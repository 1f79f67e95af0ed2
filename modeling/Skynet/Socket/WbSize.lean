import Skynet.Socket.Accounting

/-! The account of the bytes that are queued, over everything that happens to a slot. -/
namespace Skynet.SocketSlot

open Base Option
open SocketServer (SocketType WriteResult)

variable {s : Slot} {hi lo : List Nat}

theorem Sound.type (sound : Sound s hi lo) {type : SocketType}
    (alive : live type = true → live s.type = true) (dead : live type = false → hi = [] ∧ lo = []) :
    Sound { s with type := type } hi lo :=
  ⟨sound.high, sound.low, sound.apart, sound.few, fun h => sound.size (alive h), dead⟩

variable {shutdown : Bool} {id : Nat} {r : Except Fault Slot} {st : State} {a : Action}

section
variable (sound : Sound s hi lo)
include sound

theorem accounts_closeEmpty :
    Accounts (closeEmpty s shutdown) := by
  unfold closeEmpty
  apply Yields.ite
  · intro _
    exact accounts_forceClose sound
  · intro filled
    refine ⟨hi, lo, sound.type ?_ (by intro h; cases h)⟩
    intro _
    by_contra dead
    obtain ⟨none', none''⟩ := sound.bare (Bool.eq_false_iff.mpr dead)
    cases none'
    cases none''
    have high : s.high.head = none := sound.high.path
    have low : s.low.head = none := sound.low.path
    exact filled (.inr (by simp [sendBufferEmpty, high, low]))

theorem accounts_closeSocket {script : List WriteResult} :
    Accounts (closeSocket s id shutdown script) := by
  unfold closeSocket
  apply Yields.ite
  · intro _
    exact ⟨hi, lo, sound⟩
  intro _
  apply Yields.ite
  · intro _
    exact accounts_closeEmpty sound
  intro _
  apply Yields.bind (accounts_sendBuffer sound)
  rintro s' ⟨hi', lo', sound'⟩
  apply Yields.either
  · exact ⟨hi', lo', sound'⟩
  · exact accounts_closeEmpty sound'

/- A reserved slot has nothing queued, so its lists pass the check. -/
theorem accounts_newFd {protocol : Protocol} {add : Option Bool} {use : Slot → Slot}
    (reserved : s.type = .reserve)
    (keeps : ∀ ns, (use ns).high = ns.high ∧ (use ns).low = ns.low ∧ (use ns).wbSize = ns.wbSize) :
    Accounts ((newFd s id protocol add).map fun made => orInvalid s made use) := by
  have dead : live s.type = false := by
    rw [reserved]
    rfl
  obtain ⟨none', none''⟩ := sound.bare dead
  cases none'
  cases none''
  have clear : ∀ {list : WbList}, Listed s.heap list [] → list = .clear := by
    rintro ⟨head, tail⟩ listed
    cases listed.path
    cases listed.tail
    rfl
  have high := clear sound.high
  have low := clear sound.low
  have made : newFd s id protocol add = if add = some false then .ok none
      else
        .ok (some { s with
          registered := add.isSome, writing := false, id := id, protocol := protocol
          wbSize := 0 }) := by
    unfold newFd
    rw [if_neg (not_not.mpr reserved)]
    simp only [high, low]
    rfl
  rw [made]
  split
  · refine ⟨[], [], sound_clear high low ?_⟩
    intro h
    cases h
  · obtain ⟨high', low', size⟩ := keeps _
    exact ⟨[], [], sound_clear (high'.trans high) (low'.trans low) fun _ => size⟩

theorem accounts_startSocket {added : Bool} :
    Accounts (startSocket s id added) := by
  unfold startSocket
  apply Yields.ite
  · intro _
    exact ⟨hi, lo, sound⟩
  intro _
  apply Yields.ite
  · intro waits
    apply Yields.either
    · exact accounts_forceClose sound
    · have alive : live s.type = true := by
        rcases waits with h | h <;> rw [h] <;> rfl
      refine ⟨hi, lo, (sound.writing false true s.udpAddress).type (fun _ => alive) ?_⟩
      split <;> intro h <;> cases h
  · intro _
    exact ⟨hi, lo, sound⟩

theorem accounted_setUdpAddress {address : List UInt8} :
    Accounted (setUdpAddress s id address) := by
  unfold setUdpAddress
  split
  · exact ⟨hi, lo, sound⟩
  · split
    · exact ⟨hi, lo, sound⟩
    · exact ⟨hi, lo, sound.writing s.writing s.registered _⟩

theorem accounts_reportConnect {error : Bool} (connecting : s.type = .connecting) :
    Accounts (reportConnect s error) := by
  have connected : Sound { s with type := .connected } hi lo := by
    apply sound.type
    · intro _
      rw [connecting]
      rfl
    · intro h
      cases h
  unfold reportConnect
  apply Yields.either
  · exact accounts_forceClose sound
  · change Accounted (if sendBufferEmpty { s with type := .connected } = true then _ else _)
    split
    · exact ⟨hi, lo, connected.writing false s.registered s.udpAddress⟩
    · exact ⟨hi, lo, connected⟩

theorem accounts_dispatch {e : Event} : Accounts (dispatch s e) := by
  unfold dispatch
  split
  · rename_i connecting
    exact accounts_reportConnect sound connecting
  · exact ⟨hi, lo, sound⟩
  · exact ⟨hi, lo, sound⟩
  · apply Yields.ite
    · intro _
      apply Yields.either
      · exact accounts_forceClose sound
      · exact ⟨hi, lo, sound⟩
    · intro _
      apply Yields.either
      · exact accounts_sendBuffer sound
      · exact ⟨hi, lo, sound⟩

end

/-- What is sent goes to a socket that is open, not to one that is only reserved. -/
def Opened (st : State) : Action → Prop
  | .send request _ => st.slot.id = request.id → st.slot.type ≠ .reserve
  | _ => True

theorem accounts_ifReserved {made : Except Fault Slot} (makes : s.type = .reserve → Accounts made)
    (taken : ifReserved s id made = some r) :
    Accounts r := by
  obtain ⟨⟨reserved, -⟩, same⟩ := ite_none_right_eq_some.mp taken
  cases same
  exact makes reserved

theorem accounts_openSocket {attempt : Attempt} (sound : Sound s hi lo)
    (reserved : s.type = .reserve) : Accounts (openSocket s id attempt) := by
  cases attempt with
  | failed =>
    refine ⟨hi, lo, sound.type (by intro h; cases h) ?_⟩
    intro _
    apply sound.bare
    rw [reserved]
    rfl
  | connected _ | connecting _ =>
    exact accounts_newFd sound reserved fun _ => ⟨rfl, rfl, rfl⟩

theorem accounts_perform (sound : Sound st.slot hi lo) (opened : Opened st a)
    (taken : perform st.slot a = some r) :
    Accounts r := by
  cases a with
  | reserve id =>
    obtain ⟨free, same⟩ := ite_none_right_eq_some.mp taken
    cases same
    have dead : live st.slot.type = false := by
      rw [free]
      rfl
    refine ⟨hi, lo, sound.high, sound.low, sound.apart, sound.few, ?_, fun _ => sound.bare dead⟩
    intro alive
    cases alive
  | «open» id attempt => exact accounts_ifReserved (accounts_openSocket sound) taken
  | listen _ | bind _ _ | udp _ _ _ | accept _ =>
    refine accounts_ifReserved (fun reserved => ?_) taken
    exact accounts_newFd sound reserved fun _ => ⟨rfl, rfl, rfl⟩
  | start id added =>
    cases taken
    exact accounts_startSocket sound
  | setUdp id address =>
    cases taken
    exact accounted_setUdpAddress sound
  | send request answer =>
    obtain ⟨unused, same⟩ := ite_none_right_eq_some.mp taken
    cases same
    exact accounts_sendSocket sound opened unused
  | close id shutdown script =>
    cases taken
    exact accounts_closeSocket sound
  | event e =>
    obtain ⟨-, same⟩ := ite_none_right_eq_some.mp taken
    cases same
    exact accounts_dispatch sound

def Kept (st : State) : Prop := Accounted st.slot ∧ ∀ f, st.fault = some f → f.ofLists = false

theorem step_kept {st' : State} (kept : Kept st) (opened : Opened st a)
    (taken : step st a = some st') : Kept st' := by
  obtain ⟨-, moved⟩ := ite_none_left_eq_some.mp taken
  obtain ⟨r, performed, same⟩ := map_eq_some_iff.mp moved
  obtain ⟨hi, lo, sound⟩ := kept.1
  have accounts := accounts_perform sound opened performed
  cases r with
  | ok s =>
    cases same
    refine ⟨accounts, ?_⟩
    intro f none'
    cases none'
  | error f =>
    cases same
    refine ⟨kept.1, ?_⟩
    intro f' same
    cases same
    exact accounts

/-- At every moment the two lists are lists, ended by their tail pointers, the account is the sum
over both, and no assertion about them has failed. -/
theorem write_buffer_accounting (st : State) (run : Reaches step Opened .start st) :
    (∀ f, st.fault = some f → f.ofLists = false) ∧
    ∃ hi lo, Listed st.slot.heap st.slot.high hi ∧ Listed st.slot.heap st.slot.low lo ∧
      (∀ a ∈ hi, a ∉ lo) ∧
      (live st.slot.type = true →
        st.slot.wbSize = total st.slot.heap hi + total st.slot.heap lo) := by
  have start : Kept .start := by
    refine ⟨⟨[], [], sound_clear rfl rfl fun _ => rfl⟩, ?_⟩
    intro f none'
    cases none'
  have kept : Kept st :=
    run.invariant Kept start fun _ _ _ kept opened taken => step_kept kept opened taken
  obtain ⟨⟨hi, lo, sound⟩, fine⟩ := kept
  exact ⟨fine, hi, lo, sound.high, sound.low, sound.apart, sound.size⟩

def checkedOpened (st : State) : Action → Bool
  | .send _ _ => st.slot.type ≠ .reserve
  | _ => true

theorem opened_of_checked (st : State) (a : Action) (checked : checkedOpened st a = true) :
    Opened st a := by
  cases a with
  | send request answer =>
    intro _
    exact of_decide_eq_true checked
  | _ => trivial

/- Three bytes of which one is taken at once, two more of low priority behind them, then a write
event that finishes the first buffer and half of the second, which moves to the high list. -/
theorem write_buffer_accounting_two_lists :
    ∃ st, Reaches step Opened .start st ∧ st.slot.wbSize = 1 ∧ st.slot.high.head = some 1 ∧
      ∃ hi lo, Listed st.slot.heap st.slot.high hi ∧ Listed st.slot.heap st.slot.low lo ∧
        st.slot.wbSize = total st.slot.heap hi + total st.slot.heap lo := by
  have run : Reaches step Opened .start _ := reaches_of_checked checkedOpened opened_of_checked
    [.reserve 1, .open 1 (.connected true), .send ⟨1, .high, none, [1, 2, 3], 0⟩ (.wrote 1),
      .send ⟨1, .low, none, [4, 5], 1⟩ .eagain,
      .event ⟨false, true, false, false, [.wrote 2, .wrote 1]⟩] rfl
  obtain ⟨-, hi, lo, high, low, -, size⟩ := write_buffer_accounting _ run
  exact ⟨_, run, rfl, rfl, hi, lo, high, low, size rfl⟩

end Skynet.SocketSlot
