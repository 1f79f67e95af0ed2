import Skynet.Socket.Slot
import Skynet.Base.Outcome

/-! What sending, queueing and closing do to the write event of a socket. -/
namespace Skynet.SocketSlot

open Base
open SocketServer (SocketType Priority WriteResult)

/- The types of sockets that nothing is queued on. -/
def quiet (type : SocketType) : Prop :=
  type = .plisten ∨ type = .listen ∨ type = .paccept ∨ type = .bind

/-- What the functions that switch the write event rely on, whatever the type. -/
structure Watched (s : Slot) : Prop where
  watched : s.registered → ¬sendBufferEmpty s → s.writing
  quiet : quiet s.type → sendBufferEmpty s
  waiting : s.type = .paccept ∨ s.type = .plisten → s.registered = false
  away : live s.type = false → s.registered = false

/-- Between two actions a socket that connects has the event as well. -/
structure Tended (s : Slot) : Prop extends Watched s where
  connecting : s.type = .connecting → s.writing

/- Any fault may end the call: the process stops. -/
abbrev Tends (r : Except Fault Slot) : Prop := Yields (fun _ => True) Tended r

theorem empty_iff (s : Slot) : sendBufferEmpty s ↔ s.high.head = none ∧ s.low.head = none := by
  simp [sendBufferEmpty]

variable {s s' : Slot} {script : List WriteResult} {request : RequestSend} {answer : WriteResult}

theorem Watched.tended (watched : Watched s) (type : s.type ≠ .connecting) :
    Tended s :=
  ⟨watched, fun h => absurd h type⟩

theorem tended_away (away : s.registered = false) (type : s.type = .invalid ∨ s.type = .reserve) :
    Tended s := by
  constructor
  · constructor
    · intro h
      rw [away] at h
      cases h
    · rcases type with h | h <;> rw [h] <;> rintro (h | h | h | h) <;> cases h
    · intro _
      exact away
    · intro _
      exact away
  · rcases type with h | h <;> rw [h] <;> intro h <;> cases h

/- Sending and moving buffers between the lists leaves an empty socket empty. -/
theorem Watched.fewer (watched : Watched s) (type : s'.type = s.type)
    (registered : s'.registered = s.registered) (writing : s'.writing = s.writing)
    (empty : sendBufferEmpty s → sendBufferEmpty s') : Watched s' := by
  constructor
  · intro there filled
    rw [writing]
    exact watched.watched (registered ▸ there) (fun h => filled (empty h))
  · intro h
    exact empty (watched.quiet (type ▸ h))
  · intro h
    rw [registered]
    exact watched.waiting (type ▸ h)
  · intro h
    rw [registered]
    exact watched.away (type ▸ h)

theorem Tended.more (tended : Tended s) (type : s'.type = s.type)
    (registered : s'.registered = s.registered) (noisy : ¬SocketSlot.quiet s.type)
    (writing : s.writing → s'.writing) (event : s.registered → s'.writing) : Tended s' := by
  constructor
  · constructor
    · intro there _
      exact event (registered ▸ there)
    · intro h
      exact absurd (type ▸ h) noisy
    · intro h
      rw [registered]
      exact tended.waiting (type ▸ h)
    · intro h
      rw [registered]
      exact tended.away (type ▸ h)
  · intro h
    exact writing (tended.connecting (type ▸ h))

theorem forceClose_tended (watched : Watched s) :
    Yields (fun _ => True) (fun s' => Tended s' ∧ s'.type = .invalid) (forceClose s) := by
  unfold forceClose
  apply Yields.ite
  · intro invalid
    refine ⟨tended_away (watched.away ?_) (.inl invalid), invalid⟩
    rw [invalid]
    rfl
  · intro _
    apply Yields.either
    · trivial
    · have gone : (unregister s).registered = false := by
        unfold unregister
        split
        · exact watched.waiting (by assumption)
        · rfl
      apply Yields.after
      intro heap _
      apply Yields.after
      intro heap _
      exact ⟨tended_away gone (.inl rfl), rfl⟩

theorem tends_forceClose (watched : Watched s) : Tends (forceClose s) :=
  (forceClose_tended watched).mono fun _ h => h.1

/- Nothing comes into a list by sending it. -/
theorem sendList_empty {protocol : Protocol} {q : Queue} {sent : Sent} (empty : q.list.head = none)
    (taken : sendList protocol script q = .ok sent) :
    sent.queue.list.head = none := by
  unfold sendList at taken
  split at taken
  · unfold sendListTcp at taken
    rw [empty] at taken
    cases taken
    rfl
  · unfold sendListUdp at taken
    rw [empty] at taken
    cases taken
    rfl

/-- Writing out what is queued keeps the type, unless it closes the socket. -/
abbrev Sends (s : Slot) (r : Except Fault Slot) : Prop :=
  Yields (fun _ => True) (fun s' => Watched s' ∧ (s'.type = s.type ∨ s'.type = .invalid)) r

theorem sends_forceClose (watched : Watched s') : Sends s (forceClose s') :=
  (forceClose_tended watched).mono fun _ h => ⟨h.1.toWatched, .inr h.2⟩

section
variable (watched : Watched s)
include watched

theorem sends_raiseUncomplete (filled : s.low.head ≠ none) : Sends s (raiseUncomplete s) := by
  unfold raiseUncomplete
  split
  · trivial
  · split
    · trivial
    · apply Yields.ite
      · intro _
        trivial
      · intro _
        refine ⟨watched.fewer rfl rfl rfl ?_, .inl rfl⟩
        intro empty
        exact absurd ((empty_iff s).mp empty).2 filled

theorem sends_sendLow : Sends s (sendLow s script) := by
  unfold sendLow
  apply Yields.after
  intro sent taken
  have sending : Watched { s with
      heap := sent.queue.heap, low := sent.queue.list, wbSize := sent.queue.wbSize } := by
    refine watched.fewer rfl rfl rfl ?_
    intro empty
    obtain ⟨high, low⟩ := (empty_iff s).mp empty
    exact (empty_iff _).mpr ⟨high, sendList_empty low taken⟩
  apply Yields.either
  · exact sends_forceClose sending
  · apply Yields.after
    intro uncomplete found
    apply Yields.ite
    · rintro rfl
      apply sends_raiseUncomplete sending
      intro none
      unfold listUncomplete at found
      rw [none] at found
      cases found
    · intro _
      exact ⟨sending, .inl rfl⟩

theorem sends_checkClose (empty : sendBufferEmpty s) : Sends s (checkClose s) := by
  have off : Watched { s with writing := false } := by
    constructor
    · intro _ filled
      exact absurd empty filled
    · exact watched.quiet
    · exact watched.waiting
    · exact watched.away
  unfold checkClose
  apply Yields.either
  · exact sends_forceClose off
  · exact ⟨off, .inl rfl⟩

theorem sends_sendRest : Sends s (sendRest s script) := by
  unfold sendRest
  apply Yields.ite
  · intro high
    apply Yields.ite
    · intro _
      exact sends_sendLow watched
    · intro low
      exact sends_checkClose watched ((empty_iff s).mpr ⟨high, not_not.mp low⟩)
  · intro _
    exact ⟨watched, .inl rfl⟩

theorem sends_sendBuffer : Sends s (sendBuffer s script) := by
  unfold sendBuffer
  apply Yields.after
  intro uncomplete _
  apply Yields.either
  · trivial
  · apply Yields.after
    intro sent taken
    have sending : Watched { s with
        heap := sent.queue.heap, high := sent.queue.list, wbSize := sent.queue.wbSize } := by
      refine watched.fewer rfl rfl rfl ?_
      intro empty
      obtain ⟨high, low⟩ := (empty_iff s).mp empty
      exact (empty_iff _).mpr ⟨sendList_empty high taken, low⟩
    apply Yields.either
    · exact sends_forceClose sending
    · exact sends_sendRest sending

end

/- Queueing changes neither the type nor what the poller knows. -/
structure Appended (s s' : Slot) : Prop where
  type : s'.type = s.type
  registered : s'.registered = s.registered
  writing : s'.writing = s.writing

theorem appendSendbufferUdp_appended (s : Slot) (priority : Priority) (place : Nat)
    (buffer udpAddress : List UInt8) :
    Yields (fun _ => True) (Appended s)
      (appendSendbufferUdp s priority place buffer udpAddress) := by
  cases priority with
  | high | low =>
    apply Yields.mapped
    intro made _
    exact ⟨rfl, rfl, rfl⟩

theorem appendSendbuffer_appended (s : Slot) (place : Nat) (buffer : List UInt8) (n : Nat) :
    Yields (fun _ => True) (Appended s) (appendSendbuffer s place buffer n) := by
  apply Yields.mapped
  intro made _
  exact ⟨rfl, rfl, rfl⟩

theorem sendQueued_appended (s : Slot) (request : RequestSend) :
    Yields (fun _ => True) (Appended s) (sendQueued s request) := by
  unfold sendQueued
  apply Yields.either
  · cases request.priority with
    | low =>
      apply Yields.mapped
      intro made _
      exact ⟨rfl, rfl, rfl⟩
    | high => exact appendSendbuffer_appended ..
  · exact appendSendbufferUdp_appended ..

theorem Appended.tended (appended : Appended s s') (tended : Tended s)
    (noisy : ¬SocketSlot.quiet s.type) (event : s.registered → s.writing) : Tended s' :=
  tended.more appended.type appended.registered noisy (fun h => appended.writing ▸ h)
    (fun h => appended.writing ▸ event h)

theorem Appended.enabled (appended : Appended s s') (tended : Tended s)
    (noisy : ¬SocketSlot.quiet s.type) : Tended (enableWrite s') :=
  tended.more appended.type appended.registered noisy (fun _ => rfl) (fun _ => rfl)

section
variable (tended : Tended s)
include tended

section
variable (noisy : ¬SocketSlot.quiet s.type)
include noisy

theorem tends_sendDirect {n : Nat} : Tends (sendDirect s request n) := by
  unfold sendDirect
  apply Yields.either
  · exact tended
  · exact (appendSendbuffer_appended ..).map fun _ appended => appended.enabled tended noisy

theorem tends_sendTcp : Tends (sendTcp s request answer) := by
  cases answer with
  | wrote _ | eintr | eagain => exact tends_sendDirect tended noisy
  | failed => exact tends_forceClose tended.toWatched

theorem tends_sendUdp : Tends (sendUdp s request answer) := by
  unfold sendUdp
  apply Yields.either
  · exact tended
  · exact (appendSendbufferUdp_appended ..).map fun _ appended => appended.enabled tended noisy

end

/- Outside the direct branch a socket that the poller knows has the event already: it connects, or
it has something queued. -/
theorem tends_sendSocket (unbound : s.id = request.id → s.type ≠ .bind) :
    Tends (sendSocket s request answer) := by
  unfold sendSocket
  apply Yields.ite
  · intro _
    exact tended
  intro first
  apply Yields.ite
  · intro _
    exact tended
  intro second
  push Not at first second
  obtain ⟨valid, same, open', started⟩ := first
  have noisy : ¬SocketSlot.quiet s.type := by
    rintro (h | h | h | h)
    · exact second.1 h
    · exact second.2 h
    · exact started h
    · exact unbound same h
  apply Yields.ite
  · intro _
    apply Yields.either
    · exact tends_sendTcp tended noisy
    · exact tends_sendUdp tended noisy
  · intro other
    have event : s.registered → s.writing := by
      intro there
      by_cases connecting : s.type = .connecting
      · exact tended.connecting connecting
      · have connected : s.type = .connected := by
          cases type : s.type with
          | connected => rfl
          | invalid => exact absurd type valid
          | reserve =>
            have away := tended.away (by rw [type]; rfl)
            rw [there] at away
            cases away
          | plisten => exact absurd type second.1
          | listen => exact absurd type second.2
          | connecting => exact absurd type connecting
          | halfclose => exact absurd type open'
          | paccept => exact absurd type started
          | bind => exact absurd type (unbound same)
        exact tended.watched there fun empty => other ⟨empty, connected⟩
    exact (sendQueued_appended s request).mono fun _ appended =>
      appended.tended tended noisy event

end

end Skynet.SocketSlot
