import Skynet.Socket.Queue

/-! The order of the bytes on a TCP socket in a run of sends, write events and closings. -/
namespace Skynet.SocketServer
open Base List

/-- What holds of the socket once these requests were made. A closed socket has no buffers
left to track. -/
structure Good (requests : List (Priority × List UInt8)) (s : Socket) : Prop where
  fault : s.fault = none
  type : s.type ≠ .reserve
  recorded : s.sent.map (fun r => (r.priority, r.buffer)) = requests
  serial : s.sent.map (·.serial) = range s.sent.length
  accepted : s.accepted.Sublist s.sent
  complete : refuses s.type = false → s.accepted = s.sent
  low : ∀ b ∈ s.low, b.ptr = 0
  priority : ∀ r ∈ s.low.map (·.request), r.priority = .low
  order : (∃ order, Tracks (s.high ++ s.low) s.out s.accepted order) ∨
    s.type = .invalid ∧ InOrder s.out s.accepted

variable {requests : List (Priority × List UInt8)} {s : Socket}

theorem Good.distinct (good : Good requests s) : s.sent.Nodup := by
  have serials : (s.sent.map (·.serial)).Nodup := good.serial ▸ nodup_range
  exact serials.of_map _

theorem Good.inOrder (good : Good requests s) : InOrder s.out s.accepted := by
  rcases good.order with ⟨order, tracks⟩ | ⟨-, known⟩
  · exact tracks.inOrder (good.distinct.sublist good.accepted)
  · exact known

theorem tracks_empty (out : List UInt8) {sent order : List RequestSend}
    (known : out = bytes order) (all : ∀ p, sent.filter (fun r => r.priority = p) =
      order.filter (fun r => r.priority = p)) : Tracks [] out sent order :=
  ⟨nofun, nofun, by simpa [owed] using known, nofun, by simpa [waiting] using all⟩

theorem good_new {type : SocketType} (opened : type ≠ .reserve) : Good [] (Socket.new type) :=
  ⟨rfl, opened, rfl, rfl, List.Sublist.refl _, fun _ => rfl, nofun, nofun,
    .inl ⟨[], tracks_empty [] rfl fun _ => rfl⟩⟩

section Functions
variable {requests : List (Priority × List UInt8)} {s : Socket} (good : Good requests s)
  {high low : List WriteBuffer} {out : List UInt8}
include good

theorem Good.update {order : List RequestSend} (wbSize : Int) (polled : Bool)
    (fresh : ∀ b ∈ low, b.ptr = 0) (left : low.map (·.request) <:+ s.low.map (·.request))
    (tracks : Tracks (high ++ low) out s.accepted order) :
    Good requests
      { s with high := high, low := low, out := out, wbSize := wbSize, polled := polled } :=
  ⟨good.fault, good.type, good.recorded, good.serial, good.accepted, good.complete, fresh,
    fun r member => good.priority r (left.subset member), .inl ⟨order, tracks⟩⟩

theorem Good.close (wbSize : Int) (polled : Bool) (opened : s.type ≠ .invalid)
    (known : InOrder out s.accepted) :
    Good requests (forceClose
      { s with high := high, low := low, out := out, wbSize := wbSize, polled := polled }) := by
  simp only [forceClose, opened, good.type, if_false]
  exact ⟨good.fault, nofun, good.recorded, good.serial, good.accepted, nofun, nofun, nofun,
    .inr ⟨rfl, known⟩⟩

theorem good_forceClose : Good requests (forceClose s) := by
  by_cases closed : s.type = .invalid
  · simpa only [forceClose, closed, if_true] using good
  · exact good.close s.wbSize s.polled closed good.inOrder

theorem Good.tracks (opened : s.type ≠ .invalid) :
    ∃ order, Tracks (s.high ++ s.low) s.out s.accepted order := by
  rcases good.order with known | ⟨invalid, -⟩
  · exact known
  · exact absurd invalid opened

theorem not_uncomplete : listUncomplete s.low = false := by
  cases known : s.low with
  | nil => rfl
  | cons b low => simp [listUncomplete, good.low b (by simp [known])]

theorem Good.nodup : s.accepted.Nodup := good.distinct.sublist good.accepted

/- The high list is empty: a low buffer that is begun is raised, and otherwise all of them
are as they were sent. -/
theorem good_sendLow (script : List WriteResult) (opened : s.type ≠ .invalid)
    (drained : s.high = []) : Good requests (sendLow s script) := by
  obtain ⟨order, tracks⟩ := good.tracks opened
  rw [drained, nil_append, ← append_nil s.low] at tracks
  obtain ⟨order', sent⟩ := tracks.send script
  rw [append_nil] at sent
  have left := sendListTcp_suffix script s.low
  unfold sendLow
  simp only [Socket.wrote, drained]
  split
  · exact good.close _ _ opened (sent.inOrder good.nodup)
  cases known : (sendListTcp script s.low).list with
  | nil => exact good.update _ _ nofun nil_suffix (known ▸ sent)
  | cons tmp low =>
    rw [known] at sent left
    by_cases zero : tmp.ptr = 0
    · have fresh : ∀ b ∈ tmp :: low, b.ptr = 0 := by
        intro b member
        rcases mem_cons.mp member with rfl | later
        · exact zero
        · exact sent.fresh b later
      simpa [listUncomplete, zero] using good.update _ _ fresh left sent
    · simpa [listUncomplete, zero, raiseUncomplete] using
        good.update _ _ sent.fresh ((suffix_cons ..).trans left) sent

theorem good_checkClose (opened : s.type ≠ .invalid) : Good requests (checkClose s) := by
  obtain ⟨order, tracks⟩ := good.tracks opened
  unfold checkClose
  split
  · exact good.close _ _ opened good.inOrder
  · exact good.update _ _ good.low (suffix_refl _) tracks

theorem good_sendBuffer (script : List WriteResult) (opened : s.type ≠ .invalid) :
    Good requests (sendBuffer s script) := by
  obtain ⟨order, tracks⟩ := good.tracks opened
  obtain ⟨order', sent⟩ := tracks.send script
  have first := good.update (s.wbSize - (sendListTcp script s.high).written.length) s.polled
    good.low (suffix_refl _) sent
  unfold sendBuffer
  rw [not_uncomplete good]
  simp only [Bool.false_eq_true, if_false]
  split
  · exact good_forceClose first
  split
  next drained =>
    split
    · exact good_checkClose first opened
    · exact good_sendLow first _ opened drained
  next => exact first

theorem good_closeSocket (shutdown : Bool) (script : List WriteResult) :
    Good requests (closeSocket s shutdown script) := by
  unfold closeSocket
  split
  · exact good
  next opened =>
    have sent : Good requests (if sendBufferEmpty s then s else sendBuffer s script) := by
      split
      · exact good
      · exact good_sendBuffer good script opened
    revert sent
    generalize (if sendBufferEmpty s then s else sendBuffer s script) = s'
    intro sent
    dsimp only
    split
    · exact sent
    split
    · exact good_forceClose sent
    · next open' _ =>
      exact ⟨sent.fault, nofun, sent.recorded, sent.serial, sent.accepted, nofun, sent.low,
        sent.priority,
        .inl (sent.tracks fun closed => open' (.inr closed))⟩

theorem good_reportConnect (error : Bool) (connecting : s.type = .connecting) :
    Good requests (reportConnect s error) := by
  unfold reportConnect
  split
  · exact good_forceClose good
  · have opened : s.type ≠ .invalid := by simp [connecting]
    exact ⟨good.fault, nofun, good.recorded, good.serial, good.accepted,
      fun _ => good.complete (by simp [connecting, refuses]), good.low, good.priority,
      .inl (good.tracks opened)⟩

end Functions

section Send
variable {requests : List (Priority × List UInt8)} {s : Socket} (good : Good requests s)
  {request : RequestSend} (next : request.serial = s.sent.length)
include good

theorem recorded_append :
    (s.sent ++ [request]).map (fun r => (r.priority, r.buffer)) =
      requests ++ [(request.priority, request.buffer)] := by
  rw [map_append, good.recorded]
  rfl

include next

theorem serials_append :
    (s.sent ++ [request]).map (·.serial) = range (s.sent ++ [request]).length := by
  rw [map_append, good.serial, length_append, length_singleton, range_succ]
  exact congrArg (range s.sent.length ++ [·]) next

theorem good_refused (refused : refuses s.type = true) :
    Good (requests ++ [(request.priority, request.buffer)])
      { s with sent := s.sent ++ [request] } :=
  ⟨good.fault, good.type, recorded_append good, serials_append good next,
    good.accepted.trans (sublist_append_left ..), fun taken => by simp [refused] at taken,
    good.low, good.priority, good.order⟩

variable (taken : refuses s.type = false) {order : List RequestSend}
include taken

theorem Good.accept {high low : List WriteBuffer} {out : List UInt8} (wbSize : Int) (polled : Bool)
    (fresh : ∀ b ∈ low, b.ptr = 0) (kept : ∀ r ∈ low.map (·.request), r.priority = .low)
    (tracks : Tracks (high ++ low) out (s.accepted ++ [request]) order) :
    Good (requests ++ [(request.priority, request.buffer)]) { s with
      sent := s.sent ++ [request], accepted := s.accepted ++ [request], high := high, low := low,
      out := out, wbSize := wbSize, polled := polled } :=
  ⟨good.fault, good.type, recorded_append good, serials_append good next,
    good.accepted.append (List.Sublist.refl _),
    fun _ => congrArg (· ++ [request]) (good.complete taken), fresh, kept, .inl ⟨order, tracks⟩⟩

theorem good_sendDirect (n : Nat) (bound : n ≤ request.buffer.length) (high : s.high = [])
    (low : s.low = []) (tracks : Tracks [] s.out s.accepted order) :
    Good (requests ++ [(request.priority, request.buffer)]) (sendDirect
      { s with sent := s.sent ++ [request], accepted := s.accepted ++ [request] } request n) := by
  have queued : Tracks [writeBuffer request 0] s.out (s.accepted ++ [request]) order :=
    tracks.append request
  unfold sendDirect
  simp only [appendSendbuffer, high, low]
  split
  next whole =>
    have finished := queued.finish
    exact good.accept next taken _ _ nofun nofun
      (by simpa [unsent, writeBuffer, whole] using finished)
  next cut =>
    rcases Nat.eq_zero_or_pos n with rfl | positive
    · exact good.accept next taken _ _ nofun nofun (by simpa using queued)
    · have advanced := queued.advance positive
        (show n < (writeBuffer request 0).sz by simp only [writeBuffer]; omega)
      exact good.accept next taken _ _ nofun nofun (by simpa [unsent, writeBuffer] using advanced)

theorem good_sendSocket (answer : WriteResult) :
    Good (requests ++ [(request.priority, request.buffer)])
      (sendSocket { s with sent := s.sent ++ [request] } request answer) := by
  have opened : s.type ≠ .invalid := fun closed => by simp [closed, refuses] at taken
  obtain ⟨order, tracks⟩ := good.tracks opened
  unfold sendSocket
  simp only [taken, Bool.false_eq_true, if_false]
  split
  next direct =>
    obtain ⟨high, low⟩ : s.high = [] ∧ s.low = [] := by simpa [sendBufferEmpty] using direct.1
    rw [high, low] at tracks
    cases answer with
    | wrote n => exact good_sendDirect good next taken _ (Nat.min_le_right ..) high low tracks
    | eintr | eagain => exact good_sendDirect good next taken 0 (Nat.zero_le _) high low tracks
    | failed =>
      have queued : Tracks ([writeBuffer request 0] ++ []) s.out (s.accepted ++ [request]) order :=
        tracks.append request
      have closed := good_forceClose
        (good.accept next taken s.wbSize s.polled (by nofun) (by nofun) queued)
      simpa only [forceClose, opened, good.type, if_false] using closed
  next =>
    split
    next known =>
      have queued := tracks.append request
      rw [append_assoc] at queued
      refine good.accept next taken _ _ ?_ ?_ queued
      · intro b member
        rcases mem_append.mp member with old | new
        · exact good.low b old
        · rw [mem_singleton.mp new]
          rfl
      · intro r member
        rw [map_append] at member
        rcases mem_append.mp member with old | new
        · exact good.priority r old
        · rw [mem_singleton.mp new]
          exact known
    next known =>
      have other : ∀ b ∈ s.low, b.request.priority ≠ request.priority := by
        intro b member
        rw [good.priority _ (mem_map_of_mem member), known]
        nofun
      have queued := tracks.insert request good.low other
      rw [append_cons] at queued
      exact good.accept next taken _ _ good.low good.priority queued

end Send

def Event.request : Event → List (Priority × List UInt8)
  | .send priority buffer _ => [(priority, buffer)]
  | .writable .. | .close .. | .hangup => []

theorem good_step (good : Good requests s) (e : Event) :
    Good (requests ++ e.request) (s.step e) := by
  unfold Socket.step
  rw [if_neg (not_not.mpr good.fault)]
  cases e with
  | send priority buffer answer =>
    have next : (RequestSend.mk s.sent.length priority buffer).serial = s.sent.length := rfl
    cases taken : refuses s.type with
    | true =>
      simp only [sendSocket, taken, if_true]
      exact good_refused good next taken
    | false => exact good_sendSocket good next taken answer
  | writable script error =>
    rw [Event.request, append_nil]
    dsimp only
    split
    next connecting => exact good_reportConnect good error connecting
    next => exact good
    next => exact good
    next _ _ opened => exact good_sendBuffer good script opened
  | close shutdown script =>
    rw [Event.request, append_nil]
    exact good_closeSocket good shutdown script
  | hangup =>
    rw [Event.request, append_nil]
    exact good_forceClose good

theorem good_run (good : Good requests s) (events : List Event) :
    Good (requests ++ events.flatMap Event.request) (events.foldl Socket.step s) := by
  induction events generalizing requests s with
  | nil => simpa using good
  | cons e events ih => simpa using ih (good_step good e)

/-- For every sequence of sends, write events and closings of a socket and every answer of
each write: no assertion fails, the bytes on the descriptor are those of whole requests but
for the last, each is sent at most once and those of one priority in the order they were
sent. As long as the socket takes requests none is left out. -/
theorem tcp_write_order (type : SocketType) (opened : type ≠ .reserve) (events : List Event) :
    let s := events.foldl Socket.step (Socket.new type)
    s.fault = none ∧
      s.sent.map (fun r => (r.priority, r.buffer)) = events.flatMap Event.request ∧
      s.sent.Nodup ∧ s.accepted.Sublist s.sent ∧
      (refuses s.type = false → s.accepted = s.sent) ∧ InOrder s.out s.accepted := by
  have good := good_run (good_new opened) events
  exact ⟨good.fault, good.recorded, good.distinct, good.accepted, good.complete, good.inOrder⟩

theorem tcp_write_order_raised :
    SocketType.connected ≠ .reserve ∧
      (let s := [Event.send .low [1, 2, 3] (.wrote 2), .send .high [4] .eagain,
          .send .low [5, 6] .eagain, .writable [.wrote 1, .wrote 1, .wrote 1] false].foldl
          Socket.step (Socket.new .connected)
      s.out = [1, 2, 3, 4, 5] ∧ InOrder s.out s.accepted) :=
  ⟨nofun, by decide, (tcp_write_order .connected nofun _).2.2.2.2.2⟩

end Skynet.SocketServer
