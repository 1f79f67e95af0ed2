import Skynet.Harbor.Link

/-! Both ends of a link: what remote_send_handle writes for another harbor, and what
push_socket_data makes of it there. -/
namespace Skynet.HarborService
open Base List

structure Send where
  source : UInt32
  destination : UInt32
  type : UInt32
  session : UInt32
  msg : Message

def post (h : Harbor) (d : Send) : Harbor :=
  (remoteSendHandle h d.source d.destination d.type d.session d.msg).1

def Send.isTo (peer : Nat) (d : Send) : Bool := harborOf d.destination = peer

def Send.cookie (d : Send) : HarborMsg :=
  cookieOf d.source d.destination d.type d.session d.msg

/-- The send of the same message at the harbor `id`. -/
def Send.delivered (id : Nat) (d : Send) : Effect :=
  .send d.source (d.destination &&& handleMask ||| UInt32.ofNat id <<< handleRemoteShift)
    (d.type ||| ptypeTagDontcopy) d.session (some d.msg.bytes)

variable {d : Send} {h : Harbor} {peer : Nat} {m : HarborMsg}

theorem forwarded_cookie (id : Nat) (small : d.type < 256) :
    forwarded id d.cookie = d.delivered id := by
  rw [forwarded, Send.delivered, Send.cookie, cookieOf]
  rw [destination_handle, destination_type small]

/-- A link past its handshake. -/
structure Ready (h : Harbor) (peer : Nat) : Prop where
  other : peer ≠ h.id
  fd : (h.s peer).fd ≠ 0
  status : (h.s peer).status ≠ .handshake

theorem post_elsewhere (elsewhere : harborOf d.destination ≠ peer) :
    written peer (post h d).log = written peer h.log ∧ (post h d).s peer = h.s peer ∧
      (post h d).id = h.id := by
  have quiet : ∀ e, written peer [e] = [] → written peer (h.emit e).log = written peer h.log := by
    intro e none
    rw [emit_log, written_append, none, append_nil]
  unfold post remoteSendHandle
  dsimp only
  split
  · exact ⟨quiet _ rfl, rfl, rfl⟩
  · split
    · split
      · exact ⟨quiet _ rfl, rfl, rfl⟩
      · exact ⟨rfl, setSlave_other h _ _ (Ne.symm elsewhere), rfl⟩
    · unfold sendRemote
      split
      · exact ⟨rfl, rfl, rfl⟩
      · refine ⟨quiet _ ?_, rfl, rfl⟩
        rw [written, filterMap_cons]
        dsimp only
        rw [if_neg elsewhere]
        rfl

theorem post_ready (ready : Ready h peer) (here : harborOf d.destination = peer)
    (accepted : Accepted d.cookie) :
    post h d = h.emit (.remote peer (h.s peer).fd d.cookie) := by
  have remote : harborOf d.destination ≠ h.id := here.trans_ne ready.other
  have open' : ¬ ((h.s (harborOf d.destination)).fd = 0 ∨
      (h.s (harborOf d.destination)).status = .handshake) := by
    rw [here, not_or]
    exact ⟨ready.fd, ready.status⟩
  have sized : ¬ d.cookie.buffer.bytes.length + headerCookieLength > uint32Max :=
    Nat.not_lt_of_le accepted
  unfold post remoteSendHandle
  rw [if_neg remote]
  rw [if_neg open', here]
  exact if_neg sized

theorem post_written (ready : Ready h peer) (accepted : Accepted d.cookie) : Ready (post h d) peer ∧
      written peer (post h d).log =
        written peer h.log ++ ([d].filter (Send.isTo peer)).map Send.cookie := by
  by_cases here : harborOf d.destination = peer
  · have sent : Send.isTo peer d = true := decide_eq_true here
    rw [post_ready ready here accepted, filter_singleton, sent]
    refine ⟨⟨ready.other, ready.fd, ready.status⟩, ?_⟩
    rw [emit_log, written_append]
    congr 1
    rw [written, filterMap_cons]
    dsimp only
    rw [if_pos rfl]
    rfl
  · have away : Send.isTo peer d = false := decide_eq_false here
    obtain ⟨same, slave, number⟩ := post_elsewhere (h := h) here
    rw [filter_singleton, away]
    refine ⟨⟨?_, ?_, ?_⟩, ?_⟩
    · rw [number]
      exact ready.other
    · rw [slave]
      exact ready.fd
    · rw [slave]
      exact ready.status
    · rw [same]
      exact (append_nil _).symm

theorem posts_written {sends : List Send} (ready : Ready h peer)
    (accepted : ∀ d ∈ sends, Accepted d.cookie) :
    written peer (sends.foldl post h).log =
      written peer h.log ++ (sends.filter (Send.isTo peer)).map Send.cookie := by
  induction sends generalizing h with
  | nil => exact (append_nil _).symm
  | cons d sends ih =>
    obtain ⟨ready', first⟩ := post_written ready (accepted d (mem_cons_self ..))
    have rest := ih ready' fun d member => accepted d (mem_cons_of_mem _ member)
    rw [foldl_cons, rest, first, append_assoc, ← map_append, ← filter_append]
    rfl

/-- A receiver between two messages. -/
structure Boundary (h : Harbor) (fd : Int) (id : Nat) : Prop where
  found : slaveOf h fd = some id
  status : (h.s id).status = .header
  read : (h.s id).read = 0

theorem Small.accepted (small : Small m) : Accepted m := by
  unfold Small at small
  unfold Accepted uint32Max
  omega

/- The messages that go to the peer, and only those, arrive there in order, however the bytes
that were written are cut into chunks. -/
theorem harbor_link_framing {g : Harbor} {peer : Nat} {sends : List Send} (ready : Ready g peer)
    (types : ∀ d ∈ sends, d.type < 256)
    (sizes : ∀ d ∈ sends, d.msg.bytes.length + headerCookieLength < 2 ^ 24) :
    ∃ ms, written peer (sends.foldl post g).log = written peer g.log ++ ms ∧
      ∀ (alive : Nat → UInt32 → Bool) (heap : Nat → UInt8) (h : Harbor) (fd : Int) (id : Nat)
        (chunks : List (List UInt8)), Boundary h fd id → chunks.flatten = stream ms →
        payloads (chunks.foldl (pushSocketData alive heap fd) h).log =
          payloads h.log ++ (sends.filter (Send.isTo peer)).map (Send.delivered h.id) := by
  have small : ∀ m ∈ (sends.filter (Send.isTo peer)).map Send.cookie, Small m := by
    intro m member
    obtain ⟨d, filtered, rfl⟩ := mem_map.mp member
    exact sizes d (mem_filter.mp filtered).1
  refine ⟨_, posts_written ready fun d member => Small.accepted (sizes d member), ?_⟩
  intro alive heap h fd id chunks boundary whole
  have taken := chunks_taken alive heap (fun m member => (small m member).accepted) boundary.found
    (pending_boundary boundary.status boundary.read) whole
  rcases taken with progress | closing
  · rw [progress.forwards, map_map]
    congr 1
    apply map_congr_left
    intro d filtered
    exact forwarded_cookie h.id (types d (mem_filter.mp filtered).1)
  · obtain ⟨m, member, large⟩ := closing.large
    exact absurd (small m member) large

/- A message for harbor 2 and one for harbor 3; the first arrives in two chunks. -/
def linked : Harbor :=
  (harborCreate 1 0x01000002).setSlave 2 ⟨7, none, .header, 0, 0, fun _ => 0, fun _ => 0⟩

def mixedSends : List Send :=
  [⟨0x01000005, 0x02000009, 10, 4, ⟨0, [1, 2, 3]⟩⟩, ⟨0x01000005, 0x03000009, 10, 5, ⟨1, []⟩⟩]

def peerOf (h : Harbor) : Harbor := ⟨2, 0x02000002, h.map, h.s, []⟩

theorem harbor_link_framing_mixed :
    payloads ([[0, 0, 0, 15, 1, 2], [3, 1, 0, 0, 5, 10, 0, 0, 9, 0, 0, 0, 4]].foldl
        (pushSocketData (fun _ _ => false) (fun _ => 0) 7) (peerOf linked)).log =
      [.send 0x01000005 0x02000009 0x1000a 4 (some [1, 2, 3])] := by
  have ready : Ready linked 2 := ⟨by decide, by decide, by decide⟩
  obtain ⟨ms, sent, arrives⟩ :=
    @harbor_link_framing linked 2 mixedSends ready (by decide) (by decide)
  have bytes : ms = [⟨⟨0x01000005, 0x0a000009, 4⟩, ⟨0, [1, 2, 3]⟩⟩] := by
    have shown : written 2 (mixedSends.foldl post linked).log =
        [⟨⟨0x01000005, 0x0a000009, 4⟩, ⟨0, [1, 2, 3]⟩⟩] := by decide
    exact (sent.symm.trans shown)
  refine arrives (fun _ _ => false) (fun _ => 0) (peerOf linked) 7 2 _ ⟨?_, rfl, rfl⟩ ?_
  · decide
  · rw [bytes]
    decide

/- A longer message is written as well, but the other side then closes the link. -/
theorem harbor_size_agreement (alive : Nat → UInt32 → Bool) (heap : Nat → UInt8) {h : Harbor}
    {fd : Int} {id : Nat} {ms : List HarborMsg} {chunks : List (List UInt8)}
    (accepted : ∀ m ∈ ms, Accepted m) (boundary : Boundary h fd id)
    (whole : chunks.flatten = stream ms) :
    (payloads (chunks.foldl (pushSocketData alive heap fd) h).log =
        payloads h.log ++ ms.map (forwarded h.id) ∧
      Boundary (chunks.foldl (pushSocketData alive heap fd) h) fd id) ↔
    ∀ m ∈ ms, m.buffer.bytes.length + headerCookieLength < 2 ^ 24 := by
  have taken := chunks_taken alive heap accepted boundary.found
    (pending_boundary boundary.status boundary.read) whole
  constructor
  · rintro ⟨-, after⟩
    rcases taken with progress | closing
    · exact progress.small
    · have open' := closing.down.symm.trans after.status
      cases open'
  · intro small
    rcases taken with progress | closing
    · refine ⟨progress.forwards, (slaveOf_congr progress.fds fd).trans boundary.found, ?_, ?_⟩
      · cases progress.pending with
        | header _ status read short held => exact status
      · cases progress.pending with
        | header _ status read short held => exact read
    · obtain ⟨m, member, large⟩ := closing.large
      exact absurd (small m member) large

theorem harbor_size_agreement_short :
    payloads ([[0, 0, 0, 12], [1, 0, 0, 5, 10, 0, 0, 9, 0, 0, 0, 4]].foldl
        (pushSocketData (fun _ _ => true) (fun _ => 0) 7) (peerOf linked)).log =
      [.send 0x01000005 0x02000009 0x1000a 4 (some [])] := by
  have boundary : Boundary (peerOf linked) 7 2 := ⟨by decide, rfl, rfl⟩
  have whole : [[0, 0, 0, 12], [1, 0, 0, 5, 10, 0, 0, 9, 0, 0, 0, 4]].flatten =
      stream [⟨⟨0x01000005, 0x0a000009, 4⟩, ⟨0, []⟩⟩] := by decide
  have agreement := harbor_size_agreement (fun _ _ => true) (fun _ => 0) (by decide) boundary whole
  exact (agreement.mpr (by decide)).1

theorem large_closing (alive : Nat → UInt32 → Bool) (heap : Nat → UInt8) {fd : Int} {id : Nat}
    (accepted : Accepted m) (large : ¬ Small m) (boundary : Boundary h fd id) :
    ((pushSocketData alive heap fd h (remoteBytes m)).s id).status = .down := by
  have all : ∀ m' ∈ [m], Accepted m' := by
    intro m' member
    rwa [mem_singleton.mp member]
  have whole : [] ++ [remoteBytes m].flatten = stream [m] := rfl
  rcases chunks_taken alive heap all boundary.found
    (pending_boundary boundary.status boundary.read) whole with progress | closing
  · exact absurd (progress.small m (mem_singleton_self m)) large
  · exact closing.down

theorem large_closing_example {bytes : List UInt8} (length : bytes.length = 16777204) :
    ∃ m : HarborMsg, Accepted m ∧ m.buffer.bytes.length = 16777204 ∧
      ((pushSocketData (fun _ _ => true) (fun _ => 0) 7 (peerOf linked) (remoteBytes m)).s 2).status
        = .down := by
  have accepted : Accepted ⟨⟨0x01000005, 0x0a000009, 4⟩, ⟨0, bytes⟩⟩ := by
    change bytes.length + 12 ≤ 0xffffffff
    omega
  have large : ¬ Small ⟨⟨0x01000005, 0x0a000009, 4⟩, ⟨0, bytes⟩⟩ := by
    change ¬ bytes.length + 12 < 2 ^ 24
    omega
  exact ⟨_, accepted, length, large_closing _ _ accepted large ⟨by decide, rfl, rfl⟩⟩

/- The shortest message that is too long. -/
theorem harbor_size_disagreement :
    ∃ m : HarborMsg, Accepted m ∧ m.buffer.bytes.length = 16777204 ∧
      ((pushSocketData (fun _ _ => true) (fun _ => 0) 7 (peerOf linked) (remoteBytes m)).s 2).status
        = .down :=
  large_closing_example (length_replicate (a := (0 : UInt8)))

end Skynet.HarborService
