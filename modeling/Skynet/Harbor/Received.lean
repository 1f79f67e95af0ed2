import Skynet.Base.Table
import Skynet.Harbor.Link

/-! The buffers of socket messages, and the messages that a slave sends. A buffer is freed once
if its descriptor belongs to a slave, and twice if it does not. A message that is announced with
less than its footer is forwarded all the same, with memory from before it. -/
namespace Skynet.HarborService
open Base List Function

/-- The lengths that a stream of messages announces, up to one that is too long. -/
def announced : List UInt8 → List Nat
  | b₀ :: b₁ :: b₂ :: b₃ :: rest =>
    if b₀ = 0 then
      let length := b₁.toNat <<< 16 ||| b₂.toNat <<< 8 ||| b₃.toNat
      length :: announced (rest.drop length)
    else []
  | _ => []
termination_by stream => stream.length
decreasing_by
  simp only [length_drop, length_cons]
  omega

def Long (stream : List UInt8) : Prop := ∀ n ∈ announced stream, headerCookieLength ≤ n

/-- What a slave has read goes on in the stream with messages that are long enough. -/
def Slave.Sound (s : Slave) (later : List UInt8) : Prop :=
  match s.status with
  | .handshake => s.read = 0 ∧ Long (later.drop 1)
  | .header => s.read < 4 ∧ Long (window s.size 0 s.read ++ later)
  | .content => s.read < s.length ∧ headerCookieLength ≤ s.length ∧
    Long (later.drop (s.length - s.read))
  | .wait | .down => True

section Receive
variable {alive : Nat → UInt32 → Bool} {heap : Nat → UInt8} {h : Harbor} {id : Nat} {e : Effect}
  {buffer later : List UInt8}

def times (e : Effect) (h : Harbor) : Nat := h.log.count e

/- The effects that are counted here; the others come from the sends and closes of a link. -/
def Noted (e : Effect) : Prop := e = .freed ∨ e = .fault

theorem times_emit {e' : Effect} (other : e' ≠ e) (h : Harbor) :
    times e (h.emit e') = times e h := by
  simp [times, count_append, other]

theorem times_closeHarbor (noted : Noted e) (h : Harbor) (id : Nat) :
    times e (closeHarbor h id) = times e h := by
  unfold closeHarbor
  dsimp only
  split
  · exact times_emit (by rcases noted with rfl | rfl <;> nofun) _
  · rfl

theorem times_dispatchQueue (noted : Noted e) (linked : e = .fault → (h.s id).fd ≠ 0) :
    times e (dispatchQueue h id) = times e h := by
  by_cases fd : (h.s id).fd = 0
  · unfold dispatchQueue
    rw [if_pos fd]
    exact times_emit (fun same => linked same.symm fd) h
  · have absent : e ∉ ((queued h id).filter (Accepted ·)).map (.remote id (h.s id).fd) := by
      intro member
      obtain ⟨m, -, rfl⟩ := mem_map.mp member
      rcases noted with never | never <;> cases never
    rw [dispatchQueue_eq fd]
    simp [times, count_append, count_eq_zero.mpr absent]

theorem times_forward (noted : Noted e) (msg : Nat → UInt8) {sz : Nat}
    (whole : e = .fault → headerCookieLength ≤ sz) :
    times e (forwardLocalMessage alive h msg sz) = times e h := by
  unfold forwardLocalMessage
  dsimp only
  split_ifs with short
  · exact times_emit (fun same => absurd (whole same.symm) (Nat.not_le.mpr short)) h
  all_goals rcases noted with rfl | rfl <;> simp [times, Harbor.emit]

/-- A turn of the loop neither frees nor reads before a message, if the stream is as it should
be, and then what is left of the stream is so too. -/
structure Turned (e : Effect) (h : Harbor) (id : Nat) (buffer later : List UInt8)
    (result : Harbor × Option (List UInt8)) : Prop where
  times : times e result.1 = times e h
  fd : ∀ i, (result.1.s i).fd = (h.s i).fd
  left : e = .fault → match result.2 with
    | none => (result.1.s id).Sound later
    | some rest => rest.length < buffer.length ∧ (result.1.s id).Sound (rest ++ later)

theorem setSlave_fd {s : Slave} (same : s.fd = (h.s id).fd) (i : Nat) :
    ((h.setSlave id s).s i).fd = (h.s i).fd :=
  update_same Slave.fd same i

theorem Turned.after {h' : Harbor} {rest : List UInt8} {result : Harbor × Option (List UInt8)}
    (turned : Turned e h' id rest later result) (same : HarborService.times e h' =
      HarborService.times e h) (linked : ∀ i, (h'.s i).fd = (h.s i).fd)
    (shorter : rest.length ≤ buffer.length) : Turned e h id buffer later result := by
  refine ⟨turned.times.trans same, fun i => (turned.fd i).trans (linked i), fun fault => ?_⟩
  have left := turned.left fault
  split at left
  · exact left
  · exact ⟨lt_of_lt_of_le left.1 shorter, left.2⟩

theorem closeHarbor_turned (noted : Noted e) :
    Turned e h id buffer later (closeHarbor h id, none) := by
  obtain ⟨fds, down⟩ := closeHarbor_slaves h id
  refine ⟨times_closeHarbor noted h id, fds, fun _ => ?_⟩
  simp only [Slave.Sound, down]

theorem contentCase_turned (noted : Noted e) (status : (h.s id).status = .content)
    (sound : e = .fault → (h.s id).Sound (buffer ++ later)) :
    Turned e h id buffer later (contentCase alive h id buffer) := by
  unfold Slave.Sound at sound
  rw [status] at sound
  unfold contentCase
  dsimp only
  split
  · refine ⟨rfl, setSlave_fd rfl, fun fault => ?_⟩
    obtain ⟨reads, long, rest⟩ := sound fault
    rw [drop_append, drop_eq_nil_of_le (by omega), nil_append] at rest
    simp only [setSlave_here, Slave.Sound, status]
    refine ⟨by omega, long, ?_⟩
    rwa [Nat.sub_add_eq]
  · rename_i enough
    have read : times e (forwardLocalMessage alive h (store (h.s id).recvBuffer (h.s id).read
        (buffer.take ((h.s id).length - (h.s id).read))) (h.s id).length) = times e h :=
      times_forward noted _ fun fault => (sound fault).2.1
    obtain ⟨es, -, forwarded⟩ := forward_eq alive h (store (h.s id).recvBuffer (h.s id).read
      (buffer.take ((h.s id).length - (h.s id).read))) (h.s id).length
    refine ⟨read, ?_, fun fault => ?_⟩
    · rw [forwarded]
      exact setSlave_fd rfl
    obtain ⟨reads, -, rest⟩ := sound fault
    rw [drop_append_of_le_length (Nat.not_lt.mp enough)] at rest
    have header : ∀ more, Long more → Slave.Sound
        { h.s id with length := 0, read := 0, status := .header } more :=
      fun _ long => ⟨Nat.zero_lt_succ 3, long⟩
    simp only [setSlave_here]
    split
    · rename_i stop
      split at stop
      · rename_i all
        rw [← all, drop_length] at rest
        exact header later rest
      · cases stop
    · rename_i stop
      split at stop
      · cases stop
      · cases stop
        refine ⟨?_, header _ rest⟩
        rw [length_drop]
        omega

theorem headerCase_turned (noted : Noted e) (status : (h.s id).status = .header)
    (sound : e = .fault → (h.s id).Sound (buffer ++ later)) :
    Turned e h id buffer later (headerCase alive heap h id buffer) := by
  unfold Slave.Sound at sound
  rw [status] at sound
  unfold headerCase
  dsimp only
  split
  · refine ⟨rfl, setSlave_fd rfl, fun fault => ?_⟩
    obtain ⟨reads, rest⟩ := sound fault
    simp only [setSlave_here, Slave.Sound, status, window_store_append, append_assoc]
    exact ⟨by omega, rest⟩
  · rename_i enough
    generalize whole : store (h.s id).size (h.s id).read
      (buffer.take (4 - (h.s id).read)) = size
    split
    · exact (closeHarbor_turned noted).after rfl (setSlave_fd rfl) le_rfl
    · rename_i first
      rw [setSlave_twice]
      have begun : e = .fault → Slave.Sound { h.s id with
          size := size
          length := (size 1).toNat <<< 16 ||| (size 2).toNat <<< 8 ||| (size 3).toNat
          read := 0, recvBuffer := heap, status := .content }
          (buffer.drop (4 - (h.s id).read) ++ later) := by
        intro fault
        obtain ⟨reads, rest⟩ := sound fault
        have four : (h.s id).read + (buffer.take (4 - (h.s id).read)).length = 4 := by
          rw [length_take_of_le (Nat.not_lt.mp enough)]
          omega
        have bytes := window_store_append (h.s id).size (h.s id).read
          (buffer.take (4 - (h.s id).read))
        rw [four, whole] at bytes
        rw [← take_append_drop (4 - (h.s id).read) buffer, append_assoc,
          ← append_assoc, ← bytes] at rest
        simp only [window, cons_append, nil_append, Long] at rest
        rw [announced, if_pos (not_not.mp first)] at rest
        have long := rest _ mem_cons_self
        exact ⟨Nat.lt_of_lt_of_le (Nat.zero_lt_succ 11) long, long,
          fun n member => rest n (mem_cons_of_mem _ member)⟩
      split
      · rename_i all
        refine ⟨rfl, setSlave_fd rfl, fun fault => ?_⟩
        have after := begun fault
        rw [← all, drop_length] at after
        simpa using after
      · refine (contentCase_turned noted ?_ ?_).after rfl (setSlave_fd rfl) (by simp)
        · rw [setSlave_here]
        · rw [setSlave_here]
          exact begun

theorem dispatchQueue_slave (h : Harbor) (id : Nat) :
    ∃ queue, (dispatchQueue h id).s = Function.update h.s id { h.s id with queue := queue } := by
  by_cases fd : (h.s id).fd = 0
  · refine ⟨(h.s id).queue, ?_⟩
    unfold dispatchQueue
    rw [if_pos fd, update_eq_self]
    rfl
  · exact ⟨_, dispatchQueue_slaves fd⟩

theorem handshakeCase_turned (noted : Noted e) (status : (h.s id).status = .handshake)
    (linked : e = .fault → (h.s id).fd ≠ 0) (number : id ≠ 0)
    (sound : e = .fault → (h.s id).Sound (buffer ++ later)) :
    Turned e h id buffer later (handshakeCase alive heap h id buffer) := by
  unfold Slave.Sound at sound
  rw [status] at sound
  unfold handshakeCase
  split
  · exact closeHarbor_turned noted
  · rename_i same
    obtain ⟨b, rest, rfl⟩ : ∃ b rest, buffer = b :: rest := by
      cases buffer with
      | nil => exact absurd (not_not.mp same).symm number
      | cons b rest => exact ⟨b, rest, rfl⟩
    obtain ⟨queue, slaves⟩ :=
      dispatchQueue_slave (h.setSlave id { h.s id with status := .header }) id
    have sent : times e (dispatchQueue (h.setSlave id { h.s id with status := .header }) id) =
        times e h := times_dispatchQueue noted (by rw [setSlave_here]; exact linked)
    dsimp only
    generalize dispatchQueue (h.setSlave id { h.s id with status := .header }) id = h'
      at slaves sent ⊢
    have slave : h'.s id = { h.s id with status := .header, queue := queue } := by
      rw [slaves, update_self, setSlave_here]
    have fds : ∀ i, (h'.s i).fd = (h.s i).fd := by
      intro i
      rw [slaves]
      exact (update_same Slave.fd (by rfl) i).trans (setSlave_fd (by rfl) i)
    have begun : e = .fault → (h'.s id).Sound (rest ++ later) := by
      intro fault
      obtain ⟨start, long⟩ := sound fault
      rw [slave]
      exact ⟨start ▸ Nat.zero_lt_succ 3, by simpa [start, window] using long⟩
    split
    · rename_i one
      cases length_eq_zero_iff.mp (Nat.succ.inj one)
      exact ⟨sent, fds, fun fault => ⟨by simp, begun fault⟩⟩
    · exact (headerCase_turned noted (by rw [slave]) begun).after sent fds (by simp)

theorem turn_turned (alive : Nat → UInt32 → Bool) (heap : Nat → UInt8) (noted : Noted e)
    (linked : e = .fault → (h.s id).fd ≠ 0) (number : id ≠ 0)
    (sound : e = .fault → (h.s id).Sound (buffer ++ later)) :
    Turned e h id buffer later (turn alive heap h id buffer) := by
  unfold turn
  split
  next status => exact handshakeCase_turned noted status linked number sound
  next status => exact headerCase_turned noted status sound
  next status => exact contentCase_turned noted status sound
  all_goals
    rename_i status
    refine ⟨rfl, fun _ => rfl, fun _ => ?_⟩
    simp only [Slave.Sound, status]

/- Every turn but the last takes bytes, so the loop has read the buffer when it ends. -/
theorem pushLoop_turned (alive : Nat → UInt32 → Bool) (heap : Nat → UInt8) (noted : Noted e)
    (number : id ≠ 0) (rounds : Nat) (enough : e = .fault → buffer.length < rounds)
    (linked : e = .fault → (h.s id).fd ≠ 0)
    (sound : e = .fault → (h.s id).Sound (buffer ++ later)) :
    Turned e h id buffer later (pushLoop alive heap id rounds h buffer, none) := by
  induction rounds generalizing h buffer with
  | zero => exact ⟨rfl, fun _ => rfl, fun fault => absurd (enough fault) (Nat.not_lt_zero _)⟩
  | succ rounds ih =>
    have first := turn_turned alive heap noted linked number sound
    rw [pushLoop]
    split
    · rename_i h' stop
      rwa [stop] at first
    · rename_i h' rest next
      rw [next] at first
      have again := ih
        (fun fault => Nat.lt_of_lt_of_le (first.left fault).1 (Nat.le_of_lt_succ (enough fault)))
        (fun fault => by rw [first.fd]; exact linked fault) fun fault => (first.left fault).2
      exact ⟨again.times.trans first.times, fun i => (again.fd i).trans (first.fd i), again.left⟩

theorem slaveOf_some {fd : Int} (found : slaveOf h fd = some id) : id ≠ 0 ∧ (h.s id).fd = fd := by
  have same := find?_some found
  have member := mem_range'_1.mp (mem_of_find?_eq_some found)
  exact ⟨Nat.ne_of_gt member.1, of_decide_eq_true same⟩

end Receive

/-- For every state of the harbor and every buffer: it is freed exactly once if its descriptor
belongs to a slave, and only then. -/
theorem socket_buffer_freed_once (alive : Nat → UInt32 → Bool) (heap : Nat → UInt8) (h : Harbor)
    (fd : Int) (buffer : List UInt8) :
    times .freed (mainloop alive heap h (.data fd buffer)) = times .freed h + 1 ↔
      slaveOf h fd ≠ none := by
  have last : ∀ h', times .freed (Harbor.emit h' .freed) = times .freed h' + 1 := by
    simp [times, count_append]
  rw [mainloop, last, pushSocketData]
  cases found : slaveOf h fd with
  | none => simp [last]
  | some id =>
    have read : Turned .freed h id buffer [] _ := pushLoop_turned alive heap (.inl rfl)
      (slaveOf_some found).1 (buffer.length + 3) (by simp) (by simp) (by simp)
    simpa using read.times

/-- Data for a descriptor that no slave has. -/
theorem unknown_buffer_freed_twice : ∃ h fd buffer,
    times .freed (mainloop (fun _ _ => true) (fun _ => 0) h (.data fd buffer)) =
      times .freed h + 2 :=
  ⟨harborCreate 1 0x01000001, 9, [1], rfl⟩

/-- The harbor 1 after the slave 2 was accepted on descriptor 7. -/
def acceptedSlave : Harbor := connectCommand (harborCreate 1 0x01000001) true 7 2

end Skynet.HarborService
