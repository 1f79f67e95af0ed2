import Skynet.Harbor.Model

/-! What the functions of the harbor do to a link: to the messages that were written on it and
to those that wait for it. -/
namespace Skynet.HarborService
open Base List Function

/-- The messages of a log that are written to the link of a harbor. -/
def written (id : Nat) (log : List Effect) : List HarborMsg :=
  log.filterMap fun e => match e with
    | .remote id' _ m => if id' = id then some m else none
    | _ => none

def queued (h : Harbor) (id : Nat) : List HarborMsg := (h.s id).queue.elim [] HarborMsgQueue.items

def waiting (h : Harbor) (name : Name) : List HarborMsg :=
  ((h.map name).bind KeyValue.queue).elim [] HarborMsgQueue.items

/-- A message as remote_send_handle writes it. -/
def cookieOf (source destination type session : UInt32) (msg : Message) : HarborMsg :=
  ⟨⟨source, destination &&& handleMask ||| type <<< handleRemoteShift, session⟩, msg⟩

/-- The messages that send_remote writes. -/
def Accepted (m : HarborMsg) : Prop := m.buffer.bytes.length + headerCookieLength ≤ uint32Max

instance (m : HarborMsg) : Decidable (Accepted m) := inferInstanceAs (Decidable (_ ≤ _))

section Written

theorem written_append (id : Nat) (log more : List Effect) :
    written id (log ++ more) = written id log ++ written id more := List.filterMap_append

variable {id : Nat} {h : Harbor}

theorem written_quiet {e : Effect} (quiet : written id [e] = []) (h : Harbor) :
    written id (h.emit e).log = written id h.log := by
  rw [emit_log, written_append, quiet, append_nil]

theorem written_map_nil {i : Nat} {f : HarborMsg → Effect} (none : ∀ m, written i [f m] = [])
    (ms : List HarborMsg) : written i (ms.map f) = [] := by
  induction ms with
  | nil => rfl
  | cons m ms ih =>
    rw [map_cons, ← singleton_append, written_append, none, ih]
    rfl

theorem written_remotes (i id : Nat) (fd : Int) (ms : List HarborMsg) :
    written i (ms.map (.remote id fd)) = if i = id then ms else [] := by
  unfold written
  rw [filterMap_map]
  by_cases here : i = id
  · rw [if_pos here]
    have all : (fun m : HarborMsg => if id = i then some m else none) = some := by
      funext m
      exact if_pos here.symm
    exact (congrArg (List.filterMap · ms) all).trans filterMap_some
  · rw [if_neg here]
    apply filterMap_eq_nil_iff.mpr
    intro m _
    exact if_neg (Ne.symm here)

theorem sendRemote_eq (id : Nat) (fd : Int) (h : Harbor) (m : HarborMsg) :
    sendRemote id fd h m =
      { h with log := h.log ++ ([m].filter (Accepted ·)).map (.remote id fd) } := by
  unfold sendRemote
  by_cases accepted : Accepted m
  · rw [if_neg (Nat.not_lt_of_le accepted), filter_singleton, decide_eq_true accepted]
    rfl
  · rw [if_pos (Nat.lt_of_not_le accepted), filter_singleton, decide_eq_false accepted]
    exact congrArg (fun log => { h with log := log }) (append_nil h.log).symm

theorem sends_eq (id : Nat) (fd : Int) (f : HarborMsg → HarborMsg) (h : Harbor)
    (ms : List HarborMsg) :
    ms.foldl (fun h m => sendRemote id fd h (f m)) h =
      { h with log := h.log ++ ((ms.map f).filter (Accepted ·)).map (.remote id fd) } := by
  induction ms generalizing h with
  | nil => exact congrArg (fun log => { h with log := log }) (append_nil h.log).symm
  | cons m ms ih =>
    rw [foldl_cons, ih, sendRemote_eq]
    rw [append_assoc, ← map_append, ← filter_append]
    rfl

section
variable (fd : (h.s id).fd ≠ 0)
include fd

theorem dispatchQueue_eq : dispatchQueue h id = { h with
      s := update h.s id { h.s id with queue := none }
      log := h.log ++ ((queued h id).filter (Accepted ·)).map (.remote id (h.s id).fd) } := by
  unfold dispatchQueue queued
  rw [if_neg fd]
  cases queue : (h.s id).queue with
  | none =>
    have same : ({ h.s id with queue := none } : Slave) = h.s id := by rw [← queue]
    rw [same, update_eq_self]
    exact congrArg (fun log => { h with log := log }) (append_nil h.log).symm
  | some q =>
    have sent := sends_eq id (h.s id).fd (fun m => m) h q.items
    rw [map_id'] at sent
    dsimp only [Option.elim]
    rw [drain_eq]
    exact congrArg (Harbor.setSlave · id { h.s id with queue := none }) sent

theorem dispatchQueue_slaves :
    (dispatchQueue h id).s = update h.s id { h.s id with queue := none } := by
  rw [dispatchQueue_eq fd]

theorem dispatchQueue_map : (dispatchQueue h id).map = h.map := by
  rw [dispatchQueue_eq fd]

theorem dispatchQueue_written (i : Nat) : written i (dispatchQueue h id).log =
      written i h.log ++ if i = id then (queued h id).filter (Accepted ·) else [] := by
  rw [dispatchQueue_eq fd, written_append, written_remotes]

end

end Written

def Settled (status : Status) : Prop := status ≠ .wait ∧ status ≠ .handshake

theorem dispatchQueue_settled (h : Harbor) {id : Nat} {s : Slave} (fd : s.fd ≠ 0)
    (settled : Settled s.status) :
    Settled ((dispatchQueue (h.setSlave id s) id).s id).status := by
  rwa [dispatchQueue_slaves (by rwa [setSlave_here]), update_self, setSlave_here]

section Receive

/-- A link past its handshake only reads. -/
structure Passive (id : Nat) (h h' : Harbor) : Prop where
  number : h'.id = h.id
  slave : h'.slave = h.slave
  map : h'.map = h.map
  others : ∀ i, i ≠ id → h'.s i = h.s i
  fd : (h'.s id).fd = (h.s id).fd
  settled : Settled (h'.s id).status
  queue : queued h' id = queued h id ∨ queued h' id = []
  quiet : ∀ i, written i h'.log = written i h.log

variable {id rounds : Nat} {h : Harbor}

theorem Passive.trans {a b c : Harbor} (first : Passive id a b) (second : Passive id b c) :
    Passive id a c := by
  refine ⟨second.number.trans first.number, second.slave.trans first.slave,
    second.map.trans first.map, ?_, second.fd.trans first.fd, second.settled, ?_, ?_⟩
  · intro i other
    exact (second.others i other).trans (first.others i other)
  · rcases second.queue with same | empty
    · rw [same]
      exact first.queue
    · exact .inr empty
  · intro i
    exact (second.quiet i).trans (first.quiet i)

theorem passive_refl (settled : Settled (h.s id).status) :
    Passive id h h :=
  ⟨rfl, rfl, rfl, fun _ _ => rfl, rfl, settled, .inl rfl, fun _ => rfl⟩

theorem passive_slave {s : Slave} (fd : s.fd = (h.s id).fd) (settled : Settled s.status)
    (queue : s.queue = (h.s id).queue ∨ s.queue = none) :
    Passive id h (h.setSlave id s) := by
  refine ⟨rfl, rfl, rfl, fun i other => setSlave_other h id s other, ?_, ?_, ?_, fun _ => rfl⟩
  · rw [setSlave_here, fd]
  · rwa [setSlave_here]
  · unfold queued
    rw [setSlave_here]
    rcases queue with same | none
    · rw [same]
      exact .inl rfl
    · rw [none]
      exact .inr rfl

theorem passive_log {es : List Effect} (settled : Settled (h.s id).status)
    (quiet : ∀ i, written i es = []) : Passive id h { h with log := h.log ++ es } := by
  refine ⟨rfl, rfl, rfl, fun _ _ => rfl, rfl, settled, .inl rfl, fun i => ?_⟩
  rw [written_append, quiet, append_nil]

theorem closeHarbor_passive (h : Harbor) (id : Nat) : Passive id h (closeHarbor h id) := by
  have down : Settled .down := ⟨nofun, nofun⟩
  have slave : Passive id h (h.setSlave id { h.s id with status := .down, queue := none }) :=
    passive_slave rfl down (.inr rfl)
  unfold closeHarbor
  dsimp only
  split
  · exact slave.trans (passive_log slave.settled fun _ => rfl)
  · exact slave

variable (alive : Nat → UInt32 → Bool) (heap : Nat → UInt8)

theorem forward_eq (h : Harbor) (msg : Nat → UInt8) (sz : Nat) :
    ∃ es, (∀ i, written i es = []) ∧
      forwardLocalMessage alive h msg sz = { h with log := h.log ++ es } := by
  unfold forwardLocalMessage
  split
  · exact ⟨_, fun _ => rfl, rfl⟩
  · dsimp only
    split
    · exact ⟨_, fun _ => rfl, rfl⟩
    · split
      · refine ⟨_, ?_, congrArg (fun log => { h with log := log }) (append_assoc ..)⟩
        exact fun _ => rfl
      · exact ⟨_, fun _ => rfl, rfl⟩

section
variable (settled : Settled (h.s id).status)
include settled

theorem contentCase_passive (buffer : List UInt8) :
    Passive id h (contentCase alive h id buffer).1 := by
  unfold contentCase
  dsimp only
  split
  · exact passive_slave rfl settled (.inl rfl)
  · obtain ⟨es, quiet, forward⟩ := forward_eq alive h
      (store (h.s id).recvBuffer (h.s id).read (buffer.take ((h.s id).length - (h.s id).read)))
      (h.s id).length
    have header : Settled .header := ⟨nofun, nofun⟩
    rw [forward]
    exact (passive_log settled quiet).trans (passive_slave rfl header (.inl rfl))

theorem headerCase_passive (buffer : List UInt8) :
    Passive id h (headerCase alive heap h id buffer).1 := by
  unfold headerCase
  dsimp only
  split
  · exact passive_slave rfl settled (.inl rfl)
  · have content : Settled .content := ⟨nofun, nofun⟩
    split
    · have sized : ∀ size, Passive id h (h.setSlave id { h.s id with size := size }) :=
        fun _ => passive_slave rfl settled (.inl rfl)
      exact (sized _).trans (closeHarbor_passive _ id)
    · rw [setSlave_twice]
      split
      · exact passive_slave rfl content (.inl rfl)
      · have opened : ∀ (s : Slave) (rest : List UInt8), s.fd = (h.s id).fd →
            s.status = .content → s.queue = (h.s id).queue →
            Passive id h (contentCase alive (h.setSlave id s) id rest).1 := by
          intro s rest fd status queue
          have slave := passive_slave fd (status ▸ content) (.inl queue)
          exact slave.trans (contentCase_passive alive slave.settled rest)
        exact opened _ _ rfl rfl rfl

theorem turn_passive (buffer : List UInt8) :
    Passive id h (turn alive heap h id buffer).1 := by
  unfold turn
  split
  next status => exact absurd status settled.2
  · exact headerCase_passive alive heap settled buffer
  · exact contentCase_passive alive settled buffer
  next status => exact absurd status settled.1
  · exact passive_refl settled

theorem pushLoop_passive (rounds : Nat) (buffer : List UInt8) :
    Passive id h (pushLoop alive heap id rounds h buffer) := by
  induction rounds generalizing h buffer with
  | zero => exact passive_refl settled
  | succ rounds ih =>
    have first := turn_passive alive heap settled buffer
    rw [pushLoop]
    generalize turn alive heap h id buffer = r at first ⊢
    obtain ⟨h', rest⟩ := r
    cases rest with
    | none => exact first
    | some buffer' => exact first.trans (ih first.settled buffer')

end

/- A handshake that succeeds sends what is queued, and the link goes on to read. -/
theorem handshakeCase_passive (fd : (h.s id).fd ≠ 0) (buffer : List UInt8) :
    (Passive id h (handshakeCase alive heap h id buffer).1 ∧
        queued (handshakeCase alive heap h id buffer).1 id = [] ∧
        (handshakeCase alive heap h id buffer).2 = none ∧ (buffer.headD 0).toNat ≠ id) ∨
      Passive id (dispatchQueue (h.setSlave id { h.s id with status := .header }) id)
        (handshakeCase alive heap h id buffer).1 := by
  unfold handshakeCase
  split
  next different =>
    left
    refine ⟨closeHarbor_passive h id, ?_, rfl, different⟩
    unfold closeHarbor queued
    rw [if_pos fd, emit_s, setSlave_here]
    rfl
  · right
    have settled : Settled
        ((dispatchQueue (h.setSlave id { h.s id with status := .header }) id).s id).status :=
      dispatchQueue_settled h fd ⟨nofun, nofun⟩
    split
    · exact passive_refl settled
    · exact headerCase_passive alive heap settled (buffer.drop 1)

theorem pushLoop_handshake (fd : (h.s id).fd ≠ 0) (status : (h.s id).status = .handshake)
    (buffer : List UInt8) :
    (Passive id h (pushLoop alive heap id (rounds + 1) h buffer) ∧
        queued (pushLoop alive heap id (rounds + 1) h buffer) id = [] ∧
        (buffer.headD 0).toNat ≠ id) ∨
      Passive id (dispatchQueue (h.setSlave id { h.s id with status := .header }) id)
        (pushLoop alive heap id (rounds + 1) h buffer) := by
  have first := handshakeCase_passive alive heap fd buffer
  rw [pushLoop, turn, status]
  generalize handshakeCase alive heap h id buffer = r at first ⊢
  obtain ⟨h', rest⟩ := r
  rcases first with ⟨closed, empty, stop, different⟩ | read
  · cases stop
    exact .inl ⟨closed, empty, different⟩
  · right
    cases rest with
    | none => exact read
    | some buffer' => exact read.trans (pushLoop_passive alive heap read.settled rounds buffer')

theorem slaveOf_congr {h' : Harbor} (fds : ∀ i, (h'.s i).fd = (h.s i).fd) (fd : Int) :
    slaveOf h' fd = slaveOf h fd := by
  unfold slaveOf
  simp only [fds]

theorem pushSocketData_found {fd : Int} (found : slaveOf h fd = some id) (buffer : List UInt8) :
    pushSocketData alive heap fd h buffer =
      pushLoop alive heap id (buffer.length + 3) h buffer := by
  rw [pushSocketData, found]

theorem handshake_written {buffer : List UInt8} (fd : (h.s id).fd ≠ 0)
    (status : (h.s id).status = .handshake) (same : (buffer.headD 0).toNat = id) :
    written id (pushLoop alive heap id (rounds + 1) h buffer).log =
      written id h.log ++ (queued h id).filter (Accepted ·) := by
  rcases pushLoop_handshake alive heap fd status buffer with ⟨-, -, different⟩ | read
  · exact absurd same different
  · rw [read.quiet, dispatchQueue_written (by rwa [setSlave_here]), if_pos rfl, queued,
      setSlave_here, setSlave_log]
    rfl

end Receive

end Skynet.HarborService
