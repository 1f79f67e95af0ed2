import Skynet.Harbor.Steps

/-! Every message that the harbor handles touches one link at most. -/
namespace Skynet.HarborService
open Base List Function

/-- What a step does to one link: `fresh` are the messages that it adds to it. They are
written past a queue only if the step may overtake. -/
inductive LinkStep (overtakes : Prop) (fresh W Q : List HarborMsg) :
    List HarborMsg → List HarborMsg → Prop
  | lost : LinkStep overtakes fresh W Q W Q
  | dropped : LinkStep overtakes fresh W Q W []
  | flushed (none : fresh = []) : LinkStep overtakes fresh W Q (W ++ Q.filter (Accepted ·)) []
  | queued : LinkStep overtakes fresh W Q W (Q ++ fresh)
  | direct (order : Q = [] ∨ overtakes) :
      LinkStep overtakes fresh W Q (W ++ fresh.filter (Accepted ·)) Q

/-- A slave has a descriptor once it is no longer waited for, and nothing is queued past the
handshake. -/
structure Links (h : Harbor) : Prop where
  connected : ∀ i, (h.s i).status = .wait ↔ (h.s i).fd = 0
  flushed : ∀ i, Settled (h.s i).status → queued h i = []

theorem harborCreate_links (number : Nat) (slave : UInt32) : Links (harborCreate number slave) :=
  ⟨fun _ => iff_of_true rfl rfl, fun _ _ => rfl⟩

variable {h h' : Harbor} {id : Nat} {overtakes : Prop} {fresh : List HarborMsg}

theorem links_update (links : Links h) (others : ∀ i, i ≠ id → h'.s i = h.s i)
    (connected : (h'.s id).status = .wait ↔ (h'.s id).fd = 0)
    (flushed : Settled (h'.s id).status → queued h' id = []) : Links h' := by
  constructor
  · intro i
    by_cases here : i = id
    · rw [here]
      exact connected
    · rw [others i here]
      exact links.connected i
  · intro i
    by_cases here : i = id
    · rw [here]
      exact flushed
    · unfold queued
      rw [others i here]
      exact links.flushed i

/-- Only one link is touched. -/
structure Touched (h h' : Harbor) (overtakes : Prop) (id : Nat) (fresh : List HarborMsg) :
    Prop where
  links : Links h'
  others : ∀ i, i ≠ id → written i h'.log = written i h.log ∧ queued h' i = queued h i
  link : LinkStep overtakes fresh (written id h.log) (queued h id)
    (written id h'.log) (queued h' id)

/- The names stay. -/
structure Moved (h h' : Harbor) (overtakes : Prop) (id : Nat) (fresh : List HarborMsg) : Prop
    extends Touched h h' overtakes id fresh where
  map : h'.map = h.map

theorem queued_congr {i : Nat} (same : h'.s i = h.s i) :
    queued h' i = queued h i := by
  rw [queued, queued, same]

theorem moved_nowhere (links : Links h) (id : Nat) (slaves : h'.s = h.s) (map : h'.map = h.map)
    (quiet : ∀ i, written i h'.log = written i h.log) : Moved h h' overtakes id fresh := by
  have same : ∀ i, queued h' i = queued h i := fun i => queued_congr (congrFun slaves i)
  refine ⟨⟨⟨?_, ?_⟩, fun i _ => ⟨quiet i, same i⟩, ?_⟩, map⟩
  · rw [slaves]
    exact links.connected
  · intro i
    rw [slaves, same]
    exact links.flushed i
  · rw [quiet, same]
    exact .lost

theorem Touched.after {h'' : Harbor} (moved : Touched h' h'' overtakes id fresh)
    (slaves : h'.s = h.s) (quiet : ∀ i, written i h'.log = written i h.log) :
    Touched h h'' overtakes id fresh := by
  have same : ∀ i, queued h' i = queued h i := fun i => queued_congr (congrFun slaves i)
  refine ⟨moved.links, ?_, ?_⟩
  · intro i other
    rw [← quiet, ← same]
    exact moved.others i other
  · rw [← quiet, ← same]
    exact moved.link

section Data
variable (alive : Nat → UInt32 → Bool) (heap : Nat → UInt8) {h h' : Harbor} {id : Nat}
  {overtakes : Prop}

theorem passive_moved (links : Links h) (fd : (h.s id).fd ≠ 0) (passive : Passive id h h')
    (empty : queued h' id = []) :
    Moved h h' overtakes id [] := by
  refine ⟨⟨links_update links passive.others ?_ fun _ => empty, ?_, ?_⟩, passive.map⟩
  · rw [passive.fd]
    exact iff_of_false passive.settled.1 fd
  · intro i other
    exact ⟨passive.quiet i, queued_congr (passive.others i other)⟩
  · rw [passive.quiet, empty]
    exact .dropped

theorem flushed_moved {s : Slave} (links : Links h)
    (passive : Passive id (dispatchQueue (h.setSlave id s) id) h') (fd : s.fd ≠ 0)
    (queue : s.queue = (h.s id).queue) : Moved h h' overtakes id [] := by
  have fd' : ((h.setSlave id s).s id).fd ≠ 0 := by rwa [setSlave_here]
  have slaves := dispatchQueue_slaves fd'
  have empty : queued h' id = [] := by
    rcases passive.queue with same | empty
    · rw [same, queued, slaves, update_self]
      rfl
    · exact empty
  have others : ∀ i, i ≠ id → h'.s i = h.s i := by
    intro i other
    rw [passive.others i other, slaves, update_of_ne other, setSlave_other h id s other]
  have log : ∀ i, written i h'.log = written i h.log ++
      if i = id then (queued h id).filter (Accepted ·) else [] := by
    intro i
    have items : queued (h.setSlave id s) id = queued h id := by
      rw [queued, queued, setSlave_here, queue]
    rw [passive.quiet, dispatchQueue_written fd', items, setSlave_log]
  refine ⟨⟨links_update links others ?_ fun _ => empty, ?_, ?_⟩, ?_⟩
  · rw [passive.fd, slaves, update_self, setSlave_here]
    exact iff_of_false passive.settled.1 fd
  · intro i other
    refine ⟨?_, queued_congr (others i other)⟩
    rw [log, if_neg other, append_nil]
  · rw [log, if_pos rfl, empty]
    exact .flushed rfl
  · rw [passive.map, dispatchQueue_map fd', setSlave_map]

theorem pushSocketData_moved (links : Links h) (fd : Int) (buffer : List UInt8) :
    ∃ id, Moved h (pushSocketData alive heap fd h buffer) overtakes id [] := by
  unfold pushSocketData
  split
  · exact ⟨0, moved_nowhere links 0 rfl rfl fun i => written_quiet rfl h⟩
  next id found =>
    refine ⟨id, ?_⟩
    by_cases wait : (h.s id).status = .wait
    · have same : pushLoop alive heap id (buffer.length + 3) h buffer = h := by
        rw [pushLoop, turn, wait]
      rw [same]
      exact moved_nowhere links id rfl rfl fun _ => rfl
    · have fd' : (h.s id).fd ≠ 0 := fun zero => wait ((links.connected id).mpr zero)
      by_cases handshake : (h.s id).status = .handshake
      · rcases pushLoop_handshake alive heap fd' handshake buffer with ⟨closed, empty, -⟩ | read
        · exact passive_moved links fd' closed empty
        · exact flushed_moved links read fd' rfl
      · have settled : Settled (h.s id).status := ⟨wait, handshake⟩
        have passive := pushLoop_passive alive heap settled (buffer.length + 3) buffer
        refine passive_moved links fd' passive ?_
        rcases passive.queue with same | empty
        · rw [same]
          exact links.flushed id settled
        · exact empty

end Data

theorem connectCommand_moved (links : Links h) (accept : Bool) (fd : Int) (id : Nat) :
    Moved h (connectCommand h accept fd id) overtakes id [] := by
  unfold connectCommand
  split
  · exact moved_nowhere links id rfl rfl fun _ => rfl
  next invalid =>
    have nonzero : fd ≠ 0 := fun zero => invalid (.inl zero)
    dsimp only
    split
    · exact moved_nowhere links id rfl rfl fun _ => rfl
    next closed =>
      obtain ⟨started, shown, slaves, map, quiet⟩ : ∃ started, started =
          (h.emit (.start fd)).emit (.handshake fd h.id.toUInt8) ∧ started.s = h.s ∧
          started.map = h.map ∧ ∀ i, written i started.log = written i h.log :=
        ⟨_, rfl, rfl, rfl, fun i => (written_quiet rfl _).trans (written_quiet rfl h)⟩
      have still : Moved h started overtakes id [] := moved_nowhere links id slaves map quiet
      rw [← shown]
      split
      · have settled : Settled ((dispatchQueue (started.setSlave id
            { h.s id with fd := fd, status := .header }) id).s id).status :=
          dispatchQueue_settled started nonzero ⟨nofun, nofun⟩
        have flushed : Moved started _ overtakes id [] :=
          flushed_moved still.links (passive_refl settled) nonzero (by rw [slaves])
        exact ⟨flushed.after slaves quiet, flushed.map.trans map⟩
      · refine ⟨Touched.after ?_ slaves quiet, map⟩
        refine ⟨links_update still.links (fun i other => setSlave_other started id _ other) ?_ ?_,
          fun i other => ⟨rfl, queued_congr (setSlave_other started id _ other)⟩, ?_⟩
        · rw [setSlave_here]
          exact iff_of_false nofun nonzero
        · rw [setSlave_here]
          exact fun settled => absurd rfl settled.2
        · have queue : queued (started.setSlave id { h.s id with fd := fd, status := .handshake })
              id =
              queued started id := by
            rw [queued, queued, setSlave_here, slaves]
          rw [queue]
          exact .lost

section Sends

variable {h : Harbor} {id : Nat} {overtakes : Prop} {ms : List HarborMsg}

theorem sent_moved {fd : Int} (links : Links h) (order : queued h id = [] ∨ overtakes) :
    Moved h { h with log := h.log ++ (ms.filter (Accepted ·)).map (.remote id fd) }
      overtakes id ms := by
  have log : ∀ i, written i (h.log ++ (ms.filter (Accepted ·)).map (.remote id fd)) =
      written i h.log ++ if i = id then ms.filter (Accepted ·) else [] := by
    intro i
    rw [written_append, written_remotes]
  refine ⟨⟨⟨links.connected, links.flushed⟩, ?_, ?_⟩, rfl⟩
  · intro i other
    refine ⟨?_, rfl⟩
    rw [log, if_neg other, append_nil]
  · rw [log, if_pos rfl]
    exact .direct order

theorem queued_moved {queue : HarborMsgQueue} (links : Links h) (early : ¬ Settled (h.s id).status)
    (items : queue.items = queued h id ++ ms) :
    Moved h (h.setSlave id { h.s id with queue := some queue }) overtakes id ms := by
  refine ⟨⟨links_update links (fun i other => setSlave_other h id _ other) ?_ ?_,
    fun i other => ⟨rfl, queued_congr (setSlave_other h id _ other)⟩, ?_⟩, rfl⟩
  · rw [setSlave_here]
    exact links.connected id
  · rw [setSlave_here]
    exact fun settled => absurd settled early
  · have grown : queued (h.setSlave id { h.s id with queue := some queue }) id =
        queued h id ++ ms := by
      rw [queued, setSlave_here]
      exact items
    rw [grown]
    exact .queued

theorem dropped_moved (links : Links h) (id : Nat) :
    Moved h (h.setSlave id { h.s id with queue := none }) overtakes id ms := by
  have empty : queued (h.setSlave id { h.s id with queue := none }) id = [] := by
    rw [queued, setSlave_here]
    rfl
  refine ⟨⟨links_update links (fun i other => setSlave_other h id _ other) ?_ fun _ => empty,
    fun i other => ⟨rfl, queued_congr (setSlave_other h id _ other)⟩, ?_⟩, rfl⟩
  · rw [setSlave_here]
    exact links.connected id
  · rw [empty]
    exact .dropped

theorem remoteSendHandle_moved (links : Links h) (source destination type session : UInt32)
    (msg : Message) :
    Moved h (remoteSendHandle h source destination type session msg).1 overtakes
      (harborOf destination) [cookieOf source destination type session msg] := by
  unfold remoteSendHandle
  dsimp only
  split
  · exact moved_nowhere links _ rfl rfl fun i => written_quiet rfl h
  · split
    next early =>
      split
      · exact moved_nowhere links _ rfl rfl fun i => written_quiet rfl h
      · refine queued_moved links ?_ ?_
        · rintro ⟨wait, handshake⟩
          exact early.elim (fun zero => wait ((links.connected _).mpr zero)) handshake
        · rw [pushQueue, items_push, queued, UInt32.or_comm, cookieOf]
          congr 1
          cases (h.s (harborOf destination)).queue with
          | none => rfl
          | some queue => rfl
    next late =>
      have settled : Settled (h.s (harborOf destination)).status :=
        ⟨fun wait => late (.inl ((links.connected _).mp wait)), fun status => late (.inr status)⟩
      rw [sendRemote_eq]
      exact sent_moved links (.inl (links.flushed _ settled))

end Sends

section Names

/-- A waiting message with its handle. -/
def merge (handle : UInt32) (m : HarborMsg) : HarborMsg :=
  { m with header := { m.header with destination := m.header.destination ||| handle &&& handleMask } }

theorem emits_eq (f : HarborMsg → Effect) (h : Harbor) (ms : List HarborMsg) :
    ms.foldl (fun h m => h.emit (f m)) h = { h with log := h.log ++ ms.map f } := by
  induction ms generalizing h with
  | nil => exact congrArg (fun log => { h with log := log }) (append_nil h.log).symm
  | cons m ms ih =>
    rw [foldl_cons, ih]
    exact congrArg (fun log => { h with log := log }) (append_assoc ..)

theorem pushes_items (queue : HarborMsgQueue) (ms : List HarborMsg) :
    (ms.foldl pushQueueMsg queue).items = queue.items ++ ms := by
  induction ms generalizing queue with
  | nil => exact (append_nil _).symm
  | cons m ms ih => rw [foldl_cons, ih, items_push, append_assoc, singleton_append]

variable {h : Harbor}

theorem dispatchNameQueue_linked {handle : UInt32} (fd : (h.s (harborOf handle)).fd ≠ 0)
    (queue : HarborMsgQueue) :
    dispatchNameQueue h handle queue = { h with
      log := h.log ++ ((queue.items.map (merge handle)).filter (Accepted ·)).map
        (.remote (harborOf handle) (h.s (harborOf handle)).fd) } := by
  unfold dispatchNameQueue
  rw [if_neg fd, drain_eq]
  exact sends_eq (harborOf handle) (h.s (harborOf handle)).fd (merge handle) h queue.items

/- Without a link the messages are queued as they are; with one they get the handle and are
written, even during the handshake. -/
theorem dispatchNameQueue_moved {overtakes : Prop} (links : Links h) (handle : UInt32)
    (queue : HarborMsgQueue)
    (may : (h.s (harborOf handle)).fd ≠ 0 → (h.s (harborOf handle)).status = .handshake →
      overtakes) :
    ∃ fresh, Moved h (dispatchNameQueue h handle queue) overtakes (harborOf handle) fresh ∧
      (fresh = queue.items.map (merge handle) ∨ fresh = queue.items ∧
        (h.s (harborOf handle)).fd = 0 ∧ harborOf handle ≠ harborOf h.slave) := by
  by_cases fd : (h.s (harborOf handle)).fd = 0
  · unfold dispatchNameQueue
    dsimp only
    rw [if_pos fd]
    split
    · exact ⟨_, moved_nowhere links _ rfl rfl fun _ => rfl, .inl rfl⟩
    · have early : ¬ Settled (h.s (harborOf handle)).status :=
        fun settled => settled.1 ((links.connected _).mpr fd)
      have items : ∀ queue' : HarborMsgQueue, queue' =
          (h.s (harborOf handle)).queue.elim queue (drain pushQueueMsg queue) →
          queue'.items = queued h (harborOf handle) ++ queue.items := by
        rintro queue' rfl
        rw [queued]
        cases (h.s (harborOf handle)).queue with
        | none => rfl
        | some q =>
          rw [Option.elim_some, drain_eq, pushes_items]
          rfl
      split
      · rw [drain_eq, emits_eq]
        have dropped : ∀ log, (∀ i, written i log = written i h.log) →
            Moved h (({ h with log := log } : Harbor).setSlave (harborOf handle)
              { h.s (harborOf handle) with queue := none }) overtakes (harborOf handle)
              (queue.items.map (merge handle)) := by
          intro log quiet
          have links' : Links { h with log := log } := ⟨links.connected, links.flushed⟩
          have dropped : Moved { h with log := log } _ overtakes (harborOf handle)
              (queue.items.map (merge handle)) := dropped_moved links' (harborOf handle)
          exact ⟨dropped.after rfl quiet, rfl⟩
        refine ⟨_, dropped _ fun i => ?_, .inl rfl⟩
        rw [written_append, written_map_nil (fun _ => rfl), append_nil]
      next remote =>
        refine ⟨_, queued_moved links early (items _ ?_), .inr ⟨rfl, fd, remote⟩⟩
        cases (h.s (harborOf handle)).queue <;> rfl
  · have order : queued h (harborOf handle) = [] ∨ overtakes := by
      by_cases handshake : (h.s (harborOf handle)).status = .handshake
      · exact .inr (may fd handshake)
      · exact .inl (links.flushed _ ⟨fun wait => fd ((links.connected _).mp wait), handshake⟩)
    refine ⟨_, ?_, .inl rfl⟩
    rw [dispatchNameQueue_linked fd]
    exact sent_moved links order

end Names

end Skynet.HarborService
