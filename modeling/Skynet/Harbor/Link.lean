import Skynet.Harbor.Bytes
import Skynet.Harbor.Steps

/-! What a link makes of its stream: messages of a length in four bytes, a payload and a header,
and a rest that is no whole message. -/
namespace Skynet.HarborService
open Base List

/-- The sends of a log that carry a payload. -/
def payloads (log : List Effect) : List Effect :=
  log.filter fun e => match e with
    | .send _ _ _ _ (some _) => true
    | _ => false

theorem payloads_append (log more : List Effect) :
    payloads (log ++ more) = payloads log ++ payloads more := List.filter_append ..

/-- The send that forwards a message at the harbor `id`. -/
def forwarded (id : Nat) (m : HarborMsg) : Effect :=
  .send m.header.source
    (m.header.destination &&& handleMask ||| UInt32.ofNat id <<< handleRemoteShift)
    (m.header.destination >>> handleRemoteShift ||| ptypeTagDontcopy) m.header.session
    (some m.buffer.bytes)

def Small (m : HarborMsg) : Prop := m.buffer.bytes.length + headerCookieLength < 2 ^ 24

instance (m : HarborMsg) : Decidable (Small m) := inferInstanceAs (Decidable (_ < _))

def content (m : HarborMsg) : List UInt8 := m.buffer.bytes ++ headerToMessage m.header

theorem content_length (m : HarborMsg) :
    (content m).length = m.buffer.bytes.length + headerCookieLength := by
  rw [content, length_append]
  rfl

/-- The bytes that a slave has of a message that is not complete. -/
inductive Pending (s : Slave) : List UInt8 → Prop
  | header (bytes : List UInt8) (status : s.status = .header) (read : s.read = bytes.length)
      (short : bytes.length < 4) (held : window s.size 0 bytes.length = bytes) : Pending s bytes
  | content (b₁ b₂ b₃ : UInt8) (bytes : List UInt8) (status : s.status = .content)
      (length : s.length = b₁.toNat <<< 16 ||| b₂.toNat <<< 8 ||| b₃.toNat)
      (read : s.read = bytes.length) (short : bytes.length < s.length)
      (held : window s.recvBuffer 0 bytes.length = bytes) :
      Pending s ([0, b₁, b₂, b₃] ++ bytes)

variable {s : Slave} {id rounds : Nat} {rest bytes kept later buffer : List UInt8}
  {ms : List HarborMsg} {h h' : Harbor} {m : HarborMsg} {fd : Int}

theorem pending_boundary (status : s.status = .header) (read : s.read = 0) :
    Pending s [] :=
  .header [] status read (by decide) rfl

/-- From `h` to `h'` these messages are forwarded, and these bytes are kept. -/
structure Progress (h h' : Harbor) (id : Nat) (rest : List UInt8) (ms : List HarborMsg) : Prop where
  number : h'.id = h.id
  fds : ∀ i, (h'.s i).fd = (h.s i).fd
  pending : Pending (h'.s id) rest
  forwards : payloads h'.log = payloads h.log ++ ms.map (forwarded h.id)
  small : ∀ m ∈ ms, Small m

theorem Progress.trans {a b c : Harbor} {rest' : List UInt8} {ms' : List HarborMsg}
    (first : Progress a b id rest ms) (second : Progress b c id rest' ms') :
    Progress a c id rest' (ms ++ ms') := by
  refine ⟨second.number.trans first.number, fun i => (second.fds i).trans (first.fds i),
    second.pending, ?_, ?_⟩
  · rw [second.forwards, first.forwards, first.number, map_append, append_assoc]
  · intro m member
    exact (mem_append.mp member).elim (first.small m) (second.small m)

theorem closeHarbor_slaves (h : Harbor) (id : Nat) :
    (∀ i, ((closeHarbor h id).s i).fd = (h.s i).fd) ∧ ((closeHarbor h id).s id).status = .down := by
  have slaves : (closeHarbor h id).s =
      (h.setSlave id { h.s id with status := .down, queue := none }).s := by
    unfold closeHarbor
    dsimp only
    split
    · rfl
    · rfl
  rw [slaves]
  refine ⟨fun i => ?_, by rw [setSlave_here]⟩
  by_cases here : i = id
  · rw [here, setSlave_here]
  · rw [setSlave_other h id _ here]

theorem progress_slave (fd : s.fd = (h.s id).fd) (pending : Pending s rest) :
    Progress h (h.setSlave id s) id rest [] := by
  refine ⟨rfl, ?_, ?_, ?_, nofun⟩
  · intro i
    by_cases here : i = id
    · rw [here, setSlave_here, fd]
    · rw [setSlave_other h id s here]
  · rwa [setSlave_here]
  · rw [map_nil, append_nil, setSlave_log]

variable (alive : Nat → UInt32 → Bool) (heap : Nat → UInt8)

theorem forward_complete {msg : Nat → UInt8} (held : window msg 0 (content m).length = content m) :
    payloads (forwardLocalMessage alive h msg (content m).length).log =
        payloads h.log ++ [forwarded h.id m] ∧
      (forwardLocalMessage alive h msg (content m).length).id = h.id ∧
      (forwardLocalMessage alive h msg (content m).length).s = h.s := by
  have length := content_length m
  have parts : window msg 0 m.buffer.bytes.length = m.buffer.bytes ∧
      window msg m.buffer.bytes.length 12 = headerToMessage m.header := by
    rw [length, window_add, Nat.zero_add, content] at held
    exact append_inj held (window_length ..)
  have at' : (content m).length - headerCookieLength = m.buffer.bytes.length := by omega
  have long : ¬ (content m).length < headerCookieLength := by omega
  have header := messageToHeader_window parts.2
  unfold forwardLocalMessage
  rw [if_neg long]
  simp only [at', header, parts.1]
  have one : payloads [forwarded h.id m] = [forwarded h.id m] := rfl
  split
  · refine ⟨?_, rfl, rfl⟩
    exact (payloads_append ..).trans (congrArg _ one)
  · split
    · refine ⟨?_, rfl, rfl⟩
      simp only [Harbor.emit, payloads_append]
      rw [append_assoc]
      rfl
    · refine ⟨?_, rfl, rfl⟩
      exact (payloads_append ..).trans (congrArg _ one)

/- A slave that reads the content of `m`. -/
structure Reading (s : Slave) (m : HarborMsg) (bytes : List UInt8) : Prop where
  status : s.status = .content
  length : s.length = (content m).length
  read : s.read = bytes.length
  short : bytes.length < s.length
  held : window s.recvBuffer 0 bytes.length = bytes

def lengthBytes (m : HarborMsg) : List UInt8 :=
  toBigendian (UInt32.ofNat (m.buffer.bytes.length + headerCookieLength))

def stream (ms : List HarborMsg) : List UInt8 := (ms.map remoteBytes).flatten

theorem stream_cons (m : HarborMsg) (ms : List HarborMsg) :
    stream (m :: ms) = lengthBytes m ++ (content m ++ stream ms) := by
  rfl

theorem reading_pending (small : Small m) (reading : Reading s m bytes) :
    Pending s (lengthBytes m ++ bytes) := by
  obtain ⟨b₁, b₂, b₃, shown, value⟩ := toBigendian_small small
  rw [lengthBytes, shown]
  refine .content b₁ b₂ b₃ bytes reading.status ?_ reading.read reading.short reading.held
  rw [reading.length, content_length, value]

theorem pending_reading {b₁ b₂ b₃ : UInt8} {more : List UInt8} (accepted : Accepted m)
    (whole : [0, b₁, b₂, b₃] ++ bytes ++ more = stream (m :: ms)) (status : s.status = .content)
    (length : s.length = b₁.toNat <<< 16 ||| b₂.toNat <<< 8 ||| b₃.toNat)
    (read : s.read = bytes.length) (short : bytes.length < s.length)
    (held : window s.recvBuffer 0 bytes.length = bytes) :
    Small m ∧ Reading s m bytes ∧ bytes ++ more = content m ++ stream ms := by
  rw [stream_cons, append_assoc] at whole
  obtain ⟨same, rest⟩ := append_inj whole rfl
  by_cases small : Small m
  · obtain ⟨c₁, c₂, c₃, shown, value⟩ := toBigendian_small small
    rw [lengthBytes, shown] at same
    cases same
    refine ⟨small, ⟨status, ?_, read, short, held⟩, rest⟩
    rw [length, value, content_length]
  · obtain ⟨c₀, c₁, c₂, c₃, shown, nonzero⟩ := toBigendian_large (Nat.le_of_not_lt small) accepted
    rw [lengthBytes, shown] at same
    cases same
    exact absurd rfl nonzero

/-- The link is closed at a message that is too long. -/
structure Closing (h h' : Harbor) (id : Nat) (ms : List HarborMsg) : Prop where
  fds : ∀ i, (h'.s i).fd = (h.s i).fd
  down : (h'.s id).status = .down
  large : ∃ m ∈ ms, ¬ Small m

/-- The bytes before `later` are taken from the stream of these messages. -/
inductive Taken (h h' : Harbor) (id : Nat) (ms : List HarborMsg) (later : List UInt8) : Prop
  | more (done rest : List HarborMsg) (kept : List UInt8) (split : ms = done ++ rest)
      (left : kept ++ later = stream rest) (progress : Progress h h' id kept done)
  | closed (closing : Closing h h' id ms)

theorem Taken.after {h'' : Harbor} {done rest : List HarborMsg} (first : Progress h h' id kept done)
    (split : ms = done ++ rest) (taken : Taken h' h'' id rest later) : Taken h h'' id ms later := by
  cases taken with
  | more done' rest' kept split' left progress =>
    refine .more (done ++ done') rest' kept ?_ left (first.trans progress)
    rw [split, split', append_assoc]
  | closed closing =>
    obtain ⟨m, member, large⟩ := closing.large
    refine .closed ⟨fun i => (closing.fds i).trans (first.fds i), closing.down, m, ?_, large⟩
    rw [split]
    exact mem_append_right done member

/-- What a turn of the loop does with the stream of these messages. -/
inductive Outcome (h : Harbor) (id : Nat) (ms : List HarborMsg) (later : List UInt8) (bound : Nat) :
    Harbor × Option (List UInt8) → Prop
  | stop {h' : Harbor} (taken : Taken h h' id ms later) : Outcome h id ms later bound (h', none)
  | again {h' : Harbor} (done rest : List HarborMsg) (buffer : List UInt8)
      (split : ms = done ++ rest) (left : buffer ++ later = stream rest)
      (shorter : buffer.length < bound) (progress : Progress h h' id [] done) :
      Outcome h id ms later bound (h', some buffer)

theorem Outcome.after {bound bound' : Nat} {r : Harbor × Option (List UInt8)}
    (first : Progress h h' id kept []) (weaker : bound ≤ bound')
    (outcome : Outcome h' id ms later bound r) :
    Outcome h id ms later bound' r := by
  cases outcome with
  | stop taken => exact .stop (taken.after first rfl)
  | again done rest buffer split left shorter progress =>
    exact .again done rest buffer split left (Nat.lt_of_lt_of_le shorter weaker)
      (first.trans progress)

theorem contentCase_outcome (small : Small m) (reading : Reading (h.s id) m bytes)
    (whole : bytes ++ (buffer ++ later) = content m ++ stream ms) :
    Outcome h id (m :: ms) later (buffer.length + 1) (contentCase alive h id buffer) := by
  have read := reading.read
  have length := reading.length
  have short := reading.short
  unfold contentCase
  dsimp only
  split
  next partial' =>
    refine .stop (.more [] (m :: ms) (lengthBytes m ++ (bytes ++ buffer)) rfl ?_ ?_)
    · rw [stream_cons, append_assoc, append_assoc, whole]
    · refine progress_slave (by rfl) (reading_pending small ?_)
      refine ⟨reading.status, length, ?_, ?_, ?_⟩
      · rw [read, length_append]
      · rw [length_append]
        dsimp only
        omega
      · rw [length_append, read]
        have stored := window_store_append (h.s id).recvBuffer bytes.length buffer
        rwa [reading.held] at stored
  next complete =>
    have need : (h.s id).length - (h.s id).read = (content m).length - bytes.length := by
      rw [length, read]
    rw [need] at complete ⊢
    have taken : bytes ++ buffer.take ((content m).length - bytes.length) = content m ∧
        buffer.drop ((content m).length - bytes.length) ++ later = stream ms := by
      apply append_inj
      · rw [append_assoc, ← append_assoc (buffer.take _), take_append_drop, whole]
      · rw [length_append, length_take]
        omega
    have held : window (store (h.s id).recvBuffer (h.s id).read
        (buffer.take ((content m).length - bytes.length))) 0 (content m).length = content m := by
      have stored := window_store_append (h.s id).recvBuffer bytes.length
        (buffer.take ((content m).length - bytes.length))
      rw [reading.held, taken.1] at stored
      rw [read]
      convert stored using 2
      rw [length_take]
      omega
    rw [length]
    obtain ⟨forwards, number, slaves⟩ := forward_complete alive (h := h) held
    have progress : ∀ f : Harbor, payloads f.log = payloads h.log ++ [forwarded h.id m] →
        f.id = h.id → f.s = h.s → Progress h (f.setSlave id { h.s id with
          length := 0, read := 0, status := .header }) id [] [m] := by
      intro f forwards number slaves
      refine ⟨number, ?_, ?_, forwards, ?_⟩
      · intro i
        by_cases here : i = id
        · rw [here, setSlave_here]
        · rw [setSlave_other f id _ here, slaves]
      · rw [setSlave_here]
        exact pending_boundary rfl rfl
      · intro m' member
        rwa [mem_singleton.mp member]
    split
    next all =>
      have none : buffer.drop ((content m).length - bytes.length) = [] :=
        drop_of_length_le (Nat.le_of_eq all)
      rw [none] at taken
      exact .stop (.more [m] ms [] rfl taken.2 (progress _ forwards number slaves))
    next more =>
      refine .again [m] ms _ rfl taken.2 ?_ (progress _ forwards number slaves)
      rw [length_drop]
      omega

section
variable (accepted : ∀ m ∈ ms, Accepted m)
include accepted

section
variable (status : (h.s id).status = .header) (read : (h.s id).read = bytes.length)
  (short : bytes.length < 4) (held : window (h.s id).size 0 bytes.length = bytes)
include status read short held

/- A length that does not start with a zero closes the link; after any other the content is
read, from a boundary on. -/
theorem headerCase_outcome (whole : bytes ++ (buffer ++ later) = stream ms) :
    Outcome h id ms later buffer.length (headerCase alive heap h id buffer) := by
  unfold headerCase
  dsimp only
  rw [read]
  split
  next partial' =>
    refine .stop (.more [] ms (bytes ++ buffer) rfl ?_ ?_)
    · rw [append_assoc, whole]
    · refine progress_slave (by rfl) (.header (bytes ++ buffer) status ?_ ?_ ?_)
      · rw [length_append]
      · rw [length_append]
        omega
      · rw [length_append]
        have stored := window_store_append (h.s id).size bytes.length buffer
        rwa [held] at stored
  next complete =>
    cases ms with
    | nil =>
      have lengths := congrArg List.length whole
      simp only [length_append, stream, map_nil, flatten_nil, length_nil] at lengths
      omega
    | cons m ms =>
      rw [stream_cons] at whole
      have taken : bytes ++ buffer.take (4 - bytes.length) = lengthBytes m ∧
          buffer.drop (4 - bytes.length) ++ later = content m ++ stream ms := by
        apply append_inj
        · rw [append_assoc, ← append_assoc (buffer.take _), take_append_drop, whole]
        · rw [length_append, length_take]
          change _ = 4
          omega
      have stored := window_store_append (h.s id).size bytes.length (buffer.take (4 - bytes.length))
      rw [held, taken.1, length_take] at stored
      rw [show bytes.length + min (4 - bytes.length) buffer.length = 4 by omega] at stored
      by_cases fits : Small m
      · obtain ⟨b₁, b₂, b₃, shown, value⟩ := toBigendian_small fits
        rw [lengthBytes, shown] at stored
        simp only [window, List.cons.injEq, and_true] at stored
        obtain ⟨first, second, third, fourth⟩ := stored
        rw [if_neg (not_not.mpr first), second, third, fourth, value, setSlave_twice]
        generalize opened : ({ h.s id with
          size := store (h.s id).size bytes.length (buffer.take (4 - bytes.length))
          length := m.buffer.bytes.length + headerCookieLength
          read := 0
          recvBuffer := heap
          status := .content } : Slave) = s
        have reading : Reading s m [] := by
          rw [← opened]
          refine ⟨rfl, (content_length m).symm, rfl, ?_, rfl⟩
          change 0 < m.buffer.bytes.length + 12
          omega
        have progress : Progress h (h.setSlave id s) id (lengthBytes m) [] := by
          have pending := reading_pending fits reading
          refine progress_slave ?_ pending
          rw [← opened]
        split
        next all =>
          have none : buffer.drop (4 - bytes.length) = [] := drop_of_length_le (Nat.le_of_eq all)
          rw [none, nil_append] at taken
          refine .stop (.more [] (m :: ms) (lengthBytes m) rfl ?_ progress)
          rw [stream_cons, taken.2]
        next more =>
          have started : Reading ((h.setSlave id s).s id) m [] := by
            rw [setSlave_here]
            exact reading
          refine .after progress ?_ (contentCase_outcome alive fits started taken.2)
          rw [length_drop]
          omega
      · obtain ⟨b₀, b₁, b₂, b₃, shown, nonzero⟩ :=
          toBigendian_large (Nat.le_of_not_lt fits) (accepted m (mem_cons_self ..))
        rw [lengthBytes, shown] at stored
        simp only [window, List.cons.injEq, and_true] at stored
        rw [if_pos (stored.1.trans_ne nonzero)]
        refine .stop (.closed ⟨fun i => ((closeHarbor_slaves _ id).1 i).trans ?_,
          (closeHarbor_slaves _ id).2, m, mem_cons_self .., fits⟩)
        by_cases here : i = id
        · rw [here, setSlave_here]
        · rw [setSlave_other h id _ here]

/-- From a boundary: as many rounds as there are bytes, and one, are enough. -/
theorem pushLoop_header (whole : bytes ++ (buffer ++ later) = stream ms)
    (enough : buffer.length + 1 ≤ rounds) :
    Taken h (pushLoop alive heap id rounds h buffer) id ms later := by
  induction rounds generalizing h buffer bytes ms with
  | zero => exact absurd enough (Nat.not_succ_le_zero _)
  | succ rounds ih =>
    have outcome := headerCase_outcome alive heap accepted status read short held whole
    have here : turn alive heap h id buffer = headerCase alive heap h id buffer := by
      rw [turn, status]
    rw [pushLoop, here]
    generalize headerCase alive heap h id buffer = r at outcome
    cases outcome with
    | stop taken => exact taken
    | again done rest buffer' split left shorter progress =>
      cases progress.pending with
      | header _ status' read' short' held' =>
        have later' : ∀ m ∈ rest, Accepted m := fun m member =>
          accepted m (split ▸ mem_append_right done member)
        exact (ih later' status' read' short' held' left (by omega)).after progress split

end

theorem pushLoop_taken (pending : Pending (h.s id) bytes)
    (whole : bytes ++ (buffer ++ later) = stream ms) (enough : buffer.length + 2 ≤ rounds) :
    Taken h (pushLoop alive heap id rounds h buffer) id ms later := by
  cases pending with
  | header _ status read short held =>
    exact pushLoop_header alive heap accepted status read short held whole (by omega)
  | content b₁ b₂ b₃ bytes status length read short held =>
    cases ms with
    | nil => cases whole
    | cons m ms =>
      obtain ⟨fits, reading, rest⟩ := pending_reading (accepted m (mem_cons_self ..)) whole
        status length read short held
      have outcome := contentCase_outcome alive fits reading rest
      have here : turn alive heap h id buffer = contentCase alive h id buffer := by
        rw [turn, status]
      cases rounds with
      | zero => exact absurd enough (Nat.not_succ_le_zero _)
      | succ rounds =>
        rw [pushLoop, here]
        generalize contentCase alive h id buffer = r at outcome
        cases outcome with
        | stop taken => exact taken
        | again done rest buffer' split left shorter progress =>
          cases progress.pending with
          | header _ status' read' short' held' =>
            have later' : ∀ m ∈ rest, Accepted m := fun m member =>
              accepted m (split ▸ mem_append_right done member)
            exact (pushLoop_header alive heap later' status' read' short' held' left
              (by omega : buffer'.length + 1 ≤ rounds)).after progress split

theorem pending_rest (pending : Pending s bytes) (whole : bytes = stream ms) :
    bytes = [] ∧ ms = [] := by
  cases ms with
  | nil => exact ⟨whole, rfl⟩
  | cons m ms =>
    cases pending with
    | header _ status read short held =>
      have length := congrArg List.length whole
      rw [stream_cons, length_append] at length
      have four : (lengthBytes m).length = 4 := rfl
      omega
    | content b₁ b₂ b₃ bytes status length read short held =>
      have all : [0, b₁, b₂, b₃] ++ bytes ++ [] = stream (m :: ms) := by
        rw [append_nil, whole]
      obtain ⟨-, reading, rest⟩ :=
        pending_reading (accepted m (mem_cons_self ..)) all status length read short held
      have lengths := congrArg List.length rest
      rw [append_nil, length_append] at lengths
      rw [reading.length] at short
      omega

end

theorem chunks_down (found : slaveOf h fd = some id) (down : (h.s id).status = .down)
    (chunks : List (List UInt8)) :
    chunks.foldl (pushSocketData alive heap fd) h = h := by
  induction chunks with
  | nil => rfl
  | cons chunk chunks ih =>
    rw [foldl_cons, pushSocketData_found alive heap found, pushLoop, turn, down]
    exact ih

/-- Whatever the chunks, the messages of a stream are forwarded, or one of them is too long. -/
theorem chunks_taken {chunks : List (List UInt8)} (accepted : ∀ m ∈ ms, Accepted m)
    (found : slaveOf h fd = some id) (pending : Pending (h.s id) bytes)
    (whole : bytes ++ chunks.flatten = stream ms) :
    Progress h (chunks.foldl (pushSocketData alive heap fd) h) id [] ms ∨
      Closing h (chunks.foldl (pushSocketData alive heap fd) h) id ms := by
  induction chunks generalizing h bytes ms with
  | nil =>
    rw [flatten_nil, append_nil] at whole
    obtain ⟨rfl, rfl⟩ := pending_rest accepted pending whole
    exact .inl ⟨rfl, fun _ => rfl, pending, (append_nil _).symm, nofun⟩
  | cons chunk chunks ih =>
    rw [foldl_cons, pushSocketData_found alive heap found]
    have taken := pushLoop_taken alive heap accepted pending whole (Nat.le_succ _)
    generalize pushLoop alive heap id (chunk.length + 3) h chunk = h' at taken ⊢
    cases taken with
    | more done rest kept split left progress =>
      have later : ∀ m ∈ rest, Accepted m := fun m member =>
        accepted m (split ▸ mem_append_right done member)
      have found' := (slaveOf_congr progress.fds fd).trans found
      subst split
      refine (ih later found' progress.pending left).imp progress.trans fun closing => ?_
      obtain ⟨m, member, large⟩ := closing.large
      exact ⟨fun i => (closing.fds i).trans (progress.fds i), closing.down, m,
        mem_append_right done member, large⟩
    | closed closing =>
      rw [chunks_down alive heap ((slaveOf_congr closing.fds fd).trans found) closing.down]
      exact .inr closing

end Skynet.HarborService
