import Skynet.Netpack.Delivery

/-! The packets that filter and pop deliver, over any sequence of socket messages. -/
namespace Skynet.LuaNetpack
open Base List Function Option

/- Pops until the queue is empty; it never holds more packets than it has places. -/
def drain : Nat → Option Queue → List (Int × List UInt8) × Option Queue
  | 0, q => ([], q)
  | n + 1, q =>
    match lpop q with
    | none => ([], q)
    | some (np, q) =>
      let later := drain n (some q)
      (np.delivered :: later.1, later.2)

variable {rest : Int → List UInt8} {queued : List Netpack} {q : Option Queue} {q' : Queue}
  {fd : Int} {r : Result} {m : SocketMessage} {s : Session}

section
variable (shown : Shows q rest queued)
include shown

theorem Shows.pop_none (popped : lpop q = none) : queued = [] := by
  rw [← shown.items]
  cases q with
  | none => rfl
  | some q => exact ring_pop_none shown.ring (map_eq_none_iff.mp popped)

theorem Shows.pop_some {np : Netpack} (popped : lpop q = some (np, q')) :
    ∃ later, queued = np :: later ∧ Shows (some q') rest later := by
  cases q with
  | none => cases popped
  | some q =>
    obtain ⟨⟨np', ring⟩, inner, pair⟩ := map_eq_some_iff.mp popped
    obtain ⟨rfl, rfl⟩ := Prod.mk.inj pair
    obtain ⟨sound, items⟩ := ring_pop_some shown.ring inner
    exact ⟨ring.items, shown.items.symm.trans items, sound, shown.distinct, rfl, shown.kept⟩

theorem drain_spec {n : Nat} (enough : queued.length ≤ n) :
    ∃ q', drain n q = (queued.map Netpack.delivered, q') ∧ Shows q' rest [] := by
  induction n generalizing q queued with
  | zero =>
    have nothing : queued = [] := eq_nil_of_length_eq_zero (Nat.le_zero.mp enough)
    subst nothing
    exact ⟨q, rfl, shown⟩
  | succ n ih =>
    cases popped : lpop q with
    | none =>
      obtain rfl := shown.pop_none popped
      exact ⟨q, by rw [drain, popped]; rfl, shown⟩
    | some taken =>
      obtain ⟨later, rfl, left⟩ := shown.pop_some popped
      obtain ⟨q'', drained, shown'⟩ := ih left (by simpa using enough)
      exact ⟨q'', by rw [drain, popped]; simp only [drained]; rfl, shown'⟩

end

structure Session where
  queue : Option Queue
  log : List Entry

/-- One message, after which all packets are popped. -/
def Session.step (s : Session) (m : SocketMessage) : Except Fault Session :=
  (lfilter s.queue m).map fun (q, r) =>
    let popped := drain (getQueue q).ring.cap q
    ⟨popped.2, s.log ++ (r.delivered ++ popped.1).map (fun p => .packet p.1 p.2) ++ r.ended⟩

/- The bytes of a connection since it was last closed, and the packets delivered of it. -/
def streamStep (fd : Int) (l : List UInt8) : SocketMessage → List UInt8
  | .data id buffer => if id = fd then l ++ buffer else l
  | .close id | .error id _ => if id = fd then [] else l
  | .connect _ | .accept .. | .warning .. => l

def stream (fd : Int) (ms : List SocketMessage) : List UInt8 := ms.foldl (streamStep fd) []

def logStep (fd : Int) (l : List (List UInt8)) : Entry → List (List UInt8)
  | .packet id payload => if id = fd then l ++ [payload] else l
  | .ended id => if id = fd then [] else l

def delivered (fd : Int) (log : List Entry) : List (List UInt8) := log.foldl (logStep fd) []

structure Current (s : Session) (ms : List SocketMessage) : Prop where
  shown : Shows s.queue (fun fd => (parse (stream fd ms)).2) []
  log : ∀ fd, delivered fd s.log = (parse (stream fd ms)).1

theorem stream_append (fd : Int) (ms : List SocketMessage) (m : SocketMessage) :
    stream fd (ms ++ [m]) = streamStep fd (stream fd ms) m := by
  simp [stream]

theorem delivered_append (fd : Int) (log log' : List Entry) :
    delivered fd (log ++ log') = log'.foldl (logStep fd) (delivered fd log) :=
  foldl_append

theorem log_packets (fd id : Int) (payloads l : List (List UInt8)) :
    ((payloads.map fun p => (id, p)).map fun p => Entry.packet p.1 p.2).foldl (logStep fd) l =
      if id = fd then l ++ payloads else l := by
  induction payloads generalizing l with
  | nil => simp
  | cons p payloads ih =>
    simp only [map_cons, foldl_cons, ih, logStep]
    split <;> simp

/-- What filter has answered to the last of these messages, with these packets queued. -/
structure Answered (ms : List SocketMessage) (m : SocketMessage) (q : Option Queue) (r : Result)
    (queued : List Netpack) : Prop where
  shown : Shows q (fun fd => (parse (stream fd (ms ++ [m]))).2) queued
  log : ∀ fd log, delivered fd log = (parse (stream fd ms)).1 →
    delivered fd (log ++ (r.delivered ++ queued.map Netpack.delivered).map
      (fun p => .packet p.1 p.2) ++ r.ended) = (parse (stream fd (ms ++ [m]))).1

section Answers
variable {q : Option Queue} {ms : List SocketMessage}
  (shown : Shows q (fun fd => (parse (stream fd ms)).2) []) {m : SocketMessage} {r : Result}
  {id : Int}
include shown

theorem answered_other (silent : r.delivered = [] ∧ r.ended = [])
    (same : ∀ fd l, streamStep fd l m = l) :
    Answered ms m q r [] := by
  refine ⟨?_, fun fd log before => ?_⟩
  · simpa only [stream_append, same] using shown
  · rw [stream_append, same, ← before, silent.1, silent.2]
    simp

theorem answered_ended (ended : r.delivered = [] ∧ r.ended = [.ended id])
    (same : ∀ fd l, streamStep fd l m = if id = fd then [] else l) :
    Answered ms m (closeUncomplete q id) r [] := by
  have closed : Shows (closeUncomplete q id)
      (update (fun fd => (parse (stream fd ms)).2) id []) [] := by
    unfold closeUncomplete
    cases known : findUncomplete q id with
    | none =>
      have nothing := shown.find_none known
      rw [← nothing, update_eq_self]
      exact shown
    | some found => exact (shown.find_some known).2
  refine ⟨?_, fun fd log before => ?_⟩
  · have rest : (update (fun fd => (parse (stream fd ms)).2) id []) =
        fun fd => (parse (stream fd (ms ++ [m]))).2 := by
      funext fd
      rw [stream_append, same]
      by_cases here : id = fd
      · rw [if_pos here, parse_nil, here, update_self]
      · rw [if_neg here, update_of_ne (Ne.symm here)]
    exact rest ▸ closed
  · rw [stream_append, same, ended.1, ended.2, delivered_append]
    simp only [map_nil, append_nil, foldl_cons, foldl_nil, logStep, before]
    split
    · rw [parse_nil]
    · rfl

theorem answered_data {buffer : List UInt8} (some' : buffer ≠ []) :
    ∃ q' r queued, filterData q id buffer = .ok (q', r) ∧
      Answered ms (.data id buffer) q' r queued := by
  have filters : Filters id ((parse (stream id ms)).2 ++ buffer) _ (filterData q id buffer) :=
    filterData_spec shown some'
  obtain ⟨q', r, queued, filtered, shown', sent, silent⟩ := filters
  have split := parse_append (stream id ms) buffer
  refine ⟨q', r, queued, filtered, ?_, fun fd log before => ?_⟩
  · have rest : update (fun fd => (parse (stream fd ms)).2) id
          (parse ((parse (stream id ms)).2 ++ buffer)).2 =
        fun fd => (parse (stream fd (ms ++ [.data id buffer]))).2 := by
      funext fd
      rw [stream_append]
      by_cases here : fd = id
      · subst here
        rw [update_self]
        simp only [streamStep, if_true, split]
      · rw [update_of_ne here]
        simp only [streamStep, Ne.symm here, if_false]
    exact rest ▸ shown'
  · rw [silent, append_nil, sent, delivered_append, log_packets, stream_append]
    by_cases here : id = fd
    · subst here
      simp only [streamStep, if_true, split, before]
    · simp only [streamStep, here, if_false, before]

theorem lfilter_spec (filled : ∀ id buffer, m = .data id buffer → buffer ≠ []) :
    ∃ q' r queued, lfilter q m = .ok (q', r) ∧ Answered ms m q' r queued := by
  cases m with
  | data id buffer => exact answered_data shown (filled id buffer rfl)
  | connect _ | accept _ _ _ | warning _ _ =>
    exact ⟨_, _, _, rfl, answered_other shown ⟨rfl, rfl⟩ fun _ _ => rfl⟩
  | close _ | error _ _ => exact ⟨_, _, _, rfl, answered_ended shown ⟨rfl, rfl⟩ fun _ _ => rfl⟩

end Answers

theorem findUncomplete_ring {uc : Uncomplete} (found : findUncomplete q fd = some (uc, q')) :
    q'.ring = (getQueue q).ring := by
  cases q with
  | none => cases found
  | some q =>
    obtain ⟨_, -, pair⟩ := map_eq_some_iff.mp found
    obtain ⟨-, rfl⟩ := Prod.mk.inj pair
    rfl

theorem map_more {made : Except Fault (Option Queue)}
    (mapped : (made.map fun q => (q, Result.more)) = .ok (q, r)) : r = .more := by
  cases made with
  | error fault => cases mapped
  | ok q =>
    cases mapped
    rfl

theorem filterData_cases {q' : Option Queue} {buffer : List UInt8}
    (filtered : filterData q fd buffer = .ok (q', r)) : r = .more ∨
      (getQueue q').ring = (getQueue q).ring ∧ (r = .nothing ∨ ∃ msg, r = .data fd msg) := by
  unfold filterData at filtered
  split at filtered
  next uc q'' found =>
    have same := findUncomplete_ring found
    cases header : fillHeader uc buffer with
    | error fault =>
      rw [header] at filtered
      cases filtered
    | ok filled =>
      rw [header] at filtered
      simp only [Except.bind, fillUncomplete] at filtered
      split_ifs at filtered
      · cases filtered
        exact .inr ⟨same, .inl rfl⟩
      · cases filtered
        exact .inr ⟨same, .inr ⟨_, rfl⟩⟩
      · exact .inl (map_more filtered)
  next =>
    split at filtered
    · cases filtered
    · cases filtered
      exact .inr ⟨rfl, .inl rfl⟩
    · dsimp only at filtered
      split_ifs at filtered
      · cases filtered
        exact .inr ⟨rfl, .inl rfl⟩
      · cases filtered
        exact .inr ⟨rfl, .inr ⟨_, rfl⟩⟩
      · exact .inl (map_more filtered)

/- Only an answer of more than one packet uses the queue. -/
theorem lfilter_ring {q' : Option Queue} (filtered : lfilter q m = .ok (q', r))
    (single : r ≠ .more) :
    (getQueue q').ring = (getQueue q).ring := by
  have closes : ∀ id, (getQueue (closeUncomplete q id)).ring = (getQueue q).ring := by
    intro id
    unfold closeUncomplete
    split
    next found => exact findUncomplete_ring found
    next => rfl
  cases m with
  | data id buffer => exact (filterData_cases filtered).elim (absurd · single) (·.1)
  | close id | error id msg =>
    cases filtered
    exact closes id
  | connect id | accept id ud msg | warning id ud =>
    cases filtered
    rfl

theorem step_spec (filtered : lfilter s.queue m = .ok (q, r)) (shown : Shows q rest queued) :
    ∃ q', s.step m = .ok ⟨q', s.log ++ (r.delivered ++ queued.map Netpack.delivered).map
        (fun p => .packet p.1 p.2) ++ r.ended⟩ ∧ Shows q' rest [] := by
  have few : queued.length ≤ (getQueue q).ring.cap := by
    rw [← shown.items]
    exact Nat.le_of_lt (ring_items_lt shown.ring)
  obtain ⟨q', drained, shown'⟩ := drain_spec shown few
  refine ⟨q', ?_, shown'⟩
  simp only [Session.step, filtered, Except.map, drained]

theorem current_step {ms : List SocketMessage} (current : Current s ms)
    (filled : ∀ id buffer, m = .data id buffer → buffer ≠ []) :
    ∃ s', s.step m = .ok s' ∧ Current s' (ms ++ [m]) := by
  obtain ⟨q, r, queued, filtered, answered⟩ := lfilter_spec current.shown filled
  obtain ⟨q', taken, shown⟩ := step_spec filtered answered.shown
  exact ⟨_, taken, shown, fun fd => answered.log fd s.log (current.log fd)⟩

def Session.run (ms : List SocketMessage) : Except Fault Session :=
  ms.foldlM Session.step ⟨none, []⟩

theorem current_run (ms : List SocketMessage)
    (filled : ∀ id buffer, .data id buffer ∈ ms → buffer ≠ []) :
    ∃ s, Session.run ms = .ok s ∧ Current s ms := by
  induction ms using List.reverseRecOn with
  | nil =>
    refine ⟨⟨none, []⟩, rfl, ⟨?_, fun fd => ?_⟩⟩
    · simpa [stream, parse_nil] using shows_nil
    · simp [stream, parse_nil, delivered]
  | append_singleton ms m ih =>
    obtain ⟨s, ran, current⟩ := ih fun id buffer member =>
      filled id buffer (mem_append_left [m] member)
    obtain ⟨s', taken, current'⟩ := current_step current fun id buffer same =>
      filled id buffer (mem_append_right ms (mem_singleton.mpr same.symm))
    refine ⟨s', ?_, current'⟩
    unfold Session.run at ran ⊢
    rw [foldlM_append, ran]
    simp only [foldlM_cons, foldlM_nil, bind_pure]
    exact taken

theorem toNat_and_255 (n : Nat) : (n &&& 0xff).toUInt8.toNat = n % 256 := by
  rw [UInt8.toNat_ofNat', Nat.and_two_pow_sub_one_eq_mod n 8]
  omega

theorem parse_lpack {msg bytes : List UInt8} (packed : lpack msg = some bytes)
    (more : List UInt8) : parse (bytes ++ more) = (msg :: (parse more).1, (parse more).2) := by
  unfold lpack at packed
  split at packed
  · cases packed
  next fits =>
    have size : ((msg.length >>> 8) &&& 0xff).toUInt8.toNat * 256 +
        (msg.length &&& 0xff).toUInt8.toNat = msg.length := by
      rw [toNat_and_255, toNat_and_255, Nat.shiftRight_eq_div_pow]
      omega
    obtain rfl := some.inj packed
    have whole : parse (((msg.length >>> 8) &&& 0xff).toUInt8 ::
        (msg.length &&& 0xff).toUInt8 :: (msg ++ more)) = _ := parse_whole (by rw [size]; simp)
    rw [size] at whole
    simpa [writeSize] using whole

theorem parse_lpacks {msgs sent : List (List UInt8)} (packed : msgs.mapM lpack = some sent) :
    parse sent.flatten = (msgs, []) := by
  induction msgs generalizing sent with
  | nil =>
    cases packed
    exact parse_nil
  | cons msg msgs ih =>
    simp only [mapM_cons, bind_eq_bind, bind_eq_some_iff] at packed
    obtain ⟨bytes, first, sent', later, pair⟩ := packed
    obtain rfl := some.inj pair
    rw [flatten_cons, parse_lpack first, ih later]

/-- For every sequence of socket messages whose chunks are not empty, with all packets popped
after each message: the packets delivered of a connection are the payloads of its stream, and
messages sent with lpack come back. -/
theorem netpack_framing (ms : List SocketMessage)
    (filled : ∀ id buffer, .data id buffer ∈ ms → buffer ≠ []) :
    ∃ s, Session.run ms = .ok s ∧ (getQueue s.queue).ring.items = [] ∧
      (∀ fd, delivered fd s.log = (parse (stream fd ms)).1) ∧
      ∀ fd msgs sent, msgs.mapM lpack = some sent → stream fd ms = sent.flatten →
        delivered fd s.log = msgs := by
  obtain ⟨s, ran, current⟩ := current_run ms filled
  refine ⟨s, ran, current.shown.items, current.log, fun fd msgs sent packed known => ?_⟩
  rw [current.log fd, known, parse_lpacks packed]

/- The length and the body are split, and another connection is closed in between. -/
theorem netpack_framing_split :
    let ms : List SocketMessage :=
      [.data 5 [0], .data 6 [0, 1], .data 5 [2, 7], .close 6, .data 5 [8, 0, 0]]
    (∀ id buffer, .data id buffer ∈ ms → buffer ≠ []) ∧
      ∃ s, Session.run ms = .ok s ∧ delivered 5 s.log = [[7, 8], []] := by
  have filled : ∀ id buffer, SocketMessage.data id buffer ∈
      [.data 5 [0], .data 6 [0, 1], .data 5 [2, 7], .close 6, .data 5 [8, 0, 0]] → buffer ≠ [] := by
    rintro id buffer member rfl
    simp at member
  obtain ⟨s, ran, -, log, -⟩ := netpack_framing _ filled
  refine ⟨filled, s, ran, (log 5).trans ?_⟩
  simp [stream, streamStep, parse]

end Skynet.LuaNetpack
