import Skynet.Gateserver.Model

/-! Every completed packet is either in the queue or dispatched, in the order of its connection,
and while packets are queued a copy of dispatch_queue is forked. -/
namespace Skynet.Gateserver
open Base LuaNetpack List Option

def Event.entry : Event → Entry
  | .message fd msg | .dropped fd msg => .packet fd msg
  | .ended fd => .ended fd

def World.queued (w : World) : List Netpack := (getQueue w.queue).ring.items

def entries (queued : List Netpack) : List Entry :=
  (queued.map Netpack.delivered).map fun p => .packet p.1 p.2

/-- The packets logged and those queued are the packets of the messages. -/
structure Holds (w : World) : Prop where
  shown : Shows w.queue (fun fd => (parse (stream fd w.messages)).2) w.queued
  log : ∀ fd, delivered fd (w.log.map Event.entry ++ entries w.queued) =
    (parse (stream fd w.messages)).1

structure Delivers (w : World) : Prop where
  holds : Holds w
  forked : w.queued ≠ [] → Forked.dispatchQueue ∈ w.forkQueue
  settled : w.control = .idle → w.forkQueue = []

variable {w w' : World} {np : Netpack} {q : Queue} {captured i : Nat} {m : SocketMessage}
  {r : Result} {h : Handler} {a : Action}

theorem Delivers.empty (delivers : Delivers w) (idle : w.control = .idle) :
    w.queued = [] := by
  by_contra some'
  have member := delivers.forked some'
  rw [delivers.settled idle] at member
  cases member

theorem Holds.same (holds : Holds w) (queue : w'.queue = w.queue)
    (messages : w'.messages = w.messages) (log : w'.log = w.log) : Holds w' := by
  have queued : w'.queued = w.queued := by rw [World.queued, queue, World.queued]
  constructor
  · rw [queue, messages, queued]
    exact holds.shown
  · intro fd
    rw [log, messages, queued]
    exact holds.log fd

/-- A part of a step that has nothing to do with packets. -/
structure Aside (w w' : World) : Prop where
  queue : w'.queue = w.queue
  messages : w'.messages = w.messages
  log : w'.log = w.log
  forks : w'.forkQueue = w.forkQueue
  busy : w'.control ≠ .idle

theorem Delivers.aside (delivers : Delivers w) (aside : Aside w w') :
    Delivers w' := by
  have queued : w'.queued = w.queued := by rw [World.queued, aside.queue, World.queued]
  constructor
  · exact delivers.holds.same aside.queue aside.messages aside.log
  · rw [queued, aside.forks]
    exact delivers.forked
  · intro idle
    exact absurd idle aside.busy

section Aside
variable (h : Handler) (w : World) (fd : Int)

theorem closeclient_aside (busy : w.control ≠ .idle) : Aside w (w.closeclient fd) := by
  unfold World.closeclient
  split <;> exact ⟨rfl, rfl, rfl, rfl, busy⟩

theorem closeFd_aside : Aside w (w.closeFd fd) := by
  unfold World.closeFd
  split <;> exact ⟨rfl, rfl, rfl, rfl, nofun⟩

theorem msgOpen_aside : Aside w (w.msgOpen fd) := by
  unfold World.msgOpen
  split
  · exact ⟨rfl, rfl, rfl, rfl, nofun⟩
  · split <;> exact ⟨rfl, rfl, rfl, rfl, nofun⟩

theorem msgClose_aside : Aside w (w.msgClose h fd) := by
  unfold World.msgClose
  split
  · split
    · exact ⟨rfl, rfl, rfl, rfl, nofun⟩
    · exact closeFd_aside w fd
  · exact ⟨rfl, rfl, rfl, rfl, nofun⟩

theorem msgError_aside : Aside w (w.msgError h fd) := by
  unfold World.msgError
  split
  · exact ⟨rfl, rfl, rfl, rfl, nofun⟩
  · split
    · exact ⟨rfl, rfl, rfl, rfl, nofun⟩
    · exact closeFd_aside w fd

theorem msgWarning_aside : Aside w (w.msgWarning h) := by
  refine ⟨rfl, rfl, rfl, rfl, ?_⟩
  unfold World.msgWarning
  split <;> exact nofun

theorem cmdOpen_aside (conf : Conf) (listened : Option Int) :
    Aside w (w.cmdOpen h conf listened) := by
  unfold World.cmdOpen
  split
  · exact ⟨rfl, rfl, rfl, rfl, nofun⟩
  · split
    · exact ⟨rfl, rfl, rfl, rfl, nofun⟩
    · split
      · exact ⟨rfl, rfl, rfl, rfl, nofun⟩
      · refine ⟨rfl, rfl, rfl, rfl, ?_⟩
        split <;> exact nofun

theorem returned_aside (frame : Frame) : Aside w (w.returned frame) := by
  cases frame with
  | data | connect | other | first | loop => exact ⟨rfl, rfl, rfl, rfl, nofun⟩
  | disconnect fd | error fd => exact closeFd_aside w fd

end Aside

section DispatchMsg
variable (w : World) (fd : Int) (msg : List UInt8) (frame : Frame) (back : Control)

theorem dispatchMsg_queue : (w.dispatchMsg fd msg frame back).queue = w.queue := by
  unfold World.dispatchMsg
  split <;> rfl

theorem dispatchMsg_messages : (w.dispatchMsg fd msg frame back).messages = w.messages := by
  unfold World.dispatchMsg
  split <;> rfl

theorem dispatchMsg_forkQueue : (w.dispatchMsg fd msg frame back).forkQueue = w.forkQueue := by
  unfold World.dispatchMsg
  split <;> rfl

theorem dispatchMsg_busy (busy : back ≠ .idle) :
    (w.dispatchMsg fd msg frame back).control ≠ .idle := by
  unfold World.dispatchMsg
  split
  · exact nofun
  · exact busy

/-- dispatch_msg logs the packet, and drops it only when the connection is closed. -/
theorem dispatchMsg_log : ∃ event, (w.dispatchMsg fd msg frame back).log = w.log ++ [event] ∧
    event.entry = .packet fd msg ∧
      ∀ fd msg, event = .dropped fd msg → w.connection fd ≠ some true := by
  unfold World.dispatchMsg
  split
  · exact ⟨_, rfl, rfl, nofun⟩
  next closed =>
    refine ⟨_, rfl, rfl, ?_⟩
    intro fd' msg' same
    cases same
    exact closed

end DispatchMsg

/- The first packet of the queue becomes the last of the log. -/
theorem Holds.dispatchMsg {v : World} (holds : Holds w) (popped : lpop w.queue = some (np, q))
    (queue : v.queue = some q) (messages : v.messages = w.messages) (log : v.log = w.log)
    (frame : Frame) (back : Control) :
    Holds (v.dispatchMsg np.id (np.buffer.take np.size) frame back) ∧
      w.queued = np :: (v.dispatchMsg np.id (np.buffer.take np.size) frame back).queued := by
  obtain ⟨later, first, shown⟩ := holds.shown.pop_some popped
  obtain ⟨event, logged, entry, -⟩ := dispatchMsg_log v np.id (np.buffer.take np.size) frame back
  have left : (v.dispatchMsg np.id (np.buffer.take np.size) frame back).queued = later := by
    rw [World.queued, dispatchMsg_queue, queue]
    exact shown.items
  refine ⟨⟨?_, fun fd => ?_⟩, ?_⟩
  · rw [dispatchMsg_queue, dispatchMsg_messages, queue, messages, left]
    exact shown
  · rw [logged, dispatchMsg_messages, messages, log, left, ← holds.log fd, first]
    simp [entries, entry, Netpack.delivered]
  · rw [first, left]

theorem dispatchQueue_delivers (holds : Holds w) : Delivers w.dispatchQueue := by
  unfold World.dispatchQueue
  split
  next popped =>
    have nothing := holds.shown.pop_none popped
    exact ⟨holds.same rfl rfl rfl, fun queued => absurd nothing queued, nofun⟩
  next np q popped =>
    refine ⟨?_, fun _ => ?_, fun idle => ?_⟩
    · refine (holds.dispatchMsg popped ?_ ?_ ?_ _ _).1
      all_goals rfl
    · rw [dispatchMsg_forkQueue]
      exact mem_append_right _ (mem_singleton_self _)
    · exact absurd idle (dispatchMsg_busy _ _ _ _ _ nofun)

theorem pop_lpop (popped : w.pop captured = some (np, q)) : lpop w.queue = some (np, q) := by
  unfold World.pop at popped
  exact (ite_none_right_eq_some.mp popped).2

theorem popLoop_delivers (delivers : Delivers w) :
    Delivers (w.popLoop captured) := by
  unfold World.popLoop
  split
  · exact delivers.aside ⟨rfl, rfl, rfl, rfl, nofun⟩
  next np q popped =>
    have dispatched : Holds _ ∧ _ := delivers.holds.dispatchMsg (v := { w with queue := some q })
      (pop_lpop popped) rfl rfl rfl (.loop captured) (.loop captured)
    refine ⟨dispatched.1, fun _ => ?_, fun idle => ?_⟩
    · rw [dispatchMsg_forkQueue]
      apply delivers.forked
      rw [dispatched.2]
      exact cons_ne_nil _ _
    · exact absurd idle (dispatchMsg_busy _ _ _ _ _ nofun)

theorem ended_entries (r : Result) : (ended r).map Event.entry = r.ended := by
  cases r <;> rfl

/- A message, before dispatch. Nothing is queued when it comes. -/
theorem receive_holds {q : Option Queue} (holds : Holds w) (empty : w.queued = [])
    (filled : ∀ id buffer, m = .data id buffer → buffer ≠ [])
    (filtered : lfilter w.queue m = .ok (q, r)) :
    let w' := { w with queue := q, messages := w.messages ++ [m], log := w.log ++ ended r }
    Shows q (fun fd => (parse (stream fd w'.messages)).2) w'.queued ∧
      (r ≠ .more → w'.queued = []) ∧
      ∀ fd, delivered fd (w'.log.map Event.entry ++
        (r.delivered.map fun p => .packet p.1 p.2) ++ entries w'.queued) =
          (parse (stream fd w'.messages)).1 := by
  have shown := holds.shown
  rw [empty] at shown
  obtain ⟨q', r', queued, filtered', answered⟩ := lfilter_spec shown filled
  obtain ⟨rfl, rfl⟩ := Prod.mk.inj (Except.ok.inj (filtered'.symm.trans filtered))
  have items : (getQueue q').ring.items = queued := answered.shown.items
  have alone : r' ≠ .more → (getQueue q').ring.items = [] := by
    intro single
    rw [lfilter_ring filtered single]
    exact empty
  refine ⟨?_, alone, fun fd => ?_⟩
  · change Shows q' _ (getQueue q').ring.items
    rw [items]
    exact answered.shown
  · have before := holds.log fd
    rw [empty] at before
    have after := answered.log fd (w.log.map Event.entry) (by simpa [entries] using before)
    rw [← after, ← items, map_append, ended_entries]
    change delivered fd (_ ++ r'.ended ++ _ ++ entries (getQueue q').ring.items) = _
    cases r' with
    | more => simp [entries, Result.ended]
    | nothing | data | opened | warning | closed | error =>
      rw [alone (by simp)]
      simp [entries, Result.ended, Result.delivered]

theorem dispatchData_delivers {fd : Int} {msg : List UInt8}
    (shown : Shows w.queue (fun fd => (parse (stream fd w.messages)).2) w.queued)
    (alone : w.queued = [])
    (log : ∀ fd', delivered fd' (w.log.map Event.entry ++ [.packet fd msg] ++ entries w.queued) =
      (parse (stream fd' w.messages)).1) :
    Delivers (w.dispatchMsg fd msg .data .between) := by
  obtain ⟨event, logged, entry, -⟩ := dispatchMsg_log w fd msg .data .between
  have queued : (w.dispatchMsg fd msg .data .between).queued = w.queued := by
    rw [World.queued, dispatchMsg_queue, World.queued]
  refine ⟨⟨?_, fun fd' => ?_⟩, fun some' => ?_, fun idle => ?_⟩
  · rw [queued, dispatchMsg_queue, dispatchMsg_messages]
    exact shown
  · rw [queued, logged, dispatchMsg_messages, ← log fd', map_append, map_singleton, entry]
  · exact absurd (queued.trans alone) some'
  · exact absurd idle (dispatchMsg_busy _ _ _ _ _ nofun)

theorem dispatch_delivers
    (shown : Shows w.queue (fun fd => (parse (stream fd w.messages)).2) w.queued)
    (alone : r ≠ .more → w.queued = [])
    (log : ∀ fd, delivered fd (w.log.map Event.entry ++
        (r.delivered.map fun p => .packet p.1 p.2) ++ entries w.queued) =
      (parse (stream fd w.messages)).1) :
    Delivers (w.dispatch h r) := by
  have quiet : r.delivered = [] → Holds w := by
    intro nothing
    refine ⟨shown, fun fd => ?_⟩
    have here := log fd
    rw [nothing] at here
    simpa using here
  have aside : ∀ {w'}, r.delivered = [] → r ≠ .more → Aside w w' → Delivers w' := by
    intro w' nothing single aside
    have queued : w'.queued = [] := by
      rw [World.queued, aside.queue]
      exact alone single
    exact ⟨(quiet nothing).same aside.queue aside.messages aside.log,
      fun some' => absurd queued some', fun idle => absurd idle aside.busy⟩
  cases r with
  | nothing => exact aside rfl nofun ⟨rfl, rfl, rfl, rfl, nofun⟩
  | more => exact dispatchQueue_delivers (quiet rfl)
  | opened fd msg => exact aside rfl nofun (msgOpen_aside w fd)
  | closed fd => exact aside rfl nofun (msgClose_aside h w fd)
  | error fd msg => exact aside rfl nofun (msgError_aside h w fd)
  | warning fd size => exact aside rfl nofun (msgWarning_aside h w)
  | data fd msg => exact dispatchData_delivers shown (alone nofun) log

section
variable (delivers : Delivers w)
include delivers

theorem receive_delivers (idle : w.control = .idle)
    (filled : ∀ id buffer, m = .data id buffer → buffer ≠ []) (taken : w.receive h m = some w') :
    Delivers w' := by
  have empty := delivers.empty idle
  unfold World.receive at taken
  split at taken
  · cases taken
  next q r filtered =>
    cases taken
    obtain ⟨shown, alone, log⟩ := receive_holds delivers.holds empty filled filtered
    exact dispatch_delivers shown alone log

theorem resume_delivers (taken : w.resume i = some w') : Delivers w' := by
  obtain ⟨frame, -, rfl⟩ := map_eq_some_iff.mp taken
  exact delivers.aside ⟨rfl, rfl, rfl, rfl, nofun⟩

theorem startFork_delivers (taken : w.startFork i = some w') : Delivers w' := by
  obtain ⟨forked, present, rfl⟩ := map_eq_some_iff.mp taken
  cases forked with
  | dispatchQueue => exact dispatchQueue_delivers (delivers.holds.same rfl rfl rfl)
  | other =>
    refine ⟨delivers.holds.same rfl rfl rfl, fun queued => ?_, nofun⟩
    obtain ⟨j, copy⟩ := mem_iff_getElem?.mp (delivers.forked queued)
    refine mem_eraseIdx_iff_getElem?.mpr ⟨j, ?_, copy⟩
    rintro rfl
    rw [present] at copy
    cases copy

theorem act_delivers {frame : Frame} (busy : w.control ≠ .idle)
    (taken : w.act frame a = some w') : Delivers w' := by
  cases a with
  | closeclient fd =>
    cases taken
    exact delivers.aside (closeclient_aside w fd busy)
  | fork =>
    cases taken
    exact ⟨delivers.holds.same rfl rfl rfl,
      fun queued => mem_append_left _ (delivers.forked queued), fun idle => absurd idle busy⟩
  | ret =>
    cases taken
    exact delivers.aside (returned_aside w frame)
  | yield | throw =>
    cases taken
    exact delivers.aside ⟨rfl, rfl, rfl, rfl, nofun⟩
  | socket | openCommand | command | response | pop | wakeup | startFork | done => cases taken

end

inductive Steps (h : Handler) (w : World) : Action → World → Prop
  | receive {m : SocketMessage} {w' : World} (idle : w.control = .idle)
      (taken : w.receive h m = some w') : Steps h w (.socket m) w'
  | cmdOpen (conf : Conf) (listened : Option Int) :
      Steps h w (.openCommand conf listened) (w.cmdOpen h conf listened)
  | command : Steps h w .command { w with control := .handler .other }
  | response {i : Nat} {w' : World} (taken : w.resume i = some w') : Steps h w (.response i) w'
  | act {frame : Frame} {a : Action} {w' : World} (running : w.control = .handler frame)
      (taken : w.act frame a = some w') : Steps h w a w'
  | pop {captured : Nat} (looping : w.control = .loop captured) :
      Steps h w .pop (w.popLoop captured)
  | wakeup {i : Nat} {w' : World} (taken : w.resume i = some w') : Steps h w (.wakeup i) w'
  | startFork {i : Nat} {w' : World} (taken : w.startFork i = some w') :
      Steps h w (.startFork i) w'
  | done (none' : w.forkQueue = []) : Steps h w .done { w with control := .idle }

theorem step_steps (taken : step h w a = some w') :
    Steps h w a w' := by
  unfold step at taken
  split at taken
  next idle => exact .receive idle taken
  next => cases taken; exact .cmdOpen _ _
  next => cases taken; exact .command
  next => exact .response taken
  next running => exact .act running taken
  next looping => cases taken; exact .pop looping
  next => exact .wakeup taken
  next => exact .startFork taken
  next =>
    obtain ⟨none', made⟩ := ite_none_right_eq_some.mp taken
    cases made
    exact .done none'
  next => cases taken

def Filled (a : Action) : Prop := ∀ id buffer, a = .socket (.data id buffer) → buffer ≠ []

theorem step_delivers (delivers : Delivers w) (filled : Filled a) (taken : step h w a = some w') :
    Delivers w' := by
  cases step_steps taken with
  | receive idle taken =>
    refine receive_delivers delivers idle ?_ taken
    rintro id buffer rfl
    exact filled id buffer rfl
  | cmdOpen conf listened => exact delivers.aside (cmdOpen_aside h w conf listened)
  | command => exact delivers.aside ⟨rfl, rfl, rfl, rfl, nofun⟩
  | response taken | wakeup taken => exact resume_delivers delivers taken
  | act running taken =>
    refine act_delivers delivers ?_ taken
    rw [running]
    exact nofun
  | pop looping => exact popLoop_delivers delivers
  | startFork taken => exact startFork_delivers delivers taken
  | done none' => exact ⟨delivers.holds.same rfl rfl rfl, delivers.forked, fun _ => none'⟩

theorem start_delivers : Delivers start := by
  refine ⟨⟨?_, fun fd => ?_⟩, fun queued => absurd rfl queued, fun _ => rfl⟩
  · have shown := shows_nil
    simpa [start, stream, parse_nil, World.queued, getQueue] using shown
  · simp [start, stream, parse_nil, delivered, entries, World.queued, getQueue]

end Skynet.Gateserver
