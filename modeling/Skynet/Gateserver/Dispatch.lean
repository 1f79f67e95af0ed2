import Skynet.Gateserver.Clients

/-! What holds over whole runs of the gate, and that dispatch_message comes to its end when the
handlers return. -/
namespace Skynet.Gateserver
open Base LuaNetpack List Function

/-- The log grows, and a packet is dropped only when its connection is closed. -/
def DropsClosed (w w' : World) : Prop :=
  ∃ new, w'.log = w.log ++ new ∧ ∀ fd msg, .dropped fd msg ∈ new → w.connection fd ≠ some true

variable {w w' v : World} {h : Handler} {r : Result} {a : Action} {m : SocketMessage}

theorem DropsClosed.silent (same : w'.log = w.log) : DropsClosed w w' :=
  ⟨[], by rw [same, append_nil], nofun⟩

theorem dispatchMsg_drops (before : List Event) (fd : Int) (msg : List UInt8) (frame : Frame)
    (back : Control) (connection : v.connection = w.connection) (log : v.log = w.log ++ before)
    (none' : ∀ fd msg, .dropped fd msg ∉ before) :
    DropsClosed w (v.dispatchMsg fd msg frame back) := by
  obtain ⟨event, logged, -, closed⟩ := dispatchMsg_log v fd msg frame back
  refine ⟨before ++ [event], by rw [logged, log, append_assoc], ?_⟩
  intro fd' msg' member
  rw [connection] at closed
  rcases mem_append.mp member with member | member
  · exact absurd member (none' fd' msg')
  · exact closed fd' msg' (mem_singleton.mp member).symm

theorem dispatchQueue_drops (connection : v.connection = w.connection) (log : v.log = w.log) :
    DropsClosed w v.dispatchQueue := by
  unfold World.dispatchQueue
  split
  · exact .silent log
  · refine dispatchMsg_drops [] _ _ _ _ ?_ ?_ nofun
    · exact connection
    · rw [append_nil]
      exact log

theorem popLoop_drops (w : World) (captured : Nat) : DropsClosed w (w.popLoop captured) := by
  unfold World.popLoop
  split
  · exact .silent rfl
  · refine dispatchMsg_drops [] _ _ _ _ ?_ ?_ nofun
    · rfl
    · rw [append_nil]

theorem ended_not_dropped (r : Result) (fd : Int) (msg : List UInt8) :
    .dropped fd msg ∉ ended r := by
  cases r <;> simp [ended]

theorem dispatch_drops (connection : v.connection = w.connection) (log : v.log = w.log ++ ended r) :
    DropsClosed w (v.dispatch h r) := by
  have aside : ∀ {v'}, Aside v v' → DropsClosed w v' := fun aside =>
    ⟨ended r, aside.log.trans log, fun fd msg member => absurd member (ended_not_dropped r fd msg)⟩
  cases r with
  | nothing => exact aside ⟨rfl, rfl, rfl, rfl, nofun⟩
  | data fd msg => exact dispatchMsg_drops _ fd msg _ _ connection log (ended_not_dropped _)
  | more =>
    refine dispatchQueue_drops connection ?_
    rw [log]
    exact append_nil _
  | opened fd msg => exact aside (msgOpen_aside v fd)
  | closed fd => exact aside (msgClose_aside h v fd)
  | error fd msg => exact aside (msgError_aside h v fd)
  | warning fd size => exact aside (msgWarning_aside h v)

theorem act_log {frame : Frame} (running : w.control = .handler frame)
    (taken : w.act frame a = some w') : w'.log = w.log := by
  cases a with
  | closeclient fd =>
    cases taken
    refine (closeclient_aside w fd ?_).log
    rw [running]
    exact nofun
  | ret =>
    cases taken
    exact (returned_aside w frame).log
  | fork | yield | throw =>
    cases taken
    rfl
  | socket | openCommand | command | response | pop | wakeup | startFork | done => cases taken

theorem step_drops (taken : step h w a = some w') :
    DropsClosed w w' := by
  cases step_steps taken with
  | receive idle taken =>
    unfold World.receive at taken
    split at taken
    · cases taken
    · cases taken
      exact dispatch_drops rfl rfl
  | cmdOpen conf listened => exact .silent (cmdOpen_aside h w conf listened).log
  | response taken | wakeup taken =>
    obtain ⟨frame, -, rfl⟩ := Option.map_eq_some_iff.mp taken
    exact .silent rfl
  | act running taken => exact .silent (act_log running taken)
  | pop looping => exact popLoop_drops w _
  | startFork taken =>
    obtain ⟨forked, -, rfl⟩ := Option.map_eq_some_iff.mp taken
    cases forked with
    | dispatchQueue => exact dispatchQueue_drops rfl rfl
    | other => exact .silent rfl
  | command | done none' => exact .silent rfl

def Regular (w : World) (a : Action) : Prop := Fresh w a ∧ Filled a

def Control.weight : Control → Nat
  | .idle => 0
  | .between => 1
  | .loop _ => 2
  | .handler _ => 3

/- What is left to do when every handler just returns. -/
def World.work (w : World) : Nat :=
  4 * w.queued.length + 3 * w.forkQueue.length + w.control.weight

theorem weight_le (c : Control) : c.weight ≤ 3 := by
  cases c <;> simp [Control.weight]

theorem aside_work (aside : Aside w w') (lighter : w'.control.weight < w.control.weight) :
    w'.work < w.work := by
  rw [World.work, World.work, World.queued, World.queued, aside.queue, aside.forks]
  omega

theorem dispatchMsg_work {np : Netpack} {q : Queue} (holds : Holds w)
    (popped : lpop w.queue = some (np, q)) (queue : v.queue = some q)
    (messages : v.messages = w.messages) (log : v.log = w.log) (frame : Frame) (back : Control) :
    (v.dispatchMsg np.id (np.buffer.take np.size) frame back).messages = w.messages ∧
      (v.dispatchMsg np.id (np.buffer.take np.size) frame back).work + 1 ≤
        4 * w.queued.length + 3 * v.forkQueue.length := by
  obtain ⟨-, first⟩ := holds.dispatchMsg popped queue messages log frame back
  have length := congrArg List.length first
  have light := weight_le (v.dispatchMsg np.id (np.buffer.take np.size) frame back).control
  rw [length_cons] at length
  refine ⟨(dispatchMsg_messages ..).trans messages, ?_⟩
  rw [World.work, dispatchMsg_forkQueue]
  omega

theorem dispatchQueue_work (holds : Holds w) : w.dispatchQueue.messages = w.messages ∧
    w.dispatchQueue.work ≤ 4 * w.queued.length + 3 * w.forkQueue.length + 2 := by
  unfold World.dispatchQueue
  split
  · exact ⟨rfl, Nat.add_le_add_left (Nat.le_succ 1) _⟩
  next np q popped =>
    obtain ⟨messages, work⟩ := dispatchMsg_work (v := { w with
      queue := some q, forkQueue := w.forkQueue ++ [Forked.dispatchQueue] }) holds popped rfl rfl
      rfl .first (.loop (World.captures { w with queue := some q }))
    rw [length_append, length_singleton] at work
    exact ⟨messages, Nat.le_of_succ_le_succ work⟩

theorem popLoop_work {captured : Nat} (holds : Holds w) (looping : w.control = .loop captured) :
    (w.popLoop captured).messages = w.messages ∧
      (w.popLoop captured).work < w.work := by
  unfold World.popLoop
  split
  · refine ⟨rfl, aside_work ⟨rfl, rfl, rfl, rfl, nofun⟩ ?_⟩
    rw [looping]
    exact Nat.lt_succ_self 1
  next np q popped =>
    obtain ⟨messages, work⟩ := dispatchMsg_work (v := { w with queue := some q }) holds
      (pop_lpop popped) rfl rfl rfl (.loop captured) (.loop captured)
    refine ⟨messages, Nat.lt_of_lt_of_le work ?_⟩
    exact Nat.le_add_right _ _

theorem startFork_work {forked : Forked} {later : List Forked} (holds : Holds w)
    (waiting : w.control = .between) (first : w.forkQueue = forked :: later) :
    ∃ w', w.startFork 0 = some w' ∧ w'.messages = w.messages ∧ w'.work < w.work := by
  have before : w.work = 4 * w.queued.length + 3 * (later.length + 1) + 1 := by
    rw [World.work, first, waiting]
    rfl
  cases forked with
  | dispatchQueue =>
    have holds' : Holds { w with forkQueue := later } := holds.same rfl rfl rfl
    obtain ⟨messages, work⟩ := dispatchQueue_work holds'
    refine ⟨World.dispatchQueue { w with forkQueue := later }, ?_, messages, ?_⟩
    · unfold World.startFork
      rw [first]
      rfl
    · change _ ≤ 4 * w.queued.length + 3 * later.length + 2 at work
      omega
  | other =>
    refine ⟨{ w with forkQueue := later, control := .handler .other }, ?_, rfl, ?_⟩
    · unfold World.startFork
      rw [first]
      rfl
    · change 4 * w.queued.length + 3 * later.length + 3 < _
      omega

theorem returned_lighter (w : World) (frame : Frame) : (w.returned frame).control.weight < 3 := by
  cases frame with
  | data | connect | other | first | loop => simp [World.returned, Control.weight]
  | disconnect fd | error fd =>
    simp only [World.returned, World.closeFd]
    split <;> simp [Control.weight]

/- In every state but idle there is a step that leaves less to do. -/
theorem works_on (h : Handler) (delivers : Delivers w) (busy : w.control ≠ .idle) :
    ∃ a w', Regular w a ∧ step h w a = some w' ∧ w'.messages = w.messages ∧ w'.work < w.work := by
  cases control : w.control with
  | idle => exact absurd control busy
  | handler frame =>
    have taken : step h w .ret = some (w.returned frame) := by
      unfold step
      rw [control]
      rfl
    refine ⟨.ret, _, ⟨trivial, nofun⟩, taken, (returned_aside w frame).messages, ?_⟩
    apply aside_work (returned_aside w frame)
    rw [control]
    exact returned_lighter w frame
  | loop captured =>
    have taken : step h w .pop = some (w.popLoop captured) := by
      unfold step
      rw [control]
    obtain ⟨messages, work⟩ := popLoop_work delivers.holds control
    exact ⟨.pop, _, ⟨trivial, nofun⟩, taken, messages, work⟩
  | between =>
    cases forks : w.forkQueue with
    | nil =>
      have taken : step h w .done = some { w with control := .idle } := by
        unfold step
        rw [control]
        exact if_pos forks
      refine ⟨.done, _, ⟨trivial, nofun⟩, taken, rfl, ?_⟩
      rw [World.work, World.work, control]
      exact Nat.lt_succ_self _
    | cons forked later =>
      obtain ⟨w', started, messages, work⟩ := startFork_work delivers.holds control forks
      have taken : step h w (.startFork 0) = some w' := by
        unfold step
        rw [control]
        exact started
      exact ⟨.startFork 0, w', ⟨trivial, nofun⟩, taken, messages, work⟩

theorem comes_to_idle (h : Handler) (delivers : Delivers w) :
    ∃ w', Reaches (step h) Regular w w' ∧ w'.control = .idle ∧ w'.messages = w.messages := by
  induction bound : w.work using Nat.strong_induction_on generalizing w with
  | _ n ih =>
    by_cases idle : w.control = .idle
    · exact ⟨w, .start, idle, rfl⟩
    · obtain ⟨a, v, regular, taken, messages, less⟩ := works_on h delivers idle
      obtain ⟨w', reached, idle', same⟩ :=
        ih v.work (bound ▸ less) (step_delivers delivers regular.2 taken) rfl
      exact ⟨w', (Reaches.next .start regular taken).trans reached, idle', same.trans messages⟩

theorem receive_eq {q : Option Queue} (filtered : lfilter w.queue m = .ok (q, r)) :
    w.receive h m = some (World.dispatch h { w with
      queue := q, messages := w.messages ++ [m], log := w.log ++ ended r } r) := by
  simp only [World.receive, filtered]

theorem receive_some (delivers : Delivers w) (idle : w.control = .idle)
    (filled : Filled (.socket m)) :
    ∃ w', step h w (.socket m) = some w' := by
  have shown := delivers.holds.shown
  rw [delivers.empty idle] at shown
  obtain ⟨q, r, -, filtered, -⟩ := lfilter_spec (m := m) shown fun id buffer same =>
    filled id buffer (congrArg Action.socket same)
  unfold step
  rw [idle]
  exact ⟨_, receive_eq filtered⟩

/-- In every run in which accepted connections are not in the table any more: whenever a socket
message has been dispatched, the queue is empty and the packets started or dropped are those of
the messages, per connection in their order, and only packets of closed connections are dropped;
client_number is the size of the table and within maxclient; and when the handlers return,
every message is dispatched to its end. -/
theorem gateserver_delivery (h : Handler) (w : World)
    (run : Reaches (step h) Regular start w) :
    (w.control = .idle → lpop w.queue = none ∧
      ∀ fd, delivered fd (w.log.map Event.entry) = (parse (stream fd w.messages)).1) ∧
    (∃ fds : Finset Int, (∀ fd, fd ∈ fds ↔ w.connection fd ≠ none) ∧ w.clientNumber = fds.card) ∧
    (∀ maxclient, w.maxclient = some maxclient → w.clientNumber ≤ maxclient) ∧
    (∀ a w', step h w a = some w' → DropsClosed w w') ∧
    (w.control = .idle → ∀ m, Filled (.socket m) → ∃ w', step h w (.socket m) = some w') ∧
    ∃ w', Reaches (step h) Regular w w' ∧ w'.control = .idle ∧ w'.messages = w.messages := by
  obtain ⟨delivers, counted⟩ : Delivers w ∧ Counted w := by
    refine run.invariant (fun w => Delivers w ∧ Counted w) ⟨start_delivers, start_counted⟩ ?_
    intro s a s' ⟨delivers, counted⟩ regular taken
    exact ⟨step_delivers delivers regular.2 taken, step_counted counted regular.1 taken⟩
  refine ⟨fun idle => ⟨?_, fun fd => ?_⟩, counted.clients, counted.within,
    fun a w' taken => step_drops taken, fun idle m filled => receive_some delivers idle filled,
    comes_to_idle h delivers⟩
  · cases popped : lpop w.queue with
    | none => rfl
    | some taken =>
      obtain ⟨later, first, -⟩ := delivers.holds.shown.pop_some popped
      rw [delivers.empty idle] at first
      cases first
  · have log := delivers.holds.log fd
    rw [delivers.empty idle] at log
    simpa [entries] using log

def checked (w : World) : Action → Bool
  | .socket (.accept _ fd _) => w.connection fd = none
  | .socket (.data _ buffer) => buffer ≠ []
  | .openCommand conf _ => w.clientNumber ≤ conf.maxclient.getD 1024
  | _ => true

theorem checked_regular (w : World) (a : Action) (passed : checked w a = true) :
    Regular w a := by
  constructor
  · unfold Fresh
    split
    · exact .inl (of_decide_eq_true passed)
    · exact of_decide_eq_true passed
    · trivial
  · rintro id buffer rfl
    exact of_decide_eq_true passed

def allHandlers : Handler := ⟨true, true, true, true⟩

theorem two_packets : lfilter none (.data 5 [0, 1, 7, 0, 1, 8]) =
    .ok (some (pushData (some (pushData none 5 [7, 0, 1, 8] 1)) 5 [8] 1), .more) := by
  have pushed : ∀ q, pushMore (some q) 5 [0, 1, 8] = .ok (some (pushData (some q) 5 [8] 1)) := by
    intro q
    rw [pushMore]
    rfl
  change ((pushMore (some (pushData none 5 [7, 0, 1, 8] 1)) 5 [0, 1, 8]).map _) = _
  rw [pushed]
  rfl

/- The handler of the first packet blocks, and a forked copy takes the second. -/
theorem gateserver_delivery_blocked : ∃ w, Reaches (step allHandlers) Regular start w ∧
    w.control = .idle ∧ w.blocked = [.first] ∧ lpop w.queue = none ∧
    delivered 5 (w.log.map Event.entry) = [[7], [8]] := by
  obtain ⟨w₁, opened⟩ : ∃ w, [Action.openCommand ⟨some 8888, some 1⟩ (some 3), .ret, .done,
      .socket (.accept 3 5 []), .ret, .done].foldlM
      (fun w a => if checked w a then step allHandlers w a else none) start = some w := ⟨_, rfl⟩
  have first := reaches_of_checked checked checked_regular _ opened
  obtain ⟨w₂, received⟩ : ∃ w, step allHandlers w₁ (.socket (.data 5 [0, 1, 7, 0, 1, 8])) =
      some w := by
    cases opened
    exact ⟨_, receive_eq two_packets⟩
  have second := first.next (checked_regular _ _ rfl) received
  obtain ⟨w, finished⟩ : ∃ w, [Action.yield, .startFork 0, .ret, .pop, .startFork 0, .done].foldlM
      (fun w a => if checked w a then step allHandlers w a else none) w₂ = some w := by
    cases opened
    cases (receive_eq two_packets).symm.trans received
    exact ⟨_, rfl⟩
  have run := second.trans (reaches_of_checked checked checked_regular _ finished)
  cases opened
  cases (receive_eq two_packets).symm.trans received
  cases finished
  obtain ⟨settled, -⟩ := gateserver_delivery allHandlers _ run
  obtain ⟨empty, log⟩ := settled rfl
  have parsed : (parse (stream 5 [.accept 3 5 [], .data 5 [0, 1, 7, 0, 1, 8]])).1 = [[7], [8]] := by
    simp [stream, streamStep, parse]
  exact ⟨_, run, rfl, rfl, empty, (log 5).trans parsed⟩

/- The handler of a closed connection throws, and its number is used again: client_number
counts it twice. -/
theorem gateserver_delivery_twice : ∃ w, Run (step allHandlers) start w ∧ w.control = .idle ∧
    ¬ ∃ fds : Finset Int, (∀ fd, fd ∈ fds ↔ w.connection fd ≠ none) ∧
      w.clientNumber = fds.card := by
  obtain ⟨w, taken⟩ : ∃ w, [Action.openCommand ⟨some 8888, some 2⟩ (some 3), .ret, .done,
      .socket (.accept 3 5 []), .ret, .done, .socket (.close 5), .throw, .done,
      .socket (.accept 3 5 []), .ret, .done].foldlM (step allHandlers) start = some w := ⟨_, rfl⟩
  have run := run_of_list _ taken
  have number : w.clientNumber = 2 := by cases taken; rfl
  have table : w.connection = update (update (fun _ => none) 5 (some true)) 5 (some true) := by
    cases taken
    rfl
  have one : ∀ fd, w.connection fd ≠ none → fd = 5 := by
    intro fd present
    by_contra other
    rw [table, update_of_ne other, update_of_ne other] at present
    exact present rfl
  refine ⟨w, run, by cases taken; rfl, ?_⟩
  rintro ⟨fds, members, counted⟩
  have few : fds ⊆ {5} := by
    intro fd member
    exact Finset.mem_singleton.mpr (one fd ((members fd).mp member))
  have bound := Finset.card_le_card few
  rw [Finset.card_singleton] at bound
  omega

end Skynet.Gateserver
