import Mathlib

/-! The Lua side of a service, skynet.lua: the tables that the dispatcher keeps about coroutines
and sessions. What the code of a service computes is left open, a running coroutine takes any of
the operations of the library it likes. -/
namespace Skynet.Lualib
open Function Option

abbrev Coroutine := Nat
abbrev Session := Nat
abbrev Address := Nat

inductive Target where
  | handle (address : Address)
  | name (text : String)
  deriving DecidableEq, Repr

/-- The values of session_id_coroutine. -/
inductive Entry where
  | co (co : Coroutine)
  | broken
  deriving DecidableEq, Repr

/-- Where a coroutine stands. One in the pool takes what it is resumed with for its next
function, and dies of it when it is created again; one that is parked has yielded a command after
which nothing resumes it. -/
inductive Place where
  | pooled
  | spoiled
  | created
  | timeout (session : Session)
  | call (session : Session)
  | sleep (session : Session)
  | wait (session : Session)
  | running
  | parked
  | dead
  deriving DecidableEq, Repr

def Place.session : Place → Option Session
  | .timeout session | .call session | .sleep session | .wait session => some session
  | .pooled | .spoiled | .created | .running | .parked | .dead => none

def Place.calls : Place → Option Session
  | .call session => some session
  | _ => none

def Place.sleeps : Place → Option Session
  | .sleep session | .wait session => some session
  | _ => none

/-- Where the main thread stands: between two messages, in a coroutine, before dispatch_wakeup
or dispatch_error_queue in suspend, or in the loop over fork_queue. Each pending call of suspend
is one that has to go on with dispatch_error_queue. -/
inductive Control where
  | idle
  | running (co : Coroutine) (pending : Nat)
  | wakeup (pending : Nat)
  | errors (pending : Nat)
  | forks
  deriving DecidableEq, Repr

inductive Reason where
  | start
  | response (session : Session)
  | failure (session : Session)
  | wakeup
  deriving DecidableEq, Repr

section Requests

inductive Ptype where
  | response
  | error
  deriving DecidableEq, Repr

structure Sent where
  dest : Address
  type : Ptype
  session : Session
  deriving DecidableEq, Repr

/-- The packing function that a response closure holds: its `f`, false or nil. -/
inductive Packer where
  | ready
  | refused
  | used
  deriving DecidableEq, Repr

structure Response where
  address : Address
  session : Session
  f : Packer
  deriving DecidableEq, Repr

/-- The tables about the requests that others have made; a closure is in unresponse while its
packer is ready. -/
structure Requests where
  sessionCoroutineId : Coroutine → Option Session
  sessionCoroutineAddress : Coroutine → Option Address
  sessionResponse : Coroutine → Bool
  responses : List Response
  watchingService : Address → Option Nat
  deadService : Address → Bool
  sent : List Sent

variable (r : Requests) (co : Coroutine)

def Requests.send (dest : Address) (type : Ptype) (session : Session) : Requests :=
  { r with sent := r.sent ++ [⟨dest, type, session⟩] }

def Requests.releaseWatching (address : Address) : Requests :=
  match r.watchingService address with
  | none => r
  | some ref =>
    { r with
      watchingService :=
        update r.watchingService address (if 0 < ref - 1 then some (ref - 1) else none) }

/-- A request is dispatched in a coroutine. -/
def Requests.dispatch (session : Session) (source : Address) : Requests :=
  { r with
    watchingService :=
      update r.watchingService source (some ((r.watchingService source).getD 0 + 1))
    sessionCoroutineId := update r.sessionCoroutineId co (some session)
    sessionCoroutineAddress := update r.sessionCoroutineAddress co (some source) }

/- The coroutine may be a fork, and then there is nobody to tell. -/
def Requests.failed : Requests :=
  match r.sessionCoroutineId co, r.sessionCoroutineAddress co with
  | some session, some addr =>
    let r := if session ≠ 0 then r.send addr .error session else r
    { r with
      sessionCoroutineId := update r.sessionCoroutineId co none
      sessionCoroutineAddress := update r.sessionCoroutineAddress co none }
  | _, _ => r

/-- The command RETURN, and whether it goes through. -/
def Requests.ret (param delivered : Bool) : Requests × Bool :=
  if !param || r.sessionResponse co then (r, false)
  else
    let r := { r with sessionResponse := update r.sessionResponse co true }
    match r.sessionCoroutineAddress co, r.sessionCoroutineId co with
    | some address, some session =>
      if r.deadService address then (r, true)
      else
        let r := r.send address .response session
        (if delivered then r else r.send address .error session, true)
    | _, _ => (r, false)

/-- The command RESPONSE. -/
def Requests.response : Requests × Bool :=
  if r.sessionResponse co then (r, false)
  else
    match r.sessionCoroutineAddress co, r.sessionCoroutineId co with
    | some address, some session =>
      match r.watchingService address with
      | some ref =>
        ({ r with
          watchingService := update r.watchingService address (some (ref + 1))
          sessionResponse := update r.sessionResponse co true
          responses := r.responses ++ [⟨address, session, .ready⟩] }, true)
      | none => (r, false)
    | _, _ => (r, false)

/-- The command EXIT. -/
def Requests.exit : Requests :=
  let r := match r.sessionCoroutineAddress co with
    | some address => r.releaseWatching address
    | none => r
  { r with
    sessionCoroutineId := update r.sessionCoroutineId co none
    sessionCoroutineAddress := update r.sessionCoroutineAddress co none
    sessionResponse := update r.sessionResponse co false }

inductive Answer where
  | test
  | ok (delivered : Bool)
  | failed
  deriving DecidableEq, Repr

def Requests.setPacker (index : Nat) (response : Response) (f : Packer) : Requests :=
  { r with responses := r.responses.set index { response with f := f } }

/-- A response closure is called. One that was used raises an error in its caller. -/
def Requests.respond (index : Nat) (response : Response) : Answer → Requests
  | .test =>
    if r.deadService response.address then
      (r.releaseWatching response.address).setPacker index response .refused
    else r
  | .ok delivered =>
    match response.f with
    | .refused => r.setPacker index response .used
    | .used => r
    | .ready =>
      let r := if r.deadService response.address then r
        else
          let r := r.send response.address .response response.session
          if delivered then r else r.send response.address .error response.session
      (r.releaseWatching response.address).setPacker index response .used
  | .failed =>
    match response.f with
    | .refused => r.setPacker index response .used
    | .used => r
    | .ready =>
      let r := if r.deadService response.address then r
        else r.send response.address .error response.session
      (r.releaseWatching response.address).setPacker index response .used

/-- The closures that skynet.exit finds in unresponse are answered with an error. -/
def Requests.close : Requests :=
  (List.range r.responses.length).foldl (fun r index =>
    match r.responses[index]? with
    | some response => if response.f = .ready then r.respond index response .failed else r
    | none => r) r

end Requests

/-- The fields after `closed` record what has happened to the calls: the sessions of the calls
that were made, those that an answer has come for, how each coroutine in a call was resumed, and
whether something else than a coroutine was. -/
structure Service where
  sessionIdCoroutine : Session → Option Entry
  wakeupSession : List Coroutine
  sleepSession : Coroutine → Option Session
  watchingSession : List (Session × Target)
  errorQueue : List Session
  forkQueue : List (Nat × Coroutine)
  requests : Requests
  sessionId : Nat
  place : Coroutine → Place
  control : Control
  succ : Bool
  closed : Bool
  asked : List Session
  answered : List Session
  resumed : List (Session × Reason)
  resumedNil : Bool

/-- A service after skynet.start, with the timeout that its start function waits for. -/
def Service.start : Service where
  sessionIdCoroutine := update (fun _ => none) 1 (some (.co 0))
  wakeupSession := []
  sleepSession := fun _ => none
  watchingSession := []
  errorQueue := []
  forkQueue := []
  requests :=
    ⟨fun _ => none, fun _ => none, fun _ => false, [], fun _ => none, fun _ => false, []⟩
  sessionId := 1
  place := update (fun _ => .pooled) 0 (.timeout 1)
  control := .idle
  succ := true
  closed := false
  asked := []
  answered := []
  resumed := []
  resumedNil := false

section Suspend
variable (s : Service) (co : Coroutine) (pending : Nat)

def Service.setPlace (place : Place) : Service :=
  { s with place := update s.place co place }

def Service.setEntry (session : Session) (entry : Option Entry) : Service :=
  { s with sessionIdCoroutine := update s.sessionIdCoroutine session entry }

def Service.setSleep (session : Option Session) : Service :=
  { s with sleepSession := update s.sleepSession co session }

@[simp] theorem setPlace_here (place : Place) : (s.setPlace co place).place co = place :=
  update_self ..

theorem setPlace_other (place : Place) {c : Coroutine} (other : c ≠ co) :
    (s.setPlace co place).place c = s.place c :=
  update_of_ne other ..

@[simp] theorem setEntry_here (session : Session) (entry : Option Entry) :
    (s.setEntry session entry).sessionIdCoroutine session = entry :=
  update_self ..

theorem setEntry_other {session key : Session} (entry : Option Entry) (other : key ≠ session) :
    (s.setEntry session entry).sessionIdCoroutine key = s.sessionIdCoroutine key :=
  update_of_ne other ..

/-- An error goes up to the pcall of dispatch_message. -/
def abort : Service := { s with control := .forks, succ := false }

/-- A call of suspend returns, to the call of dispatch_wakeup that made it or to
dispatch_message. -/
def returned : Service :=
  match pending with
  | 0 => { s with control := .forks }
  | pending + 1 => { s with control := .errors pending }

def suspendFailed : Service :=
  abort { s.setPlace co .dead with requests := s.requests.failed co }

/-- The coroutine goes on in its code. -/
def Service.run : Service := { s.setPlace co .running with control := .running co pending }

/-- coroutine_resume, with what the library does first when the coroutine goes on in yield_call,
skynet.sleep or skynet.wait. -/
def resume (reason : Reason) : Service :=
  match s.place co with
  | .call session =>
    { s with
      watchingSession := s.watchingSession.filter (·.1 ≠ session)
      resumed := s.resumed ++ [(session, reason)] }.run co pending
  | .sleep _ => (s.setSleep co none).run co pending
  | .wait session => ((s.setSleep co none).setEntry session none).run co pending
  | .created | .timeout _ | .parked => s.run co pending
  | .pooled => returned (s.setPlace co .spoiled) pending
  | .spoiled | .running | .dead => suspendFailed s co

/-- `choice` is what next finds in wakeup_session. -/
def dispatchWakeup (choice : Option Coroutine) : Option Service :=
  match choice with
  | none => if s.wakeupSession = [] then some { s with control := .errors pending } else none
  | some co =>
    if co ∈ s.wakeupSession then
      let s := { s with wakeupSession := s.wakeupSession.filter (· ≠ co) }
      match s.sleepSession co with
      | none => some { s with control := .errors pending }
      | some session =>
        some (resume (s.setEntry session (some .broken)) co (pending + 1) .wakeup)
    else none

def dispatchErrorQueue : Service :=
  match s.errorQueue with
  | [] => returned s pending
  | session :: rest =>
    let s' := { s with errorQueue := rest }.setEntry session none
    match s.sessionIdCoroutine session with
    | some (.co co) => resume s' co pending (.failure session)
    | some .broken | none => abort { s' with resumedNil := true }

end Suspend

section Coroutines
variable (s : Service) (co : Coroutine) (pending : Nat)

/-- The sessions of a context are positive 32-bit integers. -/
def newsession : Session :=
  if s.sessionId + 1 < 2 ^ 31 then s.sessionId + 1 else 1

def coCreate (new : Coroutine) (place : Place) : Option Service :=
  match s.place new with
  | .pooled => some (s.setPlace new place)
  | .spoiled => some (s.setPlace new .dead)
  | _ => none

def wakeup (target : Coroutine) : Service :=
  if s.sleepSession target ≠ none ∧ target ∉ s.wakeupSession then
    { s with wakeupSession := s.wakeupSession ++ [target] }
  else s

/-- The values that the length operator of Lua may give. -/
def IsBorder (queue : List (Nat × Coroutine)) (n : Nat) : Prop :=
  (n = 0 ∨ n ∈ queue.map Prod.fst) ∧ n + 1 ∉ queue.map Prod.fst

instance (queue : List (Nat × Coroutine)) (n : Nat) : Decidable (IsBorder queue n) :=
  inferInstanceAs (Decidable (_ ∧ _))

def fork (border : Nat) (new : Coroutine) : Option Service :=
  if IsBorder s.forkQueue border then
    (coCreate s new .created).map fun s =>
      { s with forkQueue := s.forkQueue ++ [(border + 1, new)] }
  else none

/- The assertion that the session is free fails after the coroutine has been created. -/
def timeout (new : Coroutine) : Option Service :=
  let session := newsession s
  let s := { s with sessionId := session }
  if s.sessionIdCoroutine session = none then
    (coCreate s new (.timeout session)).map (·.setEntry session (some (.co new)))
  else coCreate s new .created

/-- skynet.call up to its yield, and the command CALL. -/
def call (target : Target) : Service :=
  let session := newsession s
  { (s.setPlace co (.call session)).setEntry session (some (.co co)) with
    sessionId := session
    watchingSession := s.watchingSession.filter (·.1 ≠ session) ++ [(session, target)]
    control := .wakeup pending
    asked := s.asked ++ [session] }

/-- skynet.sleep or skynet.wait up to its yield, and the command SLEEP. -/
def sleep (place : Session → Place) : Service :=
  let session := newsession s
  let s := (s.setPlace co (place session)).setEntry session (some (.co co))
  { s.setSleep co (some session) with
    sessionId := session
    control := .wakeup pending }

/-- The command EXIT: the coroutine is in the pool. -/
def exit : Service :=
  { s.setPlace co .pooled with requests := s.requests.exit co, control := .wakeup pending }

/-- skynet.exit and the command QUIT. -/
def quit : Service :=
  let s := { s.setPlace co .parked with forkQueue := [], requests := s.requests.close }
  returned { s with closed := true } pending

inductive Op where
  | wakeup (target : Coroutine)
  | fork (border : Nat) (new : Coroutine)
  | timeout (new : Coroutine)
  | genid
  | call (target : Target)
  | sleep
  | wait
  | ret (param delivered : Bool)
  | response
  | respond (index : Nat) (answer : Answer)
  | exit
  | quit
  | invalid
  | debug
  | fail
  deriving DecidableEq, Repr

/-- A command that answers the coroutine at once, or raises an error in suspend. -/
def answered (result : Requests × Bool) : Service :=
  if result.2 then { s with requests := result.1 }
  else abort { s.setPlace co .parked with requests := result.1 }

/-- What a running coroutine does; the commands USER and those that suspend does not know are
invalid, and debug is a yield without a command. -/
def perform : Op → Option Service
  | .wakeup target => some (wakeup s target)
  | .fork border new => fork s border new
  | .timeout new => timeout s new
  | .genid => some { s with sessionId := newsession s }
  | .call target => some (call s co pending target)
  | .sleep => some (sleep s co pending .sleep)
  | .wait => some (sleep s co pending .wait)
  | .ret param delivered => some (answered s co (s.requests.ret co param delivered))
  | .response => some (answered s co (s.requests.response co))
  | .respond index answer =>
    s.requests.responses[index]?.map fun response =>
      { s with requests := s.requests.respond index response answer }
  | .exit => some (exit s co pending)
  | .quit => some (quit s co pending)
  | .invalid => some (abort (s.setPlace co .parked))
  | .debug => some (returned (s.setPlace co .parked) pending)
  | .fail => some (suspendFailed s co)

end Coroutines

section Messages
variable (s : Service)

/-- The messages of the C side; `new` is the coroutine that is created for one, and `unpacked`
whether the unpack function of its protocol goes through. -/
inductive Message where
  | response (session : Session)
  | error (session : Session) (source : Address) (new : Coroutine) (order : List Session)
  | request (session : Session) (source : Address) (new : Coroutine) (unpacked : Bool)
  | unknown (session : Session) (source : Address)
  | undispatched
  deriving DecidableEq, Repr

def watchers (source : Address) : List Session :=
  (s.watchingSession.filter (·.2 = .handle source)).map Prod.fst

/-- `order` is the order in which pairs visits watching_session. -/
def errorDispatch (session : Session) (source : Address) (order : List Session) :
    Option Service :=
  if session = 0 then
    if order.Perm (watchers s source) then
      some { s with
        requests := { s.requests with
          deadService := if s.requests.watchingService source = none then s.requests.deadService
            else update s.requests.deadService source true }
        errorQueue := s.errorQueue ++ order
        answered := s.answered ++ order }
    else none
  else if session ∈ s.watchingSession.map Prod.fst then
    some { s with
      errorQueue := s.errorQueue ++ [session], answered := s.answered ++ [session] }
  else some s

def rawResponse (session : Session) : Service :=
  match s.sessionIdCoroutine session with
  | some .broken => { s.setEntry session none with control := .forks }
  | none => abort s
  | some (.co co) =>
    let watched := if session ∈ s.watchingSession.map Prod.fst then [session] else []
    resume { s.setEntry session none with answered := s.answered ++ watched } co 0
      (.response session)

def rawRequest (session : Session) (source : Address) (new : Coroutine) (unpacked : Bool) :
    Option Service :=
  (coCreate s new .created).map fun s =>
    let s := { s with requests := s.requests.dispatch new session source }
    if unpacked then resume s new 0 .start else abort s

/- A coroutine that runs the dispatch function of errors returns from it at once. -/
def rawError (session : Session) (source : Address) (new : Coroutine) (order : List Session) :
    Option Service :=
  (rawRequest s session source new true).bind fun s =>
    if s.control = .running new 0 then
      (errorDispatch s session source order).map fun s => exit s new 0
    else some s

def rawDispatchMessage : Message → Option Service
  | .response session => some (rawResponse s session)
  | .error session source new order => rawError s session source new order
  | .request session source new unpacked => rawRequest s session source new unpacked
  | .unknown session source =>
    if session ≠ 0 then
      some { s with control := .forks, requests := s.requests.send source .error session }
    else some (abort s)
  | .undispatched => some (abort s)

/-- A turn of the loop over fork_queue; `choice` is the key that next finds. -/
def nextFork (choice : Option Nat) : Option Service :=
  match choice with
  | none => if s.forkQueue = [] then some { s with control := .idle } else none
  | some key =>
    (s.forkQueue.find? (·.1 = key)).map fun entry =>
      resume { s with forkQueue := s.forkQueue.filter (·.1 ≠ key) } entry.2 0 .start

inductive Action where
  | message (message : Message)
  | op (op : Op)
  | wakeup (choice : Option Coroutine)
  | errors
  | fork (choice : Option Nat)
  deriving DecidableEq, Repr

def step : Action → Option Service
  | .message message =>
    if s.control = .idle ∧ s.closed = false then
      rawDispatchMessage { s with succ := true } message
    else none
  | .op op =>
    match s.control with
    | .running co pending => perform s co pending op
    | _ => none
  | .wakeup choice =>
    match s.control with
    | .wakeup pending => dispatchWakeup s pending choice
    | _ => none
  | .errors =>
    match s.control with
    | .errors pending => some (dispatchErrorQueue s pending)
    | _ => none
  | .fork choice =>
    match s.control with
    | .forks => nextFork s choice
    | _ => none

end Messages

section Inversion
variable {s s' : Service} {pending : Nat}

theorem step_message {message : Message} (taken : step s (.message message) = some s') :
    s.control = .idle ∧ rawDispatchMessage { s with succ := true } message = some s' := by
  simp only [step, ite_none_right_eq_some] at taken
  exact ⟨taken.1.1, taken.2⟩

theorem step_op {op : Op} (taken : step s (.op op) = some s') :
    ∃ co pending, s.control = .running co pending ∧ perform s co pending op = some s' := by
  simp only [step] at taken
  split at taken
  · rename_i co pending control
    exact ⟨co, pending, control, taken⟩
  · cases taken

variable {choice : Option Coroutine} {session : Session} {source : Address}

theorem step_wakeup (taken : step s (.wakeup choice) = some s') :
    ∃ pending, s.control = .wakeup pending ∧ dispatchWakeup s pending choice = some s' := by
  simp only [step] at taken
  split at taken
  · rename_i pending control
    exact ⟨pending, control, taken⟩
  · cases taken

theorem step_errors (taken : step s .errors = some s') :
    ∃ pending, s.control = .errors pending ∧ s' = dispatchErrorQueue s pending := by
  simp only [step] at taken
  split at taken
  · rename_i pending control
    exact ⟨pending, control, (some.inj taken).symm⟩
  · cases taken

theorem step_fork {choice : Option Nat} (taken : step s (.fork choice) = some s') :
    s.control = .forks ∧ nextFork s choice = some s' := by
  simp only [step] at taken
  split at taken
  · rename_i control
    exact ⟨control, taken⟩
  · cases taken

theorem coCreate_cases {new : Coroutine} {p : Place} (made : coCreate s new p = some s') :
    (s.place new = .pooled ∧ s' = s.setPlace new p) ∨
      (s.place new = .spoiled ∧ s' = s.setPlace new .dead) := by
  unfold coCreate at made
  split at made
  · rename_i pooled
    exact .inl ⟨pooled, (some.inj made).symm⟩
  · rename_i spoiled
    exact .inr ⟨spoiled, (some.inj made).symm⟩
  · cases made

theorem errorDispatch_eq {order : List Session}
    (taken : errorDispatch s session source order = some s') :
    ∃ dead queue answered, s' = { s with
      requests := { s.requests with deadService := dead }
      errorQueue := queue, answered := answered } := by
  unfold errorDispatch at taken
  split at taken
  · exact ⟨_, _, _, (some.inj (ite_none_right_eq_some.mp taken).2).symm⟩
  · split at taken
    · exact ⟨_, _, _, (some.inj taken).symm⟩
    · exact ⟨_, _, _, (some.inj taken).symm⟩

theorem unknown_eq (taken : rawDispatchMessage s (.unknown session source) = some s') :
    ∃ requests succ, s' = { s with control := .forks, requests := requests, succ := succ } ∧
      (requests = s.requests ∨ requests = s.requests.send source .error session) := by
  dsimp only [rawDispatchMessage] at taken
  split at taken
  · exact ⟨_, _, (some.inj taken).symm, .inr rfl⟩
  · exact ⟨_, _, (some.inj taken).symm, .inl rfl⟩

theorem dispatchWakeup_cases (taken : dispatchWakeup s pending choice = some s') :
    (s.wakeupSession = [] ∧ s' = { s with control := .errors pending }) ∨
    ∃ co ∈ s.wakeupSession,
      (s.sleepSession co = none ∧
        s' = { s with
          wakeupSession := s.wakeupSession.filter (· ≠ co), control := .errors pending }) ∨
      ∃ session, s.sleepSession co = some session ∧
        s' = resume ({ s with wakeupSession := s.wakeupSession.filter (· ≠ co) }.setEntry session
          (some .broken)) co (pending + 1) .wakeup := by
  cases choice with
  | none =>
    simp only [dispatchWakeup, ite_none_right_eq_some, Option.some.injEq] at taken
    exact .inl ⟨taken.1, taken.2.symm⟩
  | some co =>
    simp only [dispatchWakeup, ite_none_right_eq_some] at taken
    obtain ⟨member, taken⟩ := taken
    refine .inr ⟨co, member, ?_⟩
    cases sleeping : s.sleepSession co with
    | none =>
      rw [sleeping] at taken
      exact .inl ⟨rfl, (some.inj taken).symm⟩
    | some session =>
      rw [sleeping] at taken
      exact .inr ⟨session, rfl, (some.inj taken).symm⟩

theorem nextFork_cases {choice : Option Nat} (taken : nextFork s choice = some s') :
    (s.forkQueue = [] ∧ s' = { s with control := .idle }) ∨
    ∃ key co, (key, co) ∈ s.forkQueue ∧
      s' = resume { s with forkQueue := s.forkQueue.filter (·.1 ≠ key) } co 0 .start := by
  cases choice with
  | none =>
    simp only [nextFork, ite_none_right_eq_some, Option.some.injEq] at taken
    exact .inl ⟨taken.1, taken.2.symm⟩
  | some key =>
    obtain ⟨⟨found, co⟩, first, rfl⟩ := map_eq_some_iff.mp taken
    have same := List.find?_some first
    cases of_decide_eq_true same
    exact .inr ⟨found, co, List.mem_of_find?_eq_some first, rfl⟩

end Inversion

end Skynet.Lualib
