import Skynet.Netpack.Session

/-! The gate of gateserver.lua, with the coroutines of skynet.lua it runs in. A handler is any
code: it may close clients, fork, yield, return or throw, and skynet may resume a coroutine that
waits whenever another one has yielded or ended. -/
namespace Skynet.Gateserver
open Base LuaNetpack Function

/- The handlers that a service need not have; message, connect and command it has. -/
structure Handler where
  opened : Bool
  disconnect : Bool
  error : Bool
  warning : Bool

structure Conf where
  port : Option Int
  maxclient : Option Int

/- A coroutine inside of a handler, by what follows when the handler returns. `first` is the
packet that dispatch_queue pops itself, `loop` one of its for loop. -/
inductive Frame where
  | data
  | first
  | loop (captured : Nat)
  | connect
  | disconnect (fd : Int)
  | error (fd : Int)
  | other
  deriving DecidableEq, Repr

inductive Forked where
  | dispatchQueue
  | other
  deriving DecidableEq, Repr

/- `between`: a coroutine has yielded or ended, and dispatch_message goes on. -/
inductive Control where
  | idle
  | handler (frame : Frame)
  | loop (captured : Nat)
  | between
  deriving DecidableEq, Repr

/-- What has happened: handler.message was started, a packet was dropped, a connection ended. -/
inductive Event where
  | message (fd : Int) (msg : List UInt8)
  | dropped (fd : Int) (msg : List UInt8)
  | ended (fd : Int)
  deriving DecidableEq, Repr

structure World where
  socket : Option Int
  queue : Option Queue
  maxclient : Option Int
  clientNumber : Int
  connection : Int → Option Bool
  forkQueue : List Forked
  blocked : List Frame
  control : Control
  messages : List SocketMessage
  log : List Event

def start : World where
  socket := none
  queue := none
  maxclient := none
  clientNumber := 0
  connection := fun _ => none
  forkQueue := []
  blocked := []
  control := .idle
  messages := []
  log := []

def World.closeclient (w : World) (fd : Int) : World :=
  if w.connection fd = some true then
    { w with connection := update w.connection fd (some false) }
  else w

/- The assertions and the errors of listen end the coroutine. -/
def World.cmdOpen (h : Handler) (w : World) (conf : Conf) (listened : Option Int) : World :=
  if w.socket.isSome then { w with control := .between }
  else
    match conf.port with
    | none => { w with control := .between }
    | some _ =>
      let w := { w with maxclient := some (conf.maxclient.getD 1024) }
      match listened with
      | none => { w with control := .between }
      | some fd =>
        { w with socket := some fd, control := if h.opened then .handler .other else .between }

/- `back` is where the coroutine is when the handler need not be called. -/
def World.dispatchMsg (w : World) (fd : Int) (msg : List UInt8) (frame : Frame) (back : Control) :
    World :=
  if w.connection fd = some true then
    { w with log := w.log ++ [.message fd msg], control := .handler frame }
  else { w with log := w.log ++ [.dropped fd msg], control := back }

/- The queue that a loop has captured is known by its capacity: expand_queue makes a larger one
and leaves the old one empty. -/
def World.captures (w : World) : Nat := (getQueue w.queue).ring.cap

def World.pop (w : World) (captured : Nat) : Option (Netpack × Queue) :=
  if w.captures = captured then lpop w.queue else none

def World.dispatchQueue (w : World) : World :=
  match lpop w.queue with
  | none => { w with control := .between }
  | some (np, q) =>
    let w := { w with queue := some q, forkQueue := w.forkQueue ++ [Forked.dispatchQueue] }
    w.dispatchMsg np.id (np.buffer.take np.size) .first (.loop w.captures)

/- One round of the for loop. -/
def World.popLoop (w : World) (captured : Nat) : World :=
  match w.pop captured with
  | none => { w with control := .between }
  | some (np, q) =>
    { w with queue := some q }.dispatchMsg np.id (np.buffer.take np.size) (.loop captured)
      (.loop captured)

/- Without a maxclient the comparison throws. -/
def World.msgOpen (w : World) (fd : Int) : World :=
  match w.maxclient with
  | none => { w with control := .between }
  | some maxclient =>
    if w.clientNumber ≥ maxclient then { w with control := .between }
    else
      { w with
        connection := update w.connection fd (some true)
        clientNumber := w.clientNumber + 1
        control := .handler .connect }

def World.closeFd (w : World) (fd : Int) : World :=
  if w.connection fd ≠ none then
    { w with
      connection := update w.connection fd none
      clientNumber := w.clientNumber - 1
      control := .between }
  else { w with control := .between }

def World.msgClose (h : Handler) (w : World) (fd : Int) : World :=
  if some fd ≠ w.socket then
    if h.disconnect then { w with control := .handler (.disconnect fd) } else w.closeFd fd
  else { w with socket := none, control := .between }

def World.msgError (h : Handler) (w : World) (fd : Int) : World :=
  if some fd = w.socket then { w with control := .between }
  else if h.error then { w with control := .handler (.error fd) }
  else w.closeFd fd

def World.msgWarning (h : Handler) (w : World) : World :=
  { w with control := if h.warning then .handler .other else .between }

def World.dispatch (h : Handler) (w : World) : Result → World
  | .nothing => { w with control := .between }
  | .data fd msg => w.dispatchMsg fd msg .data .between
  | .more => w.dispatchQueue
  | .opened fd _ => w.msgOpen fd
  | .closed fd => w.msgClose h fd
  | .error fd _ => w.msgError h fd
  | .warning _ _ => w.msgWarning h

def ended : Result → List Event
  | .closed fd | .error fd _ => [.ended fd]
  | .nothing | .data .. | .more | .opened .. | .warning .. => []

def World.receive (h : Handler) (w : World) (m : SocketMessage) : Option World :=
  match lfilter w.queue m with
  | .error _ => none
  | .ok (q, r) =>
    some ({ w with
      queue := q
      messages := w.messages ++ [m]
      log := w.log ++ ended r }.dispatch h r)

def World.returned (w : World) : Frame → World
  | .data | .connect | .other => { w with control := .between }
  | .first => { w with control := .loop w.captures }
  | .loop captured => { w with control := .loop captured }
  | .disconnect fd | .error fd => w.closeFd fd

def World.resume (w : World) (i : Nat) : Option World :=
  w.blocked[i]?.map fun frame =>
    { w with blocked := w.blocked.eraseIdx i, control := .handler frame }

def World.startFork (w : World) (i : Nat) : Option World :=
  w.forkQueue[i]?.map fun forked =>
    let w := { w with forkQueue := w.forkQueue.eraseIdx i }
    match forked with
    | .dispatchQueue => w.dispatchQueue
    | .other => { w with control := .handler .other }

inductive Action where
  | socket (m : SocketMessage)
  | openCommand (conf : Conf) (listened : Option Int)
  | command
  | response (i : Nat)
  | pop
  | closeclient (fd : Int)
  | fork
  | yield
  | ret
  | throw
  | wakeup (i : Nat)
  | startFork (i : Nat)
  | done

def World.act (w : World) (frame : Frame) : Action → Option World
  | .closeclient fd => some (w.closeclient fd)
  | .fork => some { w with forkQueue := w.forkQueue ++ [.other] }
  | .yield => some { w with blocked := w.blocked ++ [frame], control := .between }
  | .ret => some (w.returned frame)
  | .throw => some { w with control := .between }
  | _ => none

/- A message starts dispatch_message when the one before it is done. -/
def step (h : Handler) (w : World) (a : Action) : Option World :=
  match w.control, a with
  | .idle, .socket m => w.receive h m
  | .idle, .openCommand conf listened => some (w.cmdOpen h conf listened)
  | .idle, .command => some { w with control := .handler .other }
  | .idle, .response i => w.resume i
  | .handler frame, a => w.act frame a
  | .loop captured, .pop => some (w.popLoop captured)
  | .between, .wakeup i => w.resume i
  | .between, .startFork i => w.startFork i
  | .between, .done => if w.forkQueue = [] then some { w with control := .idle } else none
  | _, _ => none

end Skynet.Gateserver
