import Skynet.Base.Run

/-! A channel of socketchannel.lua, with the part of socket.lua it waits in. The coroutines that
make requests are numbered, as are the connections in the order they are opened; each connection
has its own dispatch coroutine. What comes over a connection and when is left open. -/
namespace Skynet.Socketchannel
open Base Function

abbrev Conn := Nat

inductive Co where
  | user (n : Nat)
  | dispatcher (c : Conn)
  deriving DecidableEq, Repr

/- With a response function the channel is in session mode, without one in order mode. -/
structure Desc where
  response : Bool
  auth : Bool

/-- A request is known by the connection it was written on and, there, by its session or its
place in the order. A response is known in the same way. -/
structure Ticket where
  conn : Conn
  number : Nat
  deriving DecidableEq, Repr

inductive Result where
  | response (parts : List Ticket)
  | error (conn : Conn)
  deriving DecidableEq, Repr

/- The object of a socket in socket_pool: `co` reads or closes, `closing` waits for the reader. -/
structure Socket where
  connected : Bool
  co : Option Co
  closing : Option Co

/- A request with no session wants no response. In order mode the number is not used. -/
abbrev Req := Option Nat

/- What follows close_channel_socket. -/
inductive After where
  | writeFailed (conn : Conn)
  | changehost
  | authFailed (req : Req)
  deriving DecidableEq, Repr

inductive Task where
  | running
  | queued (req : Req)
  | opening (req : Req)
  | waiting (ticket : Ticket)
  | closing (fd : Conn) (after : After)
  deriving DecidableEq, Repr

/- `looping` is the head of the loop, `held` the request that was popped for its response. -/
inductive Dispatch where
  | ended
  | looping
  | popping
  | reading (so : Option Conn) (held : Option (Nat × Nat)) (blocked : Bool)
  | closing (fd : Conn) (so : Option Conn) (held : Option (Nat × Nat))
  deriving DecidableEq, Repr

/- `authco` is the coroutine in auth, with the request and the connection it is for. `thread`
has the sessions, or the places in the order, with the coroutines that wait. `writes` and
`reads` count the requests pushed and the responses popped of a connection; `closes` and `log`
tell which connection was closed for which, and who was resumed with what. -/
structure World where
  sock : Option Conn
  opened : Conn
  socketPool : Conn → Option Socket
  connecting : Option (List Nat)
  authco : Option (Nat × Req × Conn)
  thread : List (Nat × Nat)
  waitResponse : Option Conn
  result : Nat → Option Result
  resultData : Nat → List Ticket
  awake : Co → Bool
  task : Nat → Task
  dispatch : Conn → Dispatch
  writes : Conn → Nat
  reads : Conn → Nat
  closes : List (Conn × Conn)
  log : List (Ticket × Result)

def start : World where
  sock := none
  opened := 0
  socketPool := fun _ => none
  connecting := none
  authco := none
  thread := []
  waitResponse := none
  result := fun _ => none
  resultData := fun _ => []
  awake := fun _ => false
  task := fun _ => .running
  dispatch := fun _ => .ended
  writes := fun _ => 0
  reads := fun _ => 0
  closes := []
  log := []

def World.wakeup (w : World) (co : Co) : World :=
  { w with awake := update w.awake co true }

def World.sleep (w : World) (co : Co) : World :=
  { w with awake := update w.awake co false }

def World.setTask (w : World) (n : Nat) (t : Task) : World :=
  { w with task := update w.task n t }

def World.setDispatch (w : World) (c : Conn) (d : Dispatch) : World :=
  { w with dispatch := update w.dispatch c d }

def World.setSocket (w : World) (fd : Conn) (s : Option Socket) : World :=
  { w with socketPool := update w.socketPool fd s }

/- Whether the coroutine has to wait. Its own assertion is caught by the caller. -/
def World.socketClose (w : World) (co : Co) (fd : Conn) : World × Bool :=
  match w.socketPool fd with
  | none => (w, false)
  | some s =>
    if s.connected then
      match s.co, s.closing with
      | some _, some _ => (w, false)
      | some _, none => ((w.setSocket fd (some { s with closing := some co })).sleep co, true)
      | none, _ => ((w.setSocket fd (some { s with co := some co })).sleep co, true)
    else (w.setSocket fd none, false)

/- `cause` is the connection that failed. The answer is the socket to wait for. -/
def World.closeChannelSocket (w : World) (co : Co) (cause : Conn) : World × Option Conn :=
  match w.sock with
  | none => (w, none)
  | some fd =>
    let closed := World.socketClose { w with
      sock := none, closes := w.closes ++ [(cause, fd)] } co fd
    (closed.1, if closed.2 then some fd else none)

def World.setResult (w : World) (n : Nat) (r : Result) : World :=
  World.wakeup { w with
    result := update w.result n (some r)
    resultData := update w.resultData n [] } (.user n)

/- The errors of all who wait. -/
def World.wakeupAll (w : World) (cause : Conn) : World :=
  { w with
    thread := []
    result := fun n => if n ∈ w.thread.map Prod.snd then some (.error cause) else w.result n
    resultData := fun n => if n ∈ w.thread.map Prod.snd then [] else w.resultData n
    awake := fun co => if co ∈ w.thread.map (Co.user ∘ Prod.snd) then true else w.awake co }

/- A response, or a part of one that is padded. -/
def World.respond (w : World) (n : Nat) (data : Ticket) (padding : Bool) : World :=
  if padding then
    { w with resultData := update w.resultData n (w.resultData n ++ [data]) }
  else w.setResult n (.response (w.resultData n ++ [data]))

/- The func is called with the channel's socket, which may be gone. -/
def World.popResponse (w : World) (c : Conn) : World :=
  match w.thread with
  | [] => World.sleep { w.setDispatch c .popping with waitResponse := some c } (.dispatcher c)
  | p :: later =>
    let reads :=
      match w.sock with
      | none => w.reads
      | some so => update w.reads so (w.reads so + 1)
    World.setDispatch { w with thread := later, reads := reads } c (.reading w.sock (some p) false)

def World.dispatchLoop (desc : Desc) (w : World) (c : Conn) : World :=
  match w.sock with
  | none => w.setDispatch c .ended
  | some so =>
    if desc.response then w.setDispatch c (.reading (some so) none false) else w.popResponse c

/- A response function has failed, and the socket is closed. -/
def World.readFailed (desc : Desc) (w : World) (c : Conn) (so : Option Conn)
    (held : Option (Nat × Nat)) : World :=
  let cause := so.getD c
  let w := w.setDispatch c .looping
  let w :=
    match held with
    | none => w
    | some (_, n) => w.setResult n (.error cause)
  (w.wakeupAll cause).dispatchLoop desc c

/- In session mode `number` is the session of the response; in order mode the response is that
of the request popped. -/
def World.received (desc : Desc) (w : World) (c so : Conn) (held : Option (Nat × Nat))
    (number : Nat) (padding : Bool) : World :=
  let w := w.setDispatch c .looping
  let w :=
    if desc.response then
      match w.thread.find? fun p => p.1 == number with
      | none => w
      | some (_, n) =>
        let w := if padding then w
          else { w with thread := w.thread.filter fun p => p.1 != number }
        w.respond n ⟨so, number⟩ padding
    else
      match held with
      | none => w
      | some (_, n) => w.respond n ⟨so, w.reads so - 1⟩ padding
  w.dispatchLoop desc c

def World.pushResponse (desc : Desc) (w : World) (n : Nat) (fd : Conn) (session : Nat) : World :=
  if desc.response then
    let thread := (w.thread.filter fun p => p.1 != session) ++ [(session, n)]
    ({ w with thread := thread }.setTask n (.waiting ⟨fd, session⟩)).sleep (.user n)
  else
    let number := w.writes fd
    let w := ({ w with
      thread := w.thread ++ [(number, n)]
      writes := update w.writes fd (number + 1) }.setTask n
        (.waiting ⟨fd, number⟩)).sleep (.user n)
    match w.waitResponse with
    | none => w
    | some c => { w with waitResponse := none }.wakeup (.dispatcher c)

/- The error is thrown to the code of the coroutine. -/
def World.writeFailed (w : World) (n : Nat) (conn : Conn) : World :=
  (w.wakeupAll conn).setTask n .running

/- channel:request with a socket; `written` is what socket.write answers. -/
def World.write (desc : Desc) (w : World) (n : Nat) (req : Req) (written : Bool) : World :=
  match w.sock with
  | none => w.setTask n .running
  | some fd =>
    if written then
      match req with
      | none => w.setTask n .running
      | some session => w.pushResponse desc n fd session
    else
      match w.closeChannelSocket (.user n) fd with
      | (w, some fd') => w.setTask n (.closing fd' (.writeFailed fd))
      | (w, none) => w.writeFailed n fd

def World.checkConnection (w : World) (n : Nat) : Bool :=
  w.sock.isSome && w.authco.all fun auth => auth.1 == n

/- The end of block_connect. -/
def World.proceed (desc : Desc) (w : World) (n : Nat) (req : Req) (written : Bool) : World :=
  if w.checkConnection n then w.write desc n req written else w.setTask n .running

def World.wakeQueued (w : World) : World :=
  { w with
    connecting := none
    awake := fun co => if co ∈ (w.connecting.getD []).map Co.user then true else w.awake co }

def World.connectDone (desc : Desc) (w : World) (n : Nat) (req : Req) (written : Bool) : World :=
  (w.setTask n .running).wakeQueued.proceed desc n req written

def World.connectOnce (w : World) (n : Nat) (req : Req) : World :=
  if w.sock.isSome || w.authco.isSome then w.setTask n .running else w.setTask n (.opening req)

def World.request (desc : Desc) (w : World) (n : Nat) (req : Req) (written : Bool) : World :=
  if w.checkConnection n then w.write desc n req written
  else
    match w.connecting with
    | some queue =>
      World.sleep ({ w with connecting := some (queue ++ [n]) }.setTask n (.queued req)) (.user n)
    | none => { w with connecting := some [] }.connectOnce n req

/- The connection is closed for no other. -/
def World.changehost (w : World) (n : Nat) : World :=
  match w.closeChannelSocket (.user n) (w.sock.getD w.opened) with
  | (w, some fd) => w.setTask n (.closing fd .changehost)
  | (w, none) => w.setTask n .running

/- socket.open has answered; the dispatch coroutine is forked. -/
def World.install (w : World) : World :=
  let c := w.opened + 1
  World.setDispatch ({ w with
    sock := some c
    opened := c
    writes := update w.writes c 0
    reads := update w.reads c 0 }.setSocket c (some ⟨true, none, none⟩)) c .looping

def World.connected (desc : Desc) (w : World) (n : Nat) (req : Req) (written : Bool) : World :=
  let w := w.install
  if desc.auth then { w with authco := some (n, req, w.opened) }.setTask n .running
  else w.connectDone desc n req written

def World.authReturned (desc : Desc) (w : World) (n : Nat) (req : Req) (written : Bool) : World :=
  let w := { w with authco := none }
  if w.sock.isNone then w.connectOnce n req else w.connectDone desc n req written

/- The socket is closed after auth has failed. -/
def World.authFailed (desc : Desc) (w : World) (n : Nat) (req : Req) (written : Bool) : World :=
  { w.setTask n .running with authco := none }.connectDone desc n req written

def World.authThrown (desc : Desc) (w : World) (n : Nat) (req : Req) (conn : Conn)
    (written : Bool) : World :=
  match w.closeChannelSocket (.user n) conn with
  | (w, some fd) => w.setTask n (.closing fd (.authFailed req))
  | (w, none) => w.authFailed desc n req written

def World.afterClose (desc : Desc) (w : World) (n : Nat) (written : Bool) : After → World
  | .writeFailed conn => w.writeFailed n conn
  | .changehost => w.setTask n .running
  | .authFailed req => w.authFailed desc n req written

/- wait_for_response goes on. -/
def World.finish (w : World) (n : Nat) (ticket : Ticket) (r : Result) : World :=
  World.setTask { w with
    result := update w.result n none
    resultData := update w.resultData n []
    log := w.log ++ [(ticket, r)] } n .running

def World.resume (desc : Desc) (w : World) (n : Nat) (written : Bool) : Option World :=
  if w.awake (.user n) then
    match w.task n with
    | .queued req => some (w.proceed desc n req written)
    | .waiting ticket => (w.result n).map (w.finish n ticket)
    | .closing fd after => some ((w.setSocket fd none).afterClose desc n written after)
    | .running | .opening _ => none
  else none

/- A reader that goes on wakes the coroutine that closes its socket. -/
def World.wakeClosing (w : World) (so : Option Conn) : World :=
  match (so.bind w.socketPool).bind Socket.closing with
  | none => w
  | some co => w.wakeup co

def World.resumeDispatch (desc : Desc) (w : World) (c : Conn) : Option World :=
  if w.awake (.dispatcher c) then
    match w.dispatch c with
    | .popping => some (w.popResponse c)
    | .reading so held true => some ((w.wakeClosing so).setDispatch c (.reading so held false))
    | .closing fd so held => some ((w.setSocket fd none).readFailed desc c so held)
    | .ended | .looping | .reading _ _ false => none
  else none

/- A read that cannot be served waits; a second reader fails. -/
def World.block (w : World) (c : Conn) : Option World :=
  match w.dispatch c with
  | .reading (some so) held false =>
    match w.socketPool so with
    | some ⟨true, none, closing⟩ =>
      some (((w.setSocket so (some ⟨true, some (.dispatcher c), closing⟩)).sleep
        (.dispatcher c)).setDispatch c (.reading (some so) held true))
    | _ => none
  | _ => none

def World.readFail (desc : Desc) (w : World) (c : Conn) : Option World :=
  match w.dispatch c with
  | .reading so held false =>
    match w.closeChannelSocket (.dispatcher c) (so.getD c) with
    | (w, some fd) => some (w.setDispatch c (.closing fd so held))
    | (w, none) => some (w.readFailed desc c so held)
  | _ => none

/- Data that a blocked read has waited for. -/
def World.data (w : World) (fd : Conn) : Option World :=
  match w.socketPool fd with
  | some ⟨connected, some (.dispatcher c), closing⟩ =>
    match w.dispatch c with
    | .reading _ _ true =>
      some ((w.setSocket fd (some ⟨connected, none, closing⟩)).wakeup (.dispatcher c))
    | _ => none
  | _ => none

/- The messages of a closed connection and of an error on it. -/
def World.hangup (w : World) (fd : Conn) : Option World :=
  (w.socketPool fd).map fun s =>
    match s.co with
    | none => w.setSocket fd (some { s with connected := false })
    | some co => (w.setSocket fd (some ⟨false, none, s.closing⟩)).wakeup co

inductive Action where
  | request (n : Nat) (req : Req) (written : Bool)
  | changehost (n : Nat)
  | connected (n : Nat) (written : Bool)
  | openFailed (n : Nat) (written : Bool)
  | authReturn (n : Nat) (written : Bool)
  | authThrow (n : Nat) (written : Bool)
  | resume (n : Nat) (written : Bool)
  | beginDispatch (c : Conn)
  | resumeDispatch (c : Conn)
  | block (c : Conn)
  | respond (c : Conn) (number : Nat) (padding : Bool)
  | readFail (c : Conn)
  | data (fd : Conn)
  | hangup (fd : Conn)

def step (desc : Desc) (w : World) : Action → Option World
  | .request n req written =>
    if w.task n = .running then some (w.request desc n req written) else none
  | .changehost n => if w.task n = .running then some (w.changehost n) else none
  | .connected n written =>
    match w.task n with
    | .opening req => some (w.connected desc n req written)
    | _ => none
  | .openFailed n written =>
    match w.task n with
    | .opening req => some (w.connectDone desc n req written)
    | _ => none
  | .authReturn n written =>
    match w.authco with
    | some (m, req, _) =>
      if m = n ∧ w.task n = .running then some (w.authReturned desc n req written) else none
    | none => none
  | .authThrow n written =>
    match w.authco with
    | some (m, req, conn) =>
      if m = n ∧ w.task n = .running then some (w.authThrown desc n req conn written) else none
    | none => none
  | .resume n written => w.resume desc n written
  | .beginDispatch c =>
    if w.dispatch c = .looping then some (w.dispatchLoop desc c) else none
  | .resumeDispatch c => w.resumeDispatch desc c
  | .block c => w.block c
  | .respond c number padding =>
    match w.dispatch c with
    | .reading (some so) held false => some (w.received desc c so held number padding)
    | _ => none
  | .readFail c => w.readFail desc c
  | .data fd => w.data fd
  | .hangup fd => w.hangup fd

end Skynet.Socketchannel
