import Skynet.Socket.Tcp
import Skynet.Base.Linked

/-! One slot of socket_server.c with its two lists of write buffers as the memory holds them: nodes
at addresses, linked by next pointers, with a head and a tail pointer for each list. TCP and UDP
sockets take their turns in the slot. The registration with the poller and the write event are
part of it, and so are the answers of the kernel, as part of each action. -/
namespace Skynet.SocketSlot
open Function

open Base
open SocketServer (SocketType Priority WriteResult)

inductive Protocol where
  | tcp | udp | udpv6
  deriving DecidableEq, Repr

def Protocol.number : Protocol → UInt8
  | .tcp => 0
  | .udp => 1
  | .udpv6 => 2

/- The pointer is counted from the start of the buffer. -/
structure WriteBuffer where
  next : Option Nat
  buffer : List UInt8
  ptr : Nat
  sz : Nat
  udpAddress : List UInt8
  deriving DecidableEq, Repr

abbrev Heap := Nat → Option WriteBuffer

structure WbList where
  head : Option Nat
  tail : Option Nat
  deriving DecidableEq, Repr

def WbList.clear : WbList := ⟨none, none⟩

/-- The assertions of the source, the use of memory that is not allocated, and a list whose end is
not found. -/
inductive Fault where
  | tailMissing
  | tailLinked
  | listNotEmpty
  | freedBuffer
  | endlessList
  | lowUncomplete
  | highNotEmpty
  | closeReserved
  | notReserved
  deriving DecidableEq, Repr

/- The assertions of append_sendbuffer_ and check_wb_list, and the memory of the lists. -/
def Fault.ofLists : Fault → Bool
  | .tailMissing | .tailLinked | .listNotEmpty | .freedBuffer | .endlessList => true
  | .lowUncomplete | .highNotEmpty | .closeReserved | .notReserved => false

/-- The slot, what the poller knows of it, the memory, and how often it was allocated from. -/
structure Slot where
  type : SocketType
  id : Nat
  protocol : Protocol
  udpAddress : List UInt8
  high : WbList
  low : WbList
  wbSize : Int
  registered : Bool
  writing : Bool
  heap : Heap
  mallocs : Nat

def Slot.start : Slot :=
  ⟨.invalid, 0, .tcp, [], .clear, .clear, 0, false, false, fun _ => none, 0⟩

def freeWbList : Nat → Heap → Option Nat → Except Fault Heap
  | _, heap, none => .ok heap
  | 0, _, some _ => .error .endlessList
  | fuel + 1, heap, some wb =>
    match heap wb with
    | none => .error .freedBuffer
    | some tmp => freeWbList fuel (update heap wb none) tmp.next

/- Sockets that wait to be started are not with the poller. -/
def unregister (s : Slot) : Slot :=
  if s.type = .paccept ∨ s.type = .plisten then s
  else { s with registered := false, writing := false }

def forceClose (s : Slot) : Except Fault Slot :=
  if s.type = .invalid then .ok s
  else if s.type = .reserve then .error .closeReserved
  else do
    let heap ← freeWbList s.mallocs s.heap s.high.head
    let heap ← freeWbList s.mallocs heap s.low.head
    .ok { unregister s with heap := heap, high := .clear, low := .clear, type := .invalid }

structure Queue where
  heap : Heap
  list : WbList
  wbSize : Int

/-- What is left of the list, the answers not used, and whether the socket has to be closed. -/
structure Sent where
  queue : Queue
  script : List WriteResult
  closed : Bool

/- When no answer is left the kernel takes nothing more. -/
def sendListTcp (script : List WriteResult) (q : Queue) : Except Fault Sent :=
  match q.list.head with
  | none => .ok ⟨{ q with list := ⟨none, none⟩ }, script, false⟩
  | some tmp =>
    match q.heap tmp with
    | none => .error .freedBuffer
    | some w =>
      match script with
      | [] => .ok ⟨q, [], false⟩
      | .eintr :: script => sendListTcp script q
      | .eagain :: script => .ok ⟨q, script, false⟩
      | .failed :: script => .ok ⟨q, script, true⟩
      | .wrote n :: script =>
        let sz := min n w.sz
        if sz ≠ w.sz then
          let w := { w with ptr := w.ptr + sz, sz := w.sz - sz }
          .ok ⟨⟨update q.heap tmp (some w), q.list, q.wbSize - sz⟩, script, false⟩
        else
          sendListTcp script
            ⟨update q.heap tmp none, ⟨w.next, q.list.tail⟩, q.wbSize - sz⟩

inductive Family where
  | inet | inet6
  deriving DecidableEq, Repr

structure SockAddr where
  family : Family
  port : List UInt8
  addr : List UInt8
  deriving DecidableEq, Repr

/- No address when the packet was made for the other protocol. -/
def udpSocketAddress (protocol : Protocol) (udpAddress : List UInt8) : Option SockAddr :=
  if udpAddress.headD 0 ≠ protocol.number then none
  else
    let port := (udpAddress.drop 1).take 2
    match protocol with
    | .tcp => none
    | .udp => some ⟨.inet, port, (udpAddress.drop 3).take 4⟩
    | .udpv6 => some ⟨.inet6, port, (udpAddress.drop 3).take 16⟩

/-- A call of sendto: the destination and the bytes. -/
structure Datagram where
  address : Option SockAddr
  data : List UInt8
  deriving DecidableEq, Repr

def WriteBuffer.datagram (protocol : Protocol) (w : WriteBuffer) : Datagram :=
  ⟨udpSocketAddress protocol w.udpAddress, (w.buffer.drop w.ptr).take w.sz⟩

/-- What is left of the list, the answers not used, and the calls of sendto. -/
structure SentUdp where
  queue : Queue
  script : List WriteResult
  calls : List Datagram

def sendListUdp (protocol : Protocol) (script : List WriteResult) (q : Queue) :
    Except Fault SentUdp :=
  match q.list.head with
  | none => .ok ⟨{ q with list := ⟨none, none⟩ }, script, []⟩
  | some tmp =>
    match q.heap tmp with
    | none => .error .freedBuffer
    | some w =>
      let call := w.datagram protocol
      match script with
      | [] => .ok ⟨q, [], [call]⟩
      | .eintr :: script => .ok ⟨q, script, [call]⟩
      | .eagain :: script => .ok ⟨q, script, [call]⟩
      | .failed :: script => .ok ⟨q, script, [call]⟩
      | .wrote _ :: script =>
        (sendListUdp protocol script
          ⟨update q.heap tmp none, ⟨w.next, q.list.tail⟩, q.wbSize - w.sz⟩).map
          fun rest => { rest with calls := call :: rest.calls }

def sendList (protocol : Protocol) (script : List WriteResult) (q : Queue) : Except Fault Sent :=
  if protocol = .tcp then sendListTcp script q
  else (sendListUdp protocol script q).map fun sent => ⟨sent.queue, sent.script, false⟩

def listUncomplete (heap : Heap) (list : WbList) : Except Fault Bool :=
  match list.head with
  | none => .ok false
  | some wb =>
    match heap wb with
    | none => .error .freedBuffer
    | some w => .ok (w.ptr ≠ 0)

def raiseUncomplete (s : Slot) : Except Fault Slot :=
  match s.low.head with
  | none => .error .freedBuffer
  | some tmp =>
    match s.heap tmp with
    | none => .error .freedBuffer
    | some w =>
      if s.high.head ≠ none then .error .highNotEmpty
      else
        .ok { s with
          low := ⟨w.next, if w.next = none then none else s.low.tail⟩
          heap := update s.heap tmp (some { w with next := none })
          high := ⟨some tmp, some tmp⟩ }

/- Steps 2 and 3 of send_buffer. -/
def sendLow (s : Slot) (script : List WriteResult) : Except Fault Slot := do
  let sent ← sendList s.protocol script ⟨s.heap, s.low, s.wbSize⟩
  let s := { s with heap := sent.queue.heap, low := sent.queue.list, wbSize := sent.queue.wbSize }
  if sent.closed then forceClose s
  else
    let uncomplete ← listUncomplete s.heap s.low
    if uncomplete then raiseUncomplete s else .ok s

/- Step 4 of send_buffer. -/
def checkClose (s : Slot) : Except Fault Slot :=
  let s := { s with writing := false }
  if s.type = .halfclose then forceClose s else .ok s

/- Steps 2 to 4, once the high list has been sent as far as possible. -/
def sendRest (s : Slot) (script : List WriteResult) : Except Fault Slot :=
  if s.high.head = none then
    if s.low.head ≠ none then sendLow s script else checkClose s
  else .ok s

def sendBuffer (s : Slot) (script : List WriteResult) : Except Fault Slot := do
  let uncomplete ← listUncomplete s.heap s.low
  if uncomplete then .error .lowUncomplete
  else
    let sent ← sendList s.protocol script ⟨s.heap, s.high, s.wbSize⟩
    let s :=
      { s with heap := sent.queue.heap, high := sent.queue.list, wbSize := sent.queue.wbSize }
    if sent.closed then forceClose s else sendRest s sent.script

/- The new buffer is put behind the last one. -/
def appendSendbuffer_ (heap : Heap) (list : WbList) (place : Nat) (buf : WriteBuffer) :
    Except Fault (Heap × WbList) :=
  let heap := update heap place (some buf)
  if list.head = none then .ok (heap, ⟨some place, some place⟩)
  else
    match list.tail with
    | none => .error .tailMissing
    | some tail =>
      match heap tail with
      | none => .error .freedBuffer
      | some w =>
        if w.next ≠ none then .error .tailLinked
        else
          .ok (update heap tail (some { w with next := some place }),
            ⟨list.head, some place⟩)

def appendHigh (s : Slot) (place : Nat) (buf : WriteBuffer) : Except Fault Slot :=
  (appendSendbuffer_ s.heap s.high place buf).map fun (heap, list) =>
    { s with heap := heap, high := list, wbSize := s.wbSize + buf.sz, mallocs := s.mallocs + 1 }

def appendLow (s : Slot) (place : Nat) (buf : WriteBuffer) : Except Fault Slot :=
  (appendSendbuffer_ s.heap s.low place buf).map fun (heap, list) =>
    { s with heap := heap, low := list, wbSize := s.wbSize + buf.sz, mallocs := s.mallocs + 1 }

def newBuffer (buffer : List UInt8) (n : Nat) (udpAddress : List UInt8) : WriteBuffer :=
  ⟨none, buffer, n, buffer.length - n, udpAddress⟩

def appendSendbufferUdp (s : Slot) (priority : Priority) (place : Nat) (buffer : List UInt8)
    (udpAddress : List UInt8) : Except Fault Slot :=
  match priority with
  | .high => appendHigh s place (newBuffer buffer 0 udpAddress)
  | .low => appendLow s place (newBuffer buffer 0 udpAddress)

def appendSendbuffer (s : Slot) (place : Nat) (buffer : List UInt8) (n : Nat) :
    Except Fault Slot :=
  appendHigh s place (newBuffer buffer n [])

def appendSendbufferLow (s : Slot) (place : Nat) (buffer : List UInt8) : Except Fault Slot :=
  appendLow s place (newBuffer buffer 0 [])

def sendBufferEmpty (s : Slot) : Bool := s.high.head = none ∧ s.low.head = none

def enableWrite (s : Slot) : Slot := { s with writing := true }

/-- A request to send, and the address that MALLOC would return for its write buffer. -/
structure RequestSend where
  id : Nat
  priority : Priority
  udpAddress : Option (List UInt8)
  buffer : List UInt8
  place : Nat
  deriving DecidableEq, Repr

/- What the first call of write took, and what becomes of the rest. -/
def sendDirect (s : Slot) (request : RequestSend) (n : Nat) : Except Fault Slot :=
  if n = request.buffer.length then .ok s
  else (appendSendbuffer s request.place request.buffer n).map enableWrite

def sendTcp (s : Slot) (request : RequestSend) : WriteResult → Except Fault Slot
  | .wrote n => sendDirect s request (min n request.buffer.length)
  | .eintr | .eagain => sendDirect s request 0
  | .failed => forceClose s

def sendUdp (s : Slot) (request : RequestSend) (answer : WriteResult) : Except Fault Slot :=
  let udpAddress := request.udpAddress.getD s.udpAddress
  if answer = .wrote request.buffer.length then .ok s
  else
    (appendSendbufferUdp s request.priority request.place request.buffer udpAddress).map enableWrite

/- Behind what is already queued, or on a socket that is not connected. -/
def sendQueued (s : Slot) (request : RequestSend) : Except Fault Slot :=
  if s.protocol = .tcp then
    match request.priority with
    | .low => appendSendbufferLow s request.place request.buffer
    | .high => appendSendbuffer s request.place request.buffer 0
  else
    appendSendbufferUdp s request.priority request.place request.buffer
      (request.udpAddress.getD s.udpAddress)

def sendSocket (s : Slot) (request : RequestSend) (answer : WriteResult) : Except Fault Slot :=
  if s.type = .invalid ∨ s.id ≠ request.id ∨ s.type = .halfclose ∨ s.type = .paccept then .ok s
  else if s.type = .plisten ∨ s.type = .listen then .ok s
  else if sendBufferEmpty s ∧ s.type = .connected then
    if s.protocol = .tcp then sendTcp s request answer else sendUdp s request answer
  else sendQueued s request

/- The end of close_socket. -/
def closeEmpty (s : Slot) (shutdown : Bool) : Except Fault Slot :=
  if shutdown ∨ sendBufferEmpty s then forceClose s else .ok { s with type := .halfclose }

def closeSocket (s : Slot) (id : Nat) (shutdown : Bool) (script : List WriteResult) :
    Except Fault Slot :=
  if s.type = .invalid ∨ s.id ≠ id then .ok s
  else if sendBufferEmpty s then closeEmpty s shutdown
  else do
    let s ← sendBuffer s script
    if s.type = .invalid then .ok s else closeEmpty s shutdown

def checkWbList (list : WbList) : Except Fault Unit :=
  if list.head ≠ none ∨ list.tail ≠ none then .error .listNotEmpty else .ok ()

/- The answer of sp_add, when the descriptor is to be registered; no slot when it failed. -/
def newFd (s : Slot) (id : Nat) (protocol : Protocol) (add : Option Bool) :
    Except Fault (Option Slot) :=
  if s.type ≠ .reserve then .error .notReserved
  else if add = some false then .ok none
  else do
    let s := { s with
      registered := add.isSome, writing := false, id := id, protocol := protocol, wbSize := 0 }
    checkWbList s.high
    checkWbList s.low
    .ok (some s)

/- When no slot was got, or no socket to put into it, the slot is free again. -/
def orInvalid (s : Slot) (made : Option Slot) (use : Slot → Slot) : Slot :=
  match made with
  | none => { s with type := .invalid }
  | some ns => use ns

/-- What becomes of an attempt to connect. -/
inductive Attempt where
  | failed
  | connected (added : Bool)
  | connecting (added : Bool)
  deriving DecidableEq, Repr

def openSocket (s : Slot) (id : Nat) : Attempt → Except Fault Slot
  | .failed => .ok { s with type := .invalid }
  | .connected added =>
    (newFd s id .tcp (some added)).map fun made =>
      orInvalid s made fun ns => { ns with type := .connected }
  | .connecting added =>
    (newFd s id .tcp (some added)).map fun made =>
      orInvalid s made fun ns => enableWrite { ns with type := .connecting }

def listenSocket (s : Slot) (id : Nat) : Except Fault Slot :=
  (newFd s id .tcp none).map fun made => orInvalid s made fun ns => { ns with type := .plisten }

def bindSocket (s : Slot) (id : Nat) (added : Bool) : Except Fault Slot :=
  (newFd s id .tcp (some added)).map fun made =>
    orInvalid s made fun ns => { ns with type := .bind }

def addUdpSocket (s : Slot) (id : Nat) (family : Family) (added : Bool) : Except Fault Slot :=
  let protocol := if family = .inet6 then Protocol.udpv6 else .udp
  (newFd s id protocol (some added)).map fun made =>
    orInvalid s made fun ns => { ns with type := .connected, udpAddress := List.replicate 19 0 }

/- The part of report_accept that fills the slot of the new connection. -/
def acceptSocket (s : Slot) (id : Nat) : Except Fault Slot :=
  (newFd s id .tcp none).map fun made => orInvalid s made fun ns => { ns with type := .paccept }

def startSocket (s : Slot) (id : Nat) (added : Bool) : Except Fault Slot :=
  if s.type = .invalid ∨ s.id ≠ id then .ok s
  else if s.type = .paccept ∨ s.type = .plisten then
    if ¬added then forceClose s
    else
      .ok { s with
        registered := true, writing := false
        type := if s.type = .paccept then .connected else .listen }
  else .ok s

def setUdpAddress (s : Slot) (id : Nat) (address : List UInt8) : Slot :=
  if s.type = .invalid ∨ s.id ≠ id then s
  else if address.headD 0 ≠ s.protocol.number then s
  else
    let size := if address.headD 0 = Protocol.udp.number then 7 else 19
    { s with udpAddress := address.take size ++ s.udpAddress.drop size }

/- The answer of getsockopt decides whether connecting has failed. -/
def reportConnect (s : Slot) (error : Bool) : Except Fault Slot :=
  if error then forceClose s
  else
    let s := { s with type := .connected }
    .ok (if sendBufferEmpty s then { s with writing := false } else s)

/-- An event of the poller: what may be done, whether reading would end the socket, whether
connecting has failed, and what the kernel answers to the writes. -/
structure Event where
  read : Bool
  write : Bool
  ends : Bool
  error : Bool
  script : List WriteResult
  deriving DecidableEq, Repr

def dispatch (s : Slot) (e : Event) : Except Fault Slot :=
  match s.type with
  | .connecting => reportConnect s e.error
  | .listen | .invalid => .ok s
  | _ =>
    if e.read then (if e.ends then forceClose s else .ok s)
    else if e.write then sendBuffer s e.script
    else .ok s

/-- The commands to the socket thread, and what else happens to the slot. -/
inductive Action where
  | reserve (id : Nat)
  | open (id : Nat) (attempt : Attempt)
  | listen (id : Nat)
  | bind (id : Nat) (added : Bool)
  | udp (id : Nat) (family : Family) (added : Bool)
  | accept (id : Nat)
  | start (id : Nat) (added : Bool)
  | setUdp (id : Nat) (address : List UInt8)
  | send (request : RequestSend) (answer : WriteResult)
  | close (id : Nat) (shutdown : Bool) (script : List WriteResult)
  | event (e : Event)
  deriving DecidableEq, Repr

def ifReserved (s : Slot) (id : Nat) (made : Except Fault Slot) : Option (Except Fault Slot) :=
  if s.type = .reserve ∧ s.id = id then some made else none

/- The steps that can be taken: a slot that is free can be reserved, what opens it comes once, from
the one who reserved it, MALLOC returns memory that is not in use, and the poller reports what is
registered with it. -/
def perform (s : Slot) : Action → Option (Except Fault Slot)
  | .reserve id =>
    if s.type = .invalid then some (.ok { s with type := .reserve, id := id }) else none
  | .open id attempt => ifReserved s id (openSocket s id attempt)
  | .listen id => ifReserved s id (listenSocket s id)
  | .bind id added => ifReserved s id (bindSocket s id added)
  | .udp id family added => ifReserved s id (addUdpSocket s id family added)
  | .accept id => ifReserved s id (acceptSocket s id)
  | .start id added => some (startSocket s id added)
  | .setUdp id address => some (.ok (setUdpAddress s id address))
  | .send request answer =>
    if s.heap request.place = none then some (sendSocket s request answer) else none
  | .close id shutdown script => some (closeSocket s id shutdown script)
  | .event e => if s.registered then some (dispatch s e) else none

/- A fault stops the process. -/
structure State where
  slot : Slot
  fault : Option Fault

def State.start : State := ⟨.start, none⟩

def step (st : State) (a : Action) : Option State :=
  if st.fault ≠ none then none
  else
    (perform st.slot a).map fun
      | .ok s => ⟨s, none⟩
      | .error f => ⟨st.slot, some f⟩

def live (type : SocketType) : Bool := type ≠ .invalid ∧ type ≠ .reserve

end Skynet.SocketSlot
