import Skynet.Base.Run

/-! Sending on one TCP socket of socket_server.c, with plain buffers. A list of write
buffers stands for the head pointer and its chain, the tail pointer being the last of
them. What the kernel answers to the calls of write is part of each event. -/
namespace Skynet.SocketServer
open Base

inductive SocketType where
  | invalid | reserve | plisten | listen | connecting | connected | halfclose | paccept | bind
  deriving DecidableEq, Repr

inductive Priority where
  | high | low
  deriving DecidableEq, Repr

/-- A request; the serial number tells two requests apart as the address of the buffer
does. -/
structure RequestSend where
  serial : Nat
  priority : Priority
  buffer : List UInt8
  deriving DecidableEq, Repr

/- The pointer is counted from the start of the buffer. -/
structure WriteBuffer where
  request : RequestSend
  ptr : Nat
  sz : Nat
  deriving DecidableEq, Repr

/-- One answer of write. The kernel takes at most what it is offered. -/
inductive WriteResult where
  | wrote (n : Nat)
  | eintr
  | eagain
  | failed
  deriving DecidableEq, Repr

/- The assertions of send_buffer, raise_uncomplete and force_close. -/
inductive Fault where
  | lowUncomplete
  | highNotEmpty
  | closeReserved
  deriving DecidableEq, Repr

/-- The socket, and what the run has done with it: the bytes its descriptor accepted,
the requests made, and those of them that were not refused, in order. -/
structure Socket where
  type : SocketType
  high : List WriteBuffer
  low : List WriteBuffer
  wbSize : Int
  polled : Bool
  out : List UInt8
  sent : List RequestSend
  accepted : List RequestSend
  fault : Option Fault
  deriving DecidableEq, Repr

def Socket.new (type : SocketType) : Socket := ⟨type, [], [], 0, false, [], [], [], none⟩

def forceClose (s : Socket) : Socket :=
  if s.type = .invalid then s
  else if s.type = .reserve then { s with fault := some .closeReserved }
  else { s with type := .invalid, high := [], low := [] }

/-- The outcome of sending a list: the bytes written, what is left of the list, the
answers not used, and whether the socket has to be closed. -/
structure Progress where
  written : List UInt8
  list : List WriteBuffer
  script : List WriteResult
  closed : Bool
  deriving DecidableEq, Repr

def offered (b : WriteBuffer) : List UInt8 := (b.request.buffer.drop b.ptr).take b.sz

/- When no answer is left the kernel takes nothing more. -/
def sendListTcp : List WriteResult → List WriteBuffer → Progress
  | script, [] => ⟨[], [], script, false⟩
  | [], list => ⟨[], list, [], false⟩
  | .eintr :: script, list => sendListTcp script list
  | .eagain :: script, list => ⟨[], list, script, false⟩
  | .failed :: script, list => ⟨[], list, script, true⟩
  | .wrote n :: script, tmp :: list =>
    let sz := min n tmp.sz
    if sz ≠ tmp.sz then
      ⟨(offered tmp).take sz, { tmp with ptr := tmp.ptr + sz, sz := tmp.sz - sz } :: list, script,
        false⟩
    else
      let rest := sendListTcp script list
      { rest with written := (offered tmp).take sz ++ rest.written }

def listUncomplete : List WriteBuffer → Bool
  | [] => false
  | wb :: _ => wb.ptr ≠ 0

def raiseUncomplete (s : Socket) : Socket :=
  match s.low with
  | [] => s
  | tmp :: low =>
    if s.high = [] then { s with high := [tmp], low := low }
    else { s with fault := some .highNotEmpty }

def Socket.wrote (s : Socket) (bytes : List UInt8) : Socket :=
  { s with out := s.out ++ bytes, wbSize := s.wbSize - bytes.length }

/- Steps 2 and 3 of send_buffer. -/
def sendLow (s : Socket) (script : List WriteResult) : Socket :=
  let second := sendListTcp script s.low
  let s : Socket := { s.wrote second.written with low := second.list }
  if second.closed then forceClose s
  else if listUncomplete s.low then raiseUncomplete s
  else s

/- Step 4 of send_buffer. -/
def checkClose (s : Socket) : Socket :=
  if s.type = .halfclose then forceClose { s with polled := false } else { s with polled := false }

def sendBuffer (s : Socket) (script : List WriteResult) : Socket :=
  if listUncomplete s.low then { s with fault := some .lowUncomplete }
  else
    let first := sendListTcp script s.high
    let s : Socket := { s.wrote first.written with high := first.list }
    if first.closed then forceClose s
    else if s.high = [] then
      if s.low = [] then checkClose s else sendLow s first.script
    else s

def writeBuffer (request : RequestSend) (n : Nat) : WriteBuffer :=
  ⟨request, n, request.buffer.length - n⟩

def appendSendbuffer (s : Socket) (request : RequestSend) (n : Nat) : Socket :=
  let buf := writeBuffer request n
  { s with high := s.high ++ [buf], wbSize := s.wbSize + buf.sz }

def appendSendbufferLow (s : Socket) (request : RequestSend) : Socket :=
  let buf := writeBuffer request 0
  { s with low := s.low ++ [buf], wbSize := s.wbSize + buf.sz }

def sendBufferEmpty (s : Socket) : Bool := s.high = [] ∧ s.low = []

/- The types whose sockets send_socket writes nothing to; it frees the buffer. -/
def refuses (type : SocketType) : Bool :=
  type = .invalid ∨ type = .halfclose ∨ type = .paccept ∨ type = .plisten ∨ type = .listen

def sendDirect (s : Socket) (request : RequestSend) (n : Nat) : Socket :=
  let s : Socket := { s with out := s.out ++ request.buffer.take n }
  if n = request.buffer.length then s
  else { appendSendbuffer s request n with polled := true }

def sendSocket (s : Socket) (request : RequestSend) (answer : WriteResult) : Socket :=
  if refuses s.type then s
  else
    let s : Socket := { s with accepted := s.accepted ++ [request] }
    if sendBufferEmpty s ∧ s.type = .connected then
      match answer with
      | .wrote n => sendDirect s request (min n request.buffer.length)
      | .eintr | .eagain => sendDirect s request 0
      | .failed => forceClose s
    else
      match request.priority with
      | .low => appendSendbufferLow s request
      | .high => appendSendbuffer s request 0

def closeSocket (s : Socket) (shutdown : Bool) (script : List WriteResult) : Socket :=
  if s.type = .invalid then s
  else
    let s := if sendBufferEmpty s then s else sendBuffer s script
    if s.fault ≠ none ∨ s.type = .invalid then s
    else if shutdown ∨ sendBufferEmpty s then forceClose s
    else { s with type := .halfclose }

/- The answer of getsockopt decides whether connecting has failed. -/
def reportConnect (s : Socket) (error : Bool) : Socket :=
  if error then forceClose s
  else { s with type := .connected, polled := if sendBufferEmpty s then false else s.polled }

/- The peer hangs up when reading from the socket ends it. -/
inductive Event where
  | send (priority : Priority) (buffer : List UInt8) (answer : WriteResult)
  | writable (script : List WriteResult) (error : Bool)
  | close (shutdown : Bool) (script : List WriteResult)
  | hangup
  deriving DecidableEq, Repr

/- A failed assertion stops the process. -/
def Socket.step (s : Socket) (e : Event) : Socket :=
  if s.fault ≠ none then s
  else
    match e with
    | .send priority buffer answer =>
      let request : RequestSend := ⟨s.sent.length, priority, buffer⟩
      sendSocket { s with sent := s.sent ++ [request] } request answer
    | .writable script error =>
      match s.type with
      | .connecting => reportConnect s error
      | .listen | .invalid => s
      | _ => sendBuffer s script
    | .close shutdown script => closeSocket s shutdown script
    | .hangup => forceClose s

end Skynet.SocketServer
