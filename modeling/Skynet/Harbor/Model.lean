import Skynet.Base.Bits
import Skynet.Base.Memory
import Skynet.Harbor.Queue

/-! The harbor service of service_harbor.c, which keeps one link to each other harbor. The
calls it makes are kept in a log. -/
namespace Skynet.HarborService
open Base Function

def handleMask : UInt32 := 0xffffff
def handleRemoteShift : UInt32 := 24
def remoteMax : Nat := 256
def globalnameLength : Nat := 16
def headerCookieLength : Nat := 12
def uint32Max : Nat := 0xffffffff

def ptypeText : UInt32 := 0
def ptypeError : UInt32 := 7
def ptypeTagDontcopy : UInt32 := 0x10000

def harborOf (handle : UInt32) : Nat := (handle >>> handleRemoteShift).toNat

inductive Status where
  | wait
  | handshake
  | header
  | content
  | down
  deriving DecidableEq, Repr

structure Slave where
  fd : Int
  queue : Option HarborMsgQueue
  status : Status
  length : Nat
  read : Nat
  size : Nat → UInt8
  recvBuffer : Nat → UInt8

structure KeyValue where
  value : UInt32
  queue : Option HarborMsgQueue

/-- skynet_send, a message written by send_remote to the link of a harbor, the other calls to
the socket, the buffer of a socket message freed, and what C leaves undefined: memory read
before a message, or an assertion that fails. -/
inductive Effect where
  | send (source destination type session : UInt32) (payload : Option (List UInt8))
  | remote (id : Nat) (fd : Int) (m : HarborMsg)
  | handshake (fd : Int) (byte : UInt8)
  | start (fd : Int)
  | close (fd : Int)
  | freed
  | fault
  deriving DecidableEq, Repr

abbrev Name := List UInt8

structure Harbor where
  id : Nat
  slave : UInt32
  map : Name → Option KeyValue
  s : Nat → Slave
  log : List Effect

def Harbor.emit (h : Harbor) (e : Effect) : Harbor := { h with log := h.log ++ [e] }

def Harbor.setSlave (h : Harbor) (id : Nat) (s : Slave) : Harbor :=
  { h with s := update h.s id s }

section Fields
variable (h : Harbor) (e : Effect) (id : Nat) (s : Slave)

@[simp] theorem emit_s : (h.emit e).s = h.s := rfl
@[simp] theorem emit_log : (h.emit e).log = h.log ++ [e] := rfl
@[simp] theorem setSlave_map : (h.setSlave id s).map = h.map := rfl
@[simp] theorem setSlave_log : (h.setSlave id s).log = h.log := rfl
@[simp] theorem setSlave_here : (h.setSlave id s).s id = s := update_self ..

@[simp] theorem setSlave_twice (s' : Slave) :
    (h.setSlave id s).setSlave id s' = h.setSlave id s' := by
  rw [Harbor.setSlave, Harbor.setSlave, update_idem, Harbor.setSlave]

theorem setSlave_other {i : Nat} (other : i ≠ id) : (h.setSlave id s).s i = h.s i :=
  update_of_ne other ..

end Fields

/- Memory is cleared when the harbor is made; harbor_init reads the two numbers. -/
def harborCreate (id : Nat) (slave : UInt32) : Harbor where
  id := id
  slave := slave
  map := fun _ => none
  s := fun _ => ⟨0, none, .wait, 0, 0, fun _ => 0, fun _ => 0⟩
  log := []

def closeHarbor (h : Harbor) (id : Nat) : Harbor :=
  let s := h.s id
  let h := h.setSlave id { s with status := .down, queue := none }
  if s.fd ≠ 0 then h.emit (.close s.fd) else h

def reportHarborDown (h : Harbor) (id : Nat) : Harbor :=
  h.emit (.send 0 h.slave ptypeText 0 (some ("D " ++ toString id).toUTF8.toList))

section Bytes

def toBigendian (n : UInt32) : List UInt8 :=
  [(n >>> 24 &&& 0xff).toUInt8, (n >>> 16 &&& 0xff).toUInt8, (n >>> 8 &&& 0xff).toUInt8,
    (n &&& 0xff).toUInt8]

def headerToMessage (header : RemoteMessageHeader) : List UInt8 :=
  toBigendian header.source ++ (toBigendian header.destination ++ toBigendian header.session)

def fromBigendian (message : Nat → UInt8) (pos : Nat) : UInt32 :=
  (message pos).toUInt32 <<< 24 ||| (message (pos + 1)).toUInt32 <<< 16 |||
    (message (pos + 2)).toUInt32 <<< 8 ||| (message (pos + 3)).toUInt32

def messageToHeader (message : Nat → UInt8) (pos : Nat) : RemoteMessageHeader where
  source := fromBigendian message pos
  destination := fromBigendian message (pos + 4)
  session := fromBigendian message (pos + 8)

/-- What send_remote puts on the link. -/
def remoteBytes (m : HarborMsg) : List UInt8 :=
  toBigendian (UInt32.ofNat (m.buffer.bytes.length + headerCookieLength)) ++
    (m.buffer.bytes ++ headerToMessage m.header)

end Bytes

section Receive
variable (alive : Nat → UInt32 → Bool) (heap : Nat → UInt8)

/- Fresh memory holds anything, and whether skynet_send finds its destination depends on when
it is called. -/
def forwardLocalMessage (h : Harbor) (msg : Nat → UInt8) (sz : Nat) : Harbor :=
  if sz < headerCookieLength then h.emit .fault
  else
    let header := messageToHeader msg (sz - headerCookieLength)
    let type := header.destination >>> handleRemoteShift
    let destination :=
      header.destination &&& handleMask ||| UInt32.ofNat h.id <<< handleRemoteShift
    let found := alive h.log.length destination
    let h := h.emit (.send header.source destination (type ||| ptypeTagDontcopy) header.session
      (some (window msg 0 (sz - headerCookieLength))))
    if found then h
    else if type ≠ ptypeError then
      h.emit (.send destination header.source ptypeError header.session none)
    else h

def sendRemote (id : Nat) (fd : Int) (h : Harbor) (m : HarborMsg) : Harbor :=
  if m.buffer.bytes.length + headerCookieLength > uint32Max then h else h.emit (.remote id fd m)

def dispatchQueue (h : Harbor) (id : Nat) : Harbor :=
  let s := h.s id
  if s.fd = 0 then h.emit .fault
  else
    match s.queue with
    | none => h
    | some queue =>
      let h := drain (sendRemote id s.fd) queue h
      h.setSlave id { s with queue := none }

/- The case of the switch where the content is read; what is left when the loop goes on. -/
def contentCase (h : Harbor) (id : Nat) (buffer : List UInt8) : Harbor × Option (List UInt8) :=
  let s := h.s id
  let need := s.length - s.read
  if buffer.length < need then
    (h.setSlave id { s with
      recvBuffer := store s.recvBuffer s.read buffer, read := s.read + buffer.length }, none)
  else
    let recvBuffer := store s.recvBuffer s.read (buffer.take need)
    let h := forwardLocalMessage alive h recvBuffer s.length
    let h := h.setSlave id { s with length := 0, read := 0, status := .header }
    (h, if buffer.length = need then none else some (buffer.drop need))

/- Reads the length, and goes through to the content. -/
def headerCase (h : Harbor) (id : Nat) (buffer : List UInt8) : Harbor × Option (List UInt8) :=
  let s := h.s id
  let need := 4 - s.read
  if buffer.length < need then
    (h.setSlave id { s with
      size := store s.size s.read buffer, read := s.read + buffer.length }, none)
  else
    let size := store s.size s.read (buffer.take need)
    let h := h.setSlave id { s with size := size }
    if size 0 ≠ 0 then (closeHarbor h id, none)
    else
      let length := (size 1).toNat <<< 16 ||| (size 2).toNat <<< 8 ||| (size 3).toNat
      let h := h.setSlave id { s with
        size := size, length := length, read := 0, recvBuffer := heap, status := .content }
      if buffer.length = need then (h, none) else contentCase alive h id (buffer.drop need)

def handshakeCase (h : Harbor) (id : Nat) (buffer : List UInt8) : Harbor × Option (List UInt8) :=
  if (buffer.headD 0).toNat ≠ id then (closeHarbor h id, none)
  else
    let h := h.setSlave id { h.s id with status := .header }
    let h := dispatchQueue h id
    if buffer.length = 1 then (h, some []) else headerCase alive heap h id (buffer.drop 1)

def turn (h : Harbor) (id : Nat) (buffer : List UInt8) : Harbor × Option (List UInt8) :=
  match (h.s id).status with
  | .handshake => handshakeCase alive heap h id buffer
  | .header => headerCase alive heap h id buffer
  | .content => contentCase alive h id buffer
  | .wait | .down => (h, none)

def pushLoop (id : Nat) : Nat → Harbor → List UInt8 → Harbor
  | 0, h, _ => h
  | rounds + 1, h, buffer =>
    match turn alive heap h id buffer with
    | (h, none) => h
    | (h, some buffer) => pushLoop id rounds h buffer

def slaveOf (h : Harbor) (fd : Int) : Option Nat :=
  (List.range' 1 (remoteMax - 1)).find? fun i => (h.s i).fd = fd

/-- Each round but the first and the last takes a byte at least. -/
def pushSocketData (fd : Int) (h : Harbor) (buffer : List UInt8) : Harbor :=
  match slaveOf h fd with
  | none => h.emit .freed
  | some id => pushLoop alive heap id (buffer.length + 3) h buffer

end Receive

section Names

def dispatchNameQueue (h : Harbor) (handle : UInt32) (queue : HarborMsgQueue) : Harbor :=
  let harborId := harborOf handle
  let s := h.s harborId
  if s.fd = 0 then
    if s.status = .down then h
    else
      let queue := match s.queue with
        | none => queue
        | some q => drain pushQueueMsg queue q
      if harborId = harborOf h.slave then
        let h := drain (fun h m => h.emit (.send m.header.source handle
          (m.header.destination >>> handleRemoteShift ||| ptypeTagDontcopy) m.header.session
          (some m.buffer.bytes))) queue h
        h.setSlave harborId { s with queue := none }
      else h.setSlave harborId { s with queue := some queue }
  else
    drain (fun h m => sendRemote harborId s.fd h { m with header :=
      { m.header with destination := m.header.destination ||| (handle &&& handleMask) } }) queue h

def updateName (h : Harbor) (name : Name) (handle : UInt32) : Harbor :=
  let node := (h.map name).getD ⟨0, none⟩
  let h := match node.queue with
    | none => h
    | some queue => dispatchNameQueue h handle queue
  { h with map := update h.map name (some ⟨handle, none⟩) }

end Names

section Sends

/-- Whether the message is kept or given away. -/
def remoteSendHandle (h : Harbor) (source destination type session : UInt32) (msg : Message) :
    Harbor × Bool :=
  let harborId := harborOf destination
  if harborId = h.id then
    (h.emit (.send source destination (type ||| ptypeTagDontcopy) session (some msg.bytes)), true)
  else
    let s := h.s harborId
    if s.fd = 0 ∨ s.status = .handshake then
      if s.status = .down then (h.emit (.send destination source ptypeError 0 none), false)
      else
        let queue := s.queue.getD newQueue
        let header : RemoteMessageHeader :=
          ⟨source, type <<< handleRemoteShift ||| (destination &&& handleMask), session⟩
        (h.setSlave harborId { s with queue := some (pushQueue queue msg header) }, true)
    else
      let cookie : RemoteMessageHeader :=
        ⟨source, (destination &&& handleMask) ||| type <<< handleRemoteShift, session⟩
      (sendRemote harborId s.fd h ⟨cookie, msg⟩, false)

def remoteSendName (h : Harbor) (source : UInt32) (name : Name) (type session : UInt32)
    (msg : Message) : Harbor × Bool :=
  let node := (h.map name).getD ⟨0, none⟩
  if node.value = 0 then
    let queue := node.queue.getD newQueue
    let header : RemoteMessageHeader := ⟨source, type <<< handleRemoteShift, session⟩
    let node : KeyValue := ⟨0, some (pushQueue queue msg header)⟩
    let h := { h with map := update h.map name (some node) }
    (h.emit (.send 0 h.slave ptypeText 0 (some ("Q ".toUTF8.toList ++ name))), true)
  else
    let h := { h with map := update h.map name (some node) }
    remoteSendHandle h source node.value type session msg

end Sends

/-- The commands S and A, once their text has been read. -/
def connectCommand (h : Harbor) (accept : Bool) (fd : Int) (id : Nat) : Harbor :=
  if fd = 0 ∨ id = 0 ∨ id ≥ remoteMax then h
  else
    let slave := h.s id
    if slave.fd ≠ 0 then h
    else
      let h := (h.emit (.start fd)).emit (.handshake fd h.id.toUInt8)
      if accept then dispatchQueue (h.setSlave id { slave with fd := fd, status := .header }) id
      else h.setSlave id { slave with fd := fd, status := .handshake }

/- The command N; the handle is the source of the message. -/
def nameCommand (h : Harbor) (name : Name) (handle : UInt32) : Harbor :=
  if name.length = 0 ∨ name.length ≥ globalnameLength then h else updateName h name handle

inductive Incoming where
  | data (fd : Int) (buffer : List UInt8)
  | closed (fd : Int)
  | connect (accept : Bool) (fd : Int) (id : Nat)
  | named (name : Name) (handle : UInt32)
  | toHandle (source destination type session : UInt32) (msg : Message)
  | toName (source : UInt32) (name : Name) (type session : UInt32) (msg : Message)

variable (alive : Nat → UInt32 → Bool) (heap : Nat → UInt8)

def mainloop (h : Harbor) : Incoming → Harbor
  | .data fd buffer => (pushSocketData alive heap fd h buffer).emit .freed
  | .closed fd =>
    match slaveOf h fd with
    | some id => reportHarborDown h id
    | none => h
  | .connect accept fd id => connectCommand h accept fd id
  | .named name handle => nameCommand h name handle
  | .toHandle source destination type session msg =>
    if destination = 0 then h else (remoteSendHandle h source destination type session msg).1
  | .toName source name type session msg => (remoteSendName h source name type session msg).1

end Skynet.HarborService
