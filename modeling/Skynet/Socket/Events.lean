import Skynet.Socket.Tcp

/-! The loop of socket_server_poll over all slots, next to the other threads that reserve ids. An
event holds a pointer to a slot; for the record it also has the id that the slot had when the
poller reported it. -/
namespace Skynet.SocketEvents

open Base
open SocketServer (SocketType)

def maxSocket : Nat := 65536

def hashId (id : Nat) : Nat := id % maxSocket

structure Slot where
  type : SocketType
  id : Nat
  registered : Bool
  deriving DecidableEq, Repr

/-- An event of the array that has not been taken up yet, or that has: no slot for the pipe, or
once the event was cleared. -/
structure Event where
  s : Option Nat
  id : Nat
  read : Bool
  write : Bool
  deriving DecidableEq, Repr

/-- Where the socket thread is: at the head of the loop, with events just fetched, between the two
times an open that failed frees its slot, or before clear_closed_event. -/
inductive Stage where
  | loop
  | fetched
  | failing (id : Nat) (error : Bool)
  | clearing (id : Nat)
  deriving DecidableEq, Repr

/-- The server. Ids that were reserved wait for the command that opens them. The log has, for every
event that was dispatched, the id it was reported for and the id of the slot it reached. -/
structure World where
  slot : Nat → Slot
  allocId : Nat
  outstanding : List Nat
  pending : List Event
  checkctrl : Bool
  stage : Stage
  dispatched : List (Nat × Nat)

def World.start : World :=
  ⟨fun _ => ⟨.invalid, 0, false⟩, 0, [], [], true, .loop, []⟩

def World.set (w : World) (k : Nat) (s : Slot) : World :=
  { w with slot := Function.update w.slot k s }

/- The loop of reserve_id; the counter stays non-negative as a 32-bit number. -/
def reserveLoop : Nat → World → Option (Nat × World)
  | 0, _ => none
  | i + 1, w =>
    let id := (w.allocId + 1) % 2147483648
    let w := { w with allocId := id }
    if (w.slot (hashId id)).type = .invalid then
      some (id, w.set (hashId id) { w.slot (hashId id) with type := .reserve, id := id })
    else reserveLoop i w

def reserveId (w : World) : Option (Nat × World) := reserveLoop maxSocket w

/- A slot that is only reserved fails an assertion. -/
def forceClose (w : World) (k : Nat) : Option World :=
  match (w.slot k).type with
  | .invalid => some w
  | .reserve => none
  | _ => some (w.set k { w.slot k with type := .invalid, registered := false })

/- The slot must still be reserved. -/
def newFd (w : World) (id : Nat) (type : SocketType) (registered : Bool) : Option World :=
  if (w.slot (hashId id)).type = .reserve then some (w.set (hashId id) ⟨type, id, registered⟩)
  else none

def setInvalid (w : World) (id : Nat) : World :=
  w.set (hashId id) { w.slot (hashId id) with type := .invalid }

/-- How opening a connection goes. -/
inductive Opening where
  | unresolved
  | unadded
  | connected
  | connecting
  deriving DecidableEq, Repr

/-- The commands, with what the kernel answers. -/
inductive Command where
  | open (id : Nat) (opening : Opening)
  | listen (id : Nat)
  | bind (id : Nat) (added : Bool)
  | udp (id : Nat) (added : Bool)
  | start (id : Nat) (added : Bool)
  | send (id : Nat) (fails : Bool)
  | close (id : Nat) (now : Bool)
  | other
  deriving DecidableEq, Repr

/- The command that opens a reserved id comes once. -/
def openOnce (w : World) (id : Nat) : Option World :=
  if id ∈ w.outstanding then some { w with outstanding := w.outstanding.erase id } else none

def openSocket (w : World) (id : Nat) : Opening → Option World
  | .unresolved => some { setInvalid w id with stage := .clearing id }
  | .unadded =>
    if (w.slot (hashId id)).type = .reserve then
      some { setInvalid w id with stage := .failing id true }
    else none
  | .connected => newFd w id .connected true
  | .connecting => newFd w id .connecting true

def bindSocket (w : World) (id : Nat) (added : Bool) : Option World :=
  if added then newFd w id .bind true
  else if (w.slot (hashId id)).type = .reserve then
    some { setInvalid w id with stage := .clearing id }
  else none

def addUdpSocket (w : World) (id : Nat) (added : Bool) : Option World :=
  if added then newFd w id .connected true
  else if (w.slot (hashId id)).type = .reserve then
    some { setInvalid w id with stage := .failing id false }
  else none

/- An error or a close is reported for this id. -/
def reported (id : Nat) (w : World) : World := { w with stage := .clearing id }

def startSocket (w : World) (id : Nat) (added : Bool) : Option World :=
  let s := w.slot (hashId id)
  if s.type = .invalid ∨ s.id ≠ id then some (reported id w)
  else if s.type = .paccept ∨ s.type = .plisten then
    if added then
      let type := if s.type = .paccept then SocketType.connected else .listen
      some (w.set (hashId id) { s with type := type, registered := true })
    else (forceClose w (hashId id)).map (reported id)
  else some w

def sendSocket (w : World) (id : Nat) (fails : Bool) : Option World :=
  let s := w.slot (hashId id)
  if s.type = .invalid ∨ s.id ≠ id ∨ s.type = .halfclose ∨ s.type = .paccept ∨ s.type = .plisten ∨
    s.type = .listen then some w
  else if fails ∧ s.type = .connected then (forceClose w (hashId id)).map (reported id)
  else some w

def closeSocket (w : World) (id : Nat) (now : Bool) : Option World :=
  let s := w.slot (hashId id)
  if s.type = .invalid ∨ s.id ≠ id then some (reported id w)
  else if now then (forceClose w (hashId id)).map (reported id)
  else some (w.set (hashId id) { s with type := .halfclose })

/- An id becomes known to others when the command that opens it is in the pipe. -/
def onceKnown (w : World) (id : Nat) (made : Option World) : Option World :=
  if id ∈ w.outstanding then none else made

def ctrlCmd (w : World) : Command → Option World
  | .open id opening => (openOnce w id).bind fun w => openSocket w id opening
  | .listen id => (openOnce w id).bind fun w => newFd w id .plisten false
  | .bind id added => (openOnce w id).bind fun w => bindSocket w id added
  | .udp id added => (openOnce w id).bind fun w => addUdpSocket w id added
  | .start id added => onceKnown w id (startSocket w id added)
  | .send id fails => onceKnown w id (sendSocket w id fails)
  | .close id now => onceKnown w id (closeSocket w id now)
  | .other => some w

/- The first event of the array whose slot was closed with this id. -/
def clearClosedEvent (slot : Nat → Slot) (id : Nat) : List Event → List Event
  | [] => []
  | e :: rest =>
    match e.s with
    | none => e :: clearClosedEvent slot id rest
    | some k =>
      if (slot k).type = .invalid ∧ (slot k).id = id then { e with s := none } :: rest
      else e :: clearClosedEvent slot id rest

/-- What handling an event comes to: done with, with the socket closed, or with the event left for
another turn, without its read flag perhaps. -/
inductive Outcome where
  | done
  | closed
  | again (read : Bool)
  deriving DecidableEq, Repr

/- A new connection gets a slot, if there is one. -/
def reportAccept (w : World) : World :=
  match reserveId w with
  | none => w
  | some (id, w') => (newFd w' id .paccept false).getD w'

def handle (w : World) (k : Nat) (e : Event) (outcome : Outcome) : Option World :=
  match (w.slot k).type with
  | .connecting =>
    match outcome with
    | .closed => forceClose w k
    | _ => some (w.set k { w.slot k with type := .connected })
  | .listen =>
    match outcome with
    | .done => some (reportAccept w)
    | _ => some w
  | .invalid => some w
  | _ =>
    match outcome with
    | .done => some w
    | .closed => forceClose w k
    | .again read => some { w with pending := { e with read := read } :: w.pending }

/-- The steps of the socket thread, and reserve_id in the others. -/
inductive Action where
  | reserve
  | command (c : Command)
  | failed
  | clear
  | noCommand
  | wait (reports : List (Option Nat × Bool × Bool))
  | dispatch (outcome : Outcome)
  deriving DecidableEq, Repr

def report (w : World) : Option Nat × Bool × Bool → Event
  | (none, read, write) => ⟨none, 0, read, write⟩
  | (some k, read, write) => ⟨some k, (w.slot k).id, read, write⟩

/- Each registered descriptor is reported once. -/
def canReport (w : World) (reports : List (Option Nat × Bool × Bool)) : Prop :=
  (reports.filterMap (·.1)).Nodup ∧ ∀ k ∈ reports.filterMap (·.1), (w.slot k).registered = true

instance (w : World) (reports : List (Option Nat × Bool × Bool)) :
    Decidable (canReport w reports) := inferInstanceAs (Decidable (_ ∧ _))

def dispatch (w : World) (outcome : Outcome) : Option World :=
  match w.pending with
  | [] => none
  | e :: rest =>
    let w := { w with pending := rest, stage := .loop }
    match e.s with
    | none => some w
    | some k =>
      (handle { w with dispatched := (e.id, (w.slot k).id) :: w.dispatched } k e outcome)

def step (w : World) : Action → Option World
  | .reserve =>
    (reserveId w).map fun (id, w) => { w with outstanding := id :: w.outstanding }
  | .command c => if w.stage = .loop ∧ w.checkctrl then ctrlCmd w c else none
  | .failed =>
    match w.stage with
    | .failing id error =>
      some { setInvalid w id with stage := if error then .clearing id else .loop }
    | _ => none
  | .clear =>
    match w.stage with
    | .clearing id =>
      some { w with pending := clearClosedEvent w.slot id w.pending, stage := .loop }
    | _ => none
  | .noCommand => if w.stage = .loop ∧ w.checkctrl then some { w with checkctrl := false } else none
  | .wait reports =>
    if w.stage = .loop ∧ ¬w.checkctrl ∧ w.pending = [] ∧ canReport w reports then
      some { w with
        pending := reports.map (report w), checkctrl := true
        stage := if reports = [] then .loop else .fetched }
    else none
  | .dispatch outcome =>
    if w.stage = .fetched ∨ w.stage = .loop ∧ ¬w.checkctrl then dispatch w outcome else none

end Skynet.SocketEvents
