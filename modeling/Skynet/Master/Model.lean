import Skynet.Base.Run

/-! Global names: cmaster.lua, and the cslave.lua of every node. A link between a slave and the
master keeps the order of its messages; the first message of a slave is its handshake. -/
namespace Skynet.Master
open Function

variable {Node Name Addr : Type} [DecidableEq Node] [DecidableEq Name]

/-- Which packages have at most 255 bytes: those of a name and an address ('R' and 'N', which
have the same size) and those of a name ('Q'). -/
structure Packing (Name Addr : Type) where
  fits : Name → Addr → Bool
  fitsQuery : Name → Bool

inductive ToMaster (Name Addr : Type) where
  | handshake
  | register (name : Name) (address : Addr)
  | query (name : Name)
  deriving DecidableEq, Repr

/-- An 'N' message, the only one to a slave that is about names. -/
structure NameIs (Name Addr : Type) where
  name : Name
  address : Addr
  deriving DecidableEq, Repr

/-- The names a slave knows, and the requests that wait for one it does not know. -/
structure Slave (Name Addr : Type) where
  globalname : Name → Option Addr
  queryname : Name → Option (List Nat)

structure Answer (Node Name Addr : Type) where
  node : Node
  name : Name
  session : Nat
  address : Option Addr
  deriving DecidableEq, Repr

/-- The two maps of the master, the slaves and the links in both directions, the answers given
so far, and the registrations that slaves have accepted. -/
structure World (Node Name Addr : Type) where
  globalName : Name → Option Addr
  slaveNode : Node → Bool
  slave : Node → Slave Name Addr
  connected : Node → Bool
  up : Node → List (ToMaster Name Addr)
  down : Node → List (NameIs Name Addr)
  answered : List (Answer Node Name Addr)
  registered : List (Name × Addr)

def World.start : World Node Name Addr where
  globalName _ := none
  slaveNode _ := false
  slave _ := ⟨fun _ => none, fun _ => none⟩
  connected _ := false
  up _ := []
  down _ := []
  answered := []
  registered := []

def responseName (slave : Slave Name Addr) (name : Name) :
    Slave Name Addr × List (Nat × Option Addr) :=
  match slave.queryname name with
  | none => (slave, [])
  | some tmp =>
    ({ slave with queryname := update slave.queryname name none },
      tmp.map fun session => (session, slave.globalname name))

/- What REGISTER and an 'N' have in common: the entry of globalname, then response_name. -/
def learn (w : World Node Name Addr) (n : Node) (name : Name) (address : Addr) :
    World Node Name Addr :=
  let told := { w.slave n with
    globalname := update (w.slave n).globalname name (some address) }
  let (slave, answers) := responseName told name
  { w with
    slave := update w.slave n slave
    answered := w.answered ++ answers.map fun (session, found) => ⟨n, name, session, found⟩ }

def toMaster (w : World Node Name Addr) (n : Node) (m : ToMaster Name Addr) :
    World Node Name Addr :=
  { w with up := update w.up n (w.up n ++ [m]) }

/- The assert on the size comes after the slave has stored the name. -/
def register (p : Packing Name Addr) (w : World Node Name Addr) (n : Node) (name : Name)
    (handle : Addr) : World Node Name Addr :=
  match (w.slave n).globalname name with
  | some _ => w
  | none =>
    let stored := learn { w with registered := (name, handle) :: w.registered } n name handle
    if p.fits name handle then toMaster stored n (.register name handle) else stored

def waitFor (w : World Node Name Addr) (n : Node) (name : Name) (queue : List Nat) :
    World Node Name Addr :=
  { w with
    slave := update w.slave n { w.slave n with
      queryname := update (w.slave n).queryname name (some queue) } }

def queryname (p : Packing Name Addr) (w : World Node Name Addr) (n : Node) (name : Name)
    (session : Nat) : World Node Name Addr :=
  match (w.slave n).globalname name with
  | some result => { w with answered := w.answered ++ [⟨n, name, session, some result⟩] }
  | none =>
    match (w.slave n).queryname name with
    | some queue => waitFor w n name (queue ++ [session])
    | none =>
      if p.fitsQuery name then waitFor (toMaster w n (.query name)) n name [session] else w

/- The 'Q' of the harbor service in monitor_harbor. -/
def monitorHarbor (p : Packing Name Addr) (w : World Node Name Addr) (n : Node) (name : Name) :
    World Node Name Addr :=
  match (w.slave n).globalname name with
  | some _ => w
  | none => if p.fitsQuery name then toMaster w n (.query name) else w

def broadcast (w : World Node Name Addr) (m : NameIs Name Addr) : World Node Name Addr :=
  { w with down := fun n => if w.slaveNode n then w.down n ++ [m] else w.down n }

/- global_name keeps its first address; the message has the address of the request. -/
def dispatchRegister (w : World Node Name Addr) (name : Name) (address : Addr) :
    World Node Name Addr :=
  match w.globalName name with
  | some _ => broadcast w ⟨name, address⟩
  | none =>
    broadcast { w with globalName := update w.globalName name (some address) }
      ⟨name, address⟩

def dispatchSlave (w : World Node Name Addr) (n : Node) :
    ToMaster Name Addr → World Node Name Addr
  | .handshake => { w with slaveNode := update w.slaveNode n true }
  | .register name address => dispatchRegister w name address
  | .query name =>
    match w.globalName name with
    | some address => { w with down := update w.down n (w.down n ++ [⟨name, address⟩]) }
    | none => w

/-- A slave connects, its services ask something of it, or the next message of a link comes. -/
inductive Action (Node Name Addr : Type) where
  | connect (n : Node)
  | register (n : Node) (name : Name) (handle : Addr)
  | queryname (n : Node) (name : Name) (session : Nat)
  | monitorHarbor (n : Node) (name : Name)
  | dispatchSlave (n : Node)
  | monitorMaster (n : Node)
  deriving DecidableEq, Repr

def step (p : Packing Name Addr) (w : World Node Name Addr) :
    Action Node Name Addr → Option (World Node Name Addr)
  | .connect n =>
    if w.connected n then none
    else some (toMaster { w with connected := update w.connected n true } n .handshake)
  | .register n name handle =>
    if w.connected n then some (register p w n name handle) else none
  | .queryname n name session =>
    if w.connected n then some (queryname p w n name session) else none
  | .monitorHarbor n name => if w.connected n then some (monitorHarbor p w n name) else none
  | .dispatchSlave n =>
    match w.up n with
    | [] => none
    | m :: rest => some (dispatchSlave { w with up := update w.up n rest } n m)
  | .monitorMaster n =>
    match w.down n with
    | [] => none
    | m :: rest =>
      some (learn { w with down := update w.down n rest } n m.name m.address)

def Delivered (w : World Node Name Addr) : Prop := ∀ n, w.up n = [] ∧ w.down n = []

/-- The slaves agree with the master on every name that is in both maps. -/
def Agree (w : World Node Name Addr) : Prop :=
  ∀ n name a b, (w.slave n).globalname name = some a → w.globalName name = some b → a = b

end Skynet.Master
