import Skynet.Base.Outcome
import Skynet.Multicast.Model

/-! The packages of lua-multicast.c and how the daemons publish them. A package is three blocks: the
data, the mc_package with the reference count, and the cell that holds the pointer to it. -/
namespace Skynet.Multicast
open Function

open Base

/-- A block is used after it was freed, or one of the errors of lua-multicast.c. -/
inductive Fault
  | cell
  | package
  | data
  | bound
  | reference
  | notInteger
deriving DecidableEq, Repr

/-- How often each block was freed, or the data handed over to a message; the reference count; what
the daemon bound and whom it sent the package to; and those who have not closed it yet. -/
structure Package where
  cell : Nat
  package : Nat
  data : Nat
  reference : Int
  handed : Option (Int × Finset Service)
  holding : Finset Service

/- pack, of mc_packlocal and mc_packremote. -/
def pack : Package := ⟨0, 0, 0, 0, none, ∅⟩

def mcUnpack (k : Package) : Except Fault Unit :=
  if k.cell ≠ 0 then .error .cell
  else if k.package ≠ 0 then .error .package
  else if k.data ≠ 0 then .error .data
  else .ok ()

def mcBind (k : Package) (ref : Int) : Except Fault Package :=
  if k.cell ≠ 0 then .error .cell
  else if k.package ≠ 0 then .error .package
  else if k.reference ≠ 0 then .error .bound
  else .ok { k with reference := ref, cell := k.cell + 1 }

def mcClose (k : Package) : Except Fault Package :=
  if k.package ≠ 0 then .error .package
  else
    let ref := k.reference - 1
    if 0 < ref then .ok { k with reference := ref }
    else if k.data ≠ 0 then .error .data
    else if ref < 0 then .error .reference
    else .ok { k with reference := ref, data := k.data + 1, package := k.package + 1 }

/- The data goes to the caller; the cell stays. -/
def mcRemote (k : Package) : Except Fault Package :=
  if k.cell ≠ 0 then .error .cell
  else if k.package ≠ 0 then .error .package
  else .ok { k with package := k.package + 1 }

/-- A command that waits for the address of a daemon: in the loop of publish over the nodes of the
channel, or in PUB for the channel of another node. -/
inductive Waiting
  | publish (n : Node) (c : Chan) (asked : Node)
  | forward (n : Node) (asked : Node)
deriving DecidableEq, Repr

/-- The daemons of all nodes, the packages made so far, and for each the command that has it and
waits. -/
structure System where
  tables : World
  packages : Nat → Package
  waiting : Nat → Option Waiting
  made : Nat

def System.start : System := ⟨Multicast.start, fun _ => pack, fun _ => none, 0⟩

def System.setPackage (w : System) (p : Nat) (k : Package) : System :=
  { w with packages := update w.packages p k }

def System.wait (w : System) (p : Nat) (waiting : Option Waiting) : System :=
  { w with waiting := update w.waiting p waiting }

/- datacenter.get has given the address of a daemon. -/
def locate (w : World) (n node : Node) : World :=
  w.set n { w.daemon n with nodeAddress := update (w.daemon n).nodeAddress node true }

/- The members of a channel are handed the package, or it is closed at once. -/
def publishLocal (w : System) (n : Node) (c : Chan) (p : Nat) : Except Fault System :=
  let dead : Except Fault System := do
    let k ← mcBind (w.packages p) 1
    let k ← mcClose k
    return w.setPackage p k
  match (w.tables.daemon n).channel c with
  | none => dead
  | some group =>
    if group = ∅ then dead
    else
      match (w.tables.daemon n).channelN c with
      | none => .error .notInteger
      | some ref => do
        let k ← mcBind (w.packages p) ref
        return w.setPackage p { k with handed := some (ref, group), holding := group }

/- The loop over the nodes: it goes on until it needs an address that is not known. -/
def publishRemote (w : System) (n : Node) (c : Chan) (p : Nat) (nodes : List Node) :
    Except Fault System :=
  match nodes.find? fun node => !(w.tables.daemon n).nodeAddress node with
  | none => publishLocal (w.wait p none) n c p
  | some asked => .ok (w.wait p (some (.publish n c asked)))

def publish (w : System) (n : Node) (c : Chan) (p : Nat) (nodes : List Node) :
    Except Fault System :=
  match (w.tables.daemon n).channelRemote c with
  | none => publishLocal w n c p
  | some _ => do
    mcUnpack (w.packages p)
    publishRemote w n c p nodes

/- skynet.redirect with the data of the package, which is not copied. -/
def forward (w : System) (p : Nat) : System :=
  (w.wait p none).setPackage p { w.packages p with data := (w.packages p).data + 1 }

def pub (w : System) (n : Node) (c : Chan) (p : Nat) (nodes : List Node) :
    Except Fault System :=
  if owner c ≠ n then do
    let k ← mcRemote (w.packages p)
    let w := w.setPackage p k
    if (w.tables.daemon n).nodeAddress (owner c) then return forward w p
    else return w.wait p (some (.forward n (owner c)))
  else publish w n c p nodes

def delr (w : World) (n : Node) (c : Chan) : World :=
  w.set n { w.daemon n with
    channel := update (w.daemon n).channel c none
    channelN := update (w.daemon n).channelN c none }

/- For the channel of another node the command is sent on. -/
def del (w : World) (n : Node) (c : Chan) : World :=
  if owner c ≠ n then w
  else w.set n { w.daemon n with
    channel := update (w.daemon n).channel c none
    channelN := update (w.daemon n).channelN c none
    channelRemote := update (w.daemon n).channelRemote c none }

/-- The commands on the tables; DEL and DELR, and the addresses that they look up; PUB, and a
package that comes from another node, with the order in which the loop takes the nodes; the answer
to a command that waits, with the nodes that its loop still finds in the table, or its error; and
the services. -/
inductive Command
  | table (a : Action)
  | del (n : Node) (c : Chan)
  | delr (n : Node) (c : Chan)
  | locate (n node : Node)
  | pub (n : Node) (c : Chan) (nodes : List Node)
  | receive (n : Node) (c : Chan) (nodes : List Node)
  | found (p : Nat) (nodes : List Node)
  | failed (p : Nat)
  | close (p : Nat) (service : Service)

def System.setTables (w : System) (tables : World) : System := { w with tables := tables }

/- The loop takes every node of channel_remote once. -/
def Takes (w : System) (n : Node) (c : Chan) (nodes : List Node) : Prop :=
  nodes.Nodup ∧ nodes.toFinset = ((w.tables.daemon n).channelRemote c).getD ∅

instance (w : System) (n : Node) (c : Chan) (nodes : List Node) : Decidable (Takes w n c nodes) :=
  inferInstanceAs (Decidable (_ ∧ _))

def resumePub (w : System) (p : Nat) (nodes : List Node) : Waiting → Except Fault System
  | .publish n c asked => publishRemote (w.setTables (locate w.tables n asked)) n c p nodes
  | .forward n asked => .ok (forward (w.setTables (locate w.tables n asked)) p)

def closeBy (w : System) (p : Nat) (service : Service) : Except Fault System := do
  let k ← mcClose (w.packages p)
  return w.setPackage p { k with holding := k.holding.erase service }

def perform (w : System) : Command → Option (Except Fault System)
  | .table a => (step w.tables a).map fun tables => .ok (w.setTables tables)
  | .del n c => some (.ok (w.setTables (del w.tables n c)))
  | .delr n c => some (.ok (w.setTables (delr w.tables n c)))
  | .locate n node => some (.ok (w.setTables (locate w.tables n node)))
  | .pub n c nodes =>
    if Takes w n c nodes then some (pub { w with made := w.made + 1 } n c w.made nodes) else none
  | .receive n c nodes =>
    if Takes w n c nodes then some (publish { w with made := w.made + 1 } n c w.made nodes)
    else none
  | .found p nodes => (w.waiting p).map (resumePub w p nodes)
  | .failed p => (w.waiting p).map fun _ => .ok (w.wait p none)
  | .close p service =>
    if service ∈ (w.packages p).holding then some (closeBy w p service) else none

/- A fault ends the run. -/
structure Published where
  system : System
  fault : Option Fault

def Published.start : Published := ⟨.start, none⟩

def publishStep (st : Published) (a : Command) : Option Published :=
  if st.fault ≠ none then none
  else
    (perform st.system a).map fun
      | .ok w => ⟨w, none⟩
      | .error f => ⟨st.system, some f⟩

/-- No command has the package any more, and everybody who was handed it has closed it. -/
def Closed (w : System) (p : Nat) : Prop :=
  p < w.made ∧ w.waiting p = none ∧ (w.packages p).holding = ∅

/-- PUB is for channels of the node itself, and no command is stopped by an error while it has a
package: the data center knows the nodes of a channel. -/
def Owned (_ : Published) : Command → Prop
  | .pub n c _ => owner c = n
  | .failed _ => False
  | _ => True

end Skynet.Multicast
