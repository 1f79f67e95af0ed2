import Skynet.Base.Run

/-! The multicast daemons of a set of nodes: which services of a node have subscribed to a
channel, and which nodes the owner of a channel knows to have subscribers. -/
namespace Skynet.Multicast
open Base Function

abbrev Node := Nat
abbrev Chan := Nat
abbrev Service := Nat

/-- The low byte of a channel is the node that made it. -/
def owner (c : Chan) : Node := c % 256

structure Sub where
  source : Service
  chan : Chan
deriving DecidableEq

/-- What a command does once the address of a daemon is found in the data center. -/
inductive Look
  | sub (s : Sub)
  | usub (c : Chan)
deriving DecidableEq

/-- What SUBR returns: true when there is no such channel, otherwise nothing, or an error. -/
inductive Answer
  | absent
  | done
  | failed
deriving DecidableEq

/- The answer to a call goes to the command that made it. -/
inductive Msg
  | subr (s : Sub)
  | reply (s : Sub) (answer : Answer)
  | usubr (c : Chan)
deriving DecidableEq

/-- The tables of a daemon, and its commands that wait for the data center. -/
structure Daemon where
  channel : Chan → Option (Finset Service)
  channelN : Chan → Option Int
  channelRemote : Chan → Option (Finset Node)
  nodeAddress : Node → Bool
  looking : List Look

structure World where
  daemon : Node → Daemon
  wire : Node → Node → List Msg

def World.set (w : World) (n : Node) (d : Daemon) : World :=
  { w with daemon := update w.daemon n d }

def World.send (w : World) (a b : Node) (msg : Msg) : World :=
  { w with wire := update w.wire a (update (w.wire a) b (w.wire a b ++ [msg])) }

/- NEW, with the identifier that it finds free. -/
def new (d : Daemon) (c : Chan) : Daemon :=
  { d with
    channel := update d.channel c (some ∅)
    channelN := update d.channelN c (some 0) }

/- The end of SUB. Adding to a count that is nil is an error. -/
def addSubscriber (d : Daemon) (s : Sub) : Daemon :=
  match d.channel s.chan, d.channelN s.chan with
  | some group, some count =>
    if s.source ∈ group then d
    else { d with
      channel := update d.channel s.chan (some (insert s.source group))
      channelN := update d.channelN s.chan (some (count + 1)) }
  | _, _ => d

/- SUB goes on when its call of SUBR has returned. -/
def resumeSub (d : Daemon) (s : Sub) : Answer → Daemon
  | .absent => d
  | .failed => d
  | .done => addSubscriber (if d.channel s.chan = none then new d s.chan else d) s

def sub (w : World) (n : Node) (s : Sub) : World :=
  let d := w.daemon n
  if owner s.chan ≠ n ∧ d.channel s.chan = none then
    if d.nodeAddress (owner s.chan) then w.send n (owner s.chan) (.subr s)
    else w.set n { d with looking := d.looking ++ [.sub s] }
  else w.set n (addSubscriber d s)

/- SUBR, from this node. -/
def subr (d : Daemon) (self node : Node) (c : Chan) : Daemon × Answer :=
  if d.channel c = none then (d, .absent)
  else if node ≠ self ∧ owner c = self then
    ({ d with
        channelRemote :=
          update d.channelRemote c (some (insert node ((d.channelRemote c).getD ∅))) },
      .done)
  else (d, .failed)

/- USUBR. Its assertions leave the tables as they are. -/
def usubr (d : Daemon) (self node : Node) (c : Chan) : Daemon :=
  if node ≠ self then
    match d.channelRemote c with
    | some group =>
      { d with channelRemote := update d.channelRemote c (some (group.erase node)) }
    | none => d
  else d

def usub (w : World) (n : Node) (s : Sub) : World :=
  let d := w.daemon n
  match d.channel s.chan, d.channelN s.chan with
  | some group, some count =>
    if s.source ∈ group then
      if count - 1 = 0 ∧ owner s.chan ≠ n then
        let gone := { d with
          channel := update d.channel s.chan none
          channelN := update d.channelN s.chan none }
        if d.nodeAddress (owner s.chan) then (w.set n gone).send n (owner s.chan) (.usubr s.chan)
        else w.set n { gone with looking := d.looking ++ [.usub s.chan] }
      else w.set n { d with
        channel := update d.channel s.chan (some (group.erase s.source))
        channelN := update d.channelN s.chan (some (count - 1)) }
    else w
  | _, _ => w

def found (w : World) (n : Node) (i : Nat) (look : Look) : World :=
  let d := w.daemon n
  let known (node : Node) : World := w.set n { d with
    nodeAddress := update d.nodeAddress node true
    looking := d.looking.eraseIdx i }
  match look with
  | .sub s => (known (owner s.chan)).send n (owner s.chan) (.subr s)
  | .usub c => (known (owner c)).send n (owner c) (.usubr c)

/- A message from one daemon to another is dispatched. -/
def dispatch (w : World) (a b : Node) : Msg → World
  | .subr s =>
    let result := subr (w.daemon b) b a s.chan
    (w.set b result.1).send b a (.reply s result.2)
  | .reply s answer => w.set b (resumeSub (w.daemon b) s answer)
  | .usubr c => w.set b (usubr (w.daemon b) b a c)

inductive Action
  | new (n : Node) (c : Chan)
  | sub (n : Node) (s : Sub)
  | usub (n : Node) (s : Sub)
  | found (n : Node) (i : Nat)
  | missing (n : Node) (i : Nat)
  | deliver (a b : Node)

def step (w : World) : Action → Option World
  | .new n c =>
    if owner c = n ∧ (w.daemon n).channel c = none then some (w.set n (new (w.daemon n) c))
    else none
  | .sub n s => some (sub w n s)
  | .usub n s => some (usub w n s)
  | .found n i => ((w.daemon n).looking[i]?).map (found w n i)
  | .missing n i =>
    if i < (w.daemon n).looking.length then
      some (w.set n { w.daemon n with looking := (w.daemon n).looking.eraseIdx i })
    else none
  | .deliver a b =>
    match w.wire a b with
    | [] => none
    | msg :: rest =>
      some (dispatch
        { w with wire := update w.wire a (update (w.wire a) b rest) } a b msg)

def start : World where
  daemon := fun _ => ⟨fun _ => none, fun _ => none, fun _ => none, fun _ => false, []⟩
  wire := fun _ _ => []

/-- No message between the nodes is in flight, and no command waits. -/
def Quiet (w : World) : Prop :=
  (∀ a b, w.wire a b = []) ∧ ∀ n, (w.daemon n).looking = []

def Subscribed (w : World) (n : Node) (c : Chan) : Prop :=
  ∃ group, (w.daemon n).channel c = some group ∧ ∃ source, source ∈ group

/-- The owner of the channel has the node in `channel_remote`. -/
def Member (w : World) (n : Node) (c : Chan) : Prop :=
  ∃ nodes, (w.daemon (owner c)).channelRemote c = some nodes ∧ n ∈ nodes

def NoCall (w : World) (n : Node) (c : Chan) : Prop :=
  ∀ s : Sub, s.chan = c → Msg.subr s ∉ w.wire n (owner c) ∧
    ∀ answer, Msg.reply s answer ∉ w.wire (owner c) n

/-- The last subscriber of a node leaves only when no other is on its way in. -/
def Alone (w : World) : Action → Prop
  | .usub n s => (w.daemon n).channel s.chan = some {s.source} → NoCall w n s.chan
  | _ => True

end Skynet.Multicast
