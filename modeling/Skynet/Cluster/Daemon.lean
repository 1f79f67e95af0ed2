import Skynet.Base.Run
import Skynet.Cluster.RoundTrip

/-! How clusterd.lua puts requests together again. The daemon keeps the parts of large requests
by session; the frames of all its connections come to it one at a time. -/
namespace Skynet.Cluster
open Base Function

/-- A large request of which some frames are still to come. -/
structure Large where
  addr : Option Address
  pieces : List Piece
  deriving DecidableEq, Repr

structure Daemon where
  largeRequest : Nat → Option Large

def Daemon.start : Daemon := ⟨fun _ => none⟩

/-- What becomes of a frame: the name is looked up that a request to address 0 asks for, the
message is sent on, a call without an address fails, or the parts are no message. -/
inductive Effect where
  | query (session : Nat) (msg : List UInt8)
  | rawcall (session : Nat) (addr : Address) (msg : List UInt8)
  | failed (session : Nat)
  | invalid (session : Nat)
  deriving DecidableEq, Repr

def call (session : Nat) : Option Address → Piece → Effect
  | some addr, .bytes msg => if addr = .number 0 then .query session msg else .rawcall session addr
    msg
  | _, _ => .failed session

/- command.socket with data. An error ends the coroutine before anything is stored. -/
def socketData (d : Daemon) (msg : List UInt8) : Except Error (Daemon × Option Effect) := do
  let u ← lunpackrequest msg
  if u.padding then
    let req := (d.largeRequest u.session).getD ⟨u.addr, []⟩
    let req := { req with pieces := req.pieces ++ [u.msg] }
    return (⟨update d.largeRequest u.session (some req)⟩, none)
  else
    match d.largeRequest u.session with
    | none => return (d, some (call u.session u.addr u.msg))
    | some req =>
      let d : Daemon := ⟨update d.largeRequest u.session none⟩
      match ← lconcat (req.pieces ++ [u.msg]) with
      | none => return (d, some (.invalid u.session))
      | some msg => return (d, some (call u.session req.addr (.bytes msg)))

/- A connection that is closed, or has an error or a warning. -/
def socketOther (_ : Daemon) : Daemon := Daemon.start

/-- A request, as the peer has packed it or as the daemon has sent it on. -/
structure Delivery where
  fd : Nat
  session : Nat
  addr : Address
  msg : List UInt8
  deriving DecidableEq, Repr

def Effect.delivery (fd : Nat) : Effect → Option Delivery
  | .query session msg => some ⟨fd, session, .number 0, msg⟩
  | .rawcall session addr msg => some ⟨fd, session, addr, msg⟩
  | .failed _ | .invalid _ => none

/-- A request on its way, with the frames that have not come yet. -/
structure Flight where
  fd : Nat
  session : Nat
  addr : Address
  msg : List UInt8
  begun : Bool
  frames : List (List UInt8)
  deriving DecidableEq, Repr

def Flight.request (f : Flight) : Delivery := ⟨f.fd, f.session, f.addr, f.msg⟩

/-- The daemon with its peers: the next session of each open connection, the requests on their
way, those whose last frame has come, and those that were sent on. -/
structure World where
  daemon : Daemon
  next : Nat → Option Int
  count : Nat
  flights : Nat → Option Flight
  completed : List Delivery
  delivered : List Delivery

def World.start : World := ⟨Daemon.start, fun _ => none, 0, fun _ => none, [], []⟩

inductive Action where
  | opens (fd : Nat) (first : Int)
  | sends (fd : Nat) (addr : Address) (msg : List UInt8)
  | arrives (i : Nat)
  | closes (fd : Nat)
  | warns (fd : Nat)
  deriving DecidableEq, Repr

instance (addr : Address) : Decidable addr.Valid :=
  match addr with
  | .number n => inferInstanceAs (Decidable (0 ≤ n ∧ n < 2 ^ 32))
  | .name s => inferInstanceAs (Decidable (1 ≤ s.length ∧ s.length ≤ 255))
  | .other => inferInstanceAs (Decidable False)

/- A peer numbers its requests; one that connects again goes on with its numbers. -/
def sends (stack : Buffer) (w : World) (fd : Nat) (addr : Address) (msg : List UInt8) :
    Option World :=
  match w.next fd with
  | none => none
  | some session =>
    if addr.Valid ∧ msg.length < 2 ^ 31 then
      match lpackrequest stack addr session (some msg) msg.length with
      | .error _ => none
      | .ok r =>
        some { w with
          next := update w.next fd (some r.nextSession)
          count := w.count + 1
          flights := update w.flights w.count (some
            ⟨fd, session.toNat, addr, msg, false, r.request :: r.padding.getD []⟩) }
    else none

/- The daemon gets a frame of that flight. -/
def arrive (w : World) (i : Nat) (f : Flight) (frame : List UInt8) (rest : List (List UInt8)) :
    World :=
  let (daemon, effect) : Daemon × Option Effect :=
    match socketData w.daemon (strip frame) with
    | .ok r => r
    | .error _ => (w.daemon, none)
  { w with
    daemon := daemon
    flights := update w.flights i
      (if rest = [] then none else some { f with begun := true, frames := rest })
    completed := w.completed ++ (if rest = [] then [f.request] else [])
    delivered := w.delivered ++ (effect.bind (·.delivery f.fd)).toList }

/-- The frames of a request come in order; those of different requests in any order. -/
def arrives (w : World) (i : Nat) : Option World :=
  match w.flights i with
  | some f =>
    match f.frames with
    | frame :: rest => some (arrive w i f frame rest)
    | [] => none
  | none => none

def step (stack : Buffer) (w : World) : Action → Option World
  | .opens fd first =>
    if w.next fd = none ∧ 1 ≤ first ∧ first < 2 ^ 31 then
      some { w with next := update w.next fd (some first) }
    else none
  | .sends fd addr msg => sends stack w fd addr msg
  | .arrives i => arrives w i
  | .closes fd =>
    if (w.next fd).isSome then
      some { w with
        daemon := socketOther w.daemon
        next := update w.next fd none
        flights := fun i => (w.flights i).filter fun f => f.fd ≠ fd }
    else none
  | .warns fd => if (w.next fd).isSome then some { w with daemon := socketOther w.daemon } else none

/-- No frame comes while another request with its session is partly received, and no
connection is closed or has a warning while a request of another one is. -/
def Undisturbed (w : World) : Action → Prop
  | .opens .. | .sends .. => True
  | .arrives i => ∀ j f g, j ≠ i → w.flights i = some f → w.flights j = some g →
      g.begun = true → g.session ≠ f.session
  | .closes fd => ∀ j g, w.flights j = some g → g.begun = true → g.fd = fd
  | .warns _ => ∀ j g, w.flights j = some g → g.begun = false

end Skynet.Cluster
