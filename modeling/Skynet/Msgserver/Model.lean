import Mathlib.Data.List.AList
import Mathlib.Order.Defs.LinearOrder
import Skynet.Netpack.Model

/-! The message server of msgserver.lua on its gate: handshakes, requests, and the responses
that are kept for requests that are sent again. Users and responses are tables in Lua, so they
are objects with a number here. -/
namespace Skynet.Msgserver
open LuaNetpack Function

abbrev Bytes := List UInt8
abbrev Fd := Nat
abbrev Session := Nat

/-- The functions of other modules; versions are only compared. -/
structure Config (V : Type) where
  expiredNumber : Nat
  tonumber : Bytes → Option V
  b64decode : Bytes → Option Bytes
  hmacHash : Bytes → Bytes → Bytes

/-- The struct return_fd, response, version, index. -/
structure Response (V : Type) where
  returnFd : Option Fd
  response : Option Bytes
  version : Option V
  index : Option Nat

structure User (V : Type) where
  secret : Bytes
  version : V
  index : Nat
  username : Bytes
  response : AList fun _ : Session => Nat
  fd : Option Fd
  ip : Option Bytes

/-- A request whose handler has not returned. -/
structure Running where
  p : Nat
  u : Nat
  session : Session
  fd : Fd
  deriving DecidableEq, Repr

/-- A handler is started for a response, or returns; other calls to the socket. -/
inductive Call where
  | start (p : Nat) (username message : Bytes)
  | returned (p : Nat) (response : Bytes)
  | send (fd : Fd) (bytes : Bytes)
  | close (fd : Fd)
  | disconnect (username : Bytes)
  deriving DecidableEq, Repr

structure Server (V : Type) where
  userOnline : Bytes → Option Nat
  handshake : Fd → Option Bytes
  connection : Fd → Option Nat
  gate : Fd → Option Bool
  users : Nat → User V
  userCount : Nat
  responses : Nat → Response V
  responseCount : Nat
  running : List Running
  log : List Call

variable {V : Type}

def newUser [Zero V] (username secret : Bytes) : User V := ⟨secret, 0, 0, username, ∅, none, none⟩

def Server.start [Zero V] : Server V where
  userOnline := fun _ => none
  handshake := fun _ => none
  connection := fun _ => none
  gate := fun _ => none
  users := fun _ => newUser [] []
  userCount := 0
  responses := fun _ => ⟨none, none, none, none⟩
  responseCount := 0
  running := []
  log := []

def Server.emit (s : Server V) (c : Call) : Server V := { s with log := s.log ++ [c] }

def Server.setUser (s : Server V) (u : Nat) (user : User V) : Server V :=
  { s with users := update s.users u user }

def Server.setResponse (s : Server V) (p : Nat) (response : Response V) : Server V :=
  { s with responses := update s.responses p response }

section Fields
variable (s : Server V) (u p : Nat) (user : User V) (response : Response V)

@[simp] theorem setUser_here : (s.setUser u user).users u = user := update_self ..

@[simp] theorem setResponse_here : (s.setResponse p response).responses p = response :=
  update_self ..

theorem setUser_other {u' : Nat} (other : u' ≠ u) : (s.setUser u user).users u' = s.users u' :=
  update_of_ne other ..

theorem setResponse_other {p' : Nat} (other : p' ≠ p) :
    (s.setResponse p response).responses p' = s.responses p' :=
  update_of_ne other ..

end Fields

/- A client that is closed stays in the table of the gate until its socket is. -/
def closeclient (s : Server V) (fd : Fd) : Server V :=
  if s.gate fd = some true then
    { s with gate := update s.gate fd (some false) }.emit (.close fd)
  else s

def login [Zero V] (s : Server V) (username secret : Bytes) : Server V :=
  if s.userOnline username = none then
    { s with
      userOnline := update s.userOnline username (some s.userCount)
      users := update s.users s.userCount (newUser username secret)
      userCount := s.userCount + 1 }
  else s

def logout (s : Server V) (username : Bytes) : Server V :=
  match s.userOnline username with
  | none => s
  | some u =>
    let s := { s with userOnline := update s.userOnline username none }
    match (s.users u).fd with
    | none => s
    | some fd =>
      let s := closeclient s fd
      { s with connection := update s.connection fd none }

def connect (s : Server V) (fd : Fd) (addr : Bytes) : Server V :=
  { s with
    gate := update s.gate fd (some true)
    handshake := update s.handshake fd (some addr) }

def disconnect (s : Server V) (fd : Fd) : Server V :=
  let s := { s with handshake := update s.handshake fd none }
  match s.connection fd with
  | none => s
  | some c =>
    let s := s.setUser c { s.users c with fd := none }
    { s with connection := update s.connection fd none }.emit
      (.disconnect (s.users c).username)

def closeFd (s : Server V) (fd : Fd) : Server V :=
  { s with gate := update s.gate fd none }

section Auth

def colon : UInt8 := 58

/-- The three parts of the first package. -/
def matchAuth (message : Bytes) : Option (Bytes × Bytes × Bytes) :=
  match message.span (· ≠ colon) with
  | (_, []) => none
  | (username, _ :: rest) =>
    match rest.span (· ≠ colon) with
    | (_, []) => none
    | (index, _ :: rest) => some (username, index, rest.takeWhile (· ≠ colon))

inductive AuthResult (V : Type) where
  | ok (u : Nat) (version : V)
  | refused (text : String)

variable [LinearOrder V] (cfg : Config V)

def doAuth (s : Server V) (message : Bytes) : AuthResult V :=
  match matchAuth message with
  | none => .refused "404 User Not Found"
  | some (username, index, hmac) =>
    match s.userOnline username with
    | none => .refused "404 User Not Found"
    | some u =>
      match cfg.tonumber index, cfg.b64decode hmac with
      | some idx, some hmac =>
        if idx ≤ (s.users u).version then .refused "403 Index Expired"
        else if cfg.hmacHash (s.users u).secret (username ++ colon :: index) ≠ hmac then
          .refused "401 Unauthorized"
        else .ok u idx
      | _, _ => .refused "400 Bad Request"

def authorize (s : Server V) (fd : Fd) (addr : Bytes) (u : Nat) (idx : V) : Server V :=
  let s := s.setUser u { s.users u with version := idx, fd := some fd, ip := some addr }
  { s with connection := update s.connection fd (some u) }

def reply (s : Server V) (fd : Fd) (text : String) : Server V :=
  match lpack text.toUTF8.data.toList with
  | some package => s.emit (.send fd package)
  | none => s

def auth (s : Server V) (fd : Fd) (addr message : Bytes) : Server V :=
  match doAuth cfg s message with
  | .ok u idx => reply (authorize s fd addr u idx) fd "200 OK"
  | .refused text => closeclient (reply s fd text) fd

end Auth

section Requests
variable (cfg : Config V)

/- One entry of the table: a response that is complete is dropped or gets older. -/
def retireOne (entry : Sigma fun _ : Session => Nat)
    (acc : (Nat → Response V) × (AList fun _ : Session => Nat) × Nat) :
    (Nat → Response V) × (AList fun _ : Session => Nat) × Nat :=
  let p := acc.1 entry.2
  match p.returnFd, p.index with
  | none, some index =>
    if index < cfg.expiredNumber then (acc.1, acc.2.1.erase entry.1, acc.2.2)
    else (update acc.1 entry.2 { p with index := some (index - cfg.expiredNumber) },
      acc.2.1, max acc.2.2 (index - cfg.expiredNumber))
  | _, _ => acc

def retireResponse (s : Server V) (u : Nat) : Server V :=
  let user := s.users u
  if user.index ≥ cfg.expiredNumber * 2 then
    let (responses, table, max) := user.response.entries.foldl
      (fun acc entry => retireOne cfg entry acc) (s.responses, user.response, 0)
    { s with responses := responses }.setUser u { user with response := table, index := max + 1 }
  else s

def sendBack (s : Server V) (response : Response V) : Server V :=
  match response.returnFd, response.response with
  | some fd, some bytes => if (s.connection fd).isSome then s.emit (.send fd bytes) else s
  | _, _ => s

/-- The end of do_request: the response goes to the descriptor of the last copy. -/
def answer (s : Server V) (u p : Nat) : Server V :=
  let s := s.setUser u { s.users u with index := (s.users u).index + 1 }
  let s := sendBack s (s.responses p)
  retireResponse cfg (s.setResponse p { s.responses p with returnFd := none }) u

def bigendian (session : Session) : Bytes :=
  [(session / 16777216 % 256).toUInt8, (session / 65536 % 256).toUInt8,
    (session / 256 % 256).toUInt8, (session % 256).toUInt8]

def sessionOf (message : Bytes) : Session :=
  (message.drop (message.length - 4)).foldl (fun n b => n * 256 + b.toNat) 0

inductive Handled (V : Type) where
  | dropped
  | authorized (u : Nat) (version : V)
  | refused
  | invalid
  | started (p u : Nat)
  | resent (p u : Nat)

def startRequest (s : Server V) (fd : Fd) (u : Nat) (session : Session) (message : Bytes) :
    Server V × Handled V :=
  let p := s.responseCount
  let user := s.users u
  let started : Running := ⟨p, u, session, fd⟩
  let s := { s with
    responses := update s.responses p ⟨some fd, none, none, none⟩
    responseCount := p + 1
    running := s.running ++ [started] }
  let s := s.setUser u { user with response := user.response.insert session p }
  (s.emit (.start p user.username message), .started p u)

def resendResponse (s : Server V) (fd : Fd) (u p : Nat) : Server V × Handled V :=
  let s := s.setResponse p { s.responses p with
    returnFd := some fd, version := some (s.users u).version, index := some (s.users u).index }
  match (s.responses p).response with
  | none => (s, .resent p u)
  | some _ => (answer cfg s u p, .resent p u)

variable [LinearOrder V]

/-- Up to the call of the handler, which may yield. -/
def request (s : Server V) (fd : Fd) (message : Bytes) : Server V × Handled V :=
  match s.connection fd with
  | none => (s, .invalid)
  | some u =>
    if message.length < 4 then (closeclient s fd, .invalid)
    else
      let session := sessionOf message
      let content := message.take (message.length - 4)
      let user := s.users u
      match user.response.lookup session with
      | none => startRequest s fd u session content
      | some p =>
        if (s.responses p).version = some user.version then
          let s := s.setUser u { user with response := user.response.erase session }
          if (s.responses p).response = none then (closeclient s fd, .invalid)
          else startRequest s fd u session content
        else resendResponse cfg s fd u p

def message (s : Server V) (fd : Fd) (bytes : Bytes) : Server V × Handled V :=
  if s.gate fd = some true then
    match s.handshake fd with
    | some addr =>
      let handled := match doAuth cfg s bytes with
        | .ok u idx => .authorized u idx
        | .refused _ => .refused
      let s := auth cfg s fd addr bytes
      ({ s with handshake := update s.handshake fd none }, handled)
    | none => request cfg s fd bytes
  else (s, .dropped)

/- What a handler returns, or the failure of it, and the session. -/
def packResult (ok : Bool) (result : Option Bytes) (session : Session) : Option Bytes :=
  lpack (if ok then result.getD [] ++ 1 :: bigendian session else 0 :: bigendian session)

/-- After the handler has returned. -/
def finish (s : Server V) (r : Running) (ok : Bool) (result : Option Bytes) : Server V :=
  let s := { s with running := s.running.erase r }
  match packResult ok result r.session with
  | none => if (s.connection r.fd).isSome then closeclient s r.fd else s
  | some bytes =>
    let s := s.setResponse r.p { s.responses r.p with
      response := some bytes
      version := some (s.users r.u).version
      index := some (s.users r.u).index }
    answer cfg (s.emit (.returned r.p bytes)) r.u r.p

end Requests

inductive Action where
  | login (username secret : Bytes)
  | logout (username : Bytes)
  | connect (fd : Fd) (addr : Bytes)
  | disconnect (fd : Fd)
  | closed (fd : Fd)
  | message (fd : Fd) (bytes : Bytes)
  | finish (r : Running) (ok : Bool) (result : Option Bytes)

end Skynet.Msgserver
