import Skynet.Msgserver.Run

/-! Requests that are sent again on a later connection. -/
namespace Skynet.Msgserver
open Base LuaNetpack List

variable {V : Type} [LinearOrder V]

/-- A package that carries the session of a response on a connection of the same user, later
than the one that the last copy came on. -/
structure Resend (w : World V) (fd : Fd) (bytes : Bytes) (p u : Nat) : Prop where
  gate : w.server.gate fd = some true
  handshake : w.server.handshake fd = none
  connection : w.server.connection fd = some u
  long : ¬ bytes.length < 4
  found : (w.server.users u).response.lookup (sessionOf bytes) = some p
  later : w.ghost.last p < w.ghost.versionOf fd

/-- No handler is started. A response that is there is sent at once; one that is not will be
sent to this connection. -/
def Kept (cfg : Config V) (w : World V) (fd : Fd) (bytes : Bytes) (p u : Nat) : Prop :=
  match (w.server.responses p).response with
  | some response => .returned p response ∈ w.server.log ∧
    (message cfg w.server fd bytes).1.log = w.server.log ++ [.send fd response]
  | none => (message cfg w.server fd bytes).1.log = w.server.log ∧
    (message cfg w.server fd bytes).1.running = w.server.running ∧
    ((message cfg w.server fd bytes).1.users u).response.lookup (sessionOf bytes) = some p ∧
    (w.ghost.after fd (message cfg w.server fd bytes).2).lastFd p = fd

/-- The response of a handler is sent to the connection of the last copy of its request. -/
def Answered (cfg : Config V) (w : World V) (r : Running) (ok : Bool) (result : Option Bytes) :
    Prop :=
  ∃ response, (finish cfg w.server r ok result).log =
    w.server.log ++ [.returned r.p response, .send (w.ghost.lastFd r.p) response]

section Steps
variable {cfg : Config V} {w : World V} {fd : Fd} {bytes : Bytes} {p u : Nat}

theorem message_resent (resend : Resend w fd bytes p u)
    (old : (w.server.responses p).version ≠ some (w.server.users u).version) :
    message cfg w.server fd bytes = resendResponse cfg w.server fd u p := by
  rw [message, if_pos resend.gate, resend.handshake]
  rw [request, resend.connection]
  dsimp only
  rw [if_neg resend.long, resend.found]
  exact if_neg old

theorem message_reused (resend : Resend w fd bytes p u)
    (same : (w.server.responses p).version = some (w.server.users u).version) :
    ∃ c, (∀ fd' bytes', c ≠ .send fd' bytes') ∧
      (message cfg w.server fd bytes).1.log = w.server.log ++ [c] := by
  rw [message, if_pos resend.gate, resend.handshake]
  rw [request, resend.connection]
  dsimp only
  rw [if_neg resend.long, resend.found]
  dsimp only
  rw [if_pos same]
  split
  · refine ⟨.close fd, nofun, ?_⟩
    rw [closeclient]
    exact congrArg Server.log (if_pos resend.gate)
  · refine ⟨_, ?_, rfl⟩
    nofun

/- The response is dated by the version of its user exactly if it was dated since the last
authentication. -/
theorem dated_iff (inv : Inv w.server w.ghost)
    (found : (w.server.users u).response.lookup (sessionOf bytes) = some p) :
    (w.server.responses p).version = some (w.server.users u).version ↔
      w.ghost.dated p = some (w.ghost.auths u) := by
  obtain ⟨bound, owner⟩ := inv.table u _ p found
  have dated := inv.dated p bound
  rw [owner] at dated
  unfold Dated at dated
  split at dated
  next stamp date => rw [stamp, date]; exact iff_of_false nofun nofun
  next stamp date =>
    rw [stamp, date, Option.some.injEq, Option.some.injEq]
    exact dated.2.2
  · exact dated.elim

theorem kept_iff (inv : Inv w.server w.ghost) (resend : Resend w fd bytes p u) :
    Kept cfg w fd bytes p u ↔ w.ghost.dated p ≠ some (w.ghost.auths u) := by
  rw [Ne, ← dated_iff inv resend.found]
  constructor
  · intro kept same
    obtain ⟨c, other, log⟩ : ∃ c, (∀ fd' bytes', c ≠ .send fd' bytes') ∧
      (message cfg w.server fd bytes).1.log = w.server.log ++ [c] := message_reused resend same
    unfold Kept at kept
    split at kept
    next response complete =>
      rw [log, append_cancel_left_eq, cons.injEq] at kept
      exact other fd response kept.2.1
    · rw [log] at kept
      have lengths := congrArg length kept.1
      rw [length_append, length_singleton] at lengths
      omega
  · intro old
    unfold Kept
    rw [message_resent resend old, resendResponse]
    dsimp only
    rw [setResponse_here]
    cases response : (w.server.responses p).response with
    | none => exact ⟨rfl, rfl, resend.found, Function.update_self ..⟩
    | some bytes' =>
      refine ⟨inv.returned p bytes' response, ?_⟩
      refine answer_log cfg ?_ ?_ ?_
      · rw [setResponse_here]
      · rw [setResponse_here]
      · exact Option.isSome_iff_exists.mpr ⟨u, resend.connection⟩

end Steps

section Answers
variable {cfg : Config V} {w : World V} {r : Running}

theorem packResult_some (ok : Bool) (result : Option Bytes) (session : Session) :
    (packResult ok result session).isSome ↔ (ok = true → (result.getD []).length + 5 < 65536) := by
  unfold packResult lpack
  cases ok with
  | false => exact iff_of_true rfl nofun
  | true =>
    have length : (result.getD [] ++ 1 :: bigendian session).length =
        (result.getD []).length + 5 := length_append
    rw [if_pos rfl, length]
    split
    next long => exact iff_of_false nofun fun short => absurd (short rfl) (Nat.not_lt.mpr long)
    next short => exact iff_of_true rfl fun _ => Nat.lt_of_not_le short

/- A response that is too long for its length in two bytes is not sent. -/
theorem answered_iff (inv : Inv w.server w.ghost) (running : r ∈ w.server.running) (ok : Bool)
    (result : Option Bytes) (connected : (w.server.connection (w.ghost.lastFd r.p)).isSome) :
    Answered cfg w r ok result ↔ (ok = true → (result.getD []).length + 5 < 65536) := by
  obtain ⟨-, -, -, returnFd⟩ := inv.live r running
  rw [← packResult_some ok result r.session]
  unfold Answered finish
  cases packed : packResult ok result r.session with
  | none =>
    refine iff_of_false ?_ nofun
    rintro ⟨response, log⟩
    have short : ∀ s : Server V, (closeclient s r.fd).log.length ≤ s.log.length + 1 := by
      intro s
      unfold closeclient
      split
      · exact Nat.le_of_eq length_append
      · exact Nat.le_succ _
    dsimp only at log
    split at log
    · have bound := short { w.server with running := w.server.running.erase r }
      have lengths := (congrArg length log).symm.trans_le bound
      rw [length_append] at lengths
      exact absurd lengths (Nat.not_succ_le_self _)
    · have lengths := congrArg length log
      rw [length_append] at lengths
      exact absurd lengths (Nat.ne_of_lt (Nat.lt_add_of_pos_right (Nat.zero_lt_succ 1)))
  | some bytes =>
    refine iff_of_true ⟨bytes, ?_⟩ rfl
    refine (answer_log cfg ?_ ?_ ?_).trans (append_assoc ..)
    · exact (congrArg Response.returnFd (setResponse_here ..)).trans returnFd
    · exact congrArg Response.response (setResponse_here ..)
    · exact connected

end Answers

/-- A request that is sent again is recognised exactly if its user has authenticated since its
handler returned, and since it was last sent again; a response is sent back exactly if it is not
too long. -/
theorem msgserver_at_most_once [Zero V] {cfg : Config V} {w : World V}
    (reached : Run (World.step cfg) World.start w) :
    (∀ fd bytes p u, Resend w fd bytes p u →
      (Kept cfg w fd bytes p u ↔ w.ghost.dated p ≠ some (w.ghost.auths u))) ∧
    ∀ r ∈ w.server.running, ∀ ok result, (w.server.connection (w.ghost.lastFd r.p)).isSome →
      (Answered cfg w r ok result ↔ (ok = true → (result.getD []).length + 5 < 65536)) :=
  ⟨fun _ _ _ _ resend => kept_iff (run_inv reached) resend, fun _ running ok result connected =>
    answered_iff (run_inv reached) running ok result connected⟩

section Sample

/- An index of one digit, and no secrets. -/
def sampleConfig : Config Nat :=
  ⟨128, fun index => some ((index.headD 48).toNat - 48), some, fun _ _ => []⟩

def firstHandler : Running := ⟨0, 0, 7, 1⟩

def requestBytes : Bytes := [9, 0, 0, 0, 7]

/- The user 117 authenticates as 1 and sends a request; its connection is lost. -/
def cutOff : List Action :=
  [.login [117] [], .connect 1 [], .message 1 [117, 58, 49, 58], .message 1 requestBytes,
    .disconnect 1, .closed 1, .connect 2 []]

def sample (actions : List Action) : World Nat :=
  ((cutOff ++ actions).foldlM (World.step sampleConfig) World.start).getD World.start

/- The handler returns before the next authentication. -/
theorem msgserver_at_most_once_early :
    Kept sampleConfig (sample [.finish firstHandler true (some [5]), .message 2 [117, 58, 50, 58]])
      2 requestBytes 0 0 := by
  have reached : Run (World.step sampleConfig) World.start
      (sample [.finish firstHandler true (some [5]), .message 2 [117, 58, 50, 58]]) :=
    run_of_list (cutOff ++ [.finish firstHandler true (some [5]), .message 2 [117, 58, 50, 58]]) rfl
  refine ((msgserver_at_most_once reached).1 2 requestBytes 0 0 ⟨?_, ?_, ?_, ?_, ?_, ?_⟩).mpr ?_
  all_goals decide

/- The handler returns after it, and the request is executed a second time. -/
theorem msgserver_executed_twice : ∃ w, Run (World.step sampleConfig) World.start w ∧
    Resend w 2 requestBytes 0 0 ∧ .start 0 [117] [9] ∈ w.server.log ∧
      (message sampleConfig w.server 2 requestBytes).1.log =
        w.server.log ++ [.start 1 [117] [9]] := by
  refine ⟨sample [.message 2 [117, 58, 50, 58], .finish firstHandler true (some [5])],
    run_of_list (cutOff ++ [.message 2 [117, 58, 50, 58], .finish firstHandler true (some [5])]) rfl,
    ⟨?_, ?_, ?_, ?_, ?_, ?_⟩, ?_, ?_⟩
  all_goals decide

end Sample

end Skynet.Msgserver
