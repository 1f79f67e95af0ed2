import Skynet.Base.Table
import Skynet.Msgserver.Model

/-! Most of what the message server does leaves alone what the responses depend on. -/
namespace Skynet.Msgserver
open Base Function

variable {V : Type}

/-- Nothing changes that a response depends on. -/
structure Tame (s s' : Server V) : Prop where
  count : s'.responseCount = s.responseCount
  users : s'.userCount = s.userCount
  online : ∀ name u, s'.userOnline name = some u → s.userOnline name = some u
  connection : ∀ fd u, s'.connection fd = some u → s.connection fd = some u
  version : ∀ u, (s'.users u).version = (s.users u).version
  table : ∀ u session p, (s'.users u).response.lookup session = some p →
    (s.users u).response.lookup session = some p
  stamp : ∀ p, (s'.responses p).version = (s.responses p).version
  response : ∀ p, (s'.responses p).response = (s.responses p).response
  returnFd : ∀ p, (s.responses p).response = none →
    (s'.responses p).returnFd = (s.responses p).returnFd
  running : s'.running = s.running
  log : ∀ c ∈ s.log, c ∈ s'.log

theorem Tame.refl (s : Server V) : Tame s s :=
  ⟨rfl, rfl, fun _ _ => id, fun _ _ => id, fun _ => rfl, fun _ _ _ => id, fun _ => rfl,
    fun _ => rfl, fun _ _ => rfl, rfl, fun _ => id⟩

theorem Tame.trans {a b c : Server V} (first : Tame a b) (second : Tame b c) : Tame a c where
  count := second.count.trans first.count
  users := second.users.trans first.users
  online name u online := first.online name u (second.online name u online)
  connection fd u connected := first.connection fd u (second.connection fd u connected)
  version u := (second.version u).trans (first.version u)
  table u session p found := first.table u session p (second.table u session p found)
  stamp p := (second.stamp p).trans (first.stamp p)
  response p := (second.response p).trans (first.response p)
  returnFd p none := (second.returnFd p ((first.response p).trans none)).trans
    (first.returnFd p none)
  running := second.running.trans first.running
  log c member := second.log c (first.log c member)

theorem emit_tame (s : Server V) (c : Call) : Tame s (s.emit c) :=
  { Tame.refl s with log := fun _ member => List.mem_append_left _ member }

theorem closeclient_tame (s : Server V) (fd : Fd) : Tame s (closeclient s fd) := by
  unfold closeclient
  split
  · exact { Tame.refl s with log := fun _ member => List.mem_append_left _ member }
  · exact Tame.refl s

theorem cut_tame (s : Server V) (fd : Fd) :
    Tame s { s with connection := Function.update s.connection fd none } :=
  { Tame.refl s with connection := fun _ _ held => ((update_ne_iff (by nofun)).mp held).2 }

variable {s : Server V} {u p : Nat}

theorem setUser_tame {user : User V} (version : user.version = (s.users u).version)
    (table : ∀ session p, user.response.lookup session = some p →
      (s.users u).response.lookup session = some p) :
    Tame s (s.setUser u user) := by
  refine { Tame.refl s with version := update_same User.version version, table := ?_ }
  intro u' session p found
  by_cases here : u' = u
  · rw [here, setUser_here] at found
    exact here ▸ table session p found
  · rwa [setUser_other s u user here] at found

theorem erase_tame (s : Server V) (u : Nat) (session : Session) :
    Tame s (s.setUser u { s.users u with response := (s.users u).response.erase session }) :=
  setUser_tame rfl fun _ _ found => (lookup_erase_iff.mp found).2

theorem setResponse_tame {response : Response V}
    (stamp : response.version = (s.responses p).version)
    (same : response.response = (s.responses p).response)
    (returnFd : (s.responses p).response = none → response.returnFd = (s.responses p).returnFd) :
    Tame s (s.setResponse p response) := by
  refine { Tame.refl s with
    stamp := update_same Response.version stamp
    response := update_same Response.response same
    returnFd := fun p' none => ?_ }
  by_cases here : p' = p
  · subst here
    rw [setResponse_here, returnFd none]
  · rw [setResponse_other s p response here]

theorem logout_tame (s : Server V) (username : Bytes) : Tame s (logout s username) := by
  unfold logout
  split
  · exact Tame.refl s
  next u online =>
    have offline : Tame s { s with userOnline := update s.userOnline username none } :=
      { Tame.refl s with online := fun _ _ held => ((update_ne_iff (by nofun)).mp held).2 }
    dsimp only
    split
    · exact offline
    · exact (offline.trans (closeclient_tame _ _)).trans (cut_tame _ _)

theorem connect_tame (s : Server V) (fd : Fd) (addr : Bytes) : Tame s (connect s fd addr) :=
  { Tame.refl s with }

theorem closeFd_tame (s : Server V) (fd : Fd) : Tame s (closeFd s fd) := { Tame.refl s with }

theorem disconnect_tame (s : Server V) (fd : Fd) : Tame s (disconnect s fd) := by
  have quiet : Tame s { s with handshake := update s.handshake fd none } := { Tame.refl s with }
  unfold disconnect
  dsimp only
  split
  · exact quiet
  · refine quiet.trans (Tame.trans (setUser_tame ?_ fun _ _ => ?_) ((cut_tame _ _).trans (emit_tame _ _)))
    · rfl
    · exact id

theorem reply_tame (s : Server V) (fd : Fd) (text : String) : Tame s (reply s fd text) := by
  unfold reply
  split
  · exact emit_tame s _
  · exact Tame.refl s

abbrev Entries := List (Sigma fun _ : Session => Nat)

abbrev Retired (V : Type) := (Nat → Response V) × (AList fun _ : Session => Nat) × Nat

def retireAll (cfg : Config V) (entries : Entries) (acc : Retired V) : Retired V :=
  entries.foldl (fun acc entry => retireOne cfg entry acc) acc

theorem retireOne_keeps (cfg : Config V) (entry : Sigma fun _ : Session => Nat)
    (acc : Retired V) :
    (∀ p, ((retireOne cfg entry acc).1 p).version = (acc.1 p).version ∧
      ((retireOne cfg entry acc).1 p).response = (acc.1 p).response ∧
      ((retireOne cfg entry acc).1 p).returnFd = (acc.1 p).returnFd) ∧
    ∀ session p, (retireOne cfg entry acc).2.1.lookup session = some p →
      acc.2.1.lookup session = some p := by
  unfold retireOne
  dsimp only
  split
  · split
    · exact ⟨fun _ => ⟨rfl, rfl, rfl⟩, fun _ _ found => (lookup_erase_iff.mp found).2⟩
    · exact ⟨fun p => ⟨update_same Response.version (by rfl) p,
        update_same Response.response (by rfl) p, update_same Response.returnFd (by rfl) p⟩,
        fun _ _ => id⟩
  · exact ⟨fun _ => ⟨rfl, rfl, rfl⟩, fun _ _ => id⟩

theorem retireAll_keeps (cfg : Config V) (entries : Entries) (acc : Retired V) :
    (∀ p, ((retireAll cfg entries acc).1 p).version = (acc.1 p).version ∧
      ((retireAll cfg entries acc).1 p).response = (acc.1 p).response ∧
      ((retireAll cfg entries acc).1 p).returnFd = (acc.1 p).returnFd) ∧
    ∀ session p, (retireAll cfg entries acc).2.1.lookup session = some p →
      acc.2.1.lookup session = some p := by
  induction entries generalizing acc with
  | nil => exact ⟨fun _ => ⟨rfl, rfl, rfl⟩, fun _ _ => id⟩
  | cons entry entries ih =>
    obtain ⟨first, first'⟩ := retireOne_keeps cfg entry acc
    obtain ⟨rest, rest'⟩ := ih (retireOne cfg entry acc)
    refine ⟨fun p => ⟨(rest p).1.trans (first p).1, (rest p).2.1.trans (first p).2.1,
      (rest p).2.2.trans (first p).2.2⟩, fun session p found => ?_⟩
    exact first' session p (rest' session p found)

theorem retireResponse_tame (cfg : Config V) (s : Server V) (u : Nat) :
    Tame s (retireResponse cfg s u) := by
  obtain ⟨responses, table⟩ := retireAll_keeps cfg (s.users u).response.entries
    (s.responses, (s.users u).response, 0)
  unfold retireResponse
  dsimp only
  split
  · have aged : Tame s { s with responses := (retireAll cfg (s.users u).response.entries
        (s.responses, (s.users u).response, 0)).1 } :=
      { Tame.refl s with
        stamp := fun p => (responses p).1
        response := fun p => (responses p).2.1
        returnFd := fun p _ => (responses p).2.2 }
    refine aged.trans (setUser_tame rfl table)
  · exact Tame.refl s

theorem sendBack_tame (s : Server V) (response : Response V) : Tame s (sendBack s response) := by
  unfold sendBack
  split
  · split
    · exact emit_tame s _
    · exact Tame.refl s
  · exact Tame.refl s

theorem answer_tame (cfg : Config V) (u : Nat) (complete : (s.responses p).response ≠ none) :
    Tame s (answer cfg s u p) := by
  have counted : Tame s (s.setUser u { s.users u with index := (s.users u).index + 1 }) :=
    setUser_tame rfl fun _ _ => id
  have sent := counted.trans (sendBack_tame _ (s.responses p))
  have cleared : ∀ s' : Server V, Tame s s' →
      Tame s' (s'.setResponse p { s'.responses p with returnFd := none }) := by
    intro s' tame
    refine setResponse_tame rfl rfl fun none => ?_
    rw [tame.response] at none
    exact absurd none complete
  exact (sent.trans (cleared _ sent)).trans (retireResponse_tame cfg _ u)

theorem retireResponse_log (cfg : Config V) (s : Server V) (u : Nat) :
    (retireResponse cfg s u).log = s.log := by
  unfold retireResponse
  dsimp only
  split
  · rfl
  · rfl

theorem answer_log (cfg : Config V) {fd : Fd} {bytes : Bytes}
    (returnFd : (s.responses p).returnFd = some fd)
    (response : (s.responses p).response = some bytes) (connected : (s.connection fd).isSome) :
    (answer cfg s u p).log = s.log ++ [.send fd bytes] := by
  have sent : ∀ s' : Server V, (s'.connection fd).isSome →
      sendBack s' (s.responses p) = s'.emit (.send fd bytes) := by
    intro s' connected
    rw [sendBack, returnFd, response]
    exact if_pos connected
  unfold answer
  rw [retireResponse_log]
  exact congrArg Server.log (sent (s.setUser u _) connected)

end Skynet.Msgserver
