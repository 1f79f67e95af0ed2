import Skynet.Msgserver.Frame

/-! Runs of the message server, with a record of what has happened to each response: which
connection sent the last copy of its request, and how often its user had authenticated when it
was last dated. -/
namespace Skynet.Msgserver
open Base List Function

structure Ghost (V : Type) where
  versionOf : Fd → V
  auths : Nat → Nat
  owner : Nat → Nat
  last : Nat → V
  lastFd : Nat → Fd
  dated : Nat → Option Nat

structure World (V : Type) where
  server : Server V
  ghost : Ghost V

variable {V : Type}

/-- A copy of a request has come on a connection. -/
def Ghost.copy (g : Ghost V) (fd : Fd) (p : Nat) (dated : Option Nat) : Ghost V :=
  { g with
    last := update g.last p (g.versionOf fd)
    lastFd := update g.lastFd p fd
    dated := update g.dated p dated }

def Ghost.after (g : Ghost V) (fd : Fd) : Handled V → Ghost V
  | .authorized u version => { g with
      versionOf := update g.versionOf fd version
      auths := update g.auths u (g.auths u + 1) }
  | .started p u => { g.copy fd p none with owner := update g.owner p u }
  | .resent p u => g.copy fd p (some (g.auths u))
  | .dropped | .refused | .invalid => g

def Ghost.finished (g : Ghost V) (r : Running) : Option Bytes → Ghost V
  | none => g
  | some _ => { g with dated := update g.dated r.p (some (g.auths r.u)) }

/-- The version that a response was dated with, against the count of authentications. -/
def Dated [LE V] (stamp : Option V) (dated : Option Nat) (version : V) (auths : Nat) : Prop :=
  match stamp, dated with
  | none, none => True
  | some v, some n => v ≤ version ∧ n ≤ auths ∧ (v = version ↔ n = auths)
  | _, _ => False

variable [LinearOrder V]

theorem Dated.again {stamp : Option V} {dated : Option Nat} {version version' : V} {auths : Nat}
    (before : Dated stamp dated version auths) (later : version < version') :
    Dated stamp dated version' (auths + 1) := by
  unfold Dated at before ⊢
  split at before
  · trivial
  · obtain ⟨stamped, counted, -⟩ := before
    refine ⟨(stamped.trans_lt later).le, Nat.le_succ_of_le counted, ?_⟩
    exact iff_of_false (stamped.trans_lt later).ne (Nat.ne_of_lt (Nat.lt_succ_of_le counted))
  · exact before.elim

def World.start [Zero V] : World V :=
  ⟨Server.start, ⟨fun _ => 0, fun _ => 0, fun _ => 0, fun _ => 0, fun _ => 0, fun _ => none⟩⟩

def World.step [Zero V] (cfg : Config V) (w : World V) : Action → Option (World V)
  | .login username secret => some { w with server := login w.server username secret }
  | .logout username => some { w with server := logout w.server username }
  | .connect fd addr => some { w with server := connect w.server fd addr }
  | .disconnect fd => some { w with server := disconnect w.server fd }
  | .closed fd => some { w with server := closeFd w.server fd }
  | .message fd bytes =>
    some ⟨(message cfg w.server fd bytes).1, w.ghost.after fd (message cfg w.server fd bytes).2⟩
  | .finish r ok result =>
    if r ∈ w.server.running then
      some ⟨finish cfg w.server r ok result, w.ghost.finished r (packResult ok result r.session)⟩
    else none

structure Inv (s : Server V) (g : Ghost V) : Prop where
  live : ∀ r ∈ s.running, r.p < s.responseCount ∧ g.owner r.p = r.u ∧
    (s.responses r.p).response = none ∧ (s.responses r.p).returnFd = some (g.lastFd r.p)
  distinct : (s.running.map Running.p).Nodup
  table : ∀ u session p, (s.users u).response.lookup session = some p →
    p < s.responseCount ∧ g.owner p = u
  dated : ∀ p, p < s.responseCount → Dated (s.responses p).version (g.dated p)
    (s.users (g.owner p)).version (g.auths (g.owner p))
  owned : ∀ p, p < s.responseCount → g.owner p < s.userCount
  online : ∀ name u, s.userOnline name = some u → u < s.userCount
  connected : ∀ fd u, s.connection fd = some u → u < s.userCount
  returned : ∀ p bytes, (s.responses p).response = some bytes → .returned p bytes ∈ s.log

section Steps
variable {s s' : Server V} {g : Ghost V}

theorem inv_start [Zero V] : Inv (World.start : World V).server (World.start : World V).ghost :=
  ⟨nofun, nodup_nil, nofun, nofun, nofun, nofun, nofun, nofun⟩

theorem Tame.inv (tame : Tame s s') (inv : Inv s g) : Inv s' g := by
  refine ⟨?_, ?_, ?_, ?_, ?_, ?_, ?_, ?_⟩
  · intro r member
    rw [tame.running] at member
    obtain ⟨bound, owner, open', returnFd⟩ := inv.live r member
    rw [tame.count, tame.response, tame.returnFd r.p open']
    exact ⟨bound, owner, open', returnFd⟩
  · rw [tame.running]
    exact inv.distinct
  · intro u session p found
    rw [tame.count]
    exact inv.table u session p (tame.table u session p found)
  · intro p bound
    rw [tame.count] at bound
    rw [tame.stamp, tame.version]
    exact inv.dated p bound
  · intro p bound
    rw [tame.count] at bound
    rw [tame.users]
    exact inv.owned p bound
  · intro name u online
    rw [tame.users]
    exact inv.online name u (tame.online name u online)
  · intro fd u connected
    rw [tame.users]
    exact inv.connected fd u (tame.connection fd u connected)
  · intro p bytes complete
    rw [tame.response] at complete
    exact tame.log _ (inv.returned p bytes complete)

theorem login_inv [Zero V] (inv : Inv s g) (username secret : Bytes) : Inv
    (login s username secret) g := by
  unfold login
  split
  · refine ⟨inv.live, inv.distinct, ?_, ?_, ?_, ?_, ?_, inv.returned⟩
    · intro u session p found
      by_cases here : u = s.userCount
      · simp [here, newUser] at found
      · exact inv.table u session p (by simpa [here] using found)
    · intro p bound
      dsimp only
      rw [update_of_ne (Nat.ne_of_lt (inv.owned p bound))]
      exact inv.dated p bound
    · intro p bound
      exact Nat.lt_succ_of_lt (inv.owned p bound)
    · intro name u online
      rcases update_iff.mp online with ⟨-, ⟨⟩⟩ | ⟨-, old⟩
      · exact Nat.lt_succ_self _
      · exact Nat.lt_succ_of_lt (inv.online name u old)
    · intro fd u connected
      exact Nat.lt_succ_of_lt (inv.connected fd u connected)
  · exact inv

variable {u p : Nat} {version : V} {fd : Fd} {session : Session} {r : Running}

theorem doAuth_ok {cfg : Config V} {message : Bytes} (ok : doAuth cfg s message = .ok u version) :
    (∃ name, s.userOnline name = some u) ∧ (s.users u).version < version := by
  unfold doAuth at ok
  split at ok
  · cases ok
  · split at ok
    · cases ok
    next online =>
      split at ok
      · split at ok
        · cases ok
        next later =>
          split at ok
          · cases ok
          · cases ok
            exact ⟨⟨_, online⟩, not_le.mp later⟩
      · cases ok

/- An authentication makes every date of the user's responses an old one. -/
theorem authorize_inv {addr : Bytes} (inv : Inv s g) (known : u < s.userCount)
    (later : (s.users u).version < version) :
    Inv (authorize s fd addr u version) (g.after fd (.authorized u version)) := by
  have table : ∀ u', ((authorize s fd addr u version).users u').response =
      (s.users u').response := update_same User.response (by rfl)
  refine ⟨inv.live, inv.distinct, ?_, ?_, inv.owned, inv.online, ?_, inv.returned⟩
  · intro u' session p found
    rw [table] at found
    exact inv.table u' session p found
  · intro p bound
    have before := inv.dated p bound
    change Dated (s.responses p).version (g.dated p) ((s.setUser u _).users (g.owner p)).version
      (update g.auths u (g.auths u + 1) (g.owner p))
    by_cases here : g.owner p = u
    · rw [here] at before ⊢
      rw [setUser_here, update_self]
      exact before.again later
    · rwa [setUser_other s u _ here, update_of_ne here]
  · intro fd' u' connected
    rcases update_iff.mp connected with ⟨-, ⟨⟩⟩ | ⟨-, old⟩
    · exact known
    · exact inv.connected fd' u' old

/- A new response belongs to the user of the connection, and its handler is running. -/
theorem startRequest_inv {content : Bytes} (inv : Inv s g) (known : u < s.userCount) :
    Inv (startRequest s fd u session content).1
      (g.after fd (.started s.responseCount u)) := by
  have old : ∀ p, p < s.responseCount →
      (startRequest s fd u session content).1.responses p = s.responses p ∧
      (g.after fd (.started s.responseCount u)).owner p = g.owner p ∧
      (g.after fd (.started s.responseCount u)).lastFd p = g.lastFd p ∧
      (g.after fd (.started s.responseCount u)).dated p = g.dated p := by
    intro p bound
    have other := Nat.ne_of_lt bound
    exact ⟨update_of_ne other .., update_of_ne other ..,
      update_of_ne other .., update_of_ne other ..⟩
  have new : (startRequest s fd u session content).1.responses s.responseCount =
        ⟨some fd, none, none, none⟩ ∧
      (g.after fd (.started s.responseCount u)).owner s.responseCount = u ∧
      (g.after fd (.started s.responseCount u)).lastFd s.responseCount = fd ∧
      (g.after fd (.started s.responseCount u)).dated s.responseCount = none :=
    ⟨update_self .., update_self .., update_self .., update_self ..⟩
  refine ⟨?_, ?_, ?_, ?_, ?_, inv.online, inv.connected, ?_⟩
  · intro r member
    rcases mem_append.mp member with running | started
    · obtain ⟨bound, owner, open', returnFd⟩ := inv.live r running
      obtain ⟨response, owner', lastFd, -⟩ := old r.p bound
      rw [response, owner', lastFd]
      exact ⟨Nat.lt_succ_of_lt bound, owner, open', returnFd⟩
    · obtain ⟨response, owner, lastFd, -⟩ := new
      rw [mem_singleton.mp started]
      rw [response, owner, lastFd]
      exact ⟨Nat.lt_succ_self _, rfl, rfl, rfl⟩
  · change ((s.running ++ [_]).map Running.p).Nodup
    rw [map_append]
    refine List.Nodup.append inv.distinct (nodup_singleton _) ?_
    intro p running started
    obtain ⟨r, member, rfl⟩ := mem_map.mp running
    have bound := (inv.live r member).1
    rw [mem_singleton.mp started] at bound
    exact Nat.lt_irrefl _ bound
  · intro u' session' p found
    have place : (s.users u').response.lookup session' = some p ∨ p = s.responseCount ∧ u' = u := by
      change ((s.setUser u _).users u').response.lookup session' = some p at found
      by_cases here : u' = u
      · rw [here, setUser_here] at found
        rcases lookup_insert_iff.mp found with ⟨-, same⟩ | ⟨-, old⟩
        · exact .inr ⟨same.symm, here⟩
        · exact .inl (here ▸ old)
      · rw [setUser_other s u _ here] at found
        exact .inl found
    rcases place with found | ⟨rfl, rfl⟩
    · obtain ⟨bound, owner⟩ := inv.table u' session' p found
      exact ⟨Nat.lt_succ_of_lt bound, (old p bound).2.1.trans owner⟩
    · exact ⟨Nat.lt_succ_self _, new.2.1⟩
  · intro p bound
    have version : ∀ u', ((startRequest s fd u session content).1.users u').version =
        (s.users u').version := update_same User.version (by rfl)
    rw [version]
    rcases Nat.lt_succ_iff_lt_or_eq.mp bound with bound | rfl
    · obtain ⟨response, owner, -, dated⟩ := old p bound
      rw [response, owner, dated]
      exact inv.dated p bound
    · rw [new.1, new.2.2.2]
      exact trivial
  · intro p bound
    rcases Nat.lt_succ_iff_lt_or_eq.mp bound with bound | rfl
    · rw [(old p bound).2.1]
      exact inv.owned p bound
    · rw [new.2.1]
      exact known
  · intro p bytes complete
    apply mem_append_left
    by_cases here : p = s.responseCount
    · rw [here, new.1] at complete
      cases complete
    · exact inv.returned p bytes
        ((congrArg Response.response (update_of_ne here ..)).symm.trans complete)

theorem dated_now (version : V) (auths : Nat) : Dated (some version) (some auths) version auths :=
  ⟨le_rfl, le_rfl, iff_of_true rfl rfl⟩

/- A copy that is sent again dates the response. -/
theorem copied_inv (inv : Inv s g) (found : (s.users u).response.lookup session = some p) :
    Inv (s.setResponse p { s.responses p with
        returnFd := some fd, version := some (s.users u).version, index := some (s.users u).index })
      (g.after fd (.resent p u)) := by
  obtain ⟨bound, owner⟩ := inv.table u session p found
  refine ⟨?_, inv.distinct, inv.table, ?_, inv.owned, inv.online, inv.connected, ?_⟩
  · intro r member
    obtain ⟨bound, owner, open', returnFd⟩ := inv.live r member
    refine ⟨bound, owner, ?_⟩
    change _ ∧ _ = some (update g.lastFd p fd r.p)
    by_cases here : r.p = p
    · rw [here] at open' ⊢
      rw [setResponse_here, update_self]
      exact ⟨open', rfl⟩
    · rw [setResponse_other s p _ here, update_of_ne here]
      exact ⟨open', returnFd⟩
  · intro p' bound'
    change Dated _ (update g.dated p (some (g.auths u)) p') (s.users (g.owner p')).version
      (g.auths (g.owner p'))
    by_cases here : p' = p
    · rw [here, setResponse_here, update_self, owner]
      exact dated_now _ _
    · rw [setResponse_other s p _ here, update_of_ne here]
      exact inv.dated p' bound'
  · intro p' bytes complete
    exact inv.returned p' bytes ((update_same Response.response (by rfl) p').symm.trans complete)

theorem erase_inv (inv : Inv s g) (r : Running) :
    Inv { s with running := s.running.erase r } g :=
  ⟨fun r' member => inv.live r' (mem_of_mem_erase member),
    inv.distinct.sublist (erase_sublist.map _), inv.table, inv.dated, inv.owned, inv.online,
    inv.connected, inv.returned⟩

/- A handler that returns dates its response. -/
theorem returned_inv {bytes : Bytes} (inv : Inv s g) (member : r ∈ s.running) :
    Inv ((Server.setResponse { s with running := s.running.erase r } r.p { s.responses r.p with
        response := some bytes
        version := some (s.users r.u).version
        index := some (s.users r.u).index }).emit (.returned r.p bytes))
      (g.finished r (some bytes)) := by
  obtain ⟨bound, owner, -, -⟩ := inv.live r member
  have erased := erase_inv inv r
  refine ⟨?_, erased.distinct, inv.table, ?_, inv.owned, inv.online, inv.connected, ?_⟩
  · intro r' member'
    have other : r'.p ≠ r.p := by
      intro same
      have different := (List.Nodup.mem_erase_iff (List.Nodup.of_map _ inv.distinct)).mp member'
      exact different.1 (inj_on_of_nodup_map inv.distinct different.2 member same)
    have live := erased.live r' member'
    change _ ∧ _ ∧ ((Server.setResponse _ r.p _).responses r'.p).response = none ∧
      ((Server.setResponse _ r.p _).responses r'.p).returnFd = _
    rw [setResponse_other _ r.p _ other]
    exact live
  · intro p' bound'
    change Dated ((Server.setResponse _ r.p _).responses p').version
      (update g.dated r.p (some (g.auths r.u)) p') (s.users (g.owner p')).version
      (g.auths (g.owner p'))
    by_cases here : p' = r.p
    · rw [here, setResponse_here, update_self, owner]
      exact dated_now _ _
    · rw [setResponse_other _ r.p _ here, update_of_ne here]
      exact inv.dated p' bound'
  · intro p' bytes' complete
    change ((Server.setResponse _ r.p _).responses p').response = some bytes' at complete
    by_cases here : p' = r.p
    · rw [here, setResponse_here] at complete
      rw [here, ← Option.some.inj complete]
      exact mem_append_right _ (mem_singleton_self _)
    · rw [setResponse_other _ r.p _ here] at complete
      exact mem_append_left _ (inv.returned p' bytes' complete)

variable (cfg : Config V)

theorem resendResponse_inv (inv : Inv s g) (found : (s.users u).response.lookup session = some p) :
    Inv (resendResponse cfg s fd u p).1 (g.after fd (resendResponse cfg s fd u p).2) := by
  have copied : Inv _ (g.after fd (.resent p u)) := copied_inv inv found
  unfold resendResponse
  dsimp only
  split
  · exact copied
  next complete =>
    refine (answer_tame cfg u ?_).inv copied
    rw [complete]
    nofun

theorem request_inv (inv : Inv s g) (fd : Fd) (bytes : Bytes) :
    Inv (request cfg s fd bytes).1 (g.after fd (request cfg s fd bytes).2) := by
  unfold request
  split
  · exact inv
  next u connected =>
    have known := inv.connected fd u connected
    split
    · exact (closeclient_tame s fd).inv inv
    · dsimp only
      split
      · exact startRequest_inv inv known
      next p found =>
        split
        · have erased := (erase_tame s u (sessionOf bytes)).inv inv
          split
          · exact (closeclient_tame _ fd).inv erased
          · exact startRequest_inv erased known
        · exact resendResponse_inv cfg inv found

theorem message_inv (inv : Inv s g) (fd : Fd) (bytes : Bytes) :
    Inv (message cfg s fd bytes).1 (g.after fd (message cfg s fd bytes).2) := by
  have done : ∀ s' : Server V, Tame s' { s' with handshake := update s'.handshake fd none } :=
    fun s' => { Tame.refl s' with }
  unfold message
  split
  · split
    next addr waiting =>
      unfold auth
      cases result : doAuth cfg s bytes with
      | ok u version =>
        obtain ⟨⟨name, online⟩, later⟩ := doAuth_ok result
        exact ((reply_tame _ fd _).trans (done _)).inv
          (authorize_inv inv (inv.online name u online) later)
      | refused text =>
        exact (((reply_tame s fd text).trans (closeclient_tame _ fd)).trans (done _)).inv inv
    · exact request_inv cfg inv fd bytes
  · exact inv

theorem finish_inv (inv : Inv s g) (member : r ∈ s.running) (ok : Bool) (result : Option Bytes) :
    Inv (finish cfg s r ok result) (g.finished r (packResult ok result r.session)) := by
  unfold finish
  dsimp only
  split
  next failed =>
    rw [failed]
    have erased := erase_inv inv r
    split
    · exact (closeclient_tame _ r.fd).inv erased
    · exact erased
  next bytes packed =>
    rw [packed]
    refine (answer_tame cfg r.u ?_).inv (returned_inv inv member)
    change ((Server.setResponse _ r.p _).responses r.p).response ≠ none
    rw [setResponse_here]
    nofun

end Steps

variable {cfg : Config V} {w : World V}

theorem step_inv [Zero V] {w' : World V} {a : Action} (inv : Inv w.server w.ghost)
    (taken : w.step cfg a = some w') : Inv w'.server w'.ghost := by
  cases a with
  | login username secret =>
    cases taken
    exact login_inv inv username secret
  | logout username =>
    cases taken
    exact (logout_tame _ username).inv inv
  | connect fd addr =>
    cases taken
    exact (connect_tame _ fd addr).inv inv
  | disconnect fd =>
    cases taken
    exact (disconnect_tame _ fd).inv inv
  | closed fd =>
    cases taken
    exact (closeFd_tame _ fd).inv inv
  | message fd bytes =>
    cases taken
    exact message_inv cfg inv fd bytes
  | finish r ok result =>
    rw [World.step] at taken
    split at taken
    next member =>
      cases taken
      exact finish_inv cfg inv member ok result
    · cases taken

theorem run_inv [Zero V] (reached : Run (World.step cfg) World.start w) : Inv w.server w.ghost :=
  reached.invariant (fun w => Inv w.server w.ghost) inv_start fun _ _ _ inv _ taken =>
    step_inv inv taken

end Skynet.Msgserver
