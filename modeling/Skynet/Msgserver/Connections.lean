import Skynet.Msgserver.Resend

/-! The connections of the users. A user who authenticates on a second connection keeps the first
one in the table, and its disconnect cuts the user off; as long as nobody does, the table and the
users agree. -/
namespace Skynet.Msgserver
open Base Function Option

variable {V : Type}

def Online (s : Server V) (u : Nat) : Prop := ∃ name, s.userOnline name = some u

structure Same (s s' : Server V) : Prop where
  connection : s'.connection = s.connection
  online : s'.userOnline = s.userOnline
  handshake : s'.handshake = s.handshake
  count : s'.userCount = s.userCount
  fd : ∀ u, (s'.users u).fd = (s.users u).fd
  username : ∀ u, (s'.users u).username = (s.users u).username
  gate : ∀ fd, s'.gate fd = none ↔ s.gate fd = none

theorem Same.refl (s : Server V) : Same s s :=
  ⟨rfl, rfl, rfl, rfl, fun _ => rfl, fun _ => rfl, fun _ => Iff.rfl⟩

theorem Same.trans {a b c : Server V} (first : Same a b) (second : Same b c) : Same a c where
  connection := second.connection.trans first.connection
  online := second.online.trans first.online
  handshake := second.handshake.trans first.handshake
  count := second.count.trans first.count
  fd u := (second.fd u).trans (first.fd u)
  username u := (second.username u).trans (first.username u)
  gate fd := (second.gate fd).trans (first.gate fd)

section Frame
variable (cfg : Config V) (s : Server V)

theorem closeclient_same (fd : Fd) : Same s (closeclient s fd) := by
  unfold closeclient
  split
  · rename_i opened
    refine { Same.refl s with gate := ?_ }
    intro fd'
    refine (update_ne_iff (by nofun)).trans (and_iff_right_of_imp ?_)
    rintro none rfl
    exact nomatch none.symm.trans opened
  · exact Same.refl s

theorem reply_same (fd : Fd) (text : String) : Same s (reply s fd text) := by
  unfold reply
  split
  · exact { Same.refl s with }
  · exact Same.refl s

theorem setUser_same {s : Server V} {u : Nat} {user : User V} (fd : user.fd = (s.users u).fd)
    (username : user.username = (s.users u).username) : Same s (s.setUser u user) :=
  { Same.refl s with fd := update_same User.fd fd, username := update_same User.username username }

theorem retireResponse_same (u : Nat) : Same s (retireResponse cfg s u) := by
  unfold retireResponse
  dsimp only
  split
  · have aged : ∀ responses, Same s { s with responses := responses } :=
      fun _ => { Same.refl s with }
    exact (aged _).trans (setUser_same rfl rfl)
  · exact Same.refl s

theorem sendBack_same (response : Response V) : Same s (sendBack s response) := by
  unfold sendBack
  split
  · split
    · exact { Same.refl s with }
    · exact Same.refl s
  · exact Same.refl s

theorem answer_same (u p : Nat) : Same s (answer cfg s u p) := by
  have counted : Same s (s.setUser u { s.users u with index := (s.users u).index + 1 }) :=
    setUser_same rfl rfl
  have sent := counted.trans (sendBack_same _ (s.responses p))
  refine (sent.trans ?_).trans (retireResponse_same cfg _ u)
  exact { Same.refl _ with }

theorem startRequest_same (fd : Fd) (u : Nat) (session : Session) (message : Bytes) :
    Same s (startRequest s fd u session message).1 := by
  have started : Same s { s with
      responses := update s.responses s.responseCount ⟨some fd, none, none, none⟩
      responseCount := s.responseCount + 1
      running := s.running ++ [⟨s.responseCount, u, session, fd⟩] } := { Same.refl s with }
  refine { started.trans (setUser_same (u := u) ?_ ?_) with }
  · rfl
  · rfl

theorem resendResponse_same (fd : Fd) (u p : Nat) : Same s (resendResponse cfg s fd u p).1 := by
  have stamped : ∀ response, Same s (s.setResponse p response) := fun _ => { Same.refl s with }
  unfold resendResponse
  dsimp only
  split
  · exact stamped _
  · exact (stamped _).trans (answer_same cfg _ u p)

theorem finish_same (r : Running) (ok : Bool) (result : Option Bytes) :
    Same s (finish cfg s r ok result) := by
  have left : Same s { s with running := s.running.erase r } := { Same.refl s with }
  unfold finish
  dsimp only
  split
  · split
    · exact left.trans (closeclient_same _ _)
    · exact left
  · refine Same.trans ?_ (answer_same cfg _ r.u r.p)
    exact { left with }

variable [LinearOrder V]

theorem request_same (fd : Fd) (message : Bytes) : Same s (request cfg s fd message).1 := by
  unfold request
  split
  · exact Same.refl s
  · rename_i u connected
    split
    · exact closeclient_same s fd
    · dsimp only
      split
      · exact startRequest_same s fd u _ _
      · rename_i p found
        split
        · have erased : Same s (s.setUser u { s.users u with
              response := (s.users u).response.erase (sessionOf message) }) := setUser_same rfl rfl
          split
          · exact erased.trans (closeclient_same _ fd)
          · exact erased.trans (startRequest_same _ fd u _ _)
        · exact resendResponse_same cfg s fd u p

end Frame

/-- The connections of the users who are online are those in the table. -/
structure Linked (s : Server V) : Prop where
  known : ∀ name u, s.userOnline name = some u → u < s.userCount ∧ (s.users u).username = name
  connected : ∀ fd u, s.connection fd = some u → Online s u ∧ (s.users u).fd = some fd
  attached : ∀ u fd, Online s u → (s.users u).fd = some fd → s.connection fd = some u
  fresh : ∀ fd, s.handshake fd ≠ none → s.connection fd = none
  opened : ∀ fd, s.connection fd ≠ none → s.gate fd ≠ none

section Steps
variable {s s' : Server V}

theorem Same.linked (same : Same s s') (h : Linked s) : Linked s' := by
  have online : ∀ u, Online s' u ↔ Online s u := by
    intro u
    rw [Online, same.online]
    rfl
  refine ⟨?_, ?_, ?_, ?_, ?_⟩
  · intro name u found
    rw [same.count, same.username]
    exact h.known name u (same.online ▸ found)
  · intro fd u found
    rw [online, same.fd]
    exact h.connected fd u (same.connection ▸ found)
  · intro u fd present held
    rw [same.connection]
    exact h.attached u fd ((online u).mp present) ((same.fd u).symm.trans held)
  · intro fd shaking
    rw [same.connection]
    exact h.fresh fd (same.handshake ▸ shaking)
  · intro fd found
    rw [Ne, same.gate]
    exact h.opened fd (same.connection ▸ found)

theorem login_linked [Zero V] (h : Linked s) (username secret : Bytes) :
    Linked (login s username secret) := by
  unfold login
  split
  · rename_i absent
    have others : ∀ u, Online s u → update s.users s.userCount
        (newUser username secret) u = s.users u := by
      rintro u ⟨name, found⟩
      exact update_of_ne (Nat.ne_of_lt (h.known name u found).1) ..
    have either : ∀ name u, update s.userOnline username (some s.userCount) name =
        some u → (name = username ∧ u = s.userCount) ∨ s.userOnline name = some u := by
      intro name u found
      rcases update_iff.mp found with ⟨here, ⟨⟩⟩ | ⟨-, old⟩
      · exact .inl ⟨here, rfl⟩
      · exact .inr old
    refine ⟨?_, ?_, ?_, h.fresh, h.opened⟩
    · intro name u found
      dsimp only
      rcases either name u found with ⟨rfl, rfl⟩ | old
      · rw [update_self]
        exact ⟨Nat.lt_succ_self _, rfl⟩
      · rw [others u ⟨name, old⟩]
        exact ⟨Nat.lt_succ_of_lt (h.known name u old).1, (h.known name u old).2⟩
    · intro fd u found
      obtain ⟨⟨name, online⟩, held⟩ := h.connected fd u found
      have kept : name ≠ username := by
        rintro rfl
        exact nomatch absent.symm.trans online
      refine ⟨⟨name, (update_of_ne kept ..).trans online⟩, ?_⟩
      dsimp only
      rw [others u ⟨name, online⟩]
      exact held
    · rintro u fd ⟨name, found⟩ held
      dsimp only at held
      rcases either name u found with ⟨-, rfl⟩ | old
      · rw [update_self] at held
        cases held
      · rw [others u ⟨name, old⟩] at held
        exact h.attached u fd ⟨name, old⟩ held
  · exact h

variable {fd : Fd} {u c : Nat} {connection : Fd → Option Nat} {username : Bytes}

theorem Linked.cut (h : Linked s) (held : s.connection fd = some u) (fd' : Fd) (u' : Nat) :
    update s.connection fd none fd' = some u' ↔
      s.connection fd' = some u' ∧ u' ≠ u := by
  rw [update_ne_iff (by nofun), and_comm]
  refine and_congr_right fun found => not_congr ⟨?_, ?_⟩
  · rintro rfl
    exact some.inj (found.symm.trans held)
  · rintro rfl
    exact some.inj ((h.connected fd' u' found).2.symm.trans (h.connected fd u' held).2)

theorem none_of_cut (cut : ∀ fd u', connection fd = some u' ↔ s.connection fd = some u' ∧ u' ≠ u)
    (fd : Fd) (absent : s.connection fd = none) : connection fd = none := by
  rw [eq_none_iff_forall_ne_some] at absent ⊢
  exact fun u' held => absent u' ((cut fd u').mp held).1

section
variable (h : Linked s)
include h

theorem offline_linked (found : s.userOnline username = some u)
    (cut : ∀ fd u', connection fd = some u' ↔ s.connection fd = some u' ∧ u' ≠ u) :
    Linked { s with
      userOnline := update s.userOnline username none, connection := connection } := by
  have name := (h.known username u found).2
  have still : ∀ name u', update s.userOnline username none name = some u' ↔
      s.userOnline name = some u' ∧ u' ≠ u := by
    intro name' u'
    rw [update_ne_iff (by nofun), and_comm]
    refine and_congr_right fun online => not_congr ⟨?_, ?_⟩
    · rintro rfl
      exact some.inj (online.symm.trans found)
    · rintro rfl
      exact (h.known name' u' online).2.symm.trans name
  have absent := none_of_cut cut
  refine ⟨?_, ?_, ?_, ?_, ?_⟩
  · intro name' u' online
    exact h.known name' u' ((still name' u').mp online).1
  · intro fd u' held
    obtain ⟨before, other⟩ := (cut fd u').mp held
    obtain ⟨⟨name', online⟩, fd'⟩ := h.connected fd u' before
    exact ⟨⟨name', (still name' u').mpr ⟨online, other⟩⟩, fd'⟩
  · rintro u' fd ⟨name', online⟩ held
    obtain ⟨before, other⟩ := (still name' u').mp online
    exact (cut fd u').mpr ⟨h.attached u' fd ⟨name', before⟩ held, other⟩
  · intro fd shaking
    exact absent fd (h.fresh fd shaking)
  · intro fd held
    exact h.opened fd fun none => held (absent fd none)

theorem logout_connection (found : s.userOnline username = some u) (fd : Fd) (u' : Nat) :
    (logout s username).connection fd = some u' ↔ s.connection fd = some u' ∧ u' ≠ u := by
  unfold logout
  rw [found]
  dsimp only
  split
  · rename_i none
    refine (and_iff_left_of_imp ?_).symm
    rintro held rfl
    exact nomatch none.symm.trans (h.connected fd u' held).2
  · rename_i fd' held
    rw [(closeclient_same _ fd').connection]
    exact h.cut (h.attached u fd' ⟨username, found⟩ held) fd u'

theorem logout_linked (username : Bytes) : Linked (logout s username) := by
  cases found : s.userOnline username with
  | none =>
    have same : logout s username = s := by
      unfold logout
      rw [found]
    rw [same]
    exact h
  | some u =>
    have linked := offline_linked h found (logout_connection h found)
    refine Same.linked ?_ linked
    unfold logout
    rw [found]
    dsimp only
    split
    · exact Same.refl _
    · rename_i fd held
      exact { closeclient_same _ fd with connection := rfl }

theorem connect_linked (addr : Bytes) (free : s.gate fd = none) : Linked (connect s fd addr) := by
  have unused : s.connection fd = none := by
    by_contra held
    exact h.opened fd held free
  refine { h with fresh := ?_, opened := ?_ }
  · intro fd' shaking
    by_cases here : fd' = fd
    · rw [here]
      exact unused
    · exact h.fresh fd' fun none => shaking ((update_of_ne here ..).trans none)
  · intro fd' held
    exact fun none => h.opened fd' held ((update_ne_iff (by nofun)).mp none).2

theorem closeFd_linked (left : s.connection fd = none) : Linked (closeFd s fd) := by
  refine { h with opened := ?_ }
  intro fd' held
  have here : fd' ≠ fd := by
    rintro rfl
    exact held left
  exact fun none => h.opened fd' held ((update_of_ne here ..).symm.trans none)

theorem shaken_linked (fd : Fd) : Linked { s with handshake := update s.handshake fd none } := by
  refine { h with fresh := ?_ }
  intro fd' shaking
  have here : fd' ≠ fd := by
    rintro rfl
    exact shaking (update_self ..)
  exact h.fresh fd' fun none => shaking ((update_of_ne here ..).trans none)

end

theorem disconnect_users (held : s.connection fd = some c) (u : Nat) :
    (disconnect s fd).users u = if u = c then { s.users c with fd := none } else s.users u := by
  simp only [disconnect, held, Server.emit, Server.setUser, update_apply]

theorem disconnect_connection (held : s.connection fd = some c) :
    (disconnect s fd).connection = update s.connection fd none := by
  simp only [disconnect, held, Server.emit, Server.setUser]

theorem disconnect_online (fd : Fd) : (disconnect s fd).userOnline = s.userOnline := by
  unfold disconnect
  dsimp only
  split
  · rfl
  · rfl

theorem disconnect_other (h : Linked s) (other : (s.users u).fd ≠ some fd) :
    (disconnect s fd).users u = s.users u := by
  cases held : s.connection fd with
  | none => simp only [disconnect, held]
  | some c =>
    rw [disconnect_users held]
    refine if_neg ?_
    rintro rfl
    exact other (h.connected fd u held).2

theorem disconnect_linked (h : Linked s) (fd : Fd) : Linked (disconnect s fd) := by
  have shaken := shaken_linked h fd
  cases held : s.connection fd with
  | none =>
    have same : disconnect s fd = { s with handshake := update s.handshake fd none } := by
      simp only [disconnect, held]
    rw [same]
    exact shaken
  | some c =>
    have cut : ∀ fd' u, (disconnect s fd).connection fd' = some u ↔
        s.connection fd' = some u ∧ u ≠ c := by
      rw [disconnect_connection held]
      exact h.cut held
    have less := none_of_cut cut
    have online : ∀ u, Online (disconnect s fd) u ↔ Online s u := by
      intro u
      rw [Online, disconnect_online]
      rfl
    have names : ∀ u, ((disconnect s fd).users u).username = (s.users u).username := by
      intro u
      rw [disconnect_users held, apply_ite User.username, ite_eq_right_iff]
      rintro rfl
      rfl
    have rest : (disconnect s fd).userCount = s.userCount ∧
        (disconnect s fd).handshake = update s.handshake fd none ∧
        (disconnect s fd).gate = s.gate := by
      simp only [disconnect, held, Server.emit, Server.setUser, and_self]
    refine ⟨?_, ?_, ?_, ?_, ?_⟩
    · intro name u found
      rw [disconnect_online] at found
      rw [rest.1, names]
      exact h.known name u found
    · intro fd' u found
      obtain ⟨before, other⟩ := (cut fd' u).mp found
      rw [online, disconnect_users held, if_neg other]
      exact h.connected fd' u before
    · intro u fd' present found
      rw [disconnect_users held] at found
      split at found
      · cases found
      · rename_i other
        exact (cut fd' u).mpr ⟨h.attached u fd' ((online u).mp present) found, other⟩
    · intro fd' shaking
      rw [rest.2.1] at shaking
      exact less fd' (shaken.fresh fd' shaking)
    · intro fd' found
      rw [rest.2.2]
      exact h.opened fd' fun none => found (less fd' none)

theorem authorize_linked (h : Linked s) (addr : Bytes) (idx : V) (online : Online s u)
    (unused : s.connection fd = none) (opened : s.gate fd ≠ none) (free : (s.users u).fd = none) :
    Linked { authorize s fd addr u idx with handshake := update s.handshake fd none } := by
  have shaken := shaken_linked h fd
  have here' : ((authorize s fd addr u idx).users u).fd = some fd :=
    congrArg User.fd (setUser_here ..)
  have other' : ∀ u', u' ≠ u → (authorize s fd addr u idx).users u' = s.users u' :=
    fun u' other => setUser_other s u _ other
  have apart : ∀ fd' u', s.connection fd' = some u' → u' ≠ u := by
    rintro fd' u' held rfl
    exact nomatch free.symm.trans (h.connected fd' u' held).2
  refine ⟨?_, ?_, ?_, ?_, ?_⟩
  · intro name u' found
    refine ⟨(h.known name u' found).1, ?_⟩
    exact (update_same User.username (by rfl) u').trans (h.known name u' found).2
  · intro fd' u' held
    rcases update_iff.mp held with ⟨rfl, ⟨⟩⟩ | ⟨-, before⟩
    · exact ⟨online, here'⟩
    · refine ⟨(h.connected fd' u' before).1, ?_⟩
      change ((authorize s fd addr u idx).users u').fd = _
      rw [other' u' (apart fd' u' before)]
      exact (h.connected fd' u' before).2
  · intro u' fd' present held
    refine update_iff.mpr ?_
    by_cases here : u' = u
    · rw [here] at held ⊢
      exact .inl ⟨some.inj (held.symm.trans here'), rfl⟩
    · change ((authorize s fd addr u idx).users u').fd = _ at held
      rw [other' u' here] at held
      have before := h.attached u' fd' present held
      refine .inr ⟨?_, before⟩
      rintro rfl
      exact nomatch unused.symm.trans before
  · intro fd' shaking
    have other : fd' ≠ fd := by
      rintro rfl
      exact shaking (update_self ..)
    exact (update_of_ne other ..).trans (shaken.fresh fd' shaking)
  · intro fd' held
    by_cases here : fd' = fd
    · rw [here]
      exact opened
    · exact h.opened fd' fun none => held ((update_of_ne here ..).trans none)

variable [LinearOrder V]

theorem message_linked (cfg : Config V) (h : Linked s) {bytes : Bytes}
    (single : s.handshake fd ≠ none → ∀ u idx, doAuth cfg s bytes = .ok u idx →
      (s.users u).fd = none) :
    Linked (message cfg s fd bytes).1 := by
  unfold message
  split
  · rename_i opened
    cases shaking : s.handshake fd with
    | none => exact (request_same cfg s fd bytes).linked h
    | some addr =>
      have present : s.handshake fd ≠ none := by
        rw [shaking]
        nofun
      unfold auth
      cases result : doAuth cfg s bytes with
      | ok u idx =>
        have linked := authorize_linked h addr idx (doAuth_ok result).1 (h.fresh fd present)
          (by rw [opened]; nofun) (single present u idx result)
        refine Same.linked ?_ linked
        have replied := reply_same (authorize s fd addr u idx) fd "200 OK"
        refine { replied with handshake := ?_ }
        change update (reply _ fd "200 OK").handshake fd none = _
        rw [replied.handshake]
        rfl
      | refused text =>
        refine Same.linked ?_ (shaken_linked h fd)
        have refused := (reply_same s fd text).trans (closeclient_same _ fd)
        refine { refused with handshake := ?_ }
        change update (closeclient (reply s fd text) fd).handshake fd none = _
        rw [refused.handshake]
  · exact h

end Steps

theorem linked_start [Zero V] : Linked (World.start : World V).server where
  known := nofun
  connected := nofun
  attached := fun _ _ online => nomatch online.choose_spec
  fresh := fun _ _ => rfl
  opened := fun _ held => absurd rfl held

section Run
variable [LinearOrder V] [Zero V] {cfg : Config V}

/-- A descriptor is opened again only after its connection was reported as closed, as the gate
does, and no user authenticates while it has a connection. -/
def OneConnection (cfg : Config V) (w : World V) : Action → Prop
  | .connect fd _ => w.server.gate fd = none
  | .closed fd => w.server.connection fd = none
  | .message fd bytes => w.server.handshake fd ≠ none →
    ∀ u idx, doAuth cfg w.server bytes = .ok u idx → (w.server.users u).fd = none
  | .login _ _ | .logout _ | .disconnect _ | .finish _ _ _ => True

theorem step_linked {w w' : World V} {a : Action} (h : Linked w.server)
    (single : OneConnection cfg w a) (taken : World.step cfg w a = some w') :
    Linked w'.server := by
  cases a with
  | login username secret =>
    cases taken
    exact login_linked h username secret
  | logout username =>
    cases taken
    exact logout_linked h username
  | connect fd addr =>
    cases taken
    exact connect_linked h addr single
  | disconnect fd =>
    cases taken
    exact disconnect_linked h fd
  | closed fd =>
    cases taken
    exact closeFd_linked h single
  | message fd bytes =>
    cases taken
    exact message_linked cfg h single
  | finish r ok result =>
    simp only [World.step, ite_none_right_eq_some, Option.some.injEq] at taken
    obtain ⟨-, rfl⟩ := taken
    exact (finish_same cfg w.server r ok result).linked h

end Run

/- The user 117 authenticates, is cut off, and authenticates again. -/
def reconnected : List Action :=
  [.login [117] [], .connect 1 [], .message 1 [117, 58, 49, 58], .disconnect 1, .closed 1,
    .connect 2 [], .message 2 [117, 58, 50, 58]]

/- The second authentication comes before the first connection is reported as closed. -/
def overlapping : List Action :=
  [.login [117] [], .connect 1 [], .message 1 [117, 58, 49, 58], .connect 2 [],
    .message 2 [117, 58, 50, 58]]

def oneConnection (w : World Nat) : Action → Bool
  | .connect fd _ => w.server.gate fd = none
  | .closed fd => w.server.connection fd = none
  | .message fd bytes =>
    match w.server.handshake fd, doAuth sampleConfig w.server bytes with
    | some _, .ok u _ => (w.server.users u).fd = none
    | _, _ => true
  | .login _ _ | .logout _ | .disconnect _ | .finish _ _ _ => true

theorem oneConnection_spec (w : World Nat) (a : Action) (check : oneConnection w a = true) :
    OneConnection sampleConfig w a := by
  cases a with
  | connect fd addr =>
    have free : w.server.gate fd = none := of_decide_eq_true check
    exact free
  | closed fd =>
    have left : w.server.connection fd = none := of_decide_eq_true check
    exact left
  | message fd bytes =>
    intro shaking u idx ok
    obtain ⟨addr, some⟩ := ne_none_iff_exists'.mp shaking
    simp only [oneConnection, some, ok] at check
    exact of_decide_eq_true check
  | login _ _ | logout _ | disconnect _ | finish _ _ _ => trivial

end Skynet.Msgserver
