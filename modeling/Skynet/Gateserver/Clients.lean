import Skynet.Gateserver.Delivery

/-! client_number and the connection table, and which packets are dropped. -/
namespace Skynet.Gateserver
open Base LuaNetpack Function Option

/-- client_number is the number of connections in the table, and no more than maxclient. -/
structure Counted (w : World) : Prop where
  clients : ∃ fds : Finset Int, (∀ fd, fd ∈ fds ↔ w.connection fd ≠ none) ∧
    w.clientNumber = fds.card
  within : ∀ maxclient, w.maxclient = some maxclient → w.clientNumber ≤ maxclient

/- An accepted connection is not in the table any more, or it is refused; a gate is opened with
room for the connections it still has. -/
def Fresh (w : World) : Action → Prop
  | .socket (.accept _ fd _) =>
    w.connection fd = none ∨ ∃ maxclient, w.maxclient = some maxclient ∧ maxclient ≤ w.clientNumber
  | .openCommand conf _ => w.clientNumber ≤ conf.maxclient.getD 1024
  | _ => True

structure SameClients (w w' : World) : Prop where
  connection : w'.connection = w.connection
  clientNumber : w'.clientNumber = w.clientNumber
  maxclient : w'.maxclient = w.maxclient

theorem Counted.same {w w' : World} (counted : Counted w) (same : SameClients w w') :
    Counted w' := by
  constructor
  · rw [same.connection, same.clientNumber]
    exact counted.clients
  · rw [same.clientNumber, same.maxclient]
    exact counted.within

theorem dispatchMsg_clients (w : World) (fd : Int) (msg : List UInt8) (frame : Frame)
    (back : Control) : SameClients w (w.dispatchMsg fd msg frame back) := by
  unfold World.dispatchMsg
  split <;> exact ⟨rfl, rfl, rfl⟩

theorem dispatchQueue_clients (w : World) : SameClients w w.dispatchQueue := by
  unfold World.dispatchQueue
  split
  · exact ⟨rfl, rfl, rfl⟩
  · obtain ⟨connection, clientNumber, maxclient⟩ := dispatchMsg_clients { w with
      queue := some _, forkQueue := w.forkQueue ++ [Forked.dispatchQueue] } _ _ _ _
    exact ⟨connection, clientNumber, maxclient⟩

theorem popLoop_clients (w : World) (captured : Nat) : SameClients w (w.popLoop captured) := by
  unfold World.popLoop
  split
  · exact ⟨rfl, rfl, rfl⟩
  · obtain ⟨connection, clientNumber, maxclient⟩ :=
      dispatchMsg_clients { w with queue := some _ } _ _ _ _
    exact ⟨connection, clientNumber, maxclient⟩

section Counted
variable {w : World} (counted : Counted w)
include counted

theorem closeclient_counted (fd : Int) : Counted (w.closeclient fd) := by
  unfold World.closeclient
  split
  next present =>
    obtain ⟨fds, members, number⟩ := counted.clients
    refine ⟨⟨fds, fun fd' => ?_, number⟩, counted.within⟩
    rw [members]
    dsimp only
    by_cases here : fd' = fd
    · subst here
      rw [update_self, present]
      simp
    · rw [update_of_ne here]
  next => exact counted

theorem closeFd_counted (fd : Int) : Counted (w.closeFd fd) := by
  unfold World.closeFd
  split
  next present =>
    obtain ⟨fds, members, number⟩ := counted.clients
    have member := (members fd).mpr present
    refine ⟨⟨fds.erase fd, fun fd' => ?_, ?_⟩, fun maxclient known => ?_⟩
    · rw [Finset.mem_erase, members]
      dsimp only
      by_cases here : fd' = fd
      · subst here
        simp
      · rw [update_of_ne here]
        simp [here]
    · rw [Finset.card_erase_of_mem member]
      have positive := Finset.card_pos.mpr ⟨fd, member⟩
      dsimp only
      omega
    · have before := counted.within maxclient known
      dsimp only
      omega
  next => exact counted.same ⟨rfl, rfl, rfl⟩

theorem msgOpen_counted {fd : Int} (fresh : w.connection fd = none ∨
    ∃ maxclient, w.maxclient = some maxclient ∧ maxclient ≤ w.clientNumber) :
    Counted (w.msgOpen fd) := by
  unfold World.msgOpen
  split
  · exact counted.same ⟨rfl, rfl, rfl⟩
  next maxclient known =>
    split
    · exact counted.same ⟨rfl, rfl, rfl⟩
    next room =>
      have absent : w.connection fd = none := by
        rcases fresh with absent | ⟨maxclient', known', full⟩
        · exact absent
        · obtain rfl := some.inj (known.symm.trans known')
          exact absurd full room
      obtain ⟨fds, members, number⟩ := counted.clients
      have new : fd ∉ fds := by
        rw [members, absent]
        simp
      refine ⟨⟨insert fd fds, fun fd' => ?_, ?_⟩, fun maxclient' known' => ?_⟩
      · rw [Finset.mem_insert, members]
        dsimp only
        by_cases here : fd' = fd
        · subst here
          simp
        · rw [update_of_ne here]
          simp [here]
      · rw [Finset.card_insert_of_notMem new]
        dsimp only
        omega
      · obtain rfl := some.inj (known.symm.trans known')
        dsimp only
        omega

theorem msgClose_counted (h : Handler) (fd : Int) : Counted (w.msgClose h fd) := by
  unfold World.msgClose
  split
  · split
    · exact counted.same ⟨rfl, rfl, rfl⟩
    · exact closeFd_counted counted fd
  · exact counted.same ⟨rfl, rfl, rfl⟩

theorem msgError_counted (h : Handler) (fd : Int) : Counted (w.msgError h fd) := by
  unfold World.msgError
  split
  · exact counted.same ⟨rfl, rfl, rfl⟩
  · split
    · exact counted.same ⟨rfl, rfl, rfl⟩
    · exact closeFd_counted counted fd

theorem cmdOpen_counted (h : Handler) {conf : Conf} (listened : Option Int)
    (room : w.clientNumber ≤ conf.maxclient.getD 1024) : Counted (w.cmdOpen h conf listened) := by
  have limited : ∀ maxclient, some (conf.maxclient.getD 1024) = some maxclient →
      w.clientNumber ≤ maxclient := by
    intro maxclient same
    cases same
    exact room
  unfold World.cmdOpen
  split
  · exact counted.same ⟨rfl, rfl, rfl⟩
  · split
    · exact counted.same ⟨rfl, rfl, rfl⟩
    · split <;> exact ⟨counted.clients, limited⟩

theorem dispatch_counted (h : Handler) {r : Result}
    (fresh : ∀ fd msg, r = .opened fd msg → w.connection fd = none ∨
      ∃ maxclient, w.maxclient = some maxclient ∧ maxclient ≤ w.clientNumber) :
    Counted (w.dispatch h r) := by
  cases r with
  | nothing | warning _ _ => exact counted.same ⟨rfl, rfl, rfl⟩
  | data fd msg => exact counted.same (dispatchMsg_clients w fd msg .data .between)
  | more => exact counted.same (dispatchQueue_clients w)
  | opened fd msg => exact msgOpen_counted counted (fresh fd msg rfl)
  | closed fd => exact msgClose_counted counted h fd
  | error fd msg => exact msgError_counted counted h fd

theorem returned_counted (frame : Frame) : Counted (w.returned frame) := by
  cases frame with
  | data | connect | other | first | loop => exact counted.same ⟨rfl, rfl, rfl⟩
  | disconnect fd | error fd => exact closeFd_counted counted fd

theorem act_counted {frame : Frame} {a : Action} {w' : World} (taken : w.act frame a = some w') :
    Counted w' := by
  cases a with
  | closeclient fd =>
    cases taken
    exact closeclient_counted counted fd
  | ret =>
    cases taken
    exact returned_counted counted frame
  | fork | yield | throw =>
    cases taken
    exact counted.same ⟨rfl, rfl, rfl⟩
  | socket | openCommand | command | response | pop | wakeup | startFork | done => cases taken

theorem resume_counted {i : Nat} {w' : World} (taken : w.resume i = some w') : Counted w' := by
  obtain ⟨frame, -, rfl⟩ := map_eq_some_iff.mp taken
  exact counted.same ⟨rfl, rfl, rfl⟩

end Counted

theorem lfilter_opened {q q' : Option Queue} {m : SocketMessage} {fd : Int} {msg : List UInt8}
    (filtered : lfilter q m = .ok (q', .opened fd msg)) : ∃ id, m = .accept id fd msg := by
  cases m with
  | accept id ud text =>
    cases filtered
    exact ⟨id, rfl⟩
  | data id buffer =>
    rcases filterData_cases filtered with more | ⟨-, nothing | ⟨_, data⟩⟩
    · cases more
    · cases nothing
    · cases data
  | connect | close | error | warning => cases filtered

theorem step_counted {h : Handler} {w w' : World} {a : Action} (counted : Counted w)
    (fresh : Fresh w a) (taken : step h w a = some w') : Counted w' := by
  cases step_steps taken with
  | @receive m w' idle taken =>
    unfold World.receive at taken
    split at taken
    · cases taken
    next q r filtered =>
      cases taken
      refine dispatch_counted ?_ h ?_
      · exact counted.same ⟨rfl, rfl, rfl⟩
      · rintro fd msg rfl
        obtain ⟨id, rfl⟩ := lfilter_opened filtered
        exact fresh
  | cmdOpen conf listened => exact cmdOpen_counted counted h listened fresh
  | command | done _ => exact counted.same ⟨rfl, rfl, rfl⟩
  | response taken | wakeup taken => exact resume_counted counted taken
  | act running taken => exact act_counted counted taken
  | pop looping => exact counted.same (popLoop_clients w _)
  | startFork taken =>
    obtain ⟨forked, -, rfl⟩ := map_eq_some_iff.mp taken
    cases forked with
    | dispatchQueue =>
      refine Counted.same ?_ (dispatchQueue_clients _)
      exact counted.same ⟨rfl, rfl, rfl⟩
    | other => exact counted.same ⟨rfl, rfl, rfl⟩

theorem start_counted : Counted start :=
  ⟨⟨∅, fun fd => by simp [start], rfl⟩, nofun⟩

end Skynet.Gateserver
