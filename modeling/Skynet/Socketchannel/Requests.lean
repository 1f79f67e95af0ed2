import Skynet.Socketchannel.Dispatching

/-! The coroutines that make requests, connect and change the host. -/
namespace Skynet.Socketchannel
open Base List Function Option

variable {desc : Desc} {w : World} {n : Nat} {req : Req} {written : Bool}

section
variable (apart : Apart desc w)
include apart

section
variable (idle : ∀ ticket, w.task n ≠ .waiting ticket)
include idle

theorem Apart.push {number : Nat} {thread : List (Nat × Nat)} {writes : Conn → Nat}
    (fewer : thread.Sublist w.thread)
    (numbered : desc.response = false → thread = w.thread ∧ number = w.writes w.opened ∧
      w.sock ≠ none ∧ writes w.opened = number + 1) :
    Apart desc ({ w with thread := thread ++ [(number, n)], writes := writes }.setTask n
      (.waiting ⟨w.opened, number⟩)) := by
  have free := apart.free idle
  obtain ⟨none', nothing⟩ := apart.answers.clear n idle
  have own : update w.task n (.waiting ⟨w.opened, number⟩) n =
      .waiting ⟨w.opened, number⟩ := update_self ..
  have others : ∀ m, m ≠ n → update w.task n (.waiting ⟨w.opened, number⟩) m = w.task m :=
    fun m other => update_of_ne other _ _
  have less : ((w.dispatch w.opened).held ++ thread).Sublist w.pending :=
    List.Sublist.append_left fewer _
  have pending : ({ w with thread := thread ++ [(number, n)], writes := writes }.setTask n
      (.waiting ⟨w.opened, number⟩)).pending =
      ((w.dispatch w.opened).held ++ thread) ++ [(number, n)] :=
    (append_assoc ..).symm
  have current : Current { w with thread := thread ++ [(number, n)], writes := writes } := by
    obtain ⟨a, b, c, d, s, e, f, g, u⟩ := apart.current
    exact ⟨a, b, c, d, s, e, f, g, u⟩
  obtain ⟨-, ⟨h, i, j, k, l, m⟩, closes, log⟩ := apart
  refine ⟨current.setTask nofun nofun nofun, ⟨?_, ?_, ?_, ?_, ?_, fun order => ⟨?_⟩⟩, closes, log⟩
  · rw [pending]
    intro p member
    rcases mem_append.mp member with member | member
    · obtain ⟨waiting, none''⟩ := h p (less.subset member)
      exact ⟨(others p.2 (free p (less.subset member))).trans waiting, none''⟩
    · rw [mem_singleton.mp member]
      exact ⟨own, none'⟩
  · rw [pending, map_append, nodup_append]
    refine ⟨List.Nodup.sublist (less.map _) i, nodup_singleton _, ?_⟩
    intro m listed m' new same
    obtain ⟨p, member, rfl⟩ := mem_map.mp listed
    exact free p (less.subset member) (same.trans (mem_singleton.mp new))
  · intro n' ticket r now known
    rcases update_iff.mp now with ⟨rfl, -⟩ | ⟨-, now⟩
    · cases none'.symm.trans known
    · exact j n' ticket r now known
  · intro n' ticket now part member
    rcases update_iff.mp now with ⟨rfl, -⟩ | ⟨-, now⟩
    · have empty : part ∈ [] := nothing ▸ member
      cases empty
    · exact k n' ticket now part member
  · intro n' still
    by_cases here : n' = n
    · subst here
      exact absurd own (still _)
    · exact l n' fun ticket => others n' here ▸ still ticket
  · rw [pending]
    obtain ⟨rfl, rfl, sock, more⟩ := numbered order
    obtain ⟨first, keys, counted, reads⟩ := (m order).numbers
    have last : first + ((w.dispatch w.opened).held ++ w.thread).length = w.writes w.opened :=
      counted sock
    refine ⟨first, ?_, fun _ => ?_, reads⟩
    · rw [map_append, length_append, ← range'_append_1, last]
      change List.map Prod.fst w.pending ++ _ = _
      rw [keys]
      rfl
    · rw [length_append, ← Nat.add_assoc, last]
      exact more.symm

theorem Apart.pushResponse {session : Nat} (sock : w.sock = some w.opened) :
    Apart desc (w.pushResponse desc n w.opened session) := by
  unfold World.pushResponse
  split
  next session =>
    apply Apart.sleep
    refine apart.push idle filter_sublist fun order => ?_
    rw [session] at order
    cases order
  next =>
    dsimp only
    have pushed : Apart desc (World.sleep ({ w with
        thread := w.thread ++ [(w.writes w.opened, n)]
        writes := update w.writes w.opened (w.writes w.opened + 1) }.setTask n
          (.waiting ⟨w.opened, w.writes w.opened⟩)) (.user n)) := by
      apply Apart.sleep
      refine apart.push idle (List.Sublist.refl _) fun _ => ⟨rfl, rfl, ?_, ?_⟩
      · rw [sock]
        exact nofun
      · exact update_self ..
    split
    · exact pushed
    · exact (pushed.setWaitResponse none).wakeup _

theorem Apart.writeFailed (gone : w.sock = none) : Apart desc (w.writeFailed n w.opened) :=
  (apart.wakeupAll gone).setRunning idle

theorem Apart.write : Apart desc (w.write desc n req written) := by
  unfold World.write
  split
  · exact apart.setRunning idle
  next fd known =>
    obtain rfl := apart.current.sock fd known
    split
    · split
      · exact apart.setRunning idle
      · exact apart.pushResponse idle known
    · have closed : Apart desc (w.closeChannelSocket (.user n) w.opened).1 := by
        apply apart.closeChannelSocket
        intro fd same
        exact some.inj (known.symm.trans same)
      have kept := closeChannelSocket_kept w (.user n) w.opened
      have still : ∀ ticket, (w.closeChannelSocket (.user n) w.opened).1.task n ≠
          .waiting ticket := by
        rw [kept.task]
        exact idle
      split
      next w' fd' result =>
        rw [result] at closed kept still
        refine closed.setTask still nofun (closed.current.setTask ?_ nofun nofun)
        intro fd conn now
        cases now
        exact ⟨kept.opened.symm, kept.sock⟩
      next w' result =>
        rw [result] at closed kept still
        have failed := closed.writeFailed still kept.sock
        have same : w'.opened = w.opened := kept.opened
        rw [same] at failed
        exact failed

theorem Apart.proceed : Apart desc (w.proceed desc n req written) := by
  unfold World.proceed
  split
  · exact apart.write idle
  · exact apart.setRunning idle

end

end

theorem running_alone (alone : ∀ n' req', w.task n' = .opening req' → n' = n) (n' : Nat)
    (req' : Req) : (w.setTask n .running).task n' ≠ .opening req' := by
  intro now
  rcases update_iff.mp now with ⟨-, new⟩ | ⟨here, old⟩
  · cases new
  · exact here (alone n' req' old)

section
variable (apart : Apart desc w)
include apart

theorem Apart.connectDone (idle : ∀ ticket, w.task n ≠ .waiting ticket)
    (authed : w.authco = none) (alone : ∀ n' req', w.task n' = .opening req' → n' = n) :
    Apart desc (w.connectDone desc n req written) := by
  have running : (w.setTask n .running).task n = .running := update_self ..
  apply Apart.proceed
  · exact (apart.setRunning idle).wakeQueued authed (running_alone alone)
  · intro ticket now
    cases running.symm.trans now

theorem Apart.connectOnce (idle : ∀ ticket, w.task n ≠ .waiting ticket)
    (connecting : w.connecting ≠ none) (nobody : ∀ n' req', w.task n' ≠ .opening req') :
    Apart desc (w.connectOnce n req) := by
  unfold World.connectOnce
  split
  · exact apart.setRunning idle
  next free =>
    refine apart.setTask idle nofun
      (apart.current.setTask nofun (fun req' _ => ⟨?_, connecting, nobody⟩) nofun)
    rw [Bool.or_eq_true, not_or] at free
    exact not_isSome_iff_eq_none.mp free.2

theorem Apart.request (running : w.task n = .running) :
    Apart desc (w.request desc n req written) := by
  have idle : ∀ ticket, w.task n ≠ .waiting ticket := by
    rw [running]
    exact nofun
  unfold World.request
  split
  · exact apart.write idle
  · split
    next queue known =>
      apply Apart.sleep
      have queued := apart.setConnecting (queue ++ [n])
      exact queued.setTask idle nofun (queued.current.setTask nofun nofun nofun)
    next none' =>
      refine (apart.setConnecting []).connectOnce idle nofun ?_
      intro n' req' now
      exact (apart.current.opening n' req' now).2.1 none'

theorem Apart.changehost (running : w.task n = .running) : Apart desc (w.changehost n) := by
  have closed : Apart desc (w.closeChannelSocket (.user n) (w.sock.getD w.opened)).1 := by
    apply apart.closeChannelSocket
    intro fd known
    rw [known]
    rfl
  have kept := closeChannelSocket_kept w (.user n) (w.sock.getD w.opened)
  have still : ∀ ticket, (w.closeChannelSocket (.user n) (w.sock.getD w.opened)).1.task n ≠
      .waiting ticket := by
    rw [kept.task, running]
    exact nofun
  unfold World.changehost
  split
  next w' fd result =>
    rw [result] at closed still
    exact closed.setTask still nofun (closed.current.setTask nofun nofun nofun)
  next w' result =>
    rw [result] at closed still
    exact closed.setRunning still

end

/-- Nothing is left of the last connection: its dispatcher has ended, no request waits and
none is about to give out its failure. -/
structure WoundUp (w : World) : Prop where
  dispatchers : ∀ c, w.dispatch c = .ended
  failures : ∀ n fd conn, w.task n ≠ .closing fd (.writeFailed conn)
  requests : w.thread = []

theorem Apart.install (apart : Apart desc w) (wound : WoundUp w) (nobody : w.authco = none) :
    Apart desc w.install := by
  have mine : update w.dispatch (w.opened + 1) .looping (w.opened + 1) = .looping := update_self ..
  have others : ∀ c, c ≠ w.opened + 1 → w.install.dispatch c = .ended :=
    fun c other => (update_of_ne other _ _).trans (wound.dispatchers c)
  have either : ∀ c, w.install.dispatch c = .looping ∨ w.install.dispatch c = .ended := by
    intro c
    rcases eq_or_ne c (w.opened + 1) with rfl | other
    · exact .inl mine
    · exact .inr (others c other)
  have pending : w.install.pending = [] := by
    change (update w.dispatch (w.opened + 1) .looping (w.opened + 1)).held ++ w.thread = []
    rw [mine, wound.requests]
    rfl
  obtain ⟨⟨-, -, -, -, -, -, -, g, u⟩, ⟨-, -, j, k, l, -⟩, closes, log⟩ := apart
  refine ⟨⟨?_, ?_, ?_, ?_, ?_, ?_, ?_, g, u⟩, ⟨?_, ?_, j, k, l, fun _ => ⟨0, ?_, ?_, ?_⟩⟩, closes,
    log⟩
  · intro c known
    exact (some.inj known).symm
  · intro c alive
    by_contra other
    exact alive (others c other)
  · intro c so held blocked now
    rcases either c with looping | ended
    · cases looping.symm.trans now
    · cases ended.symm.trans now
  · intro c fd so held now
    rcases either c with looping | ended
    · cases looping.symm.trans now
    · cases ended.symm.trans now
  · intro c now
    rcases either c with looping | ended
    · cases looping ▸ now
    · cases ended ▸ now
  · intro n fd conn now
    exact absurd now (wound.failures n fd conn)
  · intro n req conn known
    cases nobody.symm.trans known
  · rw [pending]
    exact fun p member => absurd member not_mem_nil
  · rw [pending]
    exact nodup_nil
  · rw [pending]
    rfl
  · intro _
    rw [pending]
    exact (update_self (w.opened + 1) 0 w.writes).symm
  · intro _
    change update w.reads (w.opened + 1) 0 (w.opened + 1) =
      0 + (update w.dispatch (w.opened + 1) .looping (w.opened + 1)).taken
    rw [mine, update_self]
    rfl

theorem Apart.connected (apart : Apart desc w) (wound : WoundUp w)
    (opening : w.task n = .opening req) : Apart desc (w.connected desc n req written) := by
  obtain ⟨nobody, connecting, alone⟩ := apart.current.opening n req opening
  have installed := apart.install wound nobody
  have idle : ∀ ticket, w.task n ≠ .waiting ticket := by
    rw [opening]
    exact nofun
  unfold World.connected
  split
  · have running := installed.setRunning idle
    obtain ⟨⟨a, b, c, d, s, e, -, -, u⟩, ⟨h, i, j, k, l, m⟩, closes, log⟩ := running
    refine ⟨⟨a, b, c, d, s, e, ?_, ?_, ?_⟩, ⟨h, i, j, k, l, fun order => ⟨(m order).numbers⟩⟩,
      closes, log⟩
    · intro n' req' conn known
      cases known
      exact ⟨rfl, connecting⟩
    · intro n' req' now
      exact absurd now (@running_alone w.install n alone n' req')
    · intro n' fd req' now
      obtain ⟨conn, known⟩ := u n' fd req' now
      cases nobody.symm.trans known
  · exact installed.connectDone idle nobody alone

theorem nobody_opens {auth : Nat × Req × Conn} (apart : Apart desc w)
    (known : w.authco = some auth) (n' : Nat) (req' : Req) : w.task n' ≠ .opening req' := by
  intro now
  cases known.symm.trans (apart.current.opening n' req' now).1

variable {conn : Conn}

section
variable (apart : Apart desc w)
include apart

section
variable (known : w.authco = some (n, req, conn))
include known

/- The coroutine in auth is not closing the socket of another auth. -/
theorem nobody_unauthed (running : w.task n = .running) (n' : Nat) (fd : Conn) (req' : Req) :
    w.task n' ≠ .closing fd (.authFailed req') := by
  intro now
  obtain ⟨conn', known'⟩ := apart.current.unauthed n' fd req' now
  cases known.symm.trans known'
  cases running.symm.trans now

theorem Apart.authFailed (idle : ∀ ticket, w.task n ≠ .waiting ticket) :
    Apart desc (w.authFailed desc n req written) := by
  have running := apart.setRunning idle
  have mine : (w.setTask n .running).task n = .running := update_self ..
  refine (running.setAuthco (nobody_unauthed running known mine)).connectDone ?_ rfl ?_
  · intro ticket now
    cases mine.symm.trans now
  · intro n' req' now
    exact absurd now (nobody_opens running known n' req')

theorem Apart.authReturned (running : w.task n = .running) :
    Apart desc (w.authReturned desc n req written) := by
  have idle : ∀ ticket, w.task n ≠ .waiting ticket := by
    rw [running]
    exact nofun
  have nobody := nobody_opens apart known
  have cleared := apart.setAuthco (nobody_unauthed apart known running)
  unfold World.authReturned
  dsimp only
  split
  · exact cleared.connectOnce idle (apart.current.auth n req conn known).2 nobody
  · exact cleared.connectDone idle rfl fun n' req' now => absurd now (nobody n' req')

theorem Apart.authThrown (running : w.task n = .running) :
    Apart desc (w.authThrown desc n req conn written) := by
  have closed : Apart desc (w.closeChannelSocket (.user n) conn).1 := by
    apply apart.closeChannelSocket
    intro fd sock
    rw [(apart.current.auth n req conn known).1]
    exact (apart.current.sock fd sock).symm
  have kept := closeChannelSocket_kept w (.user n) conn
  have still : ∀ ticket, (w.closeChannelSocket (.user n) conn).1.task n ≠ .waiting ticket := by
    rw [kept.task, running]
    exact nofun
  have same := kept.authco.trans known
  unfold World.authThrown
  split
  next w' fd result =>
    rw [result] at closed still same
    refine closed.setTask still nofun (closed.current.setTask nofun nofun ?_)
    intro fd' req' now
    cases now
    exact ⟨conn, same⟩
  next w' result =>
    rw [result] at closed still same
    exact closed.authFailed same still

end

theorem Apart.finish {ticket : Ticket} {r : Result}
    (waiting : w.task n = .waiting ticket) (known : w.result n = some r) :
    Apart desc (w.finish n ticket r) := by
  have free : ∀ p ∈ w.pending, p.2 ≠ n := by
    rintro p member rfl
    cases (apart.answers.expected p member).2.symm.trans known
  have own : update w.task n .running n = .running := update_self ..
  have others : ∀ m, m ≠ n → update w.task n .running m = w.task m :=
    fun m other => update_of_ne other _ _
  have fits := apart.answers.results n ticket r waiting known
  have current : Current { w with
      result := update w.result n none
      resultData := update w.resultData n []
      log := w.log ++ [(ticket, r)] } := by
    obtain ⟨a, b, c, d, s, e, f, g, u⟩ := apart.current
    exact ⟨a, b, c, d, s, e, f, g, u⟩
  obtain ⟨-, ⟨h, i, j, k, l, m⟩, closes, log⟩ := apart
  refine ⟨current.setTask nofun nofun nofun,
    ⟨?_, i, ?_, ?_, ?_, fun order => ⟨(m order).numbers⟩⟩, closes, ?_⟩
  · intro p member
    obtain ⟨waiting', none'⟩ := h p member
    exact ⟨(others p.2 (free p member)).trans waiting',
      (update_of_ne (free p member) _ _).trans none'⟩
  · intro n' ticket' r' now known'
    have here : n' ≠ n := by
      rintro rfl
      cases own.symm.trans now
    exact j n' ticket' r' ((others n' here).symm.trans now)
      ((update_of_ne here _ _).symm.trans known')
  · intro n' ticket' now part member
    have here : n' ≠ n := by
      rintro rfl
      cases own.symm.trans now
    exact k n' ticket' ((others n' here).symm.trans now) part
      (update_of_ne here [] w.resultData ▸ member)
  · intro n' still
    by_cases here : n' = n
    · subst here
      exact ⟨update_self .., update_self ..⟩
    · obtain ⟨none', nothing⟩ := l n' fun ticket => others n' here ▸ still ticket
      exact ⟨(update_of_ne here _ _).trans none',
        (update_of_ne here _ _).trans nothing⟩
  · intro p member
    rcases mem_append.mp member with member | member
    · exact log p member
    · rw [mem_singleton.mp member]
      exact fits

end

end Skynet.Socketchannel
