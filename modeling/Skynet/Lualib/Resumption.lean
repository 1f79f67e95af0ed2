import Skynet.Lualib.Tidy

/-! A coroutine that fails, or leaves suspend in another way, while one of the queues of the
dispatcher is not empty, keeps the others in it from being resumed; in the runs where this does
not happen every call is answered once. -/
namespace Skynet.Lualib
open Base List Option

structure Inv (s : Service) : Prop where
  filed : Filed s none
  current : Current s
  tidy : Tidy s
  drained : Drained s

section Dispatch
variable {s s' : Service} {co new : Coroutine} {pending : Nat} {session : Session}

theorem Filed.alone (h : Filed s none) (called : (s.place co).calls = some session) (c : Coroutine)
    (calls : (s.place c).calls = some session) : c = co :=
  h.entries.unique c co session (Place.session_of_calls calls) (Place.session_of_calls called)

theorem Place.eq_call {p : Place} (calls : p.calls = some session) : p = .call session := by
  cases p with
  | call _ => exact congrArg Place.call (some.inj calls)
  | timeout _ | sleep _ | wait _ | pooled | spoiled | created | running | parked | dead =>
    cases calls

theorem dispatchWakeup_tidy {choice : Option Coroutine} (h : Inv s)
    (taken : dispatchWakeup s pending choice = some s') : Tidy s' ∧ Drained s' := by
  rcases dispatchWakeup_cases taken with
    ⟨empty, rfl⟩ | ⟨co, member, ⟨awake, rfl⟩ | ⟨session, sleeping, rfl⟩⟩
  · exact ⟨{ h.tidy with }, empty⟩
  · exact absurd ((h.filed.asleep co).symm.trans awake) (h.tidy.woken co member)
  · have sleeps : (s.place co).sleeps = some session := (h.filed.asleep co).symm.trans sleeping
    have calls : (s.place co).calls = none := Place.calls_of_sleeps sleeps
    have waits : (s.place co).session ≠ none := by
      rw [Place.session_of_sleeps sleeps]
      nofun
    exact resume_quiet calls (.inl waits) { h.tidy.wake calls with }

theorem dispatchErrorQueue_tidy (h : Inv s) (wakeups : s.wakeupSession = []) :
    Tidy (dispatchErrorQueue s pending) ∧ Drained (dispatchErrorQueue s pending) := by
  unfold dispatchErrorQueue
  split
  · rename_i empty
    exact ⟨returned_tidy h.tidy, returned_drained empty wakeups⟩
  · rename_i session rest queue
    obtain ⟨co, calls⟩ := h.tidy.queued session (queue ▸ mem_cons_self)
    have called := Place.eq_call calls
    have filed : s.sessionIdCoroutine session = some (.co co) :=
      (h.filed.entries.filed session co).mpr ⟨nofun, Place.session_of_calls calls⟩
    rw [filed]
    have tidy := h.tidy.answer (.failure session) queue calls (h.filed.alone calls) (.inr rfl)
    exact resume_call called { tidy with }

theorem rawResponse_tidy (h : Inv s) (idle : s.control = .idle) :
    Tidy (rawResponse s session) ∧ Drained (rawResponse s session) := by
  have drained := h.drained
  unfold Drained at drained
  rw [idle] at drained
  obtain ⟨errors, wakeups⟩ := drained
  unfold rawResponse
  split
  · exact ⟨{ h.tidy with }, errors, wakeups⟩
  · exact ⟨{ h.tidy with }, errors, wakeups⟩
  · rename_i co filed
    have waits := h.filed.taken filed
    cases calls : (s.place co).calls with
    | none =>
      have unwatched : session ∉ s.watchingSession.map Prod.fst := by
        intro watched
        obtain ⟨c, calling⟩ := (h.filed.watched.watched session).mp watched
        have same := h.filed.entries.unique c co session (Place.session_of_calls calling) waits
        rw [same, calls] at calling
        cases calling
      have tidy : Tidy (s.setPlace co .running) :=
        (h.tidy.wake calls).congr (by simp [Service.setPlace, wakeups]) rfl rfl rfl rfl rfl rfl rfl
      rw [if_neg unwatched]
      refine resume_quiet calls (.inl ?_) ?_
      · exact fun free => nomatch waits.symm.trans free
      · exact tidy.congr rfl rfl rfl rfl (append_nil _) rfl rfl rfl
    | some other =>
      have same : other = session := some.inj ((Place.session_of_calls calls).symm.trans waits)
      subst same
      have watched := (h.filed.watched.watched other).mpr ⟨co, calls⟩
      rw [if_pos watched]
      have noticed := h.tidy.notice errors (nodup_singleton other) (by
        intro session member
        cases mem_singleton.mp member
        exact ⟨co, calls⟩)
      have queue : s.errorQueue ++ [other] = [other] := by rw [errors]; rfl
      have tidy := noticed.answer (.response other) queue calls (h.filed.alone calls) (.inl rfl)
      exact resume_call (Place.eq_call calls) (tidy.congr rfl rfl errors rfl rfl rfl rfl rfl)

variable {source : Address} {order : List Session}

section
variable (filed : Filed s none) (h : Tidy s) (errors : s.errorQueue = [])
include filed h errors

theorem rawRequest_tidy {unpacked : Bool} (wakeups : s.wakeupSession = [])
    (taken : rawRequest s session source new unpacked = some s') :
    Tidy s' ∧ Drained s' ∧ s'.errorQueue = [] := by
  obtain ⟨middle, made, rfl⟩ := map_eq_some_iff.mp taken
  obtain ⟨pooled, rfl⟩ := coCreate_pooled (filed.unspoiled new) made
  have created : Tidy (s.setPlace new .created) :=
    h.move (by rw [pooled]; rfl) (by rw [pooled]; rfl)
  split
  · have stands := setPlace_here s new .created
    have started : Tidy ((s.setPlace new .created).setPlace new .running) :=
      created.move (by rw [stands]; rfl) (by rw [stands]; rfl)
    rw [resume_created]
    · exact ⟨{ started with }, trivial, errors⟩
    · exact stands
  · exact ⟨{ created with }, ⟨errors, wakeups⟩, errors⟩

theorem errorDispatch_tidy (taken : errorDispatch s session source order = some s') : Tidy s' := by
  unfold errorDispatch at taken
  split at taken
  · split at taken
    · rename_i permuted
      cases taken
      have inside : ∀ session ∈ watchers s source, session ∈ s.watchingSession.map Prod.fst :=
        (filter_sublist.map Prod.fst).subset
      have distinct : (watchers s source).Nodup :=
        filed.watched.distinct.sublist (filter_sublist.map Prod.fst)
      have noticed := h.notice errors (permuted.nodup_iff.mpr distinct) (by
        intro session member
        exact (filed.watched.watched session).mp (inside session (permuted.mem_iff.mp member)))
      exact { noticed with }
    · cases taken
  · split at taken
    · rename_i watched
      cases taken
      refine h.notice errors (nodup_singleton session) ?_
      intro other member
      cases mem_singleton.mp member
      exact (filed.watched.watched session).mp watched
    · cases taken
      exact h

theorem rawError_tidy (wakeups : s.wakeupSession = [])
    (taken : rawError s session source new order = some s') : Tidy s' ∧ Drained s' := by
  obtain ⟨middle, started, taken⟩ := bind_eq_some_iff.mp taken
  obtain ⟨tidy, drained, empty⟩ := rawRequest_tidy filed h errors wakeups started
  split at taken
  · rename_i running
    obtain ⟨noticed, dispatched, rfl⟩ := map_eq_some_iff.mp taken
    have noted := errorDispatch_tidy (filed.rawRequest started) tidy empty dispatched
    obtain ⟨_, _, _, rfl⟩ := errorDispatch_eq dispatched
    have runs : middle.place new = .running := rawRequest_current started new 0 running
    exact ⟨{ noted.move (p := .pooled) (by rw [runs]; rfl) (by rw [runs]; rfl) with }, trivial⟩
  · cases taken
    exact ⟨tidy, drained⟩

end

theorem nextFork_tidy {choice : Option Nat} (h : Inv s) (errors : s.errorQueue = [])
    (wakeups : s.wakeupSession = []) (taken : nextFork s choice = some s') :
    Tidy s' ∧ Drained s' := by
  rcases nextFork_cases taken with ⟨-, rfl⟩ | ⟨key, co, member, rfl⟩
  · exact ⟨{ h.tidy with }, errors, wakeups⟩
  · have created : s.place co = .created := (h.filed.forked _ member).2
    have started : Tidy (s.setPlace co .running) :=
      h.tidy.move (by rw [created]; rfl) (by rw [created]; rfl)
    rw [resume_created]
    · exact ⟨{ started with }, trivial⟩
    · exact created

theorem step_inv {a : Action} (h : Inv s) (orderly : Orderly s a) (taken : step s a = some s') :
    Inv s' := by
  suffices kept : Tidy s' ∧ Drained s' from
    ⟨step_filed h.filed h.current orderly.sequenced taken, step_current h.current taken,
      kept.1, kept.2⟩
  have drained := h.drained
  unfold Drained at drained
  cases a with
  | message message =>
    obtain ⟨idle, taken⟩ := step_message taken
    rw [idle] at drained
    obtain ⟨errors, wakeups⟩ := drained
    have filed : Filed { s with succ := true } none := { h.filed with }
    have tidy : Tidy { s with succ := true } := { h.tidy with }
    cases message with
    | response session =>
      cases taken
      have begun : Inv { s with succ := true } := ⟨filed, h.current, tidy, h.drained⟩
      exact rawResponse_tidy begun idle
    | error session source new order => exact rawError_tidy filed tidy errors wakeups taken
    | request session source new unpacked =>
      obtain ⟨kept, empty, -⟩ := rawRequest_tidy filed tidy errors wakeups taken
      exact ⟨kept, empty⟩
    | unknown session source =>
      obtain ⟨_, _, rfl, -⟩ := unknown_eq taken
      exact ⟨{ tidy with }, errors, wakeups⟩
    | undispatched =>
      cases taken
      exact ⟨{ tidy with }, errors, wakeups⟩
  | op op =>
    obtain ⟨co, pending, control, taken⟩ := step_op taken
    exact perform_tidy h.tidy h.filed control (h.current co pending control) orderly taken
  | wakeup choice =>
    obtain ⟨pending, -, taken⟩ := step_wakeup taken
    exact dispatchWakeup_tidy h taken
  | errors =>
    obtain ⟨pending, control, rfl⟩ := step_errors taken
    rw [control] at drained
    exact dispatchErrorQueue_tidy h drained
  | fork choice =>
    obtain ⟨control, taken⟩ := step_fork taken
    rw [control] at drained
    exact nextFork_tidy h drained.1 drained.2 taken

end Dispatch

theorem start_inv : Inv Service.start where
  filed := start_filed
  current := nofun
  tidy := by
    have silent : ∀ session, ¬ Calls Service.start session := by
      rintro session ⟨co, called⟩
      rw [start_place] at called
      split at called <;> cases called
    refine ⟨nofun, nodup_nil, nofun, ?_, nofun, nodup_nil, ?_, ?_, nofun, nofun, nofun, rfl⟩
    · intro session
      exact iff_of_false nofun (not_or.mpr ⟨silent session, nofun⟩)
    all_goals exact fun session calling => absurd calling (silent session)
  drained := ⟨rfl, rfl⟩

theorem run_inv {s : Service} (run : Reaches step Orderly Service.start s) : Inv s :=
  run.invariant Inv start_inv fun _ _ _ => step_inv

/-- The steps of a coroutine that only calls and returns. -/
def plain (s : Service) : Action → Bool
  | .op (.call _) => decide (s.sessionId + 1 < 2 ^ 31)
  | .op .exit => true
  | .op _ => false
  | .message _ | .wakeup _ | .errors | .fork _ => true

theorem plain_orderly (s : Service) (a : Action) (checked : plain s a = true) : Orderly s a := by
  cases a with
  | message _ | wakeup _ | errors | fork _ => trivial
  | op op =>
    cases op with
    | call target =>
      have counted : s.sessionId + 1 < 2 ^ 31 := of_decide_eq_true checked
      exact ⟨fun _ => counted, fun _ _ _ stops => stops.elim⟩
    | exit => exact ⟨nofun, fun _ _ _ stops => stops.elim⟩
    | wakeup _ | fork _ _ | timeout _ | genid | sleep | wait | ret _ _ | response | respond _ _
    | quit | invalid | debug | fail => cases checked

def resumptions (s : Service) (session : Session) : Nat := (s.resumed.map Prod.fst).count session

/-- In every run in which no coroutine leaves suspend early while others are queued: each call
that was answered is resumed once, with its own response or failure, unless its session is still
in error_queue; the others are suspended. The sessions in error_queue belong to coroutines that
are suspended on them, nothing but a coroutine is resumed, and both queues are empty when
dispatch_message has returned. -/
theorem dispatcher_resumption (s : Service) (run : Reaches step Orderly Service.start s) :
    (∀ session ∈ s.asked,
      (session ∈ s.answered ∧ session ∉ s.errorQueue ∧ resumptions s session = 1) ∨
      ((session ∈ s.answered → session ∈ s.errorQueue) ∧ resumptions s session = 0 ∧
        ∃ co, s.place co = .call session)) ∧
    (∀ r ∈ s.resumed, r.2 = .response r.1 ∨ r.2 = .failure r.1) ∧
    (∀ session ∈ s.errorQueue, ∃ co, s.sessionIdCoroutine session = some (.co co) ∧
      s.place co = .call session) ∧
    s.resumedNil = false ∧
    (s.control = .idle → s.errorQueue = [] ∧ s.wakeupSession = []) := by
  have h := run_inv run
  refine ⟨?_, h.tidy.right, ?_, h.tidy.sound, ?_⟩
  · intro session member
    rcases (h.tidy.known session).mp member with ⟨co, calls⟩ | resumed
    · refine .inr ⟨(h.tidy.waiting session ⟨co, calls⟩).mp, ?_, co, Place.eq_call calls⟩
      exact count_eq_zero.mpr (h.tidy.apart session ⟨co, calls⟩)
    · refine .inl ⟨h.tidy.done session resumed, ?_, count_eq_one_of_mem h.tidy.once resumed⟩
      intro queued
      exact h.tidy.apart session (h.tidy.queued session queued) resumed
  · intro session member
    obtain ⟨co, calls⟩ := h.tidy.queued session member
    have filed : s.sessionIdCoroutine session = some (.co co) :=
      (h.filed.entries.filed session co).mpr ⟨nofun, Place.session_of_calls calls⟩
    exact ⟨co, filed, Place.eq_call calls⟩
  · intro idle
    have drained := h.drained
    unfold Drained at drained
    rw [idle] at drained
    exact drained

/-- A call to service 5 that fails, from the timeout that starts the service. -/
def failedCall : List Action :=
  [.message (.response 1), .op (.call (.handle 5)), .wakeup none, .errors, .fork none,
    .message (.error 2 5 1 []), .wakeup none, .errors, .op .exit, .wakeup none, .errors, .fork none]

theorem dispatcher_resumption_failed_call :
    ∃ s, Reaches step Orderly Service.start s ∧ s.asked = [2] ∧ s.answered = [2] ∧
      resumptions s 2 = 1 ∧ s.resumed = [(2, .failure 2)] ∧ s.errorQueue = [] := by
  have run : Reaches step Orderly Service.start _ :=
    reaches_of_checked plain plain_orderly failedCall rfl
  obtain ⟨calls, -, -, -, drained⟩ := dispatcher_resumption _ run
  rcases calls 2 mem_cons_self with ⟨-, -, once⟩ | ⟨-, never, -⟩
  · exact ⟨_, run, rfl, rfl, once, rfl, (drained rfl).1⟩
  · cases never

/-- Two requests wait in the mailbox of service 5 when it exits, and each is reported by a
service-down notice; the first coroutine does not catch the failure of its call. -/
def lostWaiter : List Action :=
  [.message (.response 1), .op (.fork 0 1), .op (.call (.handle 5)), .wakeup none, .errors,
    .fork (some 1), .op (.call (.handle 5)), .wakeup none, .errors, .fork none,
    .message (.error 0 5 2 [2, 3]), .wakeup none, .errors, .op .fail, .fork none]

def secondNotice : List Action :=
  [.message (.error 0 5 2 [3]), .wakeup none, .errors, .op .exit, .wakeup none, .errors]

/-- After the first notice error_queue is not empty, and after the second it holds a session
twice, so that nil is resumed. -/
theorem dispatcher_resumption_aborted :
    (∃ s, Run step Service.start s ∧ s.control = .idle ∧ s.errorQueue = [3]) ∧
    ∃ s, Run step Service.start s ∧ s.resumedNil = true := by
  constructor
  · have run : Run step Service.start _ := run_of_list lostWaiter rfl
    exact ⟨_, run, rfl, rfl⟩
  · have run : Run step Service.start _ := run_of_list (lostWaiter ++ secondNotice) rfl
    exact ⟨_, run, rfl⟩

end Skynet.Lualib
