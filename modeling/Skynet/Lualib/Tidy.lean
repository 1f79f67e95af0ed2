import Skynet.Lualib.Filed

/-! The calls of a service and the queues that its dispatcher drains, and what the operations of
a coroutine do to them. -/
namespace Skynet.Lualib
open Base List Option

def Calls (s : Service) (session : Session) : Prop := ∃ co, (s.place co).calls = some session

/-- The queues hold coroutines that wait to be resumed, and each call is resumed for its own
session, after it was answered. -/
structure Tidy (s : Service) : Prop where
  woken : ∀ co ∈ s.wakeupSession, (s.place co).sleeps ≠ none
  distinct : s.errorQueue.Nodup
  queued : ∀ session ∈ s.errorQueue, Calls s session
  known : ∀ session, session ∈ s.asked ↔ Calls s session ∨ session ∈ s.resumed.map Prod.fst
  bound : ∀ session ∈ s.asked, session ≤ s.sessionId
  once : (s.resumed.map Prod.fst).Nodup
  apart : ∀ session, Calls s session → session ∉ s.resumed.map Prod.fst
  waiting : ∀ session, Calls s session → (session ∈ s.answered ↔ session ∈ s.errorQueue)
  done : ∀ session ∈ s.resumed.map Prod.fst, session ∈ s.answered
  meant : ∀ session ∈ s.answered, session ∈ s.asked
  right : ∀ r ∈ s.resumed, r.2 = .response r.1 ∨ r.2 = .failure r.1
  sound : s.resumedNil = false

section Moves
variable {s : Service} {co : Coroutine} {p : Place} {session : Session} {s' : Service}

theorem calls_setPlace : Calls (s.setPlace co p) session ↔
    p.calls = some session ∨ ∃ c, c ≠ co ∧ (s.place c).calls = some session := by
  constructor
  · rintro ⟨c, calls⟩
    by_cases here : c = co
    · subst here
      exact .inl (by simpa using calls)
    · exact .inr ⟨c, here, by rwa [setPlace_other s co p here] at calls⟩
  · rintro (calls | ⟨c, other, calls⟩)
    · exact ⟨co, by simpa using calls⟩
    · exact ⟨c, by rwa [setPlace_other s co p other]⟩

theorem calls_still (same : (s.place co).calls = p.calls) (session : Session) :
    Calls (s.setPlace co p) session ↔ Calls s session :=
  exists_congr fun c => iff_of_eq (congrArg (· = some session) (update_same Place.calls same.symm c))

section
variable (h : Tidy s)
include h

theorem woken_move (sleeps : (s.place co).sleeps = none) {c : Coroutine}
    (member : c ∈ s.wakeupSession) : ((s.setPlace co p).place c).sleeps ≠ none := by
  have other : c ≠ co := by
    rintro rfl
    exact h.woken c member sleeps
  rw [setPlace_other s co p other]
  exact h.woken c member

/-- The calls stay, and what else the tables are compared with. -/
theorem Tidy.still (calls : ∀ session, Calls s' session ↔ Calls s session)
    (woken : ∀ co ∈ s'.wakeupSession, (s'.place co).sleeps ≠ none)
    (errors : s'.errorQueue = s.errorQueue) (asked : s'.asked = s.asked)
    (answered : s'.answered = s.answered) (resumed : s'.resumed = s.resumed)
    (nil : s'.resumedNil = s.resumedNil) (counter : s'.sessionId = s.sessionId) : Tidy s' := by
  refine ⟨woken, ?_, ?_, ?_, ?_, ?_, ?_, ?_, ?_, ?_, ?_, ?_⟩
  all_goals simp only [calls, errors, asked, answered, resumed, nil, counter]
  · exact h.distinct
  · exact h.queued
  · exact h.known
  · exact h.bound
  · exact h.once
  · exact h.apart
  · exact h.waiting
  · exact h.done
  · exact h.meant
  · exact h.right
  · exact h.sound

theorem Tidy.bound_next (counted : Counted s) : ∀ session ∈ s.asked, session ≤ newsession s := by
  intro session member
  rw [newsession_eq counted]
  exact Nat.le_succ_of_le (h.bound session member)

theorem Tidy.move (calls : (s.place co).calls = p.calls)
    (sleeps : (s.place co).sleeps = none) : Tidy (s.setPlace co p) :=
  h.still (calls_still calls) (fun _ => woken_move h sleeps) rfl rfl rfl rfl rfl rfl

theorem Tidy.wake (calls : (s.place co).calls = none) :
    Tidy { s.setPlace co .running with wakeupSession := s.wakeupSession.filter (· ≠ co) } := by
  refine h.still (calls_still calls) ?_ rfl rfl rfl rfl rfl rfl
  intro c member
  obtain ⟨inside, other⟩ := mem_filter.mp member
  have place : (s.setPlace co .running).place c = s.place c :=
    setPlace_other s co .running (of_decide_eq_true other)
  exact fun none => h.woken c inside (place ▸ none)

theorem Tidy.notice (empty : s.errorQueue = []) {order : List Session}
    (distinct : order.Nodup) (calling : ∀ session ∈ order, Calls s session) :
    Tidy { s with errorQueue := s.errorQueue ++ order, answered := s.answered ++ order } := by
  rw [empty, nil_append]
  refine { h with
    distinct := distinct, queued := calling, waiting := ?_, done := ?_, meant := ?_ }
  · intro session waits
    have before := h.waiting session waits
    rw [empty] at before
    have unanswered : session ∉ s.answered := fun member => nomatch before.mp member
    rw [mem_append]
    exact or_iff_right unanswered
  · intro session member
    exact mem_append_left _ (h.done session member)
  · intro session member
    rcases mem_append.mp member with old | new
    · exact h.meant session old
    · exact (h.known session).mpr (.inl (calling session new))

theorem Tidy.answer {rest : List Session} (reason : Reason)
    (queue : s.errorQueue = session :: rest) (called : (s.place co).calls = some session)
    (alone : ∀ c, (s.place c).calls = some session → c = co)
    (right : reason = .response session ∨ reason = .failure session) :
    Tidy { s.setPlace co .running with
      errorQueue := rest, resumed := s.resumed ++ [(session, reason)] } := by
  have here : Calls s session := ⟨co, called⟩
  have distinct : session ∉ rest ∧ rest.Nodup := nodup_cons.mp (queue ▸ h.distinct)
  have moved : ∀ other, Calls (s.setPlace co .running) other ↔ other ≠ session ∧ Calls s other := by
    intro other
    rw [calls_setPlace]
    constructor
    · rintro (never | ⟨c, elsewhere, calls⟩)
      · cases never
      · refine ⟨?_, c, calls⟩
        rintro rfl
        exact elsewhere (alone c calls)
    · rintro ⟨different, c, calls⟩
      refine .inr ⟨c, ?_, calls⟩
      rintro rfl
      exact different (some.inj (calls.symm.trans called))
  have resumed : ∀ other, other ∈ (s.resumed ++ [(session, reason)]).map Prod.fst ↔
      other ∈ s.resumed.map Prod.fst ∨ other = session := by
    intro other
    rw [map_append, mem_append, map_singleton, mem_singleton]
  refine { h with
    woken := ?_, distinct := distinct.2, queued := ?_, known := ?_, once := ?_, apart := ?_,
    waiting := ?_, done := ?_, right := ?_ }
  · exact fun _ => woken_move h (Place.sleeps_of_calls called)
  · intro other member
    refine (moved other).mpr ⟨?_, h.queued other (queue ▸ mem_cons_of_mem session member)⟩
    rintro rfl
    exact distinct.1 member
  · intro other
    refine (h.known other).trans ?_
    rw [resumed]
    refine Iff.trans ?_ (or_congr_left (moved other).symm)
    by_cases same : other = session
    · subst same
      simp [here]
    · simp [same]
  · rw [map_append]
    refine h.once.append (nodup_singleton session) ?_
    intro other member single
    cases mem_singleton.mp single
    exact h.apart session here member
  · intro other calling
    obtain ⟨different, before⟩ := (moved other).mp calling
    rw [resumed]
    rintro (member | same)
    · exact h.apart other before member
    · exact different same
  · intro other calling
    obtain ⟨different, before⟩ := (moved other).mp calling
    refine (h.waiting other before).trans ?_
    rw [queue, mem_cons]
    exact or_iff_right different
  · intro other member
    rcases (resumed other).mp member with old | rfl
    · exact h.done other old
    · exact (h.waiting other here).mpr (queue ▸ mem_cons_self)
  · intro r member
    rcases mem_append.mp member with old | new
    · exact h.right r old
    · cases mem_singleton.mp new
      exact right

theorem Tidy.ask (counted : Counted s) (runs : s.place co = .running)
    (target : Target) (pending : Nat) : Tidy (call s co pending target) := by
  have fresh : newsession s ∉ s.asked := by
    intro member
    have bound := h.bound _ member
    rw [newsession_eq counted] at bound
    exact Nat.not_succ_le_self _ bound
  have sleeps : (s.place co).sleeps = none := by rw [runs]; rfl
  have moved : ∀ other, Calls (call s co pending target) other ↔
      Calls s other ∨ other = newsession s := by
    intro other
    refine calls_setPlace.trans ?_
    constructor
    · rintro (calls | ⟨c, -, calls⟩)
      · exact .inr (some.inj calls).symm
      · exact .inl ⟨c, calls⟩
    · rintro (⟨c, calls⟩ | rfl)
      · refine .inr ⟨c, ?_, calls⟩
        rintro rfl
        rw [runs] at calls
        cases calls
      · exact .inl rfl
  have unknown : ¬ Calls s (newsession s) ∧ newsession s ∉ s.resumed.map Prod.fst :=
    not_or.mp fun either => fresh ((h.known _).mpr either)
  refine { h with
    woken := ?_, queued := ?_, known := ?_, bound := ?_, apart := ?_, waiting := ?_, meant := ?_ }
  · exact fun _ => woken_move h sleeps
  · intro session member
    exact (moved session).mpr (.inl (h.queued session member))
  · intro session
    refine mem_append.trans (Iff.trans ?_ (or_congr_left (moved session).symm))
    rw [h.known session, mem_singleton]
    exact or_right_comm
  · intro session member
    rcases mem_append.mp member with old | new
    · exact h.bound_next counted session old
    · exact (mem_singleton.mp new).le
  · intro session calling
    rcases (moved session).mp calling with old | rfl
    · exact h.apart session old
    · exact unknown.2
  · intro session calling
    rcases (moved session).mp calling with old | rfl
    · exact h.waiting session old
    · exact iff_of_false (fun member => fresh (h.meant _ member))
        fun member => unknown.1 (h.queued _ member)
  · intro session member
    exact mem_append_left _ (h.meant session member)

theorem Tidy.congr (wakeups : s'.wakeupSession = s.wakeupSession)
    (places : s'.place = s.place) (errors : s'.errorQueue = s.errorQueue)
    (asked : s'.asked = s.asked) (answered : s'.answered = s.answered)
    (resumed : s'.resumed = s.resumed) (nil : s'.resumedNil = s.resumedNil)
    (counter : s'.sessionId = s.sessionId) : Tidy s' :=
  h.still (by simp [Calls, places]) (by simpa [wakeups, places] using h.woken) errors asked answered
    resumed nil counter

end

end Moves

section Drained
variable {s s' : Service} {co : Coroutine} {pending : Nat} {session : Session} {reason : Reason}

/-- The queues are empty between two messages and in the loop over fork_queue, and nothing waits
to be woken before dispatch_error_queue. -/
def Drained (s : Service) : Prop :=
  match s.control with
  | .idle | .forks => s.errorQueue = [] ∧ s.wakeupSession = []
  | .errors _ => s.wakeupSession = []
  | .running _ _ | .wakeup _ => True

theorem returned_drained (errors : s.errorQueue = []) (wakeups : s.wakeupSession = []) :
    Drained (returned s pending) := by
  cases pending with
  | zero => exact ⟨errors, wakeups⟩
  | succ pending => exact wakeups

theorem returned_tidy (h : Tidy s) : Tidy (returned s pending) := by
  cases pending with
  | zero | succ _ => exact { h with }

theorem resume_call (called : s.place co = .call session)
    (h : Tidy { s.setPlace co .running with resumed := s.resumed ++ [(session, reason)] }) :
    Tidy (resume s co pending reason) ∧ Drained (resume s co pending reason) := by
  unfold resume
  rw [called]
  exact ⟨{ h with }, trivial⟩

theorem resume_created (stands : s.place co = .created) :
    resume s co pending reason = s.run co pending := by
  unfold resume
  rw [stands]

theorem resume_quiet (calls : (s.place co).calls = none)
    (waits : (s.place co).session ≠ none ∨ s.place co = .created)
    (h : Tidy (s.setPlace co .running)) :
    Tidy (resume s co pending reason) ∧ Drained (resume s co pending reason) := by
  unfold resume
  cases stands : s.place co with
  | call session =>
    rw [stands] at calls
    cases calls
  | sleep _ | wait _ | created | timeout _ => exact ⟨{ h with }, trivial⟩
  | parked | pooled | spoiled | running | dead =>
    rw [stands] at waits
    rcases waits with waits | waits
    · exact absurd rfl waits
    · cases waits

/-- The request of a coroutine can be answered. -/
def Requests.Answerable (r : Requests) (co : Coroutine) : Prop :=
  r.sessionResponse co = false ∧ ∃ address session, r.sessionCoroutineAddress co = some address ∧
    r.sessionCoroutineId co = some session ∧ r.watchingService address ≠ none

/-- What a coroutine does ends the call of suspend before it drains the queues. -/
def Stops (s : Service) (co : Coroutine) : Op → Prop
  | .ret param _ => ¬ (param = true ∧ s.requests.Answerable co)
  | .response => ¬ s.requests.Answerable co
  | .quit | .invalid | .debug | .fail => True
  | _ => False

/-- No coroutine fails, or leaves suspend in another way, while the queues hold others. -/
def Orderly (s : Service) : Action → Prop
  | .op op => (op.takesSession → Counted s) ∧
    ∀ co pending, s.control = .running co pending → Stops s co op →
      s.errorQueue = [] ∧ s.wakeupSession = []
  | _ => True

theorem Orderly.sequenced {a : Action} (orderly : Orderly s a) : Sequenced s a := by
  cases a with
  | op op => exact orderly.1
  | message _ | wakeup _ | errors | fork _ => trivial

variable {r : Requests}

theorem Requests.ret_answers {delivered : Bool} (open' : r.Answerable co) :
    (r.ret co true delivered).2 = true := by
  obtain ⟨unanswered, address, session, from', id, -⟩ := open'
  simp only [Requests.ret, unanswered, from', id]
  by_cases gone : r.deadService address <;> simp [gone]

theorem Requests.response_answers (open' : r.Answerable co) :
    (r.response co).2 = true := by
  obtain ⟨unanswered, address, session, from', id, watched⟩ := open'
  obtain ⟨ref, counted⟩ := ne_none_iff_exists'.mp watched
  simp [Requests.response, unanswered, from', id, counted]

theorem drained_of_running (control : s.control = .running co pending) : Drained s := by
  unfold Drained
  rw [control]
  trivial

theorem answered_tidy {result : Requests × Bool} (h : Tidy s) (runs : s.place co = .running)
    (control : s.control = .running co pending)
    (drained : result.2 = false → s.errorQueue = [] ∧ s.wakeupSession = []) :
    Tidy (answered s co result) ∧ Drained (answered s co result) := by
  unfold answered
  split
  · refine ⟨{ h with }, ?_⟩
    exact drained_of_running control
  · rename_i failed
    have parked : Tidy (s.setPlace co .parked) := h.move (by rw [runs]; rfl) (by rw [runs]; rfl)
    exact ⟨{ parked with }, drained (Bool.eq_false_iff.mpr failed)⟩

theorem coCreate_tidy {new : Coroutine} {p : Place} (h : Tidy s) (filed : Filed s none)
    (free : p.calls = none) (made : coCreate s new p = some s') : Tidy s' := by
  obtain ⟨pooled, rfl⟩ := coCreate_pooled (filed.unspoiled new) made
  exact h.move (by rw [pooled, free]; rfl) (by rw [pooled]; rfl)

theorem perform_tidy {op : Op} (h : Tidy s) (filed : Filed s none)
    (control : s.control = .running co pending) (runs : s.place co = .running)
    (orderly : Orderly s (.op op)) (taken : perform s co pending op = some s') :
    Tidy s' ∧ Drained s' := by
  have stop : ∀ p : Place, p.calls = none → Tidy (s.setPlace co p) := by
    intro p free
    exact h.move (by rw [runs, free]; rfl) (by rw [runs]; rfl)
  have empty := orderly.2 co pending control
  cases op with
  | wakeup target =>
    cases taken
    unfold wakeup
    split
    · rename_i sleeping
      refine ⟨{ h with woken := ?_ }, drained_of_running control⟩
      intro c member
      rcases mem_append.mp member with old | new
      · exact h.woken c old
      · cases mem_singleton.mp new
        exact fun awake => sleeping.1 ((filed.asleep target).trans awake)
    · exact ⟨h, drained_of_running control⟩
  | fork border new =>
    simp only [perform, fork, ite_none_right_eq_some] at taken
    obtain ⟨middle, made, rfl⟩ := map_eq_some_iff.mp taken.2
    have tidy := coCreate_tidy h filed rfl made
    have same := (coCreate_place made runs).2
    exact ⟨{ tidy with }, drained_of_running (same.trans control)⟩
  | timeout new =>
    have counted := orderly.1 rfl
    have next : Tidy { s with sessionId := newsession s } :=
      { h with bound := h.bound_next counted }
    have later : Filed { s with sessionId := newsession s } none :=
      { filed with bound := filed.bound_next counted }
    simp only [perform, timeout, filed.fresh counted, if_true] at taken
    obtain ⟨middle, made, rfl⟩ := map_eq_some_iff.mp taken
    have tidy := coCreate_tidy next later rfl made
    have same := (coCreate_place (c := co) made runs).2
    exact ⟨{ tidy with }, drained_of_running (same.trans control)⟩
  | genid =>
    cases taken
    exact ⟨{ h with bound := h.bound_next (orderly.1 rfl) }, drained_of_running control⟩
  | call target =>
    cases taken
    exact ⟨h.ask (orderly.1 rfl) runs target pending, trivial⟩
  | sleep =>
    cases taken
    exact ⟨{ stop (.sleep (newsession s)) rfl with bound := h.bound_next (orderly.1 rfl) }, trivial⟩
  | wait =>
    cases taken
    exact ⟨{ stop (.wait (newsession s)) rfl with bound := h.bound_next (orderly.1 rfl) }, trivial⟩
  | ret param delivered =>
    cases taken
    refine answered_tidy h runs control fun failed => empty ?_
    rintro ⟨rfl, open'⟩
    rw [Requests.ret_answers open'] at failed
    cases failed
  | response =>
    cases taken
    refine answered_tidy h runs control fun failed => empty ?_
    intro open'
    rw [Requests.response_answers open'] at failed
    cases failed
  | respond index answer =>
    obtain ⟨response, -, rfl⟩ := map_eq_some_iff.mp taken
    exact ⟨{ h with }, drained_of_running control⟩
  | exit =>
    cases taken
    exact ⟨{ stop .pooled rfl with }, trivial⟩
  | quit =>
    cases taken
    obtain ⟨errors, wakeups⟩ := empty trivial
    exact ⟨returned_tidy { stop .parked rfl with }, returned_drained errors wakeups⟩
  | invalid =>
    cases taken
    exact ⟨{ stop .parked rfl with }, empty trivial⟩
  | debug =>
    cases taken
    obtain ⟨errors, wakeups⟩ := empty trivial
    exact ⟨returned_tidy (stop .parked rfl), returned_drained errors wakeups⟩
  | fail =>
    cases taken
    exact ⟨{ stop .dead rfl with }, empty trivial⟩

end Drained

end Skynet.Lualib
