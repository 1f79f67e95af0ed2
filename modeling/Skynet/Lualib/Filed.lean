import Skynet.Base.Run
import Skynet.Lualib.Tables

/-! The tables of a service agree with where its coroutines stand, as long as its sessions have
not started over. -/
namespace Skynet.Lualib
open Base List Function Option

/-- The tables agree with the places of the coroutines, but for the entry of one that is about to
be resumed. -/
structure Filed (s : Service) (loose : Option Coroutine) : Prop where
  entries : Entries s.sessionIdCoroutine s.place loose
  bound : ∀ session, s.sessionIdCoroutine session ≠ none → session ≤ s.sessionId
  asleep : ∀ co, s.sleepSession co = (s.place co).sleeps
  watched : Watched s.watchingSession s.place
  forked : ∀ entry ∈ s.forkQueue, some entry.2 ≠ loose ∧ s.place entry.2 = .created
  single : (s.forkQueue.map Prod.snd).Nodup
  unspoiled : ∀ co, s.place co ≠ .spoiled

section Moves
variable {s : Service} {co : Coroutine} {session : Session}

theorem bound_update {table : Session → Option Entry} {entry : Option Entry} {last : Session}
    (bound : ∀ key, table key ≠ none → key ≤ last) (here : entry = none ∨ session ≤ last) :
    ∀ key, update table session entry key ≠ none → key ≤ last := by
  intro key filed
  rw [update_apply] at filed
  split at filed
  · rename_i same
    exact same ▸ here.resolve_left filed
  · exact bound key filed

section
variable (h : Filed s none)
include h

theorem Filed.loosen (entry : Option Entry)
    (waits : (s.place co).session = some session) (other : ∀ c, entry ≠ some (.co c)) :
    Filed (s.setEntry session entry) (some co) := by
  have known : s.sessionIdCoroutine session = some (.co co) :=
    (h.entries.filed session co).mpr ⟨nofun, waits⟩
  refine ⟨h.entries.loosen waits other, ?_, h.asleep, h.watched, ?_, h.single, h.unspoiled⟩
  · exact bound_update h.bound (.inr (h.bound session (by rw [known]; nofun)))
  · intro entry member
    have created := (h.forked entry member).2
    refine ⟨?_, created⟩
    intro same
    rw [← some.inj same, created] at waits
    cases waits

theorem Filed.clear (session : Session) (other : ∀ c, s.sessionIdCoroutine session ≠ some (.co c)) :
    Filed (s.setEntry session none) none := by
  refine { h with entries := ⟨fun key c => ?_, h.entries.unique⟩, bound := ?_ }
  · refine Iff.trans ?_ (h.entries.filed key c)
    by_cases here : key = session
    · subst here
      simp [other c]
    · rw [setEntry_other s none here]
  · exact bound_update h.bound (.inl rfl)

theorem Filed.unkeyed (free : (s.place co).session = none)
    (started : s.place co ≠ .created) : Filed s (some co) := by
  refine { h with entries := h.entries.unkeyed free, forked := ?_ }
  intro entry member
  have created := (h.forked entry member).2
  refine ⟨?_, created⟩
  intro same
  exact started (some.inj same ▸ created)

theorem Filed.active (runs : s.place co = .running) : Filed s (some co) :=
  h.unkeyed (by rw [runs]; rfl) (by rw [runs]; nofun)

theorem Filed.unqueue {key : Nat} (member : (key, co) ∈ s.forkQueue) :
    Filed { s with forkQueue := s.forkQueue.filter (·.1 ≠ key) } (some co) := by
  have created := (h.forked (key, co) member).2
  have free : (s.place co).session = none := by rw [show s.place co = .created from created]; rfl
  have fewer := filter_sublist (p := fun entry => decide (entry.1 ≠ key)) (l := s.forkQueue)
  refine { h with
    entries := h.entries.unkeyed free, forked := ?_, single := h.single.sublist (fewer.map _) }
  intro entry left
  obtain ⟨inside, different⟩ := mem_filter.mp left
  refine ⟨?_, (h.forked entry inside).2⟩
  intro same
  have equal := inj_on_of_nodup_map h.single inside member (some.inj same)
  rw [equal] at different
  exact of_decide_eq_true different rfl

end

theorem Filed.forks (h : Filed s (some co)) (p : Place) :
    ∀ entry ∈ s.forkQueue, some entry.2 ≠ none ∧ update s.place co p entry.2 = .created :=
      by
  intro entry member
  obtain ⟨different, created⟩ := h.forked entry member
  have elsewhere : entry.2 ≠ co := fun same => different (congrArg some same)
  exact ⟨nofun, by rwa [update_of_ne elsewhere]⟩

variable {loose : Option Coroutine} {p : Place}

theorem Filed.whole (h : Filed s loose) (sound : p ≠ .spoiled) :
    ∀ c, update s.place co p c ≠ .spoiled := by
  intro c spoiled
  rcases update_iff.mp spoiled with ⟨-, same⟩ | ⟨-, old⟩
  · exact sound same
  · exact h.unspoiled c old

theorem Filed.move (h : Filed s (some co)) (free : p.session = none) (sound : p ≠ .spoiled)
    (calls : (s.place co).calls = none) (sleeps : (s.place co).sleeps = none) :
    Filed (s.setPlace co p) none where
  entries := h.entries.move free
  bound := h.bound
  asleep := asleep_still h.asleep (sleeps.trans (Place.sleeps_eq_none free).symm)
  watched := h.watched.still (calls.trans (Place.calls_eq_none free).symm)
  forked := h.forks p
  single := h.single
  unspoiled := h.whole sound

theorem Filed.returned (h : Filed s loose) (pending : Nat) :
    Filed (returned s pending) loose := by
  cases pending with
  | zero | succ _ => exact { h with }

theorem Filed.resume (h : Filed s (some co)) (taken : s.place co ≠ .pooled) (pending : Nat)
    (reason : Reason) : Filed (resume s co pending reason) none := by
  unfold Lualib.resume
  cases stands : s.place co with
  | call session =>
    have called : (s.place co).calls = some session := by rw [stands]; rfl
    have alone : ∀ c, (s.place c).calls = some session → c = co := by
      intro c calls
      exact h.entries.unique c co session (Place.session_of_calls calls)
        (Place.session_of_calls called)
    have still : (s.place co).sleeps = Place.running.sleeps := by rw [stands]; rfl
    exact ⟨h.entries.move rfl, h.bound, asleep_still h.asleep still,
      h.watched.answer called rfl alone, h.forks _, h.single, h.whole nofun⟩
  | sleep session =>
    have still : (s.place co).calls = Place.running.calls := by rw [stands]; rfl
    exact ⟨h.entries.move rfl, h.bound, asleep_update h.asleep co .running,
      h.watched.still still, h.forks _, h.single, h.whole nofun⟩
  | wait session =>
    have waits : (s.place co).session = some session := by rw [stands]; rfl
    have still : (s.place co).calls = Place.running.calls := by rw [stands]; rfl
    exact ⟨(h.entries.clear waits).move rfl, bound_update h.bound (.inl rfl),
      asleep_update h.asleep co .running, h.watched.still still, h.forks _, h.single,
      h.whole nofun⟩
  | created | timeout _ | parked =>
    have moved := h.move (p := .running) rfl nofun (by rw [stands]; rfl) (by rw [stands]; rfl)
    exact { moved with }
  | pooled => exact absurd stands taken
  | spoiled | running | dead =>
    have moved := h.move (p := .dead) rfl nofun (by rw [stands]; rfl) (by rw [stands]; rfl)
    exact { moved with }

end Moves

section Control
variable {s s' : Service} {co new : Coroutine} {pending : Nat} {session : Session}

/-- The coroutine that the main thread is in is the one that runs. -/
def Current (s : Service) : Prop :=
  ∀ co pending, s.control = .running co pending → s.place co = .running

theorem returned_current (s : Service) (pending : Nat) : Current (returned s pending) := by
  cases pending with
  | zero | succ _ => nofun

theorem run_current (s : Service) (co : Coroutine) (pending : Nat) :
    Current (s.run co pending) := by
  intro c below running
  cases running
  exact setPlace_here ..

theorem resume_current (s : Service) (co : Coroutine) (pending : Nat) (reason : Reason) :
    Current (resume s co pending reason) := by
  unfold resume
  cases s.place co with
  | call _ | sleep _ | wait _ | created | timeout _ | parked => exact run_current _ _ _
  | pooled => exact returned_current _ _
  | spoiled | running | dead => nofun

theorem coCreate_place {p : Place} (made : coCreate s new p = some s') {c : Coroutine}
    (runs : s.place c = .running) : s'.place c = .running ∧ s'.control = s.control := by
  have other : s.place new ≠ .running → c ≠ new := by
    rintro idle rfl
    exact idle runs
  rcases coCreate_cases made with ⟨stands, rfl⟩ | ⟨stands, rfl⟩
  all_goals exact ⟨(setPlace_other s new _ (other (by rw [stands]; nofun))).trans runs, rfl⟩

theorem rawRequest_current {source : Address} {unpacked : Bool}
    (taken : rawRequest s session source new unpacked = some s') : Current s' := by
  obtain ⟨middle, -, rfl⟩ := map_eq_some_iff.mp taken
  split
  · exact resume_current _ _ _ _
  · nofun

theorem perform_current {op : Op} (control : s.control = .running co pending)
    (runs : s.place co = .running) (taken : perform s co pending op = some s') : Current s' := by
  have kept : ∀ s' : Service, s'.control = s.control → s'.place co = .running → Current s' := by
    intro s' same place c below running
    cases control.symm.trans (same.symm.trans running)
    exact place
  cases op with
  | wakeup target =>
    cases taken
    unfold wakeup
    split
    · exact kept _ rfl runs
    · exact kept _ rfl runs
  | fork border new =>
    simp only [perform, fork, ite_none_right_eq_some] at taken
    obtain ⟨middle, made, rfl⟩ := map_eq_some_iff.mp taken.2
    obtain ⟨place, same⟩ := coCreate_place made runs
    exact kept _ same place
  | timeout new =>
    simp only [perform, timeout] at taken
    split at taken
    · obtain ⟨middle, made, rfl⟩ := map_eq_some_iff.mp taken
      obtain ⟨place, same⟩ := coCreate_place (c := co) made runs
      exact kept _ same place
    · obtain ⟨place, same⟩ := coCreate_place (c := co) taken runs
      exact kept _ same place
  | genid =>
    cases taken
    exact kept _ rfl runs
  | call _ | sleep | wait | exit | invalid | fail =>
    cases taken
    nofun
  | ret _ _ | response =>
    cases taken
    unfold answered
    split
    · exact kept _ rfl runs
    · nofun
  | respond index answer =>
    obtain ⟨response, -, rfl⟩ := map_eq_some_iff.mp taken
    exact kept _ rfl runs
  | quit | debug =>
    cases taken
    exact returned_current _ _

end Control

section Operations
variable {s s' : Service} {co new : Coroutine} {pending : Nat}

def Op.takesSession : Op → Bool
  | .timeout _ | .genid | .call _ | .sleep | .wait => true
  | _ => false

/-- The next session does not start over. -/
def Counted (s : Service) : Prop := s.sessionId + 1 < 2 ^ 31

theorem newsession_eq (counted : Counted s) : newsession s = s.sessionId + 1 := if_pos counted

variable {loose : Option Coroutine} {p : Place}

theorem Filed.fresh (h : Filed s loose) (counted : Counted s) :
    s.sessionIdCoroutine (newsession s) = none := by
  rw [newsession_eq counted]
  by_contra filed
  exact Nat.not_succ_le_self _ (h.bound _ filed)

theorem Filed.bound_next (h : Filed s loose) (counted : Counted s) :
    ∀ session, s.sessionIdCoroutine session ≠ none → session ≤ newsession s := by
  intro session filed
  rw [newsession_eq counted]
  exact Nat.le_succ_of_le (h.bound session filed)

theorem coCreate_pooled (unspoiled : s.place new ≠ .spoiled) (made : coCreate s new p = some s') :
    s.place new = .pooled ∧ s' = s.setPlace new p :=
  (coCreate_cases made).resolve_right fun spoiled => unspoiled spoiled.1

section
variable (h : Filed s none)
include h

theorem Filed.spare (pooled : s.place new = .pooled) : Filed s (some new) :=
  h.unkeyed (by rw [pooled]; rfl) (by rw [pooled]; nofun)

theorem Filed.created (pooled : s.place new = .pooled) :
    Filed (s.setPlace new .created) (some new) := by
  have loose := h.spare pooled
  have moved := loose.move (p := .created) rfl nofun (by rw [pooled]; rfl) (by rw [pooled]; rfl)
  refine { moved with entries := moved.entries.unkeyed ?_, forked := ?_ }
  · rw [setPlace_here]
    rfl
  · intro entry member
    exact ⟨(loose.forked entry member).1, (moved.forked entry member).2⟩

theorem Filed.fork {border : Nat} (made : fork s border new = some s') :
    Filed s' none := by
  unfold Lualib.fork at made
  split at made
  · obtain ⟨middle, created, rfl⟩ := map_eq_some_iff.mp made
    obtain ⟨pooled, rfl⟩ := coCreate_pooled (h.unspoiled new) created
    have filed := h.created pooled
    have moved := (h.spare pooled).move (p := .created) rfl nofun (by rw [pooled]; rfl)
      (by rw [pooled]; rfl)
    refine { moved with forked := ?_, single := ?_ }
    · intro entry member
      rcases mem_append.mp member with old | added
      · exact moved.forked entry old
      · cases mem_singleton.mp added
        exact ⟨nofun, setPlace_here ..⟩
    · rw [map_append]
      refine h.single.append (nodup_singleton new) ?_
      intro other member same
      cases mem_singleton.mp same
      obtain ⟨entry, inside, rfl⟩ := mem_map.mp member
      exact (filed.forked entry inside).1 rfl
  · cases made

theorem Filed.timeout (counted : Counted s) (made : timeout s new = some s') : Filed s' none := by
  have fresh := h.fresh counted
  have next : Filed { s with sessionId := newsession s } none :=
    { h with bound := h.bound_next counted }
  unfold Lualib.timeout at made
  simp only [fresh, if_true] at made
  obtain ⟨middle, created, rfl⟩ := map_eq_some_iff.mp made
  obtain ⟨pooled, rfl⟩ := coCreate_pooled (next.unspoiled new) created
  have loose := next.spare pooled
  have free : ∀ q : Place, q = .pooled → q.calls = none ∧ q.sleeps = none := by
    rintro q rfl
    exact ⟨rfl, rfl⟩
  obtain ⟨calls, sleeps⟩ := free _ pooled
  exact ⟨loose.entries.file fresh rfl, bound_update next.bound (.inr le_rfl),
    asleep_still loose.asleep sleeps,
    loose.watched.still calls, loose.forks _, loose.single, loose.whole nofun⟩

section
variable (runs : s.place co = .running)
include runs

theorem Filed.call (counted : Counted s) (target : Target) :
    Filed (call s co pending target) none := by
  have loose := h.active runs
  have calls : (s.place co).calls = none := by rw [runs]; rfl
  have sleeps : (s.place co).sleeps = none := by rw [runs]; rfl
  exact ⟨loose.entries.file (h.fresh counted) rfl, 
    bound_update (h.bound_next counted) (.inr le_rfl), asleep_still h.asleep sleeps, h.watched.call
      calls target, loose.forks _, h.single,
    h.whole nofun⟩

theorem Filed.sleep (counted : Counted s) {place : Session → Place}
    (kind : place = .sleep ∨ place = .wait) :
    Filed (sleep s co pending place) none := by
  have loose := h.active runs
  obtain ⟨waits, sleeps, calls, sound⟩ : (place (newsession s)).session = some (newsession s) ∧
      (place (newsession s)).sleeps = some (newsession s) ∧
      (s.place co).calls = (place (newsession s)).calls ∧ place (newsession s) ≠ .spoiled := by
    rw [runs]
    rcases kind with rfl | rfl
    all_goals exact ⟨rfl, rfl, rfl, nofun⟩
  have asleep := asleep_update h.asleep co (place (newsession s))
  rw [sleeps] at asleep
  exact ⟨loose.entries.file (h.fresh counted) waits,
    bound_update (h.bound_next counted) (.inr le_rfl), asleep, h.watched.still calls, loose.forks
      _, h.single, h.whole sound⟩

theorem Filed.stop (free : p.session = none) (sound : p ≠ .spoiled) :
    Filed (s.setPlace co p) none := by
  have loose := h.active runs
  exact loose.move free sound (by rw [runs]; rfl) (by rw [runs]; rfl)

theorem Filed.perform {op : Op}
    (counted : op.takesSession → Counted s) (taken : perform s co pending op = some s') :
    Filed s' none := by
  cases op with
  | wakeup target =>
    cases taken
    unfold Lualib.wakeup
    split
    · exact { h with }
    · exact h
  | fork border new => exact h.fork taken
  | timeout new => exact h.timeout (counted rfl) taken
  | genid =>
    cases taken
    exact { h with bound := h.bound_next (counted rfl) }
  | call target =>
    cases taken
    exact h.call runs (counted rfl) target
  | sleep =>
    cases taken
    exact h.sleep runs (counted rfl) (.inl rfl)
  | wait =>
    cases taken
    exact h.sleep runs (counted rfl) (.inr rfl)
  | ret _ _ | response =>
    cases taken
    unfold answered
    split
    · exact { h with }
    · exact { h.stop runs (p := .parked) rfl nofun with }
  | respond index answer =>
    obtain ⟨response, -, rfl⟩ := map_eq_some_iff.mp taken
    exact { h with }
  | exit =>
    cases taken
    exact { h.stop runs (p := .pooled) rfl nofun with }
  | quit =>
    cases taken
    have parked := h.stop runs (p := .parked) rfl nofun
    apply Filed.returned
    exact { parked with forked := nofun, single := nodup_nil }
  | invalid =>
    cases taken
    exact { h.stop runs (p := .parked) rfl nofun with }
  | debug =>
    cases taken
    exact (h.stop runs (p := .parked) rfl nofun).returned pending
  | fail =>
    cases taken
    exact { h.stop runs (p := .dead) rfl nofun with }

end

end

end Operations

section Steps
variable {s s' : Service} {co new : Coroutine} {pending : Nat} {session : Session}

theorem Filed.taken (h : Filed s none) (filed : s.sessionIdCoroutine session = some (.co co)) :
    (s.place co).session = some session :=
  ((h.entries.filed session co).mp filed).2

theorem not_pooled_of_session {p : Place} (waits : p.session = some session) : p ≠ .pooled := by
  rintro rfl
  cases waits

theorem Filed.dispatchWakeup (h : Filed s none) {choice : Option Coroutine}
    (taken : dispatchWakeup s pending choice = some s') : Filed s' none := by
  rcases dispatchWakeup_cases taken with ⟨-, rfl⟩ | ⟨co, -, ⟨-, rfl⟩ | ⟨session, sleeping, rfl⟩⟩
  · exact { h with }
  · exact { h with }
  · have sleeps : (s.place co).sleeps = some session := (h.asleep co).symm.trans sleeping
    have waits := Place.session_of_sleeps sleeps
    have fewer : Filed { s with wakeupSession := s.wakeupSession.filter (· ≠ co) } none :=
      { h with }
    exact (fewer.loosen (some .broken) waits nofun).resume (not_pooled_of_session waits) _ _

theorem Filed.dispatchErrorQueue (h : Filed s none) :
    Filed (dispatchErrorQueue s pending) none := by
  unfold Lualib.dispatchErrorQueue
  split
  · exact h.returned pending
  · rename_i session rest queue
    have shorter : Filed { s with errorQueue := rest } none := { h with }
    split
    · rename_i co filed
      have waits := h.taken filed
      exact (shorter.loosen none waits nofun).resume (not_pooled_of_session waits) _ _
    all_goals
      rename_i filed
      exact { shorter.clear session fun c same => nomatch filed.symm.trans same with }

theorem Filed.rawResponse (h : Filed s none) : Filed (rawResponse s session) none := by
  unfold Lualib.rawResponse
  split
  · rename_i filed
    have kept := h.clear session fun c same => nomatch filed.symm.trans same
    exact { kept with }
  · exact { h with }
  · rename_i co filed
    have waits := h.taken filed
    have loose := h.loosen none waits nofun
    apply Filed.resume
    · exact { loose with }
    · exact not_pooled_of_session waits

variable {source : Address} {a : Action}

theorem Filed.rawRequest (h : Filed s none) {unpacked : Bool}
    (taken : rawRequest s session source new unpacked = some s') : Filed s' none := by
  obtain ⟨middle, made, rfl⟩ := map_eq_some_iff.mp taken
  obtain ⟨pooled, rfl⟩ := coCreate_pooled (h.unspoiled new) made
  have created := h.created pooled
  split
  · apply Filed.resume
    · exact { created with }
    · exact fun same => nomatch (setPlace_here s new .created).symm.trans same
  · have kept := (h.spare pooled).move (p := .created) rfl nofun (by rw [pooled]; rfl)
      (by rw [pooled]; rfl)
    exact { kept with }

theorem Filed.rawError (h : Filed s none) {order : List Session}
    (taken : rawError s session source new order = some s') : Filed s' none := by
  obtain ⟨middle, started, taken⟩ := bind_eq_some_iff.mp taken
  have filed := h.rawRequest started
  have now := rawRequest_current started
  split at taken
  · rename_i running
    obtain ⟨noticed, dispatched, rfl⟩ := map_eq_some_iff.mp taken
    obtain ⟨_, _, _, rfl⟩ := errorDispatch_eq dispatched
    exact { filed.stop (now new 0 running) (p := .pooled) rfl nofun with }
  · cases taken
    exact filed

theorem Filed.nextFork (h : Filed s none) {choice : Option Nat}
    (taken : nextFork s choice = some s') : Filed s' none := by
  rcases nextFork_cases taken with ⟨-, rfl⟩ | ⟨key, co, member, rfl⟩
  · exact { h with }
  · have created : s.place co = .created := (h.forked _ member).2
    exact (h.unqueue member).resume (fun pooled => nomatch created.symm.trans pooled) _ _

/-- The sessions that a step takes do not start over. -/
def Sequenced (s : Service) : Action → Prop
  | .op op => op.takesSession → Counted s
  | _ => True

theorem step_filed (h : Filed s none) (current : Current s) (counted : Sequenced s a)
    (taken : step s a = some s') : Filed s' none := by
  cases a with
  | message message =>
    obtain ⟨-, taken⟩ := step_message taken
    have fresh : Filed { s with succ := true } none := { h with }
    cases message with
    | response session =>
      cases taken
      exact fresh.rawResponse
    | error session source new order => exact fresh.rawError taken
    | request session source new unpacked => exact fresh.rawRequest taken
    | unknown session source =>
      obtain ⟨_, _, rfl, -⟩ := unknown_eq taken
      exact { h with }
    | undispatched =>
      cases taken
      exact { h with }
  | op op =>
    obtain ⟨co, pending, control, taken⟩ := step_op taken
    exact h.perform (current co pending control) counted taken
  | wakeup choice =>
    obtain ⟨pending, -, taken⟩ := step_wakeup taken
    exact h.dispatchWakeup taken
  | errors =>
    obtain ⟨pending, -, rfl⟩ := step_errors taken
    exact h.dispatchErrorQueue
  | fork choice => exact h.nextFork (step_fork taken).2

theorem rawDispatchMessage_current {message : Message}
    (taken : rawDispatchMessage s message = some s') : Current s' := by
  cases message with
  | response session =>
    cases taken
    unfold rawResponse
    split
    · nofun
    · nofun
    · exact resume_current _ _ _ _
  | error session source new order =>
    obtain ⟨middle, started, taken⟩ := bind_eq_some_iff.mp taken
    split at taken
    · obtain ⟨noticed, -, rfl⟩ := map_eq_some_iff.mp taken
      nofun
    · cases taken
      exact rawRequest_current started
  | request session source new unpacked => exact rawRequest_current taken
  | unknown session source =>
    obtain ⟨_, _, rfl, -⟩ := unknown_eq taken
    nofun
  | undispatched =>
    cases taken
    nofun

theorem step_current (current : Current s) (taken : step s a = some s') :
    Current s' := by
  cases a with
  | message message => exact rawDispatchMessage_current (step_message taken).2
  | op op =>
    obtain ⟨co, pending, control, taken⟩ := step_op taken
    exact perform_current control (current co pending control) taken
  | wakeup choice =>
    obtain ⟨pending, -, taken⟩ := step_wakeup taken
    rcases dispatchWakeup_cases taken with ⟨-, rfl⟩ | ⟨co, -, ⟨-, rfl⟩ | ⟨session, -, rfl⟩⟩
    · nofun
    · nofun
    · exact resume_current _ _ _ _
  | errors =>
    obtain ⟨pending, -, rfl⟩ := step_errors taken
    unfold dispatchErrorQueue
    split
    · exact returned_current _ _
    · split
      · exact resume_current _ _ _ _
      · nofun
      · nofun
  | fork choice =>
    rcases nextFork_cases (step_fork taken).2 with ⟨-, rfl⟩ | ⟨key, co, -, rfl⟩
    · nofun
    · exact resume_current _ _ _ _

theorem start_place (co : Coroutine) :
    Service.start.place co = if co = 0 then .timeout 1 else .pooled := by
  simp only [Service.start, update_apply]

theorem start_entry (session : Session) :
    Service.start.sessionIdCoroutine session = if session = 1 then some (.co 0) else none := by
  simp only [Service.start, update_apply]

theorem start_filed : Filed Service.start none := by
  have waits : ∀ co session, (Service.start.place co).session = some session ↔
      co = 0 ∧ session = 1 := by
    intro co session
    rw [start_place]
    by_cases here : co = 0
    · simp [here, Place.session, eq_comm]
    · simp [here, Place.session]
  refine ⟨⟨?_, ?_⟩, ?_, ?_, ⟨?_, nodup_nil⟩, nofun, nodup_nil, ?_⟩
  · intro session co
    rw [start_entry, waits]
    by_cases here : session = 1
    · simp [here, eq_comm]
    · simp [here]
  · intro co co' session first second
    rw [((waits co session).mp first).1, ((waits co' session).mp second).1]
  · intro session filed
    simp only [start_entry, ite_ne_right_iff] at filed
    exact filed.1.le
  · intro co
    rw [start_place]
    split
    · rfl
    · rfl
  · intro session
    refine iff_of_false nofun ?_
    rintro ⟨co, called⟩
    rw [start_place] at called
    split at called <;> cases called
  · intro co
    rw [start_place]
    split
    · nofun
    · nofun

end Steps

end Skynet.Lualib
