import Skynet.Lualib.Filed

/-! What holds of the coroutines of a service in every run, also when its sessions have started
over: only a coroutine that waits, or one that is created and not started, is ever resumed. -/
namespace Skynet.Lualib
open Base List Function Option

structure Standing (s : Service) : Prop where
  entries : ∀ session co, s.sessionIdCoroutine session = some (.co co) →
    (s.place co).session = some session
  asleep : ∀ co session, s.sleepSession co = some session → (s.place co).sleeps = some session
  forked : ∀ entry ∈ s.forkQueue, s.place entry.2 = .created
  single : (s.forkQueue.map Prod.snd).Nodup
  keys : (s.forkQueue.map Prod.fst).Nodup
  unspoiled : ∀ co, s.place co ≠ .spoiled

section Moves
variable {s s' : Service} {co new : Coroutine} {pending : Nat} {session : Session} {p : Place}
  {reason : Reason} {key : Session} {c : Coroutine}

section
variable (h : Standing s)
include h

theorem Standing.move (sound : p ≠ .spoiled) (place : s'.place = update s.place co p)
    (entries : ∀ key c, s'.sessionIdCoroutine key = some (.co c) →
      (c ≠ co ∧ s.sessionIdCoroutine key = some (.co c)) ∨ (c = co ∧ p.session = some key))
    (asleep : ∀ c key, s'.sleepSession c = some key →
      (c ≠ co ∧ s.sleepSession c = some key) ∨ (c = co ∧ p.sleeps = some key))
    (queue : s'.forkQueue = s.forkQueue) (started : ∀ entry ∈ s.forkQueue, entry.2 ≠ co) :
    Standing s' := by
  refine ⟨?_, ?_, ?_, queue ▸ h.single, queue ▸ h.keys, ?_⟩
  · intro key c filed
    rw [place]
    rcases entries key c filed with ⟨other, old⟩ | ⟨rfl, waits⟩
    · rw [update_of_ne other]
      exact h.entries key c old
    · rw [update_self]
      exact waits
  · intro c key sleeping
    rw [place]
    rcases asleep c key sleeping with ⟨other, old⟩ | ⟨rfl, sleeps⟩
    · rw [update_of_ne other]
      exact h.asleep c key old
    · rw [update_self]
      exact sleeps
  · intro entry member
    rw [queue] at member
    rw [place, update_of_ne (started entry member)]
    exact h.forked entry member
  · intro c spoiled
    rw [place] at spoiled
    rcases update_iff.mp spoiled with ⟨-, same⟩ | ⟨-, old⟩
    · exact sound same
    · exact h.unspoiled c old

/-- Nothing is filed under the session of a coroutine that does not wait. -/
theorem Standing.unfiled (free : (s.place co).session = none) (key : Session) :
    s.sessionIdCoroutine key ≠ some (.co co) := by
  intro filed
  exact nomatch free.symm.trans (h.entries key co filed)

theorem Standing.awake (free : (s.place co).sleeps = none) : s.sleepSession co = none := by
  cases sleeping : s.sleepSession co with
  | none => rfl
  | some key => exact nomatch free.symm.trans (h.asleep co key sleeping)

theorem Standing.unqueued (other : s.place co ≠ .created) :
    ∀ entry ∈ s.forkQueue, entry.2 ≠ co := by
  rintro entry member rfl
  exact other (h.forked entry member)

theorem Standing.erase (entry : Option Entry) (other : ∀ c, entry ≠ some (.co c)) :
    Standing (s.setEntry session entry) := by
  refine { h with entries := ?_ }
  intro key c filed
  exact h.entries key c ((update_ne_iff (other c)).mp filed).2

theorem Standing.stop (free : (s.place co).session = none)
    (started : s.place co ≠ .created) (sound : p ≠ .spoiled) : Standing (s.setPlace co p) := by
  refine h.move sound rfl ?_ ?_ rfl (h.unqueued started)
  · intro key c filed
    refine .inl ⟨?_, filed⟩
    rintro rfl
    exact h.unfiled free key filed
  · intro c key sleeping
    refine .inl ⟨?_, sleeping⟩
    rintro rfl
    exact nomatch (h.awake (Place.sleeps_eq_none free)).symm.trans sleeping

theorem Standing.returned (pending : Nat) : Standing (returned s pending) := by
  cases pending with
  | zero | succ _ => exact { h with }

end

/-- A coroutine that was to go on, or to start. -/
def Place.Ready (p : Place) : Prop := p.session ≠ none ∨ p = .created

theorem resume_ready (s : Service) (ready : (s.place co).Ready) (pending : Nat) (reason : Reason) :
    (resume s co pending reason).place = update s.place co .running ∧
    (resume s co pending reason).control = .running co pending ∧
    (resume s co pending reason).requests = s.requests ∧
    (resume s co pending reason).forkQueue = s.forkQueue := by
  unfold resume
  cases stands : s.place co with
  | call _ | sleep _ | wait _ | created | timeout _ => exact ⟨rfl, rfl, rfl, rfl⟩
  | parked | pooled | spoiled | running | dead =>
    rw [stands] at ready
    rcases ready with waits | created
    · exact absurd rfl waits
    · cases created

theorem resume_entry (filed : (resume s co pending reason).sessionIdCoroutine key = some (.co c)) :
    s.sessionIdCoroutine key = some (.co c) := by
  unfold resume at filed
  cases stands : s.place co with
  | wait waits =>
    rw [stands] at filed
    exact ((update_ne_iff (by nofun)).mp filed).2
  | pooled =>
    rw [stands] at filed
    cases pending with
    | zero | succ _ => exact filed
  | call _ | sleep _ | created | timeout _ | parked | spoiled | running | dead =>
    rw [stands] at filed
    exact filed

theorem resume_asleep (h : Standing s) (ready : (s.place co).Ready)
    (sleeping : (resume s co pending reason).sleepSession c = some key) :
    c ≠ co ∧ s.sleepSession c = some key := by
  have awake : ∀ p : Place, s.place co = p → p.sleeps = none → s.sleepSession c = some key →
      c ≠ co ∧ s.sleepSession c = some key := by
    rintro p stands free old
    refine ⟨?_, old⟩
    rintro rfl
    rw [← stands] at free
    exact nomatch (h.awake free).symm.trans old
  unfold resume at sleeping
  cases stands : s.place co with
  | call _ | created | timeout _ =>
    rw [stands] at sleeping
    exact awake _ stands rfl sleeping
  | sleep _ | wait _ =>
    rw [stands] at sleeping
    exact (update_ne_iff (by nofun)).mp sleeping
  | parked | pooled | spoiled | running | dead =>
    rw [stands] at ready
    rcases ready with waits | created
    · exact absurd rfl waits
    · cases created

theorem Standing.resume (h : Standing s) (ready : (s.place co).Ready)
    (unfiled : ∀ key, s.sessionIdCoroutine key ≠ some (.co co))
    (unqueued : ∀ entry ∈ s.forkQueue, entry.2 ≠ co) (pending : Nat) (reason : Reason) :
    Standing (resume s co pending reason) := by
  obtain ⟨place, -, -, queue⟩ := resume_ready s ready pending reason
  refine h.move (p := .running) nofun place ?_ ?_ queue unqueued
  · intro key c filed
    have old := resume_entry filed
    refine .inl ⟨?_, old⟩
    rintro rfl
    exact unfiled key old
  · intro c key sleeping
    exact .inl (resume_asleep h ready sleeping)

theorem Standing.wake (h : Standing s) (entry : Option Entry) (other : ∀ c, entry ≠ some (.co c))
    (waits : (s.place co).session = some session) (pending : Nat) (reason : Reason) :
    Standing (Lualib.resume (s.setEntry session entry) co pending reason) := by
  refine (h.erase entry other).resume (.inl ?_) ?_ ?_ pending reason
  · exact fun free => nomatch waits.symm.trans free
  · intro key filed
    have same := (h.erase entry other).entries key co filed
    cases waits.symm.trans same
    rw [setEntry_here] at filed
    exact other co filed
  · refine h.unqueued ?_
    intro created
    rw [created] at waits
    cases waits

end Moves

section Operations
variable {s s' : Service} {co new : Coroutine} {pending : Nat} {session : Session}

theorem Standing.create (h : Standing s) (pooled : s.place new = .pooled) :
    Standing (s.setPlace new .created) :=
  h.stop (by rw [pooled]; rfl) (by rw [pooled]; nofun) nofun

variable {border : Nat} {p : Place}

section
variable (h : Standing s)
include h

theorem fork_made (made : fork s border new = some s') :
    IsBorder s.forkQueue border ∧ s.place new = .pooled ∧
      s' = { s.setPlace new .created with forkQueue := s.forkQueue ++ [(border + 1, new)] } := by
  simp only [fork, ite_none_right_eq_some] at made
  obtain ⟨middle, created, rfl⟩ := map_eq_some_iff.mp made.2
  obtain ⟨pooled, rfl⟩ := coCreate_pooled (h.unspoiled new) created
  exact ⟨made.1, pooled, rfl⟩

theorem Standing.fork (made : fork s border new = some s') : Standing s' := by
  obtain ⟨free, pooled, rfl⟩ := fork_made h made
  have created := h.create pooled
  have unqueued : ∀ entry ∈ s.forkQueue, entry.2 ≠ new := h.unqueued (by rw [pooled]; nofun)
  refine { created with forked := ?_, single := ?_, keys := ?_ }
  · intro entry member
    rcases mem_append.mp member with old | added
    · exact created.forked entry old
    · cases mem_singleton.mp added
      exact setPlace_here ..
  · rw [map_append]
    refine h.single.append (nodup_singleton new) ?_
    intro other member same
    cases mem_singleton.mp same
    obtain ⟨entry, inside, equal⟩ := mem_map.mp member
    exact unqueued entry inside equal
  · rw [map_append]
    refine h.keys.append (nodup_singleton (border + 1)) ?_
    intro key member same
    cases mem_singleton.mp same
    exact free.2 member

theorem Standing.file (free : (s.place co).session = none)
    (started : s.place co ≠ .created) (waits : p.session = some session)
    (place : s'.place = update s.place co p)
    (filed : s'.sessionIdCoroutine = update s.sessionIdCoroutine session (some (.co co)))
    (asleep : ∀ c key, s'.sleepSession c = some key →
      s.sleepSession c = some key ∨ (c = co ∧ p.sleeps = some key))
    (queue : s'.forkQueue = s.forkQueue) : Standing s' := by
  have sound : p ≠ .spoiled := by
    rintro rfl
    cases waits
  refine h.move sound place ?_ ?_ queue (h.unqueued started)
  · intro key c entry
    rw [filed] at entry
    rcases update_iff.mp entry with ⟨rfl, ⟨⟩⟩ | ⟨-, old⟩
    · exact .inr ⟨rfl, waits⟩
    · refine .inl ⟨?_, old⟩
      rintro rfl
      exact h.unfiled free key old
  · intro c key sleeping
    rcases asleep c key sleeping with old | new
    · refine .inl ⟨?_, old⟩
      rintro rfl
      exact nomatch (h.awake (Place.sleeps_eq_none free)).symm.trans old
    · exact .inr new

theorem timeout_made (made : timeout s new = some s') :
    s.place new = .pooled ∧ s'.forkQueue = s.forkQueue ∧ s'.requests = s.requests ∧
      s'.control = s.control ∧ Standing s' ∧
      (s'.place = update s.place new (.timeout (newsession s)) ∨
        s'.place = update s.place new .created) := by
  have next : Standing { s with sessionId := newsession s } := { h with }
  simp only [timeout] at made
  split at made
  · obtain ⟨middle, created, rfl⟩ := map_eq_some_iff.mp made
    obtain ⟨pooled, rfl⟩ := coCreate_pooled (next.unspoiled new) created
    refine ⟨pooled, rfl, rfl, rfl, ?_, .inl rfl⟩
    have free : (s.place new).session = none := by rw [show s.place new = .pooled from pooled]; rfl
    have started : s.place new ≠ .created := by rw [show s.place new = .pooled from pooled]; decide
    exact next.file free started rfl rfl rfl (fun _ _ => .inl) rfl
  · obtain ⟨pooled, rfl⟩ := coCreate_pooled (next.unspoiled new) made
    exact ⟨pooled, rfl, rfl, rfl, next.create pooled, .inr rfl⟩

section
variable (runs : s.place co = .running)
include runs

theorem Standing.call (target : Target) : Standing (call s co pending target) :=
  h.file (by rw [runs]; rfl) (by rw [runs]; nofun) rfl rfl rfl (fun _ _ => .inl) rfl

theorem Standing.sleep {place : Session → Place}
    (kind : place = .sleep ∨ place = .wait) : Standing (sleep s co pending place) := by
  have waits : ∀ session, (place session).session = some session ∧
      (place session).sleeps = some session := by
    rcases kind with rfl | rfl
    all_goals exact fun _ => ⟨rfl, rfl⟩
  refine h.file (by rw [runs]; rfl) (by rw [runs]; nofun) (waits (newsession s)).1 rfl rfl ?_ rfl
  intro c key sleeping
  rcases update_iff.mp sleeping with ⟨here, same⟩ | ⟨-, old⟩
  · exact .inr ⟨here, (waits _).2.trans same⟩
  · exact .inl old

theorem Standing.quits (sound : p ≠ .spoiled) : Standing (s.setPlace co p) :=
  h.stop (by rw [runs]; rfl) (by rw [runs]; nofun) sound

theorem Standing.answered (result : Requests × Bool) : Standing (answered s co result) := by
  unfold Lualib.answered
  split
  · exact { h with }
  · exact { h.quits runs (p := .parked) nofun with }

theorem Standing.perform {op : Op} (taken : perform s co pending op = some s') : Standing s' := by
  cases op with
  | wakeup target =>
    cases taken
    unfold Lualib.wakeup
    split
    · exact { h with }
    · exact h
  | fork border new => exact h.fork taken
  | timeout new =>
    obtain ⟨-, -, -, -, standing, -⟩ := timeout_made h taken
    exact standing
  | genid =>
    cases taken
    exact { h with }
  | call target =>
    cases taken
    exact h.call runs target
  | sleep =>
    cases taken
    exact h.sleep runs (.inl rfl)
  | wait =>
    cases taken
    exact h.sleep runs (.inr rfl)
  | ret _ _ | response =>
    cases taken
    exact h.answered runs _
  | respond index answer =>
    obtain ⟨response, -, rfl⟩ := map_eq_some_iff.mp taken
    exact { h with }
  | exit =>
    cases taken
    exact { h.quits runs (p := .pooled) nofun with }
  | quit =>
    cases taken
    have parked := h.quits runs (p := .parked) nofun
    apply Standing.returned
    exact { parked with forked := nofun, single := nodup_nil, keys := nodup_nil }
  | invalid =>
    cases taken
    exact { h.quits runs (p := .parked) nofun with }
  | debug =>
    cases taken
    exact (h.quits runs (p := .parked) nofun).returned pending
  | fail =>
    cases taken
    exact { h.quits runs (p := .dead) nofun with }

end

end

end Operations

section Steps
variable {s s' : Service} {co new : Coroutine} {pending : Nat} {session : Session}

/-- No coroutine is resumed, or one that has waited is. -/
inductive Turn (s s' : Service) : Prop where
  | rest (place : s'.place = s.place) (requests : s'.requests = s.requests)
      (queue : s'.forkQueue = s.forkQueue)
      (control : s'.control = .forks ∨ ∃ pending, s'.control = .errors pending)
  | resumed (co : Coroutine) (waited : (s.place co).session ≠ none)
      (place : s'.place = Function.update s.place co .running)
      (requests : s'.requests = s.requests) (queue : s'.forkQueue = s.forkQueue)
      (control : ∃ pending, s'.control = .running co pending)

theorem returned_turn (s : Service) (pending : Nat) : Turn s (returned s pending) := by
  cases pending with
  | zero => exact .rest rfl rfl rfl (.inl rfl)
  | succ pending => exact .rest rfl rfl rfl (.inr ⟨pending, rfl⟩)

/-- The tables are worked on before a coroutine is resumed. -/
theorem resume_turn (before : Service) (place : s.place = before.place)
    (requests : s.requests = before.requests) (queue : s.forkQueue = before.forkQueue)
    (waited : (before.place co).session ≠ none) (pending : Nat) (reason : Reason) :
    Turn before (resume s co pending reason) := by
  obtain ⟨moved, control, same, forks⟩ :=
    resume_ready s (.inl (place ▸ waited) : (s.place co).Ready) pending reason
  exact .resumed co waited (place ▸ moved) (same.trans requests) (forks.trans queue) ⟨_, control⟩

theorem dispatchWakeup_turn (h : Standing s) {choice : Option Coroutine}
    (taken : dispatchWakeup s pending choice = some s') : Standing s' ∧ Turn s s' := by
  rcases dispatchWakeup_cases taken with ⟨-, rfl⟩ | ⟨co, -, ⟨-, rfl⟩ | ⟨session, sleeping, rfl⟩⟩
  · exact ⟨{ h with }, .rest rfl rfl rfl (.inr ⟨pending, rfl⟩)⟩
  · exact ⟨{ h with }, .rest rfl rfl rfl (.inr ⟨pending, rfl⟩)⟩
  · have waits := Place.session_of_sleeps (h.asleep co session sleeping)
    have fewer : Standing { s with wakeupSession := s.wakeupSession.filter (· ≠ co) } := { h with }
    refine ⟨fewer.wake (some .broken) nofun waits _ _, ?_⟩
    exact resume_turn s (by rfl) (by rfl) (by rfl) (fun free => nomatch waits.symm.trans free) _ _

theorem dispatchErrorQueue_turn (h : Standing s) :
    Standing (dispatchErrorQueue s pending) ∧ Turn s (dispatchErrorQueue s pending) := by
  unfold dispatchErrorQueue
  split
  · exact ⟨h.returned pending, returned_turn s pending⟩
  · rename_i session rest queue
    have shorter : Standing { s with errorQueue := rest } := { h with }
    have erased : Standing (Service.setEntry { s with errorQueue := rest } session none) :=
      shorter.erase none nofun
    split
    · rename_i co filed
      have waits := h.entries session co filed
      refine ⟨shorter.wake none nofun waits _ _, ?_⟩
      exact resume_turn s (by rfl) (by rfl) (by rfl) (fun free => nomatch waits.symm.trans free) _ _
    all_goals exact ⟨{ erased with }, .rest rfl rfl rfl (.inl rfl)⟩

theorem rawResponse_turn (h : Standing s) :
    Standing (rawResponse s session) ∧ Turn s (rawResponse s session) := by
  have erased : Standing (s.setEntry session none) := h.erase none nofun
  unfold rawResponse
  split
  · exact ⟨{ erased with }, .rest rfl rfl rfl (.inl rfl)⟩
  · exact ⟨{ h with }, .rest rfl rfl rfl (.inl rfl)⟩
  · rename_i co filed
    have waits := h.entries session co filed
    generalize (if session ∈ s.watchingSession.map Prod.fst then [session] else []) = watched
    have noted : Standing { s with answered := s.answered ++ watched } := { h with }
    refine ⟨noted.wake none nofun waits 0 (.response session), ?_⟩
    exact resume_turn s (by rfl) (by rfl) (by rfl) (fun free => nomatch waits.symm.trans free) _ _

variable {source : Address}

theorem rawRequest_made (h : Standing s) {unpacked : Bool}
    (taken : rawRequest s session source new unpacked = some s') :
    s.place new = .pooled ∧ Standing s' ∧ s'.forkQueue = s.forkQueue ∧
      s'.requests = s.requests.dispatch new session source ∧
      ((unpacked = true ∧ s'.place = update s.place new .running ∧
        s'.control = .running new 0) ∨
      (unpacked = false ∧ s'.place = update s.place new .created ∧
        s'.control = .forks)) := by
  obtain ⟨middle, made, rfl⟩ := map_eq_some_iff.mp taken
  obtain ⟨pooled, rfl⟩ := coCreate_pooled (h.unspoiled new) made
  have created := h.create pooled
  have stands : (s.setPlace new .created).place new = .created := setPlace_here ..
  refine ⟨pooled, ?_⟩
  cases unpacked with
  | false => exact ⟨{ created with }, rfl, rfl, .inr ⟨rfl, rfl, rfl⟩⟩
  | true =>
    rw [if_pos rfl]
    have ready : ((s.setPlace new .created).place new).Ready := .inr stands
    obtain ⟨place, control, requests, queue⟩ := resume_ready
      { s.setPlace new .created with requests := s.requests.dispatch new session source }
      ready 0 .start
    refine ⟨?_, queue, requests, .inl ⟨rfl, ?_, control⟩⟩
    · apply Standing.resume
      · exact { created with }
      · exact .inr stands
      · exact created.unfiled (by rw [stands]; rfl)
      · exact h.unqueued (by rw [pooled]; nofun)
    · exact place.trans (update_idem ..)

theorem rawError_made (h : Standing s) {order : List Session}
    (taken : rawError s session source new order = some s') :
    s.place new = .pooled ∧ Standing s' ∧ s'.forkQueue = s.forkQueue ∧ s'.place = s.place ∧
      s'.control = .wakeup 0 ∧ ∃ dead, s'.requests =
        Requests.exit { s.requests.dispatch new session source with deadService := dead } new := by
  obtain ⟨middle, started, taken⟩ := bind_eq_some_iff.mp taken
  obtain ⟨pooled, standing, queue, requests, ⟨-, place, control⟩ | ⟨packed, -, -⟩⟩ :=
    rawRequest_made h started
  · rw [if_pos control] at taken
    obtain ⟨noticed, dispatched, rfl⟩ := map_eq_some_iff.mp taken
    obtain ⟨dead, _, _, rfl⟩ := errorDispatch_eq dispatched
    have left := standing.quits (by rw [place]; exact update_self ..) (p := .pooled) nofun
    refine ⟨pooled, { left with }, queue, ?_, rfl, dead, ?_⟩
    · show update middle.place new .pooled = s.place
      rw [place, update_idem, ← pooled]
      exact update_eq_self ..
    · exact congrArg (fun r => Requests.exit { r with deadService := dead } new) requests
  · cases packed

theorem nextFork_made (h : Standing s) {choice : Option Nat} (taken : nextFork s choice = some s') :
    Standing s' ∧ s'.requests = s.requests ∧
      ((s.forkQueue = [] ∧ s' = { s with control := .idle }) ∨
      ∃ key co, (key, co) ∈ s.forkQueue ∧ s.place co = .created ∧
        s'.forkQueue = s.forkQueue.filter (·.1 ≠ key) ∧
        s'.place = update s.place co .running ∧ s'.control = .running co 0) := by
  rcases nextFork_cases taken with ⟨empty, rfl⟩ | ⟨key, co, member, rfl⟩
  · exact ⟨{ h with }, rfl, .inl ⟨empty, rfl⟩⟩
  · have created : s.place co = .created := h.forked _ member
    have fewer := filter_sublist (p := fun entry => decide (entry.1 ≠ key)) (l := s.forkQueue)
    have shorter : Standing { s with forkQueue := s.forkQueue.filter (·.1 ≠ key) } := { h with
        forked := fun entry left => h.forked entry (fewer.subset left)
        single := h.single.sublist (fewer.map _)
        keys := h.keys.sublist (fewer.map _) }
    have ready : (s.place co).Ready := .inr created
    obtain ⟨place, control, requests, queue⟩ := resume_ready
      { s with forkQueue := s.forkQueue.filter (·.1 ≠ key) } ready 0 .start
    refine ⟨shorter.resume ready ?_ ?_ _ _, requests, .inr ?_⟩
    · exact h.unfiled (by rw [created]; rfl)
    · intro entry left same
      obtain ⟨inside, different⟩ := mem_filter.mp left
      have equal := inj_on_of_nodup_map h.single inside member same
      rw [equal] at different
      exact of_decide_eq_true different rfl
    · exact ⟨key, co, member, created, queue, place, control⟩

theorem step_standing {a : Action} (h : Standing s) (current : Current s)
    (taken : step s a = some s') : Standing s' := by
  cases a with
  | message message =>
    obtain ⟨-, taken⟩ := step_message taken
    have fresh : Standing { s with succ := true } := { h with }
    cases message with
    | response session =>
      cases taken
      exact (rawResponse_turn fresh).1
    | error session source new order => exact (rawError_made fresh taken).2.1
    | request session source new unpacked => exact (rawRequest_made fresh taken).2.1
    | unknown session source =>
      obtain ⟨_, _, rfl, -⟩ := unknown_eq taken
      exact { h with }
    | undispatched =>
      cases taken
      exact { h with }
  | op op =>
    obtain ⟨co, pending, control, taken⟩ := step_op taken
    exact h.perform (current co pending control) taken
  | wakeup choice =>
    obtain ⟨pending, -, taken⟩ := step_wakeup taken
    exact (dispatchWakeup_turn h taken).1
  | errors =>
    obtain ⟨pending, -, rfl⟩ := step_errors taken
    exact (dispatchErrorQueue_turn h).1
  | fork choice => exact (nextFork_made h (step_fork taken).2).1

theorem start_standing : Standing Service.start where
  entries := fun _ _ filed => start_filed.taken filed
  asleep := fun co _ sleeping => (start_filed.asleep co).symm.trans sleeping
  forked := nofun
  single := List.nodup_nil
  keys := List.nodup_nil
  unspoiled := start_filed.unspoiled

end Steps

end Skynet.Lualib
