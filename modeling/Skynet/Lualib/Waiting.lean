import Skynet.Lualib.Filed

/-! A coroutine in skynet.wait is left alone until it is resumed. -/
namespace Skynet.Lualib
open List Option

section Still
variable {s s' : Service} {co new c : Coroutine} {pending : Nat} {session : Session}

/-- A coroutine that waits is left alone. -/
structure Still (s s' : Service) (c : Coroutine) : Prop where
  place : s'.place c = s.place c
  asleep : s'.sleepSession c = s.sleepSession c
  woken : c ∈ s.wakeupSession → c ∈ s'.wakeupSession

theorem Still.refl (s : Service) (c : Coroutine) : Still s s c := ⟨rfl, rfl, id⟩

theorem Still.trans {t : Service} (first : Still s s' c) (second : Still s' t c) : Still s t c :=
  ⟨second.place.trans first.place, second.asleep.trans first.asleep, second.woken ∘ first.woken⟩

theorem setPlace_still (s : Service) (p : Place) (other : c ≠ co) : Still s (s.setPlace co p) c :=
  ⟨setPlace_other s co p other, rfl, id⟩

theorem setSleep_still (s : Service) (to' : Option Session) (other : c ≠ co) :
    Still s (s.setSleep co to') c :=
  ⟨rfl, Function.update_of_ne other .., id⟩

theorem returned_still (s : Service) (pending : Nat) (c : Coroutine) :
    Still s (returned s pending) c := by
  cases pending with
  | zero | succ _ => exact { Still.refl s c with }

theorem resume_still (s : Service) (pending : Nat) (reason : Reason) (other : c ≠ co) :
    Still s (resume s co pending reason) c := by
  have moved := fun p => setPlace_still s p other
  have awake := (setSleep_still s none other).trans (setPlace_still _ .running other)
  unfold resume
  cases s.place co with
  | call _ | created | timeout _ | parked => exact { moved .running with }
  | sleep _ | wait _ => exact { awake with }
  | pooled => exact (moved .spoiled).trans (returned_still _ _ _)
  | spoiled | running | dead => exact { moved .dead with }

variable {reason : Reason} {source : Address} {id : Session}

theorem resume_wait (waits : s.place co = .wait session) :
    (resume s co pending reason).control = .running co pending := by
  unfold resume
  rw [waits]
  rfl

theorem resume_either (waits : s.place c = .wait session) (before : c ≠ co → Still s s' c)
    (same : s'.place c = s.place c) :
    (∃ below, (resume s' co pending reason).control = .running c below) ∨
      Still s (resume s' co pending reason) c := by
  by_cases here : c = co
  · subst here
    exact .inl ⟨pending, resume_wait (same.trans waits)⟩
  · exact .inr ((before here).trans (resume_still s' pending reason here))

theorem coCreate_still {p : Place} (waits : s.place c = .wait session)
    (made : coCreate s new p = some s') : c ≠ new ∧ Still s s' c := by
  have other : c ≠ new := by
    rintro rfl
    unfold coCreate at made
    rw [waits] at made
    cases made
  rcases coCreate_cases made with ⟨-, rfl⟩ | ⟨-, rfl⟩
  all_goals exact ⟨other, setPlace_still s _ other⟩

theorem sleep_still (s : Service) (pending : Nat) (place : Session → Place) (other : c ≠ co) :
    Still s (sleep s co pending place) c := by
  have moved := (setPlace_still s (place (newsession s)) other).trans
    (setSleep_still _ (some (newsession s)) other)
  exact { moved with }

theorem wakeup_still (s : Service) (target c : Coroutine) : Still s (wakeup s target) c := by
  unfold wakeup
  split
  · exact ⟨rfl, rfl, fun member => mem_append_left _ member⟩
  · exact Still.refl s c

theorem wakeup_control (s : Service) (target : Coroutine) :
    (wakeup s target).control = s.control ∧ (wakeup s target).place = s.place := by
  unfold wakeup
  split
  · exact ⟨rfl, rfl⟩
  · exact ⟨rfl, rfl⟩

theorem wakeup_mem {target : Coroutine} (sleeping : s.sleepSession target ≠ none) :
    target ∈ (wakeup s target).wakeupSession := by
  unfold wakeup
  split
  · exact mem_append_right _ (mem_singleton_self target)
  · rename_i failed
    by_contra missing
    exact failed ⟨sleeping, missing⟩

theorem perform_still {op : Op} (runs : s.place co = .running) (waits : s.place c = .wait session)
    (taken : perform s co pending op = some s') : Still s s' c := by
  have other : c ≠ co := by
    rintro rfl
    exact nomatch runs.symm.trans waits
  have moved := fun p => setPlace_still s p other
  have kept := Still.refl s c
  cases op with
  | wakeup target =>
    cases taken
    exact wakeup_still s target c
  | fork border new =>
    simp only [perform, fork, ite_none_right_eq_some] at taken
    obtain ⟨middle, made, rfl⟩ := map_eq_some_iff.mp taken.2
    exact { (coCreate_still waits made).2 with }
  | timeout new =>
    simp only [perform, timeout] at taken
    split at taken
    · obtain ⟨middle, made, rfl⟩ := map_eq_some_iff.mp taken
      exact { (coCreate_still (s := { s with sessionId := newsession s }) waits made).2 with }
    · exact { (coCreate_still (s := { s with sessionId := newsession s }) waits taken).2 with }
  | genid =>
    cases taken
    exact { kept with }
  | call target =>
    cases taken
    exact { moved (.call (newsession s)) with }
  | sleep =>
    cases taken
    exact sleep_still s pending .sleep other
  | wait =>
    cases taken
    exact sleep_still s pending .wait other
  | ret _ _ | response =>
    cases taken
    unfold answered
    split
    · exact { kept with }
    · exact { moved .parked with }
  | respond index answer =>
    obtain ⟨response, -, rfl⟩ := map_eq_some_iff.mp taken
    exact { kept with }
  | exit =>
    cases taken
    exact { moved .pooled with }
  | quit =>
    cases taken
    refine Still.trans ?_ (returned_still _ _ _)
    exact { moved .parked with }
  | invalid =>
    cases taken
    exact { moved .parked with }
  | debug =>
    cases taken
    exact (moved .parked).trans (returned_still _ _ _)
  | fail =>
    cases taken
    exact { moved .dead with }

theorem rawRequest_still {unpacked : Bool} (waits : s.place c = .wait session)
    (taken : rawRequest s id source new unpacked = some s') : Still s s' c := by
  obtain ⟨middle, made, rfl⟩ := map_eq_some_iff.mp taken
  obtain ⟨other, created⟩ := coCreate_still waits made
  split
  · refine Still.trans ?_ (resume_still _ _ _ other)
    exact { created with }
  · exact { created with }

theorem rawError_still {order : List Session} (waits : s.place c = .wait session)
    (taken : rawError s id source new order = some s') : Still s s' c := by
  obtain ⟨middle, started, taken⟩ := bind_eq_some_iff.mp taken
  have begun := rawRequest_still waits started
  split at taken
  · rename_i running
    obtain ⟨noticed, dispatched, rfl⟩ := map_eq_some_iff.mp taken
    have runs := rawRequest_current started new 0 running
    have other : c ≠ new := by
      rintro rfl
      rw [begun.place, waits] at runs
      cases runs
    obtain ⟨_, _, _, rfl⟩ := errorDispatch_eq dispatched
    exact begun.trans { setPlace_still middle .pooled other with }
  · cases taken
    exact begun

theorem step_either {a : Action} (current : Current s) (waits : s.place c = .wait session)
    (asleep : s.sleepSession c ≠ none) (taken : step s a = some s') :
    (∃ pending, s'.control = .running c pending) ∨ Still s s' c := by
  cases a with
  | message message =>
    obtain ⟨-, taken⟩ := step_message taken
    have same : Still s { s with succ := true } c := { Still.refl s c with }
    cases message with
    | response id =>
      cases taken
      unfold rawResponse
      split
      · exact .inr { Still.refl s c with }
      · exact .inr { Still.refl s c with }
      · exact resume_either waits (fun _ => { Still.refl s c with }) rfl
    | error id source new order => exact .inr (same.trans (rawError_still waits taken))
    | request id source new unpacked => exact .inr (same.trans (rawRequest_still waits taken))
    | unknown id source =>
      obtain ⟨_, _, rfl, -⟩ := unknown_eq taken
      exact .inr { Still.refl s c with }
    | undispatched =>
      cases taken
      exact .inr { Still.refl s c with }
  | op op =>
    obtain ⟨co, pending, control, taken⟩ := step_op taken
    exact .inr (perform_still (current co pending control) waits taken)
  | wakeup choice =>
    obtain ⟨pending, -, taken⟩ := step_wakeup taken
    rcases dispatchWakeup_cases taken with
      ⟨-, rfl⟩ | ⟨co, -, ⟨awake, rfl⟩ | ⟨id, -, rfl⟩⟩
    · exact .inr { Still.refl s c with }
    · have other : c ≠ co := by
        rintro rfl
        exact asleep awake
      exact .inr ⟨rfl, rfl, fun member => mem_filter.mpr ⟨member, decide_eq_true other⟩⟩
    · refine resume_either waits (fun other => ⟨rfl, rfl, fun member => ?_⟩) rfl
      exact mem_filter.mpr ⟨member, decide_eq_true other⟩
  | errors =>
    obtain ⟨pending, -, rfl⟩ := step_errors taken
    unfold dispatchErrorQueue
    split
    · exact .inr (returned_still s pending c)
    · split
      · exact resume_either waits (fun _ => { Still.refl s c with }) rfl
      all_goals exact .inr { Still.refl s c with }
  | fork choice =>
    rcases nextFork_cases (step_fork taken).2 with ⟨-, rfl⟩ | ⟨key, co, -, rfl⟩
    · exact .inr { Still.refl s c with }
    · exact resume_either waits (fun _ => { Still.refl s c with }) rfl

end Still

end Skynet.Lualib
