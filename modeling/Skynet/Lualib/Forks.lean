import Skynet.Lualib.Standing

/-! The forks of a message: each is started once before dispatch_message returns, wherever in
fork_queue the length operator of Lua lets it go. -/
namespace Skynet.Lualib
open Base List Option

/-- A service with a record of the message that it works on: the coroutines that were forked and
those that were started after they had been created. -/
structure Forking where
  service : Service
  forked : List Coroutine
  started : List Coroutine

def Forking.start : Forking := ⟨Service.start, [], []⟩

def forks : Action → List Coroutine
  | .op (.fork _ new) => [new]
  | _ => []

def starts (s s' : Service) : List Coroutine :=
  match s'.control with
  | .running co _ => if s.place co = .created then [co] else []
  | .idle | .wakeup _ | .errors _ | .forks => []

/-- A step with its record, which begins anew with every message. -/
def Forking.step (w : Forking) (a : Action) : Option Forking :=
  (Lualib.step w.service a).map fun s =>
    let before : Forking := match a with
      | .message _ => ⟨w.service, [], []⟩
      | .op _ | .wakeup _ | .errors | .fork _ => w
    ⟨s, before.forked ++ forks a, before.started ++ starts w.service s⟩

def Stays (_ : Forking) (a : Action) : Prop := a ≠ .op .quit

instance (w : Forking) (a : Action) : Decidable (Stays w a) :=
  inferInstanceAs (Decidable (a ≠ _))

structure Forking.Inv (w : Forking) : Prop where
  standing : Standing w.service
  current : Current w.service
  each : w.forked.Perm (w.started ++ w.service.forkQueue.map Prod.snd)
  empty : w.service.control = .idle → w.service.forkQueue = []

section Steps
variable {s s' : Service} {co : Coroutine} {pending : Nat} {a : Action}

theorem starts_none (other : ∀ co pending, s'.control = .running co pending →
    s.place co ≠ .created) : starts s s' = [] := by
  unfold starts
  split
  · rename_i co pending control
    exact if_neg (other co pending control)
  all_goals rfl

theorem Turn.starts_none (turn : Turn s s') : starts s s' = [] := by
  apply Lualib.starts_none
  intro co pending running created
  cases turn with
  | rest _ _ _ control =>
    rw [running] at control
    rcases control with forks | ⟨below, errors⟩
    · cases forks
    · cases errors
  | resumed c waited _ _ _ control =>
    obtain ⟨below, control⟩ := control
    cases control.symm.trans running
    rw [created] at waited
    exact waited rfl

theorem Turn.queue (turn : Turn s s') : s'.forkQueue = s.forkQueue ∧ s'.control ≠ .idle := by
  cases turn with
  | rest _ _ queue control =>
    refine ⟨queue, ?_⟩
    rcases control with forks | ⟨below, errors⟩
    · rw [forks]
      nofun
    · rw [errors]
      nofun
  | resumed _ _ _ _ queue control =>
    obtain ⟨below, control⟩ := control
    rw [control]
    exact ⟨queue, nofun⟩

theorem perm_of_key {queue : List (Nat × Coroutine)} {key : Nat}
    (keys : (queue.map Prod.fst).Nodup) (member : (key, co) ∈ queue) :
    queue.Perm ((key, co) :: queue.filter (·.1 ≠ key)) := by
  induction queue with
  | nil => cases member
  | cons entry rest ih =>
    rw [map_cons, nodup_cons] at keys
    rcases mem_cons.mp member with here | inside
    · subst here
      have others : rest.filter (·.1 ≠ key) = rest := by
        apply filter_eq_self.mpr
        intro other left
        apply decide_eq_true
        intro same
        exact keys.1 (mem_map.mpr ⟨other, left, same⟩)
      rw [filter_cons_of_neg (by simp), others]
    · have different : entry.1 ≠ key := by
        intro same
        exact keys.1 (mem_map.mpr ⟨_, inside, same.symm⟩)
      rw [filter_cons_of_pos (by simp [different])]
      exact ((ih keys.2 inside).cons entry).trans (.swap ..)

theorem perform_queue (h : Standing s) (control : s.control = .running co pending) {op : Op}
    (taken : perform s co pending op = some s') (unforked : forks (.op op) = [])
    (stays : op ≠ .quit) :
    s'.forkQueue = s.forkQueue ∧ s'.control ≠ .idle ∧
      ∀ c below, s'.control = .running c below → c = co := by
  have same : ∀ t : Service, t.control = s.control →
      t.control ≠ .idle ∧ ∀ c below, t.control = .running c below → c = co := by
    intro t kept
    rw [kept, control]
    refine ⟨nofun, ?_⟩
    rintro c below ⟨⟩
    rfl
  have back : ∀ t : Service, (returned t pending).forkQueue = t.forkQueue ∧
      (returned t pending).control ≠ .idle ∧
      ∀ c below, (returned t pending).control = .running c below → c = co := by
    intro t
    cases pending with
    | zero | succ _ => exact ⟨rfl, nofun, nofun⟩
  have answers : ∀ result, (answered s co result).forkQueue = s.forkQueue ∧
      (answered s co result).control ≠ .idle ∧
      ∀ c below, (answered s co result).control = .running c below → c = co := by
    intro result
    unfold answered
    split
    · exact ⟨rfl, same _ rfl⟩
    · exact ⟨rfl, nofun, nofun⟩
  cases op with
  | wakeup target =>
    cases taken
    unfold wakeup
    split
    · exact ⟨rfl, same _ rfl⟩
    · exact ⟨rfl, same _ rfl⟩
  | fork border new => cases unforked
  | timeout new =>
    obtain ⟨-, queue, -, kept, -⟩ := timeout_made h taken
    exact ⟨queue, same _ kept⟩
  | genid =>
    cases taken
    exact ⟨rfl, same _ rfl⟩
  | call _ | sleep | wait | exit | invalid | fail =>
    cases taken
    exact ⟨rfl, nofun, nofun⟩
  | ret _ _ | response =>
    cases taken
    exact answers _
  | respond index answer =>
    obtain ⟨response, -, rfl⟩ := map_eq_some_iff.mp taken
    exact ⟨rfl, same _ rfl⟩
  | quit => exact absurd rfl stays
  | debug =>
    cases taken
    exact back _

/- A message begins with fork_queue empty, and no coroutine that it starts was waiting to be. -/
theorem dispatch_starts {message : Message} (h : Standing s)
    (taken : rawDispatchMessage { s with succ := true } message = some s') :
    s'.forkQueue = s.forkQueue ∧ starts s s' = [] := by
  have fresh : Standing { s with succ := true } := { h with }
  cases message with
  | response session =>
    cases taken
    have turn : Turn _ (rawResponse { s with succ := true } session) := (rawResponse_turn fresh).2
    exact ⟨turn.queue.1, turn.starts_none⟩
  | error session source new order =>
    obtain ⟨-, -, queue, -, control, -⟩ := rawError_made fresh taken
    exact ⟨queue, starts_none fun co pending running => nomatch control.symm.trans running⟩
  | request session source new unpacked =>
    obtain ⟨pooled, -, queue, -, ⟨-, -, control⟩ | ⟨-, -, control⟩⟩ := rawRequest_made fresh taken
    · refine ⟨queue, starts_none ?_⟩
      intro co pending running created
      cases control.symm.trans running
      exact nomatch pooled.symm.trans created
    · exact ⟨queue, starts_none fun co pending running => nomatch control.symm.trans running⟩
  | unknown session source =>
    obtain ⟨_, _, rfl, -⟩ := unknown_eq taken
    exact ⟨rfl, starts_none nofun⟩
  | undispatched =>
    cases taken
    exact ⟨rfl, starts_none nofun⟩

theorem perform_starts (h : Standing s) (control : s.control = .running co pending)
    (runs : s.place co = .running) {op : Op} (taken : perform s co pending op = some s')
    (stays : op ≠ .quit) :
    s'.forkQueue.map Prod.snd = s.forkQueue.map Prod.snd ++ forks (.op op) ∧
      starts s s' = [] ∧ s'.control ≠ .idle := by
  have waiting : s.place co ≠ .created := by
    rw [runs]
    nofun
  cases unforked : forks (.op op) with
  | nil =>
    obtain ⟨queue, busy, only⟩ := perform_queue h control taken unforked stays
    refine ⟨by rw [queue, append_nil], starts_none ?_, busy⟩
    intro c below running
    rw [only c below running]
    exact waiting
  | cons new rest =>
    cases op with
    | fork border made =>
      cases unforked
      obtain ⟨-, -, rfl⟩ := fork_made h taken
      refine ⟨map_append, starts_none ?_, ?_⟩
      · intro c below running
        cases control.symm.trans running
        exact waiting
      · show s.control ≠ .idle
        rw [control]
        nofun
    | wakeup _ | timeout _ | genid | call _ | sleep | wait | ret _ _ | response | respond _ _
    | exit | quit | invalid | debug | fail => cases unforked

theorem Forking.step_inv {w w' : Forking} (h : w.Inv) (stays : Stays w a)
    (taken : w.step a = some w') : w'.Inv := by
  obtain ⟨s', stepped, rfl⟩ := map_eq_some_iff.mp taken
  have standing := step_standing h.standing h.current stepped
  have current := step_current h.current stepped
  cases a with
  | message message =>
    obtain ⟨idle, dispatched⟩ := step_message stepped
    obtain ⟨queue, none⟩ := dispatch_starts h.standing dispatched
    have empty := queue.trans (h.empty idle)
    refine ⟨standing, current, ?_, fun _ => empty⟩
    simp [forks, none, empty]
  | op op =>
    obtain ⟨co, pending, control, performed⟩ := step_op stepped
    obtain ⟨queue, none, busy⟩ := perform_starts h.standing control
      (h.current co pending control) performed (fun quit => stays (congrArg Action.op quit))
    refine ⟨standing, current, ?_, fun idle => absurd idle busy⟩
    dsimp only
    rw [none, append_nil, queue, ← append_assoc]
    exact h.each.append_right _
  | wakeup choice =>
    obtain ⟨pending, -, woken⟩ := step_wakeup stepped
    have turn := (dispatchWakeup_turn h.standing woken).2
    refine ⟨standing, current, ?_, fun idle => absurd idle turn.queue.2⟩
    simpa [forks, turn.starts_none, turn.queue.1] using h.each
  | errors =>
    obtain ⟨pending, -, rfl⟩ := step_errors stepped
    have turn : Turn _ (dispatchErrorQueue _ pending) := (dispatchErrorQueue_turn h.standing).2
    refine ⟨standing, current, ?_, fun idle => absurd idle turn.queue.2⟩
    simpa [forks, turn.starts_none, turn.queue.1] using h.each
  | fork choice =>
    obtain ⟨-, -, made⟩ := nextFork_made h.standing (step_fork stepped).2
    rcases made with ⟨empty, rfl⟩ | ⟨key, co, member, created, queue, -, control⟩
    · refine ⟨standing, current, ?_, fun _ => empty⟩
      simpa [forks, starts] using h.each
    · refine ⟨standing, current, ?_, fun idle => nomatch control.symm.trans idle⟩
      have one := (perm_of_key h.standing.keys member).map Prod.snd
      have started : starts w.service s' = [co] := by
        simp only [starts, control, created, if_true]
      rw [started, queue]
      simpa [forks] using h.each.trans (one.append_left w.started)

/-- Whatever key is found in the loop, its coroutine begins. -/
theorem nextFork_starts (h : Standing s) {entry : Nat × Coroutine} (member : entry ∈ s.forkQueue) :
    ∃ s', nextFork s (some entry.1) = some s' ∧ starts s s' = [entry.2] ∧
      s'.control = .running entry.2 0 := by
  have created := h.forked entry member
  have found : s.forkQueue.find? (·.1 = entry.1) = some entry := by
    have exists' : (s.forkQueue.find? (·.1 = entry.1)).isSome :=
      find?_isSome.mpr ⟨entry, member, decide_eq_true rfl⟩
    obtain ⟨other, first⟩ := isSome_iff_exists.mp exists'
    have same := find?_some first
    have same : other.1 = entry.1 := of_decide_eq_true same
    rw [first, inj_on_of_nodup_map h.keys (mem_of_find?_eq_some first) member same]
  have ready : (s.place entry.2).Ready := .inr created
  obtain ⟨-, control, -, -⟩ := resume_ready
    { s with forkQueue := s.forkQueue.filter (·.1 ≠ entry.1) } ready 0 .start
  refine ⟨_, by rw [nextFork, found]; rfl, ?_, control⟩
  unfold starts
  rw [control]
  exact if_pos created

end Steps

theorem Forking.run_inv {w : Forking} (run : Reaches Forking.step Stays Forking.start w) :
    w.Inv := by
  refine run.invariant Forking.Inv ?_ fun _ _ _ => Forking.step_inv
  exact ⟨start_standing, (nofun : Current Service.start), .refl _, fun _ => rfl⟩

/-- In every state of every run without skynet.exit: the coroutines that were forked since the
message came are those that were started, each as often as it was forked, and those in fork_queue.
When dispatch_message has returned all have been started. In the loop over fork_queue whatever key
is found next its coroutine is started, and with none left dispatch_message returns. -/
theorem forks_started_once (w : Forking) (run : Reaches Forking.step Stays Forking.start w) :
    w.forked.Perm (w.started ++ w.service.forkQueue.map Prod.snd) ∧
    (w.service.control = .idle → w.forked.Perm w.started) ∧
    (w.service.control = .forks →
      (∀ entry ∈ w.service.forkQueue, ∃ w', w.step (.fork (some entry.1)) = some w' ∧
        w'.started = w.started ++ [entry.2] ∧ w'.service.control = .running entry.2 0) ∧
      (w.service.forkQueue = [] → ∃ w', w.step (.fork none) = some w' ∧
        w'.service.control = .idle)) := by
  have h := Forking.run_inv run
  refine ⟨h.each, ?_, ?_⟩
  · intro idle
    simpa [h.empty idle] using h.each
  · intro control
    constructor
    · intro entry member
      obtain ⟨s', taken, started, running⟩ := nextFork_starts h.standing member
      have stepped : Lualib.step w.service (.fork (some entry.1)) = some s' := by
        simp only [Lualib.step, control, taken]
      refine ⟨⟨s', w.forked ++ [], w.started ++ starts w.service s'⟩, ?_, ?_, running⟩
      · rw [Forking.step, stepped]
        rfl
      · rw [started]
    · intro empty
      refine ⟨⟨{ w.service with control := .idle }, w.forked ++ [], w.started ++ []⟩, ?_, rfl⟩
      simp [Forking.step, Lualib.step, control, nextFork, empty, forks, starts]

/-- Two forks; the first, started after it has left a hole in fork_queue, forks a third into the
hole and fails. -/
def forkIntoHole : List Action :=
  [.message (.response 1), .op (.fork 0 1), .op (.fork 1 2), .op .exit, .wakeup none, .errors,
    .fork (some 1), .op (.fork 0 3), .op .fail, .fork (some 2), .op .sleep, .wakeup none, .errors,
    .fork (some 1), .op .exit, .wakeup none, .errors, .fork none]

theorem forks_started_once_hole :
    ∃ w, Reaches Forking.step Stays Forking.start w ∧ w.service.control = .idle ∧
      w.forked = [1, 2, 3] ∧ w.started = [1, 2, 3] ∧ w.forked.Perm w.started := by
  obtain ⟨w, taken⟩ : ∃ w, forkIntoHole.foldlM
      (fun w a => if decide (Stays w a) then Forking.step w a else none) Forking.start = some w :=
    ⟨_, rfl⟩
  have run := reaches_of_checked (fun w a => decide (Stays w a)) (fun _ _ => of_decide_eq_true)
    forkIntoHole taken
  cases taken
  obtain ⟨-, all, -⟩ := forks_started_once _ run
  exact ⟨_, run, rfl, rfl, rfl, all rfl⟩

end Skynet.Lualib
