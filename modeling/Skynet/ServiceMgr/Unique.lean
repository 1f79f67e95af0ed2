import Skynet.ServiceMgr.Filed

/-! One launch for a name, and its outcome for everyone who asked. -/
namespace Skynet.ServiceMgr

open Base List Function

variable {Name Func : Type} [DecidableEq Name]

/-- A launch function that comes back has a handle, or an error. -/
def Returns (_ : World Name Func) : Action Name Func → Prop
  | .finish _ outcome => outcome ≠ .nothing
  | _ => True

/-- The answer that an outcome calls for; an error names the line that raised it. -/
def Gives : Outcome → Answer → Prop
  | .handle handle, .handle handle' => handle = handle'
  | .error text, .error _ text' => text = text'
  | _, _ => False

def launches (w : World Name Func) (name : Name) : Nat :=
  (w.started.filter (fun entry => entry.1 = name)).length

def spent : Option Entry → Nat
  | none => 0
  | some (.table launch _) => if launch then 1 else 0
  | some _ => 1

structure Unique (w : World Name Func) : Prop where
  filed : Filed w.service w.task
  count : ∀ name, launches w name = spent (w.service name)
  known : ∀ name outcome, outcome ≠ .nothing → w.service name = entryOf outcome →
    (name, outcome) ∈ w.finished
  settled : ∀ name outcome, (name, outcome) ∈ w.finished →
    outcome ≠ .nothing ∧ w.service name = entryOf outcome
  woken : ∀ co name f, w.task co = some (.woken name f) →
    ∃ outcome, outcome ≠ .nothing ∧ w.service name = entryOf outcome
  answered : ∀ name a, (name, a) ∈ w.answers →
    ∃ outcome, (name, outcome) ∈ w.finished ∧ Gives outcome a

variable {w w' : World Name Func} {co : Nat} {name : Name}

theorem unique_start : Unique (World.start : World Name Func) := by
  refine ⟨filed_start, fun _ => rfl, ?_, nofun, nofun, nofun⟩
  intro name outcome returned there
  cases outcome with
  | handle h => cases there
  | nothing => exact absurd rfl returned
  | error text => cases there

variable {outcome : Outcome} {launch : Bool} {queue : List Nat}

theorem Unique.answer (unique : Unique w) {a : Answer} (idle : Idle w.task co)
    (member : (name, outcome) ∈ w.finished) (gives : Gives outcome a) :
    Unique (answer w co name a) := by
  refine ⟨unique.filed.answered idle, unique.count, unique.known, unique.settled, ?_, ?_⟩
  · intro c n f there
    exact unique.woken c n f ((update_ne_iff (by nofun)).mp there).2
  · intro n a' there
    rcases mem_cons.mp there with same | old
    · cases same
      exact ⟨outcome, member, gives⟩
    · exact unique.answered n a' old

/- A table, or no entry, is not what a launch leaves, so what one has left stays. -/
theorem unsettled_update {service : Name → Option Entry} (entry : queueOf service name launch queue)
    (new : Option Entry) (n : Name) (outcome : Outcome) (returned : outcome ≠ .nothing)
    (there : service n = entryOf outcome) :
    update service name new n = entryOf outcome := by
  have other : n ≠ name := by
    rintro rfl
    rcases entry with table | ⟨none', -⟩
    · exact entryOf_settled outcome launch queue (there.symm.trans table)
    · cases outcome with
      | handle _ | error _ => exact nomatch none'.symm.trans there
      | nothing => exact returned rfl
  exact (update_of_ne other ..).trans there

theorem Unique.table (unique : Unique w) {launch' : Bool} {queue' : List Nat}
    {task : Nat → Option (Task Name Func)} {started : List (Name × Func)}
    (entry : queueOf w.service name launch queue)
    (filed : Filed (update w.service name (some (.table launch' queue'))) task)
    (count : ∀ n, (started.filter (fun entry => entry.1 = n)).length =
      spent (update w.service name (some (.table launch' queue')) n))
    (woken : ∀ c n f, task c = some (.woken n f) → w.task c = some (.woken n f)) :
    Unique { w with
      service := update w.service name (some (.table launch' queue'))
      task := task, started := started } := by
  have kept := unsettled_update entry (some (.table launch' queue'))
  refine ⟨filed, count, ?_, ?_, ?_, unique.answered⟩
  · intro n outcome returned there
    have before := (update_ne_iff fun same => entryOf_settled outcome _ _ same.symm).mp there
    exact unique.known n outcome returned before.2
  · intro n outcome member
    obtain ⟨returned, there⟩ := unique.settled n outcome member
    exact ⟨returned, kept n outcome returned there⟩
  · intro c n f there
    obtain ⟨outcome, returned, before⟩ := unique.woken c n f (woken c n f there)
    exact ⟨outcome, returned, kept n outcome returned before⟩

theorem Unique.enter (unique : Unique w) {func : Option Func}
    (entry : queueOf w.service name launch queue) (idle : Idle w.task co) :
    Unique (enter w co name func launch queue) := by
  have filed : Filed (ServiceMgr.enter w co name func launch queue).service
      (ServiceMgr.enter w co name func launch queue).task := filed_enter unique.filed entry idle
  have spends : spent (w.service name) = if launch then 1 else 0 := by
    rcases entry with there | ⟨none', unset, -⟩
    · rw [there]
      rfl
    · rw [none', unset]
      rfl
  have asleep : ∀ {t : Task Name Func}, (∀ n f, t ≠ .woken n f) → ∀ c n f,
      update w.task co (some t) c = some (.woken n f) → w.task c = some (.woken n f) := by
    intro t other c n f there
    exact ((update_ne_iff fun same => other n f (Option.some.inj same)).mp there).2
  unfold ServiceMgr.enter at filed ⊢
  split at filed
  · refine unique.table entry filed ?_ (asleep (by intro _ _ h; cases h))
    intro n
    by_cases same : n = name
    · subst same
      have none' : launches w n = 0 := by
        rw [unique.count, spends]
        rfl
      rw [update_self, filter_cons_of_pos (by simp), length_cons]
      exact congrArg (· + 1) none'
    · rw [update_of_ne same, filter_cons_of_neg (by simpa using fun h => same h.symm)]
      exact unique.count n
  · refine unique.table entry filed ?_ (asleep (by intro _ _ h; cases h))
    have same : spent (some (.table launch (queue ++ [co]))) = spent (w.service name) := spends.symm
    exact fun n => (unique.count n).trans (update_same spent same n).symm

theorem gives_answerOf (returned : outcome ≠ .nothing) :
    Gives outcome (answerOf outcome) := by
  cases outcome with
  | handle handle => rfl
  | nothing => exact absurd rfl returned
  | error text => rfl

theorem spent_entryOf (returned : outcome ≠ .nothing) :
    spent (entryOf outcome) = 1 := by
  cases outcome with
  | handle handle => rfl
  | nothing => exact absurd rfl returned
  | error text => rfl

theorem entryOf_injective {outcome' : Outcome} (same : entryOf outcome = entryOf outcome') :
    outcome = outcome' := by
  cases outcome <;> cases outcome' <;> cases same <;> rfl

theorem Unique.finish (unique : Unique w) {f : Func} (here : w.task co = some (.launching name f))
    (returned : outcome ≠ .nothing) :
    Unique (request w co name outcome) := by
  obtain ⟨queue, there⟩ := unique.filed.launching co name f here
  have filed := unique.filed.finish here there (entryOf_settled outcome)
  have old := unsettled_update (.inl there) (entryOf outcome)
  rw [request_eq outcome there]
  refine ⟨filed, ?_, ?_, ?_, ?_, ?_⟩
  · intro n
    have before := unique.count n
    have same : spent (entryOf outcome) = spent (w.service name) := by
      rw [there, spent_entryOf returned]
      rfl
    exact before.trans (update_same spent same n).symm
  · intro n o other after
    rcases update_iff.mp after with ⟨rfl, same⟩ | ⟨-, before⟩
    · rw [← entryOf_injective same]
      exact mem_cons_self ..
    · exact mem_cons_of_mem _ (unique.known n o other before)
  · intro n o member
    rcases mem_cons.mp member with same | before
    · cases same
      exact ⟨returned, update_self ..⟩
    · obtain ⟨other, settled⟩ := unique.settled n o before
      exact ⟨other, old n o other settled⟩
  · intro c n g after
    obtain ⟨-, after⟩ := (update_ne_iff (by nofun)).mp after
    rcases wakeup_foldl queue w.task c with kept | ⟨queued, n', g', waits, woken⟩
    · rw [kept] at after
      obtain ⟨o, other, before⟩ := unique.woken c n g after
      exact ⟨o, other, old n o other before⟩
    · rw [woken] at after
      cases after
      obtain ⟨g'', waits'⟩ := unique.filed.queued name true queue there c queued
      rw [waits] at waits'
      cases waits'
      exact ⟨outcome, returned, update_self ..⟩
  · intro n a member
    rcases mem_cons.mp member with same | before
    · cases same
      exact ⟨outcome, mem_cons_self .., gives_answerOf returned⟩
    · obtain ⟨o, there, gives⟩ := unique.answered n a before
      exact ⟨o, mem_cons_of_mem _ there, gives⟩

theorem unique_step {a : Action Name Func} (unique : Unique w) (returns : Returns w a)
    (taken : step w a = some w') : Unique w' := by
  cases a with
  | request co name func =>
    unfold step at taken
    dsimp only at taken
    split at taken
    · rename_i none'
      cases taken
      have idle := idle_of_none none'
      unfold waitfor
      split
      · rename_i handle there
        have member := unique.known name (.handle handle) (by intro h; cases h) there
        exact unique.answer idle member rfl
      · rename_i text there
        have member := unique.known name (.error text) (by intro h; cases h) there
        exact unique.answer idle member rfl
      · rename_i missing
        exact unique.enter (.inr ⟨missing, rfl, rfl⟩) idle
      · rename_i launch queue there
        exact unique.enter (.inl there) idle
    · cases taken
  | finish co outcome =>
    unfold step at taken
    dsimp only at taken
    split at taken
    · rename_i name f here
      cases taken
      exact unique.finish here returns
    · cases taken
  | resume co =>
    unfold step at taken
    dsimp only at taken
    split at taken
    · rename_i name f woken
      cases taken
      have idle := idle_of_woken woken
      obtain ⟨outcome, returned, there⟩ := unique.woken co name f woken
      have member := unique.known name outcome returned there
      unfold resume
      rw [there]
      cases outcome with
      | handle _ | error _ => exact unique.answer idle member rfl
      | nothing => exact absurd rfl returned
    · cases taken

/- A query, a launch and a second launch while the first one yields; the first gets the handle, the
others are woken. -/
/- The service goes away before it has started: its launcher answers with nothing, the entry is
gone, and the next request launches again. -/
end Skynet.ServiceMgr
