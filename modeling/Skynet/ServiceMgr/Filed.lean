import Skynet.Base.Table
import Skynet.ServiceMgr.Model

/-! Every request that launches or waits has its place in the table, and the other way round. -/
namespace Skynet.ServiceMgr

open Base List Function

variable {Name Func : Type}

/-- One coroutine launches for a table whose flag is set, and the waiting ones are queued. -/
structure Filed (service : Name → Option Entry) (task : Nat → Option (Task Name Func)) : Prop where
  launching : ∀ co name f, task co = some (.launching name f) →
    ∃ queue, service name = some (.table true queue)
  single : ∀ co co' name f f', task co = some (.launching name f) →
    task co' = some (.launching name f') → co = co'
  launched : ∀ name queue, service name = some (.table true queue) →
    ∃ co f, task co = some (.launching name f)
  queued : ∀ name launch queue, service name = some (.table launch queue) →
    ∀ co ∈ queue, ∃ f, task co = some (.waiting name f)
  waiting : ∀ co name f, task co = some (.waiting name f) →
    ∃ launch queue, service name = some (.table launch queue) ∧ co ∈ queue

variable {service : Name → Option Entry} {task : Nat → Option (Task Name Func)} {co : Nat}
  {name : Name}

theorem filed_start : Filed (fun _ => none : Name → Option Entry)
    (fun _ => none : Nat → Option (Task Name Func)) :=
  ⟨nofun, nofun, nofun, nofun, nofun⟩

def Idle (task : Nat → Option (Task Name Func)) (co : Nat) : Prop :=
  (∀ name f, task co ≠ some (.launching name f)) ∧ ∀ name f, task co ≠ some (.waiting name f)

theorem idle_of_none (none' : task co = none) : Idle task co := by
  constructor <;> simp [none']

variable {f func : Option Func} {t : Option (Task Name Func)} {c : Nat} {queue : List Nat}
  {entry : Option Entry}

theorem idle_of_woken (woken : task co = some (.woken name f)) :
    Idle task co := by
  constructor <;> simp [woken]

theorem Idle.launching (idle : Idle task co) {f : Func} (other : t ≠ some (.launching name f)) :
    update task co t c = some (.launching name f) ↔ task c = some (.launching name f) :=
  (update_ne_iff other).trans (and_iff_right_of_imp fun there same => idle.1 name f (same ▸ there))

theorem Idle.waiting (idle : Idle task co) (other : t ≠ some (.waiting name f)) :
    update task co t c = some (.waiting name f) ↔ task c = some (.waiting name f) :=
  (update_ne_iff other).trans (and_iff_right_of_imp fun there same => idle.2 name f (same ▸ there))

theorem Filed.answered (filed : Filed service task) (idle : Idle task co) :
    Filed service (update task co (some .answered)) := by
  have launches : ∀ c n f, update task co (some .answered) c = some (.launching n f) ↔
      task c = some (.launching n f) := fun _ _ _ => idle.launching nofun
  have waits : ∀ c n f, update task co (some .answered) c = some (.waiting n f) ↔
      task c = some (.waiting n f) := fun _ _ _ => idle.waiting nofun
  constructor <;> simp only [launches, waits]
  · exact filed.launching
  · exact filed.single
  · exact filed.launched
  · exact filed.queued
  · exact filed.waiting

theorem Filed.not_launching (filed : Filed service task)
    (unset : ∀ queue, service name ≠ some (.table true queue)) (c : Nat) (f : Func) :
    task c ≠ some (.launching name f) := by
  intro there
  obtain ⟨queue, set⟩ := filed.launching c name f there
  exact unset queue set

/-- What is queued in an entry that may be missing. -/
def queueOf (service : Name → Option Entry) (name : Name) (launch : Bool) (queue : List Nat) :
    Prop :=
  service name = some (.table launch queue) ∨ service name = none ∧ launch = false ∧ queue = []

theorem Filed.queue_waits (filed : Filed service task) {launch : Bool}
    (entry : queueOf service name launch queue) :
    ∀ c ∈ queue, ∃ f, task c = some (.waiting name f) := by
  rcases entry with there | ⟨-, -, rfl⟩
  · exact filed.queued name launch queue there
  · intro c member
    cases member

theorem Filed.mem_queue (filed : Filed service task) {launch : Bool}
    (entry : queueOf service name launch queue) (waits : task c = some (.waiting name f)) :
    c ∈ queue := by
  obtain ⟨_, _, there, member⟩ := filed.waiting c name f waits
  rcases entry with same | ⟨none', -⟩
  · rw [same] at there
    cases there
    exact member
  · rw [none'] at there
    cases there

variable [DecidableEq Name]

section
variable (filed : Filed service task)
include filed

theorem Filed.change {task' : Nat → Option (Task Name Func)} (launchers : ∀ c n f, n ≠ name →
      (task' c = some (.launching n f) ↔ task c = some (.launching n f)))
    (waiters : ∀ c n f, n ≠ name → (task' c = some (.waiting n f) ↔ task c = some (.waiting n f)))
    (launching : ∀ c f, task' c = some (.launching name f) →
      ∃ queue, entry = some (.table true queue))
    (single : ∀ c c' f f', task' c = some (.launching name f) →
      task' c' = some (.launching name f') → c = c')
    (launched : ∀ queue, entry = some (.table true queue) →
      ∃ c f, task' c = some (.launching name f))
    (queued : ∀ launch queue, entry = some (.table launch queue) →
      ∀ c ∈ queue, ∃ f, task' c = some (.waiting name f))
    (waiting : ∀ c f, task' c = some (.waiting name f) →
      ∃ launch queue, entry = some (.table launch queue) ∧ c ∈ queue) :
    Filed (update service name entry) task' := by
  constructor
  · intro c n f there
    by_cases same : n = name
    · subst same
      simpa using launching c f there
    · simpa [same] using filed.launching c n f ((launchers c n f same).mp there)
  · intro c c' n f f' one two
    by_cases same : n = name
    · subst same
      exact single c c' f f' one two
    · exact filed.single c c' n f f' ((launchers c n f same).mp one)
        ((launchers c' n f' same).mp two)
  · intro n queue there
    by_cases same : n = name
    · subst same
      exact launched queue (by simpa using there)
    · obtain ⟨c, f, before⟩ := filed.launched n queue (by simpa [same] using there)
      exact ⟨c, f, (launchers c n f same).mpr before⟩
  · intro n launch queue there c member
    by_cases same : n = name
    · subst same
      exact queued launch queue (by simpa using there) c member
    · obtain ⟨f, before⟩ := filed.queued n launch queue (by simpa [same] using there) c member
      exact ⟨f, (waiters c n f same).mpr before⟩
  · intro c n f there
    by_cases same : n = name
    · subst same
      simpa using waiting c f there
    · simpa [same] using filed.waiting c n f ((waiters c n f same).mp there)

theorem Filed.launch {f : Func} (entry : queueOf service name false queue) (idle : Idle task co) :
    Filed (update service name (some (.table true queue)))
      (update task co (some (.launching name f))) := by
  have unset : ∀ queue, service name ≠ some (.table true queue) := by
    rcases entry with same | ⟨none', -⟩
    · simp [same]
    · simp [none']
  have only : ∀ c g, update task co (some (.launching name f)) c =
      some (.launching name g) → c = co := by
    intro c g there
    rcases update_iff.mp there with ⟨same, -⟩ | ⟨-, old⟩
    · exact same
    · exact absurd old (filed.not_launching unset c g)
  refine filed.change ?_ (fun _ _ _ _ => idle.waiting nofun) (fun _ _ _ => ⟨queue, rfl⟩) ?_
    (fun _ _ => ⟨co, f, update_self ..⟩) ?_ ?_
  · intro c n g other
    refine idle.launching ?_
    rintro ⟨⟩
    exact other rfl
  · intro c c' g g' one two
    rw [only c g one, only c' g' two]
  · rintro _ _ ⟨⟩ c member
    obtain ⟨g, waits⟩ := filed.queue_waits entry c member
    exact ⟨g, (idle.waiting (by nofun)).mpr waits⟩
  · intro c g there
    exact ⟨true, queue, rfl, filed.mem_queue entry ((idle.waiting (by nofun)).mp there)⟩

theorem Filed.wait {launch : Bool}
    (entry : queueOf service name launch queue) (idle : Idle task co) :
    Filed (update service name (some (.table launch (queue ++ [co]))))
      (update task co (some (.waiting name func))) := by
  have launches : ∀ c n g, update task co (some (.waiting name func)) c =
      some (.launching n g) ↔ task c = some (.launching n g) := fun _ _ _ => idle.launching nofun
  refine filed.change (fun c n g _ => launches c n g) ?_ ?_ ?_ ?_ ?_ ?_
  · intro c n g other
    refine idle.waiting ?_
    rintro ⟨⟩
    exact other rfl
  · intro c g there
    obtain ⟨q, set⟩ := filed.launching c name g ((launches c name g).mp there)
    rcases entry with table | ⟨none', -⟩
    · cases table.symm.trans set
      exact ⟨_, rfl⟩
    · cases none'.symm.trans set
  · intro c c' g g' one two
    exact filed.single c c' name g g' ((launches c name g).mp one) ((launches c' name g').mp two)
  · rintro q ⟨⟩
    rcases entry with table | ⟨-, unset, -⟩
    · obtain ⟨c, g, launching⟩ := filed.launched name queue table
      exact ⟨c, g, (launches c name g).mpr launching⟩
    · cases unset
  · rintro _ _ ⟨⟩ c member
    rcases mem_append.mp member with before | new
    · obtain ⟨g, waits⟩ := filed.queue_waits entry c before
      have other : c ≠ co := by
        rintro rfl
        exact idle.2 name g waits
      exact ⟨g, by simpa [other] using waits⟩
    · exact ⟨func, by simp [mem_singleton.mp new]⟩
  · intro c g there
    refine ⟨launch, queue ++ [co], rfl, ?_⟩
    rcases update_iff.mp there with ⟨rfl, -⟩ | ⟨-, old⟩
    · simp
    · exact mem_append_left _ (filed.mem_queue entry old)

theorem Filed.finish {f : Func}
    (here : task co = some (.launching name f)) (there : service name = some (.table true queue))
    (settled : ∀ launch queue, entry ≠ some (.table launch queue)) :
    Filed (update service name entry)
      (update (queue.foldl wakeup task) co (some .answered)) := by
  have launches : ∀ c n g, update (queue.foldl wakeup task) co (some .answered) c =
      some (.launching n g) ↔ c ≠ co ∧ task c = some (.launching n g) := by
    intro c n g
    rw [update_ne_iff (by nofun)]
    rcases wakeup_foldl queue task c with kept | ⟨-, n, g, waits, woken⟩
    · rw [kept]
    · simp [waits, woken]
  have waits : ∀ c n g, update (queue.foldl wakeup task) co (some .answered) c =
      some (.waiting n g) ↔ c ∉ queue ∧ task c = some (.waiting n g) := by
    intro c n g
    rw [update_ne_iff (by nofun)]
    constructor
    · rintro ⟨-, after⟩
      rcases wakeup_foldl queue task c with kept | ⟨-, n, g, -, woken⟩
      · refine ⟨?_, kept.symm.trans after⟩
        intro queued
        exact nomatch (wakeup_foldl_mem queued (kept.symm.trans after)).symm.trans after
      · cases woken.symm.trans after
    · rintro ⟨free, before⟩
      refine ⟨?_, ?_⟩
      · rintro rfl
        cases here.symm.trans before
      · rcases wakeup_foldl queue task c with kept | ⟨queued, -⟩
        · exact kept.trans before
        · exact absurd queued free
  refine filed.change ?_ ?_ ?_ ?_ (fun _ set => (settled _ _ set).elim)
    (fun _ _ set => (settled _ _ set).elim) ?_
  · intro c n g apart
    refine (launches c n g).trans (and_iff_right_of_imp ?_)
    rintro launching rfl
    cases here.symm.trans launching
    exact apart rfl
  · intro c n g apart
    refine (waits c n g).trans (and_iff_right_of_imp ?_)
    intro waiting queued
    obtain ⟨g', waiting'⟩ := filed.queued name true queue there c queued
    cases waiting.symm.trans waiting'
    exact apart rfl
  · intro c g after
    obtain ⟨other, launching⟩ := (launches c name g).mp after
    exact absurd (filed.single c co name g f launching here) other
  · intro c c' g g' one two
    exact filed.single c c' name g g' ((launches c name g).mp one).2 ((launches c' name g').mp two).2
  · intro c g after
    obtain ⟨free, waiting⟩ := (waits c name g).mp after
    exact absurd (filed.mem_queue (.inl there) waiting) free

end

variable {w w' : World Name Func}

theorem entryOf_settled (outcome : Outcome) (launch : Bool) (queue : List Nat) :
    entryOf outcome ≠ some (.table launch queue) := by
  cases outcome <;> intro h <;> cases h

theorem request_eq {launch : Bool} (outcome : Outcome)
    (there : w.service name = some (.table launch queue)) :
    request w co name outcome =
      ⟨update w.service name (entryOf outcome),
        update (queue.foldl wakeup w.task) co (some .answered), w.started,
        (name, outcome) :: w.finished, (name, answerOf outcome) :: w.answers⟩ := by
  unfold request
  simp only [there]
  rfl

theorem filed_enter {launch : Bool} (filed : Filed w.service w.task)
    (entry : queueOf w.service name launch queue) (idle : Idle w.task co) :
    Filed (enter w co name func launch queue).service (enter w co name func launch queue).task := by
  unfold enter
  split
  · exact filed.launch entry idle
  · exact filed.wait entry idle

end Skynet.ServiceMgr
