import Skynet.ServiceMgr.Filed

/-! A manager that is not the one of all nodes: its requests for global names are calls to that
one. -/
namespace Skynet.ServiceMgr

open Base List

variable {Name : Type}

/-- The commands of waitfor_remote. -/
inductive Remote where
  | launch
  | query
  deriving DecidableEq, Repr

/-- GLAUNCH and GQUERY, the answer of the other manager (an error of the call, nothing when it
reports an error, or a handle), and a woken request. -/
inductive GlobalAction (Name : Type) where
  | glaunch (co : Nat) (name : Name)
  | gquery (co : Nat) (name : Name)
  | finish (co : Nat) (outcome : Outcome)
  | resume (co : Nat)
  deriving DecidableEq, Repr

/- waitfor_remote: the call of either command is the launch function. -/
def GlobalAction.local : GlobalAction Name → Action Name Remote
  | .glaunch co name => .request co name (some .launch)
  | .gquery co name => .request co name (some .query)
  | .finish co outcome => .finish co outcome
  | .resume co => .resume co

def globalStep [DecidableEq Name] (w : World Name Remote) (a : GlobalAction Name) :
    Option (World Name Remote) :=
  step w a.local

/-- No GLAUNCH for a name comes in while this manager's QUERY for it is out. -/
def Unqueried (w : World Name Remote) : GlobalAction Name → Prop
  | .glaunch _ name => ∀ co, w.task co ≠ some (.launching name .query)
  | _ => True

structure Forwarded (w : World Name Remote) : Prop where
  filed : Filed w.service w.task
  flagged : ∀ name launch queue, w.service name = some (.table launch queue) → launch = true
  sent : ∀ co name f, w.task co = some (.launching name f) → (name, f) ∈ w.started
  ahead : ∀ co co' name f, w.task co = some (.waiting name (some .launch)) →
    w.task co' = some (.launching name f) → f = .launch
  waiting : ∀ co name, w.task co = some (.waiting name (some .launch)) →
    (name, .launch) ∈ w.started
  woken : ∀ co name, w.task co = some (.woken name (some .launch)) → (name, .launch) ∈ w.started

variable {w w' : World Name Remote} {co : Nat} {name : Name}

theorem forwarded_start : Forwarded (World.start : World Name Remote) :=
  ⟨filed_start, nofun, nofun, nofun, nofun, nofun⟩

theorem task_of_update {tasks : Nat → Option (Task Name Remote)} {c : Nat}
    {t new : Task Name Remote} (after : Function.update tasks co (some new) c = some t) :
    t = new ∨ tasks c = some t := by
  rcases update_iff.mp after with ⟨-, same⟩ | ⟨-, old⟩
  · exact .inl (Option.some.inj same).symm
  · exact .inr old

/- The task of a coroutine that was answered is no matter of the others. -/
theorem Forwarded.answer (forwarded : Forwarded w) (idle : Idle w.task co) (a : Answer) :
    Forwarded (answer w co name a) := by
  have before : ∀ {c t}, (ServiceMgr.answer w co name a).task c = some t → t ≠ .answered →
      w.task c = some t := fun there other => (task_of_update there).resolve_left other
  refine ⟨forwarded.filed.answered idle, forwarded.flagged, ?_, ?_, ?_, ?_⟩
  · intro c n f there
    exact forwarded.sent c n f (before there nofun)
  · intro c c' n f one two
    exact forwarded.ahead c c' n f (before one nofun) (before two nofun)
  · intro c n there
    exact forwarded.waiting c n (before there nofun)
  · intro c n there
    exact forwarded.woken c n (before there nofun)

variable [DecidableEq Name]

section
variable (forwarded : Forwarded w)
include forwarded

theorem Forwarded.launch (idle : Idle w.task co) (missing : w.service name = none) (f : Remote) :
    Forwarded (enter w co name (some f) false []) := by
  have filed : Filed (enter w co name (some f) false []).service
      (enter w co name (some f) false []).task :=
    filed_enter forwarded.filed (.inr ⟨missing, rfl, rfl⟩) idle
  have nobody : ∀ c g, w.task c ≠ some (.waiting name g) := by
    intro c g waits
    obtain ⟨_, _, there, -⟩ := forwarded.filed.waiting c name g waits
    rw [missing] at there
    cases there
  have before : ∀ {c t}, (enter w co name (some f) false []).task c = some t →
      t = .launching name f ∨ w.task c = some t := task_of_update
  refine ⟨filed, ?_, ?_, ?_, ?_, ?_⟩
  · intro n l q there
    rcases update_iff.mp there with ⟨-, ⟨⟩⟩ | ⟨-, old⟩
    · rfl
    · exact forwarded.flagged n l q old
  · intro c n g there
    rcases before there with same | old
    · cases same
      exact mem_cons_self ..
    · exact mem_cons_of_mem _ (forwarded.sent c n g old)
  · intro c c' n g one two
    rcases before one with same | waits
    · cases same
    · rcases before two with same | old
      · cases same
        exact absurd waits (nobody c _)
      · exact forwarded.ahead c c' n g waits old
  · intro c n there
    rcases before there with ⟨⟨⟩⟩ | old
    · exact mem_cons_of_mem _ (forwarded.waiting c n old)
  · intro c n there
    rcases before there with ⟨⟨⟩⟩ | old
    · exact mem_cons_of_mem _ (forwarded.woken c n old)

theorem Forwarded.wait (idle : Idle w.task co) {queue : List Nat}
    (there : w.service name = some (.table true queue)) (f : Remote)
    (unqueried : f = .launch → ∀ c, w.task c ≠ some (.launching name .query)) :
    Forwarded (enter w co name (some f) true queue) := by
  have filed : Filed (enter w co name (some f) true queue).service
      (enter w co name (some f) true queue).task :=
    filed_enter forwarded.filed (.inl there) idle
  have ahead : f = .launch → ∀ c g, w.task c = some (.launching name g) → g = .launch := by
    intro launch c g launching
    cases g with
    | launch => rfl
    | query => exact absurd launching (unqueried launch c)
  have before : ∀ {c t}, (enter w co name (some f) true queue).task c = some t →
      t = .waiting name (some f) ∨ w.task c = some t := task_of_update
  refine ⟨filed, ?_, ?_, ?_, ?_, ?_⟩
  · intro n l q after
    rcases update_iff.mp after with ⟨-, ⟨⟩⟩ | ⟨-, old⟩
    · rfl
    · exact forwarded.flagged n l q old
  · intro c n g after
    rcases before after with same | old
    · cases same
    · exact forwarded.sent c n g old
  · intro c c' n g one two
    rcases before two with same | launching
    · cases same
    · rcases before one with same | waits
      · cases same
        exact ahead rfl c' g launching
      · exact forwarded.ahead c c' n g waits launching
  · intro c n after
    rcases before after with same | old
    · cases same
      obtain ⟨c', g, launching⟩ := forwarded.filed.launched name queue there
      have launch := ahead rfl c' g launching
      exact forwarded.sent c' name .launch (launch ▸ launching)
    · exact forwarded.waiting c n old
  · intro c n after
    rcases before after with same | old
    · cases same
    · exact forwarded.woken c n old

theorem Forwarded.finish {f : Remote} {outcome : Outcome}
    (here : w.task co = some (.launching name f)) : Forwarded (request w co name outcome) := by
  obtain ⟨queue, there⟩ := forwarded.filed.launching co name f here
  have filed := forwarded.filed.finish here there (entryOf_settled outcome)
  rw [request_eq outcome there]
  have before : ∀ {c t},
      Function.update (queue.foldl wakeup w.task) co (some .answered) c = some t →
      t = .answered ∨ w.task c = some t ∨
        ∃ n g, t = .woken n g ∧ w.task c = some (.waiting n g) := by
    intro c t after
    rcases task_of_update after with same | old
    · exact .inl same
    · rcases wakeup_foldl queue w.task c with kept | ⟨-, n, g, waits, woken⟩
      · exact .inr (.inl (kept.symm.trans old))
      · rw [woken] at old
        cases old
        exact .inr (.inr ⟨n, g, rfl, waits⟩)
  refine ⟨filed, ?_, ?_, ?_, ?_, ?_⟩
  · intro n l q after
    exact forwarded.flagged n l q ((update_ne_iff (entryOf_settled outcome l q)).mp after).2
  · intro c n g after
    rcases before after with same | old | ⟨_, _, same, -⟩
    · cases same
    · exact forwarded.sent c n g old
    · cases same
  · intro c c' n g one two
    rcases before one with same | waits | ⟨_, _, same, -⟩
    · cases same
    · rcases before two with same | launching | ⟨_, _, same, -⟩
      · cases same
      · exact forwarded.ahead c c' n g waits launching
      · cases same
    · cases same
  · intro c n after
    rcases before after with same | old | ⟨_, _, same, -⟩
    · cases same
    · exact forwarded.waiting c n old
    · cases same
  · intro c n after
    rcases before after with same | old | ⟨_, _, same, waits⟩
    · cases same
    · exact forwarded.woken c n old
    · cases same
      exact forwarded.waiting c n waits

theorem Forwarded.request (idle : Idle w.task co) (f : Remote)
    (unqueried : f = .launch → ∀ c, w.task c ≠ some (.launching name .query)) :
    Forwarded (waitfor w co name (some f)) := by
  unfold waitfor
  split
  · exact forwarded.answer idle _
  · exact forwarded.answer idle _
  · rename_i missing
    exact forwarded.launch idle missing f
  · rename_i launch queue there
    cases forwarded.flagged name launch queue there
    exact forwarded.wait idle there f unqueried

theorem forwarded_step {a : GlobalAction Name} (unqueried : Unqueried w a)
    (taken : globalStep w a = some w') : Forwarded w' := by
  unfold globalStep GlobalAction.local at taken
  cases a with
  | glaunch co name =>
    unfold step at taken
    dsimp only at taken
    split at taken
    · rename_i none'
      cases taken
      exact forwarded.request (idle_of_none none') .launch fun _ => unqueried
    · cases taken
  | gquery co name =>
    unfold step at taken
    dsimp only at taken
    split at taken
    · rename_i none'
      cases taken
      exact forwarded.request (idle_of_none none') .query (by intro h; cases h)
    · cases taken
  | finish co outcome =>
    unfold step at taken
    dsimp only at taken
    split at taken
    · rename_i name f here
      cases taken
      exact forwarded.finish here
    · cases taken
  | resume co =>
    unfold step at taken
    dsimp only at taken
    split at taken
    · rename_i name f woken
      cases taken
      have idle := idle_of_woken woken
      unfold resume
      split <;> exact forwarded.answer idle _
    · cases taken

end

/- Two GLAUNCH of one name: the second waits for the first one's call. -/
/- GQUERY comes first: its QUERY is the only command that is sent. -/
end Skynet.ServiceMgr
