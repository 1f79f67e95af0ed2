import Skynet.Base.Run

/-! service_mgr.lua: the table of services, and the requests that wait for an entry of it. What a
launch function is belongs to the manager that runs it: starting a service here, or asking the
manager of all nodes to. The functions yield, so a request is a coroutine that is launching,
waiting, or woken. -/
namespace Skynet.ServiceMgr
open Function

open Base List

variable {Name Func : Type} [DecidableEq Name]

/-- An entry: a table with its launch flag and the coroutines queued in it, the number of a service,
or the text of an error. -/
inductive Entry where
  | table (launch : Bool) (queue : List Nat)
  | number (handle : Nat)
  | string (text : String)
  deriving DecidableEq, Repr

/-- How a launch function comes back: with a handle, with nothing (the service went away before it
had started), or with an error. -/
inductive Outcome where
  | handle (handle : Nat)
  | nothing
  | error (text : String)
  deriving DecidableEq, Repr

/-- What a request is answered: a value, or an error raised at a line of the source. -/
inductive Answer where
  | handle (handle : Nat)
  | nothing
  | error (line : Nat) (text : String)
  | assertion (line : Nat)
  deriving DecidableEq, Repr

inductive Task (Name Func : Type) where
  | launching (name : Name) (func : Func)
  | waiting (name : Name) (func : Option Func)
  | woken (name : Name) (func : Option Func)
  | answered
  deriving DecidableEq, Repr

/-- The manager, with what the run has seen: the launch functions that were started, how they came
back, and the answers. -/
structure World (Name Func : Type) where
  service : Name → Option Entry
  task : Nat → Option (Task Name Func)
  started : List (Name × Func)
  finished : List (Name × Outcome)
  answers : List (Name × Answer)

def World.start : World Name Func := ⟨fun _ => none, fun _ => none, [], [], []⟩

def World.setService (w : World Name Func) (name : Name) (entry : Option Entry) :
    World Name Func :=
  { w with service := update w.service name entry }

def World.setTask (w : World Name Func) (co : Nat) (task : Task Name Func) : World Name Func :=
  { w with task := update w.task co (some task) }

def answer (w : World Name Func) (co : Nat) (name : Name) (a : Answer) : World Name Func :=
  { w.setTask co .answered with answers := (name, a) :: w.answers }

/- skynet.wakeup: of a coroutine that sleeps. -/
def wakeup (task : Nat → Option (Task Name Func)) (co : Nat) : Nat → Option (Task Name Func) :=
  match task co with
  | some (.waiting name func) => update task co (some (.woken name func))
  | _ => task

def wakeupAll (w : World Name Func) (queue : List Nat) : World Name Func :=
  { w with task := queue.foldl wakeup w.task }

def entryOf : Outcome → Option Entry
  | .handle handle => some (.number handle)
  | .nothing => none
  | .error text => some (.string text)

def answerOf : Outcome → Answer
  | .handle handle => .handle handle
  | .nothing => .nothing
  | .error text => .error 25 text

/- The function that request calls has come back. -/
def request (w : World Name Func) (co : Nat) (name : Name) (outcome : Outcome) :
    World Name Func :=
  let w := { w with finished := (name, outcome) :: w.finished }
  match w.service name with
  | some (.table _ queue) =>
    answer (wakeupAll (w.setService name (entryOf outcome)) queue) co name (answerOf outcome)
  | _ => answer w co name (.assertion 11)

/- From the launch flag on: the entry is a table. -/
def enter (w : World Name Func) (co : Nat) (name : Name) (func : Option Func) (launch : Bool)
    (queue : List Nat) : World Name Func :=
  match launch, func with
  | false, some f =>
    { (w.setService name (some (.table true queue))).setTask co (.launching name f) with
      started := (name, f) :: w.started }
  | _, _ =>
    (w.setService name (some (.table launch (queue ++ [co])))).setTask co (.waiting name func)

def waitfor (w : World Name Func) (co : Nat) (name : Name) (func : Option Func) :
    World Name Func :=
  match w.service name with
  | some (.number handle) => answer w co name (.handle handle)
  | some (.string text) => answer w co name (.error 40 text)
  | none => enter w co name func false []
  | some (.table launch queue) => enter w co name func launch queue

/- The end of waitfor, after the wait. -/
def resume (w : World Name Func) (co : Nat) (name : Name) : World Name Func :=
  match w.service name with
  | some (.string text) => answer w co name (.error 54 text)
  | some (.number handle) => answer w co name (.handle handle)
  | _ => answer w co name (.assertion 56)

/-- A request comes in, a launch function comes back, a woken coroutine goes on. -/
inductive Action (Name Func : Type) where
  | request (co : Nat) (name : Name) (func : Option Func)
  | finish (co : Nat) (outcome : Outcome)
  | resume (co : Nat)
  deriving DecidableEq, Repr

def step (w : World Name Func) : Action Name Func → Option (World Name Func)
  | .request co name func =>
    match w.task co with
    | none => some (waitfor w co name func)
    | some _ => none
  | .finish co outcome =>
    match w.task co with
    | some (.launching name _) => some (request w co name outcome)
    | _ => none
  | .resume co =>
    match w.task co with
    | some (.woken name _) => some (resume w co name)
    | _ => none

omit [DecidableEq Name]

theorem wakeup_cases (task : Nat → Option (Task Name Func)) (first co : Nat) :
    wakeup task first co = task co ∨ co = first ∧
      ∃ name func, task co = some (.waiting name func) ∧
        wakeup task first co = some (.woken name func) := by
  cases there : task first with
  | none => simp [wakeup, there]
  | some t =>
    cases t with
    | waiting name func =>
      by_cases same : co = first
      · subst same
        exact .inr ⟨rfl, name, func, there, by simp [wakeup, there]⟩
      · exact .inl (by simp [wakeup, there, update_of_ne same])
    | launching _ _ | woken _ _ | answered => simp [wakeup, there]

theorem wakeup_foldl (queue : List Nat) (task : Nat → Option (Task Name Func)) (co : Nat) :
    (queue.foldl wakeup task) co = task co ∨
      co ∈ queue ∧ ∃ name func, task co = some (.waiting name func) ∧
        (queue.foldl wakeup task) co = some (.woken name func) := by
  induction queue generalizing task with
  | nil => exact .inl rfl
  | cons first rest ih =>
    rw [foldl_cons]
    rcases ih (wakeup task first) with kept | ⟨later, name, func, before, after⟩
    · rcases wakeup_cases task first co with same | ⟨same, name, func, before, after⟩
      · exact .inl (kept.trans same)
      · exact .inr ⟨same ▸ mem_cons_self .., name, func, before, kept.trans after⟩
    · rcases wakeup_cases task first co with same | ⟨-, _, _, -, woken⟩
      · exact .inr ⟨mem_cons_of_mem first later, name, func, same ▸ before, after⟩
      · rw [woken] at before
        cases before

theorem wakeup_foldl_mem {queue : List Nat} {task : Nat → Option (Task Name Func)} {co : Nat}
    {name : Name} {func : Option Func} (member : co ∈ queue)
    (waits : task co = some (.waiting name func)) :
    (queue.foldl wakeup task) co = some (.woken name func) := by
  induction queue generalizing task with
  | nil => cases member
  | cons first rest ih =>
    rw [foldl_cons]
    by_cases same : co = first
    · subst same
      have woken : wakeup task co co = some (.woken name func) := by simp [wakeup, waits]
      rcases wakeup_foldl rest (wakeup task co) co with kept | ⟨-, _, _, before, -⟩
      · exact kept.trans woken
      · rw [woken] at before
        cases before
    · apply ih ((mem_cons.mp member).resolve_left same)
      rcases wakeup_cases task first co with kept | ⟨here, -⟩
      · exact kept.trans waits
      · exact absurd here same

end Skynet.ServiceMgr
