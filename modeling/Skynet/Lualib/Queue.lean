import Skynet.Lualib.Filed

/-! The critical section of skynet.queue, used by the coroutines of one service. -/
namespace Skynet.Lualib.Queue
open Base Function

/-- The variables of one queue beside the service. A coroutine is blocked while it is in the wait
of the queue, its depth is the number of protected functions that it is in, and the queue has
woken it when it was handed the section. The orders in which the coroutines have asked for the
section and entered it do not count nested calls. -/
structure World where
  service : Service
  currentThread : Option Coroutine
  ref : Int
  threadQueue : List Coroutine
  blocked : Coroutine → Bool
  depth : Coroutine → Nat
  woken : Coroutine → Bool
  asked : List Coroutine
  entered : List Coroutine
  assertFailed : Bool

def World.start : World where
  service := Service.start
  currentThread := none
  ref := 0
  threadQueue := []
  blocked := fun _ => false
  depth := fun _ => 0
  woken := fun _ => false
  asked := []
  entered := []
  assertFailed := false

def Inside (w : World) (co : Coroutine) : Prop := 0 < w.depth co

section Operations
variable (w : World) (co : Coroutine)

/-- The coroutine has the section and calls the protected function. -/
def enter : World :=
  { w with
    currentThread := some co
    ref := w.ref + 1
    depth := update w.depth co (w.depth co + 1)
    entered := if w.depth co = 0 then w.entered ++ [co] else w.entered }

@[simp] theorem enter_depth_here : (enter w co).depth co = w.depth co + 1 :=
  update_self ..

theorem enter_depth_other {c : Coroutine} (other : c ≠ co) : (enter w co).depth c = w.depth c :=
  update_of_ne other ..

def ask (pending : Nat) : World :=
  let w := { w with asked := if w.depth co = 0 then w.asked ++ [co] else w.asked }
  if w.currentThread ≠ none ∧ w.currentThread ≠ some co then
    { w with
      threadQueue := w.threadQueue ++ [co]
      service := sleep w.service co pending .wait
      blocked := update w.blocked co true }
  else enter w co

/-- The function xpcall_ret: a protected function has returned or failed. -/
def xpcallRet : World :=
  let w := { w with ref := w.ref - 1, depth := update w.depth co (w.depth co - 1) }
  if w.ref = 0 then
    match w.threadQueue with
    | [] => { w with currentThread := none }
    | thread :: rest =>
      { w with
        currentThread := some thread
        threadQueue := rest
        service := wakeup w.service thread
        woken := update w.woken thread true }
  else w

/-- A blocked coroutine goes on after its wait; a failed assertion raises an error in it. -/
def afterWait : World :=
  let w := { w with
    blocked := update w.blocked co false
    woken := update w.woken co false }
  if w.ref = 0 then enter w co else { w with assertFailed := true }

end Operations

inductive Action where
  | service (action : Lualib.Action)
  | ask
  | leave (ok : Bool)
  deriving DecidableEq, Repr

/-- The coroutine that runs goes on in the queue when it was blocked there. -/
def goOn (w : World) : World :=
  match w.service.control with
  | .running co _ => if w.blocked co then afterWait w co else w
  | _ => w

/-- A coroutine cannot end inside a protected function: its error is caught there. -/
def allowed (w : World) (a : Lualib.Action) : Bool :=
  match a, w.service.control with
  | .op .exit, .running co _ | .op .fail, .running co _ => w.depth co = 0
  | _, _ => true

def step (w : World) : Action → Option World
  | .service a =>
    if allowed w a then (Lualib.step w.service a).map fun s => goOn { w with service := s }
    else none
  | .ask =>
    match w.service.control with
    | .running co pending => some (ask w co pending)
    | _ => none
  | .leave _ =>
    match w.service.control with
    | .running co _ => if 0 < w.depth co then some (xpcallRet w co) else none
    | _ => none

def OnlyQueueWakes (w : World) : Action → Prop
  | .service a => ∀ s co pending, Lualib.step w.service a = some s →
    s.control = .running co pending → w.blocked co = true → w.woken co = true
  | .ask | .leave _ => True

end Skynet.Lualib.Queue
