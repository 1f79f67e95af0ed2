import Mathlib

/-! Runs of a partial step function. A guard restricts the steps a run may take,
so one rule serves both the statements about every run and those about the runs
whose steps all meet a condition. -/
namespace Base
open List Option

variable {S A : Type} {step : S → A → Option S} {guard : S → A → Prop}

/-- The states reached from `initial` by steps that all meet the guard. -/
inductive Reaches (step : S → A → Option S) (guard : S → A → Prop) (initial : S) : S → Prop where
  | start : Reaches step guard initial initial
  | next {s s' : S} {a : A} :
      Reaches step guard initial s → guard s a → step s a = some s' →
        Reaches step guard initial s'

/-- A run that may take any step. -/
abbrev Run (step : S → A → Option S) (initial : S) : S → Prop :=
  Reaches step (fun _ _ => True) initial

variable {initial s : S}

theorem Reaches.invariant (P : S → Prop) (start : P initial)
    (keeps : ∀ s a s', P s → guard s a → step s a = some s' → P s')
    (reached : Reaches step guard initial s) : P s := by
  induction reached with
  | start => exact start
  | next _ allowed taken ih => exact keeps _ _ _ ih allowed taken

theorem Reaches.trans {a b c : S} (first : Reaches step guard a b)
    (second : Reaches step guard b c) : Reaches step guard a c := by
  induction second with
  | start => exact first
  | next _ allowed taken ih => exact .next ih allowed taken

theorem reaches_of_list (actions : List A) (allowed : ∀ a ∈ actions, ∀ s, guard s a)
    (taken : actions.foldlM step initial = some s) :
    Reaches step guard initial s := by
  induction actions generalizing initial with
  | nil => cases some.inj taken; exact .start
  | cons a actions ih =>
    rw [foldlM_cons, bind_eq_bind, bind_eq_some_iff] at taken
    obtain ⟨next, first, rest⟩ := taken
    have here := allowed a (mem_cons_self ..) initial
    exact Reaches.trans (.next .start here first)
      (ih (fun b member => allowed b (mem_cons_of_mem a member)) rest)

/-- A run whose steps are checked one by one. -/
theorem reaches_of_checked (check : S → A → Bool) (implied : ∀ s a, check s a = true → guard s a)
    (actions : List A)
    (taken : actions.foldlM (fun s a => if check s a then step s a else none) initial = some s) :
    Reaches step guard initial s := by
  induction actions generalizing initial with
  | nil => cases some.inj taken; exact .start
  | cons a actions ih =>
    rw [foldlM_cons, bind_eq_bind, bind_eq_some_iff] at taken
    obtain ⟨next, first, rest⟩ := taken
    obtain ⟨passed, first⟩ := ite_none_right_eq_some.mp first
    exact Reaches.trans (.next .start (implied initial a passed) first) (ih rest)

theorem run_of_list (actions : List A) (taken : actions.foldlM step initial = some s) :
    Run step initial s :=
  reaches_of_list actions (fun _ _ _ => trivial) taken

end Base
