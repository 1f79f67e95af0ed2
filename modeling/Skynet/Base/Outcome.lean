import Mathlib

/-! What a computation that may fail leaves behind: a condition on its result and one on its
failure. -/
namespace Base

variable {E A B : Type} {bad : E → Prop} {P P' : A → Prop} {Q : B → Prop}

def Yields (bad : E → Prop) (P : A → Prop) : Except E A → Prop
  | .ok a => P a
  | .error e => bad e

variable {x : Except E A} {f : A → Except E B}

theorem Yields.bind (first : Yields bad P x) (rest : ∀ a, P a → Yields bad Q (f a)) :
    Yields bad Q (x >>= f) := by
  cases x with
  | error e => exact first
  | ok a => exact rest a first

theorem Yields.map {f : A → B} (first : Yields bad P x) (rest : ∀ a, P a → Q (f a)) :
    Yields bad Q (x.map f) := by
  cases x with
  | error e => exact first
  | ok a => exact rest a first

/- When any failure will do, only the result of the first part matters. -/
theorem Yields.after (rest : ∀ a, x = .ok a → Yields (fun _ => True) Q (f a)) :
    Yields (fun _ => True) Q (x >>= f) := by
  cases x with
  | error e => trivial
  | ok a => exact rest a rfl

theorem Yields.mapped {f : A → B} (rest : ∀ a, x = .ok a → Q (f a)) :
    Yields (fun _ => True) Q (x.map f) := by
  cases x with
  | error e => trivial
  | ok a => exact rest a rfl

theorem Yields.mono (first : Yields bad P x) (implied : ∀ a, P a → P' a) :
    Yields bad P' x := by
  cases x with
  | error e => exact first
  | ok a => exact implied a first

theorem Yields.ite {c : Prop} [Decidable c] {y : Except E A} (yes : c → Yields bad P x)
    (no : ¬c → Yields bad P y) : Yields bad P (if c then x else y) := by
  split
  · exact yes (by assumption)
  · exact no (by assumption)

theorem Yields.either {c : Prop} [Decidable c] {y : Except E A} (yes : Yields bad P x)
    (no : Yields bad P y) : Yields bad P (if c then x else y) :=
  .ite (fun _ => yes) fun _ => no

theorem ok_bind (a : A) (f : A → Except E B) : (Except.ok a >>= f) = f a := rfl

theorem bind_ok {r : B} (done : x >>= f = .ok r) :
    ∃ a, x = .ok a ∧ f a = .ok r := by
  cases x with
  | error e => cases done
  | ok a => exact ⟨a, rfl, done⟩

end Base
