import Mathlib.Data.List.AList
import Mathlib.Logic.Function.Basic

/-! Tables, as functions and as association lists, after one entry has changed. -/
namespace Base
open Function

variable {α β γ : Type*} [DecidableEq α] {table : α → β} {key other : α} {entry value : β}

theorem field_update_iff (field : β → γ) {part : γ} :
    field (update table key entry other) = part ↔
      (other = key ∧ field entry = part) ∨ (other ≠ key ∧ field (table other) = part) := by
  by_cases same : other = key
  · simp [same]
  · simp [same]

theorem update_iff : update table key entry other = value ↔
    (other = key ∧ entry = value) ∨ (other ≠ key ∧ table other = value) :=
  field_update_iff id

theorem update_ne_iff (different : entry ≠ value) :
    update table key entry other = value ↔ other ≠ key ∧ table other = value := by
  simp [update_iff, different]

/-- What the new entry has in common with the old one is the same everywhere. -/
theorem update_same (field : β → γ) (same : field entry = field (table key)) (other : α) :
    field (update table key entry other) = field (table other) := by
  by_cases here : other = key
  · simp [here, same]
  · simp [here]

variable {list : AList fun _ : α => β}

theorem lookup_erase_iff : (list.erase key).lookup other = some value ↔
    other ≠ key ∧ list.lookup other = some value := by
  by_cases same : other = key
  · subst same
    simp
  · simp [same, AList.lookup_erase_ne same]

theorem lookup_insert_iff : (list.insert key entry).lookup other = some value ↔
    (other = key ∧ entry = value) ∨ (other ≠ key ∧ list.lookup other = some value) := by
  by_cases same : other = key
  · subst same
    simp
  · simp [same, AList.lookup_insert_ne same]

end Base
