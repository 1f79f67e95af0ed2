import Mathlib

/-! Lists that are linked through a `next` field, several of them in one memory. -/
namespace Base
open List Function

variable {next : Nat → Option Nat} {p : Option Nat} {l : List Nat} {a x : Nat}

/-- From this pointer the list runs through exactly these nodes. -/
def Path (next : Nat → Option Nat) : Option Nat → List Nat → Prop
  | p, [] => p = none
  | p, a :: l => p = some a ∧ Path next (next a) l

theorem path_none (path : Path next none l) : l = [] := by
  cases l with
  | nil => rfl
  | cons a l => cases path.1

theorem path_some (path : Path next (some a) l) :
    ∃ later, l = a :: later ∧ Path next (next a) later := by
  cases l with
  | nil => cases path
  | cons b later =>
    cases path.1
    exact ⟨later, rfl, path.2⟩

theorem path_congr {next' : Nat → Option Nat} (same : ∀ y ∈ l, next' y = next y)
    (path : Path next p l) : Path next' p l := by
  induction l generalizing p with
  | nil => exact path
  | cons a l ih =>
    refine ⟨path.1, ?_⟩
    rw [same a (mem_cons_self ..)]
    exact ih (fun y member => same y (mem_cons_of_mem a member)) path.2

theorem path_update {v : Option Nat} (absent : x ∉ l) (path : Path next p l) :
    Path (update next x v) p l := by
  refine path_congr (fun y member => ?_) path
  have other : y ≠ x := fun same => absent (same ▸ member)
  exact update_of_ne other ..

theorem path_last {last : Nat} (path : Path next p (l ++ [last])) : next last = none := by
  induction l generalizing p with
  | nil => exact path.2
  | cons a l ih => exact ih path.2

theorem path_link {last : Nat} {rest : List Nat} (nodup : (l ++ [last]).Nodup)
    (path : Path next p (l ++ [last])) (apart : last ∉ rest) (others : Path next (some x) rest) :
    Path (update next last (some x)) p (l ++ last :: rest) := by
  induction l generalizing p with
  | nil =>
    refine ⟨path.1, ?_⟩
    rw [update_self]
    exact path_update apart others
  | cons a l ih =>
    have here : a ≠ last := by
      rintro rfl
      exact (nodup_cons.mp nodup).1 (by simp)
    refine ⟨path.1, ?_⟩
    rw [update_of_ne here]
    exact ih (nodup_cons.mp nodup).2 path.2

/- Neighbours in memory, each linked to the one above it. -/
theorem path_range {size start : Nat} (linked : ∀ i, i + 1 < size →
      next (start + i) = some (start + i + 1)) (final : 0 < size → next (start + (size - 1)) = none)
    (some' : 0 < size) : Path next (some start) (List.range' start size) := by
  induction size generalizing start with
  | zero => cases some'
  | succ size ih =>
    refine ⟨rfl, ?_⟩
    cases size with
    | zero =>
      have last := final some'
      exact last
    | succ size =>
      have first := linked 0 (by omega)
      rw [Nat.add_zero] at first
      rw [first]
      apply ih
      · intro i inside
        have there := linked (i + 1) (by omega)
        rw [show start + (i + 1) = start + 1 + i by omega] at there
        exact there
      · intro _
        have last := final some'
        rw [show start + (size + 1 + 1 - 1) = start + 1 + (size + 1 - 1) by omega] at last
        exact last
      · exact Nat.succ_pos size

end Base
