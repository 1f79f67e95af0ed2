import Mathlib

/-! Counting over a finite set of agents: how much they hold together. One agent's move changes
the total by what it gives up and what it takes. -/
namespace Base
open Function

/-- One when a count has come to zero. -/
def ifZero (n : Int) : Nat := if n = 0 then 1 else 0

theorem ifZero_of_eq {n : Int} (none : n = 0) : ifZero n = 1 := if_pos none

theorem ifZero_of_ne {n : Int} (nonzero : n ≠ 0) : ifZero n = 0 := if_neg nonzero

variable {A P : Type} [Fintype A]

def total (weight : P → Nat) (state : A → P) : Nat := ∑ a, weight (state a)

theorem weight_le_total (weight : P → Nat) (state : A → P) (a : A) :
    weight (state a) ≤ total weight state :=
  Finset.single_le_sum (fun b _ => Nat.zero_le (weight (state b))) (Finset.mem_univ a)

theorem total_eq_zero {weight : P → Nat} {state : A → P} (empty : total weight state = 0) (a : A) :
    weight (state a) = 0 :=
  Nat.le_zero.mp (empty ▸ weight_le_total weight state a)

theorem total_of_zero {weight : P → Nat} {state : A → P} (each : ∀ a, weight (state a) = 0) :
    total weight state = 0 :=
  Finset.sum_eq_zero fun a _ => each a

theorem total_update [DecidableEq A] (weight : P → Nat) (state : A → P) (a : A) (p : P) :
    total weight (Function.update state a p) + weight (state a) =
      total weight state + weight p := by
  have member := Finset.mem_univ a
  have others : ∑ b ∈ Finset.univ.erase a, weight (update state a p b) =
      ∑ b ∈ Finset.univ.erase a, weight (state b) := by
    refine Finset.sum_congr rfl fun b other => ?_
    rw [update_of_ne (Finset.ne_of_mem_erase other)]
  have before := Finset.add_sum_erase Finset.univ (fun b => weight (state b)) member
  have after := Finset.add_sum_erase Finset.univ (fun b => weight (update state a p b)) member
  rw [others, update_self] at after
  unfold total
  omega

end Base
