import Mathlib

/-! Multiplication by adding and doubling, and powers by squaring, modulo a number that may be close
to the largest one the machine holds: no sum is formed before it is known to fit. -/
namespace Base

/-- The sum of two residues, by comparing before adding. -/
def addMod (p m a : Nat) : Nat := if p - a ≤ m then m - (p - a) else m + a

def mulMod (p m a b : Nat) : Nat :=
  if b = 0 then m
  else mulMod p (if b % 2 = 1 then addMod p m a else m) (addMod p a a) (b / 2)

def powMod (p a b : Nat) : Nat :=
  if b ≤ 1 then a
  else
    let t := powMod p a (b / 2)
    if b % 2 = 1 then mulMod p 0 (mulMod p 0 t t) a else mulMod p 0 t t

variable {p m a b : Nat}

theorem addMod_eq (left : m < p) (right : a < p) : addMod p m a = (m + a) % p := by
  unfold addMod
  split
  · rw [Nat.mod_eq_sub_mod (by omega), Nat.mod_eq_of_lt (by omega)]
    omega
  · rw [Nat.mod_eq_of_lt (by omega)]

theorem addMod_lt (left : m < p) (right : a < p) : addMod p m a < p := by
  rw [addMod_eq left right]
  exact Nat.mod_lt _ (by omega)

theorem mulMod_zero (p m a : Nat) : mulMod p m a 0 = m := by
  rw [mulMod, if_pos rfl]

theorem mulMod_of_pos (p m a : Nat) (positive : 0 < b) :
    mulMod p m a b =
      mulMod p (if b % 2 = 1 then addMod p m a else m) (addMod p a a) (b / 2) := by
  rw [mulMod, if_neg positive.ne']

/- The loop keeps `m + a * b` modulo the number while it halves `b`. -/
theorem mulMod_eq (left : m < p) (right : a < p) (b : Nat) :
    mulMod p m a b = (m + a * b) % p := by
  fun_induction mulMod p m a b with
  | case1 m a => rw [Nat.mul_zero, Nat.add_zero, Nat.mod_eq_of_lt left]
  | case2 m a b positive ih =>
    have added : (if b % 2 = 1 then addMod p m a else m) ≡ m + a * (b % 2) [MOD p] := by
      split
      next odd =>
        rw [odd, Nat.mul_one, addMod_eq left right]
        exact Nat.mod_modEq _ _
      next even => rw [show b % 2 = 0 by omega, Nat.mul_zero, Nat.add_zero]
    have doubled : addMod p a a ≡ a + a [MOD p] := by
      rw [addMod_eq right right]
      exact Nat.mod_modEq _ _
    have below : (if b % 2 = 1 then addMod p m a else m) < p := by
      split
      · exact addMod_lt left right
      · exact left
    have kept : m + a * (b % 2) + (a + a) * (b / 2) = m + a * b := by
      nth_rewrite 3 [← Nat.div_add_mod b 2]
      ring
    rw [← kept]
    exact (ih below (addMod_lt right right)).trans (added.add (doubled.mul_right _))

theorem powMod_one (p a : Nat) : powMod p a 1 = a := by
  rw [powMod, if_pos (Nat.le_refl 1)]

theorem powMod_of_two_le (p a : Nat) (more : 2 ≤ b) :
    powMod p a b =
      if b % 2 = 1 then
        mulMod p 0 (mulMod p 0 (powMod p a (b / 2)) (powMod p a (b / 2))) a
      else mulMod p 0 (powMod p a (b / 2)) (powMod p a (b / 2)) := by
  rw [powMod, if_neg (by omega)]

theorem powMod_eq (small : a < p) (positive : 0 < b) :
    powMod p a b = a ^ b % p := by
  induction b using Nat.strong_induction_on with
  | _ b ih =>
    have above : 0 < p := by omega
    rcases Nat.lt_or_ge b 2 with one | more
    · rw [show b = 1 by omega, powMod_one, Nat.pow_one, Nat.mod_eq_of_lt small]
    · have half := ih (b / 2) (by omega) (by omega)
      have parts : b = b / 2 + b / 2 + b % 2 := by omega
      have square : mulMod p 0 (powMod p a (b / 2)) (powMod p a (b / 2)) =
          a ^ (b / 2 + b / 2) % p := by
        rw [half, mulMod_eq above (Nat.mod_lt _ above), Nat.zero_add, ← Nat.mul_mod, ← Nat.pow_add]
      rw [powMod_of_two_le p a more, square]
      split
      · rename_i odd
        rw [mulMod_eq above (Nat.mod_lt _ above), Nat.zero_add, Nat.mod_mul_mod]
        rw [odd] at parts
        nth_rewrite 3 [parts]
        rw [Nat.pow_succ]
      · rw [show b % 2 = 0 by omega] at parts
        rw [← Nat.add_zero (b / 2 + b / 2), ← parts]

theorem powMod_lt (small : a < p) (positive : 0 < b) : powMod p a b < p := by
  rw [powMod_eq small positive]
  exact Nat.mod_lt _ (by omega)

theorem mulMod_lt (small : a < p) (b : Nat) : mulMod p 0 a b < p := by
  rw [mulMod_eq (by omega) small]
  exact Nat.mod_lt _ (by omega)

end Base
