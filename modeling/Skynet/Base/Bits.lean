import Mathlib

/-! Masks and shifts of natural numbers that stand for machine words. -/
namespace Base

theorem or_mask_eq_iff (a b k : Nat) :
    a ||| (2 ^ k - 1) = b ||| (2 ^ k - 1) ↔ a / 2 ^ k = b / 2 ^ k := by
  constructor
  · intro h
    have low : (2 ^ k - 1) / 2 ^ k = 0 :=
      Nat.div_eq_of_lt (Nat.sub_lt (Nat.two_pow_pos k) Nat.one_pos)
    have shifted := congrArg (fun x => x >>> k) h
    simp only [Nat.shiftRight_or_distrib] at shifted
    simpa only [Nat.shiftRight_eq_div_pow, low, Nat.or_zero] using shifted
  · intro h
    apply Nat.eq_of_testBit_eq
    intro i
    by_cases low : i < k
    · simp [low]
    · have bit := congrArg (fun x => x.testBit (i - k)) h
      have back : i - k + k = i := by omega
      simp only [Nat.testBit_div_two_pow, back] at bit
      simp [low, bit]

theorem and_mask (a k : Nat) : a &&& (2 ^ k - 1) = a % 2 ^ k :=
  Nat.and_two_pow_sub_one_eq_mod a k

theorem or_high {low k : Nat} (small : low < 2 ^ k) (high : Nat) :
    low ||| high * 2 ^ k = low + high * 2 ^ k := by
  rw [Nat.or_comm, Nat.mul_comm high, ← Nat.two_pow_add_eq_or_of_lt small, Nat.add_comm]

/- Numbers that are put together from bytes. -/
theorem join_two (a k : Nat) {b : Nat} (second : b < 256) :
    a <<< (8 + k) ||| b <<< k = (a * 256 + b) <<< k := by
  rw [Nat.shiftLeft_add, ← Nat.shiftLeft_or_distrib, ← Nat.shiftLeft_add_eq_or_of_lt second,
    Nat.shiftLeft_eq a]

theorem join_three (a : Nat) {b c : Nat} (second : b < 256) (third : c < 256) :
    a <<< 16 ||| b <<< 8 ||| c = a * 65536 + b * 256 + c := by
  rw [join_two a 8 second, ← Nat.shiftLeft_add_eq_or_of_lt third, Nat.shiftLeft_eq]
  omega

theorem join_four (a : Nat) {b c d : Nat} (second : b < 256) (third : c < 256) (fourth : d < 256) :
    a <<< 24 ||| b <<< 16 ||| c <<< 8 ||| d = a * 16777216 + b * 65536 + c * 256 + d := by
  rw [join_two a 16 second, join_three _ third fourth]
  omega

end Base
