import Mathlib

/-! Little-endian numbers of a fixed number of bytes, and two's complement. -/
namespace Base

/-- The low `k` bytes of a number, lowest first. -/
def leBytes : Nat → Nat → List UInt8
  | 0, _ => []
  | k + 1, n => n.toUInt8 :: leBytes k (n / 256)

def leValue : List UInt8 → Nat
  | [] => 0
  | b :: l => b.toNat + 256 * leValue l

/-- The number that the low `w` bits stand for. -/
def signed (w : Nat) (n : Int) : Int :=
  if n % 2 ^ w < 2 ^ (w - 1) then n % 2 ^ w else n % 2 ^ w - 2 ^ w

@[simp] theorem leBytes_length (k n : Nat) : (leBytes k n).length = k := by
  induction k generalizing n with
  | zero => rfl
  | succ k ih => simp [leBytes, ih]

theorem leValue_leBytes (k n : Nat) : leValue (leBytes k n) = n % 256 ^ k := by
  induction k generalizing n with
  | zero => simp [leBytes, leValue, Nat.mod_one]
  | succ k ih =>
    have byte : n.toUInt8.toNat = n % 256 := UInt8.toNat_ofNat'
    rw [leBytes, leValue, ih, byte, Nat.pow_succ', Nat.mod_mul]

theorem leValue_lt (l : List UInt8) : leValue l < 256 ^ l.length := by
  induction l with
  | nil => simp [leValue]
  | cons b l ih =>
    have byte := b.toNat_lt
    rw [leValue, List.length_cons, Nat.pow_succ]
    omega

theorem leValue_leBytes_of_lt {k n : Nat} (small : n < 256 ^ k) : leValue (leBytes k n) = n := by
  rw [leValue_leBytes, Nat.mod_eq_of_lt small]

theorem two_pow_half {w : Nat} (positive : 0 < w) : (2 : Int) ^ w = 2 ^ (w - 1) + 2 ^ (w - 1) := by
  rw [← Int.two_mul, ← Int.pow_succ', Nat.sub_add_cancel positive]

theorem signed_of_range {w : Nat} {n : Int} (positive : 0 < w) (low : -2 ^ (w - 1) ≤ n)
    (high : n < 2 ^ (w - 1)) : signed w n = n := by
  have double := two_pow_half positive
  have step : n % 2 ^ w = if 0 ≤ n then n else n + 2 ^ w := by
    split
    · exact Int.emod_eq_of_lt (by assumption) (by omega)
    · rw [← Int.add_emod_right, Int.emod_eq_of_lt (by omega) (by omega)]
  unfold signed
  rw [step]
  split_ifs <;> omega

theorem signed_emod (w : Nat) (n : Int) : signed w (n % 2 ^ w) = signed w n := by
  unfold signed
  rw [Int.emod_emod_of_dvd _ (Int.dvd_refl _)]

theorem signed_range {w : Nat} (positive : 0 < w) (n : Int) :
    -2 ^ (w - 1) ≤ signed w n ∧ signed w n < 2 ^ (w - 1) := by
  have double := two_pow_half positive
  unfold signed
  split_ifs <;> omega

end Base
