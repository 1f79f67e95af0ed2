import Skynet.Base.Bits
import Skynet.Base.LittleEndian
import Skynet.Base.Modular

/-! The key exchange of lua-crypt: numbers of 64 bits, modulo the biggest prime below 2^64. -/
namespace Skynet.Crypt

open Base

inductive Fault where
  | error (text : String)
  | endless
deriving DecidableEq, Repr

theorem halved (b : UInt64) : (b >>> 1).toNat = b.toNat / 2 := by
  rw [UInt64.toNat_shiftRight, Nat.shiftRight_eq_div_pow]
  rfl

variable {b a x y : UInt64}

theorem toNat_pos (nonzero : b ≠ 0) : 0 < b.toNat :=
  Nat.pos_of_ne_zero fun zero => nonzero (UInt64.toNat_inj.mp zero)

theorem halved_lt (nonzero : b ≠ 0) : (b >>> 1).toNat < b.toNat := by
  have positive := toNat_pos nonzero
  rw [halved]
  omega

/-- The biggest 64bit prime -/
@[irreducible] def P : UInt64 := 0xffffffffffffffc5

def G : UInt64 := 5

/-- Adding the operand to what has been added so far. -/
def addModP (m a : UInt64) : UInt64 :=
  let t := P - a
  if m ≥ t then m - t else m + a

def doubleModP (a : UInt64) : UInt64 := if a ≥ P - a then a * 2 - P else a * 2

/-- The loop of `mul_mod_p`: the sum, the doubled operand, the bits that are left. -/
def mulModLoop (m a b : UInt64) : UInt64 :=
  if b = 0 then m
  else mulModLoop (if b &&& 1 ≠ 0 then addModP m a else m) (doubleModP a) (b >>> 1)
termination_by b.toNat
decreasing_by exact halved_lt (by assumption)

def mulModP (a b : UInt64) : UInt64 := mulModLoop 0 a b

/-- The zeroth power is not one of its cases: the recursion does not reach its end there. -/
def powModP (a b : UInt64) : Except Fault UInt64 :=
  if b = 0 then .error .endless
  else if b = 1 then .ok a
  else (powModP a (b >>> 1)).map fun t =>
    let t := mulModP t t
    if b % 2 ≠ 0 then mulModP t a else t
termination_by b.toNat
decreasing_by exact halved_lt (by assumption)

def powmodp (a b : UInt64) : Except Fault UInt64 :=
  powModP (if a > P then a % P else a) b

/-- Four bytes of a string, lowest first. -/
def word (a b c d : UInt8) : Nat :=
  a.toNat ||| b.toNat <<< 8 ||| c.toNat <<< 16 ||| d.toNat <<< 24

def read64 (text : String) : List UInt8 → Except Fault UInt64
  | [a, b, c, d, e, f, g, h] => .ok (UInt64.ofNat (word a b c d ||| word e f g h <<< 32))
  | _ => .error (.error text)

def push64 (r : UInt64) : List UInt8 :=
  ([0, 8, 16, 24, 32, 40, 48, 56] : List UInt64).map fun shift => ((r >>> shift) &&& 0xff).toUInt8

def ldhsecret (x y : List UInt8) : Except Fault (List UInt8) := do
  let xx ← read64 "Invalid uint64 x" x
  let yy ← read64 "Invalid uint64 y" y
  if xx = 0 ∨ yy = 0 then .error (.error "Can't be 0")
  else (powmodp xx yy).map push64

def ldhexchange (x : List UInt8) : Except Fault (List UInt8) := do
  let x64 ← read64 "Invalid dh uint64 key" x
  if x64 = 0 then .error (.error "Can't be 0")
  else (powmodp G x64).map push64

theorem modulus : P.toNat = 2 ^ 64 - 59 := by
  unfold P
  rfl

/- The comparison before each sum is what keeps it within 64 bits. -/
theorem addModP_eq {m : UInt64} (left : m.toNat < P.toNat) (right : a.toNat < P.toNat) :
    (addModP m a).toNat = addMod P.toNat m.toNat a.toNat := by
  have room : (P - a).toNat = P.toNat - a.toNat :=
    UInt64.toNat_sub_of_le _ _ (UInt64.le_iff_toNat_le.mpr (by omega))
  have same : m ≥ P - a ↔ P.toNat - a.toNat ≤ m.toNat := by
    rw [ge_iff_le, UInt64.le_iff_toNat_le, room]
  unfold addModP addMod
  dsimp only
  split
  · rename_i beyond
    rw [if_pos (same.mp beyond), UInt64.toNat_sub_of_le _ _ beyond, room]
  · rename_i fits
    have small := mt same.mpr fits
    rw [if_neg small, UInt64.toNat_add]
    rw [modulus] at small left right
    omega

theorem doubleModP_eq (small : a.toNat < P.toNat) :
    (doubleModP a).toNat = addMod P.toNat a.toNat a.toNat := by
  have twice : a * 2 = a + a := by
    rw [← UInt64.toNat_inj, UInt64.toNat_mul, UInt64.toNat_add]
    exact congrArg (· % 2 ^ 64) (Nat.mul_two _)
  rw [← addModP_eq small small, addModP, doubleModP, twice, sub_sub_eq_add_sub]

theorem odd_iff (b : UInt64) : b &&& 1 ≠ 0 ↔ b.toNat % 2 = 1 := by
  rw [ne_eq, ← UInt64.toNat_inj, UInt64.toNat_and]
  change ¬b.toNat &&& 1 = 0 ↔ _
  rw [Nat.and_one_is_mod]
  omega

theorem mulModLoop_eq (m a b : UInt64) (left : m.toNat < P.toNat) (right : a.toNat < P.toNat) :
    (mulModLoop m a b).toNat = mulMod P.toNat m.toNat a.toNat b.toNat := by
  fun_induction mulModLoop m a b with
  | case1 m a => exact (mulMod_zero P.toNat m.toNat a.toNat).symm
  | case2 m a b more ih =>
    have sum : (if b &&& 1 ≠ 0 then addModP m a else m).toNat =
        if b.toNat % 2 = 1 then addMod P.toNat m.toNat a.toNat else m.toNat := by
      rw [apply_ite UInt64.toNat, addModP_eq left right]
      simp only [odd_iff]
    have below : (if b &&& 1 ≠ 0 then addModP m a else m).toNat < P.toNat := by
      rw [sum]
      split
      · exact addMod_lt left right
      · exact left
    have next := doubleModP_eq right
    simp only [dite_eq_ite] at ih
    rw [ih below (next ▸ addMod_lt right right), next, sum, halved,
      mulMod_of_pos _ _ _ (toNat_pos more)]

theorem mulModP_eq (small : a.toNat < P.toNat) (b : UInt64) :
    (mulModP a b).toNat = mulMod P.toNat 0 a.toNat b.toNat :=
  mulModLoop_eq 0 a b (by rw [modulus]; decide) small

theorem powModP_eq (a b : UInt64) (small : a.toNat < P.toNat) (nonzero : b ≠ 0) :
    ∃ r, powModP a b = .ok r ∧ r.toNat = powMod P.toNat a.toNat b.toNat := by
  fun_induction powModP a b with
  | case1 => exact absurd rfl nonzero
  | case2 => exact ⟨a, rfl, (powMod_one P.toNat a.toNat).symm⟩
  | case3 b nonzero more ih =>
    have two : 2 ≤ b.toNat := by
      have positive := toNat_pos nonzero
      have other : b.toNat ≠ 1 := fun one => more (UInt64.toNat_inj.mp one)
      omega
    have half : 0 < (b >>> 1).toNat := by
      rw [halved]
      omega
    obtain ⟨t, returned, value⟩ := ih fun zero => by simp [zero] at half
    have below : t.toNat < P.toNat := value ▸ powMod_lt small half
    have square := mulModP_eq below t
    have squareBelow : (mulModP t t).toNat < P.toNat := square ▸ mulMod_lt below _
    have odd : b % 2 ≠ 0 ↔ b.toNat % 2 = 1 := by
      rw [ne_eq, ← UInt64.toNat_inj, UInt64.toNat_mod]
      change ¬b.toNat % 2 = 0 ↔ _
      omega
    refine ⟨_, by rw [returned]; rfl, ?_⟩
    rw [apply_ite UInt64.toNat, mulModP_eq squareBelow, square, value, halved,
      powMod_of_two_le _ _ two]
    simp only [odd]

theorem powmodp_eq (small : a.toNat < P.toNat) (nonzero : b ≠ 0) :
    ∃ r, powmodp a b = .ok r ∧ r.toNat = a.toNat ^ b.toNat % P.toNat := by
  obtain ⟨r, returned, value⟩ := powModP_eq a b small nonzero
  refine ⟨r, ?_, value.trans (powMod_eq small (toNat_pos nonzero))⟩
  have reduced : ¬a > P := by
    rw [gt_iff_lt, UInt64.lt_iff_toNat_lt]
    omega
  rw [powmodp, if_neg reduced, returned]

theorem byte_of_shift (r shift : UInt64) (small : shift.toNat < 64) :
    ((r >>> shift) &&& 0xff).toUInt8 = (r.toNat / 2 ^ shift.toNat).toUInt8 := by
  apply UInt8.toNat_inj.mp
  have mask : (0xff : UInt64).toNat = 2 ^ 8 - 1 := rfl
  rw [UInt64.toNat_toUInt8, UInt64.toNat_and, UInt64.toNat_shiftRight, Nat.shiftRight_eq_div_pow,
    Nat.mod_eq_of_lt small, mask, Nat.and_two_pow_sub_one_eq_mod, Nat.mod_mod]
  exact UInt8.toNat_ofNat'.symm

theorem push64_eq (r : UInt64) : push64 r = leBytes 8 r.toNat := by
  simp only [push64, List.map_cons, List.map_nil, leBytes, Nat.div_div_eq_div_mul]
  iterate 8 rw [byte_of_shift _ _ (by decide)]
  rw [show UInt64.toNat 0 = 0 from rfl, Nat.pow_zero, Nat.div_one]
  rfl

theorem word_eq (a b c d : UInt8) : word a b c d = leValue [a, b, c, d] := by
  have first := a.toNat_lt
  have second := b.toNat_lt
  have third := c.toNat_lt
  simp only [word, Nat.shiftLeft_eq, leValue]
  rw [or_high (k := 8) (by omega), or_high (k := 16) (by omega), or_high (k := 24) (by omega)]
  omega

theorem read64_eq (text : String) {s : List UInt8} (whole : s.length = 8) :
    read64 text s = .ok (UInt64.ofNat (leValue s)) := by
  match s, whole with
  | [a, b, c, d, e, f, g, h], _ =>
    have low : word a b c d < 2 ^ 32 := by
      rw [word_eq]
      exact (leValue_lt [a, b, c, d]).trans_eq (by norm_num)
    have joined : word a b c d ||| word e f g h <<< 32 = leValue [a, b, c, d, e, f, g, h] := by
      rw [Nat.shiftLeft_eq, or_high low, word_eq, word_eq]
      simp only [leValue]
      omega
    rw [read64, joined]

theorem read64_push64 (text : String) (r : UInt64) : read64 text (push64 r) = .ok r := by
  rw [push64_eq, read64_eq text (leBytes_length 8 _), leValue_leBytes_of_lt r.toNat_lt,
    UInt64.ofNat_toNat]

theorem ldhexchange_eq (nonzero : x ≠ 0) :
    ∃ r, ldhexchange (push64 x) = .ok (push64 r) ∧ r.toNat = 5 ^ x.toNat % P.toNat := by
  have small : G.toNat < P.toNat := by
    rw [modulus]
    decide
  obtain ⟨r, returned, value⟩ := powmodp_eq small nonzero
  refine ⟨r, ?_, value⟩
  unfold ldhexchange
  rw [read64_push64]
  change (if x = 0 then _ else _) = _
  rw [if_neg nonzero, returned]
  rfl

theorem ldhsecret_eq (small : x.toNat < P.toNat) (first : x ≠ 0) (second : y ≠ 0) :
    ∃ r, ldhsecret (push64 x) (push64 y) = .ok (push64 r) ∧
      r.toNat = x.toNat ^ y.toNat % P.toNat := by
  obtain ⟨r, returned, value⟩ := powmodp_eq small second
  refine ⟨r, ?_, value⟩
  unfold ldhsecret
  rw [read64_push64, read64_push64]
  change (if x = 0 ∨ y = 0 then _ else _) = _
  rw [if_neg (by tauto), returned]
  rfl

/- Five and the modulus have no common factor, so no power of it is a multiple of the modulus. -/
theorem power_ne_zero (n : Nat) : 5 ^ n % P.toNat ≠ 0 := by
  intro zero
  have coprime : Nat.Coprime P.toNat (5 ^ n) := by
    apply Nat.Coprime.pow_right
    rw [modulus]
    decide
  have divides := Nat.dvd_of_mod_eq_zero zero
  have one := Nat.eq_one_of_dvd_coprimes coprime (Nat.dvd_refl _) divides
  rw [modulus] at one
  omega

theorem secret_of_exchange (first : x ≠ 0) (second : y ≠ 0) :
    ∃ r, (ldhexchange (push64 x) >>= fun sent => ldhsecret sent (push64 y)) =
        .ok (push64 r) ∧ r.toNat = 5 ^ (x.toNat * y.toNat) % P.toNat := by
  obtain ⟨e, exchanged, power⟩ := ldhexchange_eq first
  have nonzero : e ≠ 0 := by
    intro zero
    rw [zero] at power
    exact power_ne_zero x.toNat power.symm
  have small : e.toNat < P.toNat := by
    rw [power]
    apply Nat.mod_lt
    rw [modulus]
    decide
  obtain ⟨r, secret, value⟩ := ldhsecret_eq small nonzero second
  refine ⟨r, by rw [exchanged]; exact secret, ?_⟩
  rw [value, power, ← Nat.pow_mod, ← Nat.pow_mul]

theorem mulModP_exact (small : a < P) (b : UInt64) :
    (mulModP a b).toNat = a.toNat * b.toNat % (2 ^ 64 - 59) := by
  have below := UInt64.lt_iff_toNat_lt.mp small
  rw [mulModP_eq below, mulMod_eq (by omega) below, Nat.zero_add, modulus]

theorem powModP_exact (small : a < P) (nonzero : b ≠ 0) :
    ∃ r, powModP a b = .ok r ∧ r.toNat = a.toNat ^ b.toNat % (2 ^ 64 - 59) := by
  have below := UInt64.lt_iff_toNat_lt.mp small
  obtain ⟨r, returned, value⟩ := powModP_eq a b below nonzero
  refine ⟨r, returned, ?_⟩
  rw [value, powMod_eq below (toNat_pos nonzero), modulus]

/-- Both sides of the exchange arrive at one secret, with exact products and powers on the way. -/
theorem diffie_hellman_agreement (x y : UInt64) (first : x ≠ 0) (second : y ≠ 0) :
    (∃ r : UInt64, r.toNat = 5 ^ (x.toNat * y.toNat) % (2 ^ 64 - 59) ∧
      (ldhexchange (push64 x) >>= fun sent => ldhsecret sent (push64 y)) = .ok (push64 r) ∧
      (ldhexchange (push64 y) >>= fun sent => ldhsecret sent (push64 x)) = .ok (push64 r)) ∧
    (∀ a b : UInt64, a < P → (mulModP a b).toNat = a.toNat * b.toNat % (2 ^ 64 - 59)) ∧
    ∀ a b : UInt64, a < P → b ≠ 0 →
      ∃ r, powModP a b = .ok r ∧ r.toNat = a.toNat ^ b.toNat % (2 ^ 64 - 59) := by
  refine ⟨?_, fun _ b small => mulModP_exact small b,
    fun _ _ small nonzero => powModP_exact small nonzero⟩
  obtain ⟨r, left, power⟩ := secret_of_exchange first second
  obtain ⟨r', right, power'⟩ := secret_of_exchange second first
  have same : r' = r := by
    rw [← UInt64.toNat_inj, power, power', Nat.mul_comm]
  rw [modulus] at power
  exact ⟨r, power, left, same ▸ right⟩

theorem diffie_hellman_six_seven :
    ∃ r : UInt64, r.toNat = 5 ^ (6 * 7) % (2 ^ 64 - 59) ∧
      (ldhexchange (push64 6) >>= fun sent => ldhsecret sent (push64 7)) = .ok (push64 r) ∧
      (ldhexchange (push64 7) >>= fun sent => ldhsecret sent (push64 6)) = .ok (push64 r) :=
  (diffie_hellman_agreement 6 7 (by decide) (by decide)).1

end Skynet.Crypt
