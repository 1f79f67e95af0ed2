import Mathlib

/-! Hexadecimal texts in lua-crypt. -/
namespace Skynet.Crypt

/-- How a call ends without a string: with an error, or where C leaves open what happens. -/
inductive Stop where
  | error (text : String)
  | undefined
deriving DecidableEq, Repr

def hex : List Char :=
  ['0', '1', '2', '3', '4', '5', '6', '7', '8', '9', 'a', 'b', 'c', 'd', 'e', 'f']

def digits (b : UInt8) : List UInt8 :=
  [(hex.getD (b >>> 4).toNat '0').toUInt8, (hex.getD (b &&& 0xf).toNat '0').toUInt8]

/- The index is an int, and is doubled before it is used. -/
def toHexLoop (i : Nat) : List UInt8 → Except Stop (List UInt8)
  | [] => .ok []
  | b :: text =>
    if 2 ^ 31 ≤ 2 * i + 1 then .error .undefined
    else (toHexLoop (i + 1) text).map (digits b ++ ·)

def ltohex (text : List UInt8) : Except Stop (List UInt8) := toHexLoop 0 text

/- The value of a character that is no digit is its distance from 'a', in eight bits. -/
def HEX (c : UInt8) : UInt8 := if 48 ≤ c ∧ c ≤ 57 then c - 48 else c - 97 + 10

def fromHexLoop (i : Nat) : List UInt8 → Except Stop (List UInt8)
  | hi :: low :: text =>
    if 16 < HEX hi ∨ 16 < HEX low then .error (.error "Invalid hex text")
    else if 2 ^ 31 ≤ i + 2 then .error .undefined
    else (fromHexLoop (i + 2) text).map ((HEX hi <<< 4 ||| HEX low) :: ·)
  | [] | [_] => .ok []

def lfromhex (text : List UInt8) : Except Stop (List UInt8) :=
  if text.length % 2 = 1 then .error (.error s!"Invalid hex text size {text.length}")
  else fromHexLoop 0 text

def HexDigit (c : UInt8) : Prop := 48 ≤ c ∧ c ≤ 57 ∨ 97 ≤ c ∧ c ≤ 102

instance : DecidablePred HexDigit := fun _ => inferInstanceAs (Decidable (_ ∨ _))

/-- The other characters whose distance from 'a' is not taken to be too large. -/
def Stray (c : UInt8) : Prop := 87 ≤ c ∧ c ≤ 96 ∨ c = 103

instance : DecidablePred Stray := fun _ => inferInstanceAs (Decidable (_ ∨ _))

theorem each_byte {p : UInt8 → Prop} (each : ∀ n < 256, p (UInt8.ofNat n)) (c : UInt8) : p c := by
  have here := each c.toNat c.toNat_lt
  rwa [UInt8.ofNat_toNat] at here

theorem HEX_le_iff : ∀ c, ¬ Stray c → (HEX c ≤ 16 ↔ HexDigit c) := each_byte (by decide +kernel)

theorem hex_HEX : ∀ c, HexDigit c → HEX c < 16 ∧ (hex.getD (HEX c).toNat '0').toUInt8 = c :=
  each_byte (by decide +kernel)

theorem halves : ∀ a b : UInt8, a < 16 → b < 16 →
    (a <<< 4 ||| b) >>> 4 = a ∧ (a <<< 4 ||| b) &&& 0xf = b := by
  intro a b high low
  have both : ∀ m < 16, ∀ n < 16, (UInt8.ofNat m <<< 4 ||| UInt8.ofNat n) >>> 4 = UInt8.ofNat m ∧
      (UInt8.ofNat m <<< 4 ||| UInt8.ofNat n) &&& 0xf = UInt8.ofNat n := by decide
  simpa using both a.toNat (UInt8.lt_iff_toNat_lt.mp high) b.toNat (UInt8.lt_iff_toNat_lt.mp low)

/-- The digits of the byte that is read from two of them. -/
theorem digits_pair {a b : UInt8} (high : HexDigit a) (low : HexDigit b) :
    digits (HEX a <<< 4 ||| HEX b) = [a, b] := by
  obtain ⟨hi, upper⟩ := hex_HEX a high
  obtain ⟨lo, lower⟩ := hex_HEX b low
  obtain ⟨left, right⟩ := halves _ _ hi lo
  rw [digits, left, right, upper, lower]

theorem toHexLoop_ok (text : List UInt8) (i : Nat) (small : i + text.length ≤ 2 ^ 30) :
    toHexLoop i text = .ok (text.flatMap digits) := by
  induction text generalizing i with
  | nil => rfl
  | cons b text ih =>
    rw [List.length_cons] at small
    rw [toHexLoop, if_neg (by omega), ih _ (by omega)]
    rfl

theorem fromHexLoop_spec (s : List UInt8) (i : Nat) (small : i + s.length < 2 ^ 31)
    (even : s.length % 2 = 0) (proper : ∀ c ∈ s, ¬ Stray c) :
    (∃ out, fromHexLoop i s = .ok out ∧ (∀ c ∈ s, HexDigit c) ∧ out.flatMap digits = s) ∨
    (∃ e, fromHexLoop i s = .error e) ∧ ¬ ∀ c ∈ s, HexDigit c := by
  fun_induction fromHexLoop i s with
  | case1 i hi low text large =>
    have high := HEX_le_iff hi (proper hi (by simp))
    have lower := HEX_le_iff low (proper low (by simp))
    exact .inr ⟨⟨_, rfl⟩, by grind⟩
  | case2 => grind
  | case3 i hi low text accepted _ ih =>
    rw [not_or, UInt8.not_lt, UInt8.not_lt, HEX_le_iff hi (proper hi (by simp)),
      HEX_le_iff low (proper low (by simp))] at accepted
    obtain ⟨out, read, digit, back⟩ | ⟨⟨e, read⟩, other⟩ := ih (by grind) (by grind) (by grind)
    · refine .inl ⟨(HEX hi <<< 4 ||| HEX low) :: out, by rw [read]; rfl, by grind, ?_⟩
      rw [List.flatMap_cons, digits_pair accepted.1 accepted.2, back]
      rfl
    · exact .inr ⟨⟨e, by rw [read]; rfl⟩, by grind⟩
  | case4 => exact .inl ⟨[], rfl, by nofun, rfl⟩
  | case5 => cases even

end Skynet.Crypt
