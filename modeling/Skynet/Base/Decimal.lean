import Mathlib

/-! Numbers as text: decimal numbers, and how strtol and strtoul read. -/
namespace Base
open List

def decimal (n : Nat) : List UInt8 := (Nat.toDigits 10 n).map fun c => c.toNat.toUInt8

def isDigit (b : UInt8) : Bool := 48 ≤ b.toNat ∧ b.toNat ≤ 57

def digitsValue (text : List UInt8) : Nat :=
  text.foldl (fun n b => 10 * n + (b.toNat - 48)) 0

def isSpace (b : UInt8) : Bool := b = 32 ∨ 9 ≤ b.toNat ∧ b.toNat ≤ 13

/-- Base ten; what is out of the range of a long is cut to its ends. -/
def strtol (text : List UInt8) : Int :=
  let text := text.dropWhile isSpace
  let negative := text.head? = some 45
  let text := if text.head? = some 45 ∨ text.head? = some 43 then text.tail else text
  let n : Int := digitsValue (text.takeWhile isDigit)
  if negative then max (-n) (-2 ^ 63) else min n (2 ^ 63 - 1)

def hexDigit (b : UInt8) : Option Nat :=
  if 48 ≤ b.toNat ∧ b.toNat ≤ 57 then some (b.toNat - 48)
  else if 65 ≤ b.toNat ∧ b.toNat ≤ 70 then some (b.toNat - 55)
  else if 97 ≤ b.toNat ∧ b.toNat ≤ 102 then some (b.toNat - 87)
  else none

def hexValue (text : List UInt8) : Nat :=
  text.foldl (fun n b => 16 * n + (hexDigit b).getD 0) 0

/-- Base sixteen with an optional 0x; what is out of the range of an unsigned long is cut to
its end, and a minus sign negates within the range. -/
def strtoulHex (text : List UInt8) : Nat :=
  let text := text.dropWhile isSpace
  let negative := text.head? = some 45
  let text := if text.head? = some 45 ∨ text.head? = some 43 then text.tail else text
  let text :=
    match text with
    | 48 :: x :: d :: rest =>
      if (x = 120 ∨ x = 88) ∧ (hexDigit d).isSome then d :: rest else text
    | _ => text
  let n := hexValue (text.takeWhile fun b => (hexDigit b).isSome)
  if 2 ^ 64 ≤ n then 2 ^ 64 - 1 else if negative then (2 ^ 64 - n) % 2 ^ 64 else n

theorem digit_toNat {n : Nat} {c : Char} (member : c ∈ Nat.toDigits 10 n) :
    c.toNat.toUInt8.toNat = c.toNat ∧ 48 ≤ c.toNat ∧ c.toNat ≤ 57 := by
  have digit := Nat.isDigit_of_mem_toDigits (by decide) (by decide) member
  have range : 48 ≤ c.toNat ∧ c.toNat ≤ 57 := by
    simpa [Char.isDigit, UInt32.le_iff_toNat_le] using digit
  refine ⟨?_, range⟩
  rw [Nat.toUInt8, UInt8.toNat_ofNat', Nat.mod_eq_of_lt (by omega)]

theorem decimal_digits {n : Nat} {b : UInt8} (member : b ∈ decimal n) : isDigit b = true := by
  obtain ⟨c, inside, rfl⟩ := mem_map.mp member
  obtain ⟨same, range⟩ := digit_toNat inside
  rw [isDigit, same]
  exact decide_eq_true range

theorem digitsValue_decimal (n : Nat) : digitsValue (decimal n) = n := by
  have whole : digitsValue (decimal n) = Nat.ofDigitChars 10 (Nat.toDigits 10 n) 0 := by
    rw [digitsValue, decimal, foldl_map, Nat.ofDigitChars_eq_foldl]
    refine foldl_ext _ _ _ fun m c member => ?_
    rw [(digit_toNat member).1]
    rfl
  rw [whole, Nat.ofDigitChars_toDigits (by decide) (by decide)]

theorem decimal_cons (n : Nat) : ∃ b rest, decimal n = b :: rest ∧ isDigit b = true := by
  cases text : decimal n with
  | nil =>
    have empty := congrArg List.length text
    have positive := Nat.length_toDigits_pos (b := 10) (n := n)
    rw [decimal, length_map, length_nil] at empty
    omega
  | cons b rest => exact ⟨b, rest, rfl, decimal_digits (text ▸ mem_cons_self ..)⟩

theorem strtol_decimal {n : Nat} (small : n < 2 ^ 63) : strtol (decimal n) = n := by
  obtain ⟨b, rest, text, digit⟩ := decimal_cons n
  obtain ⟨low, high⟩ := of_decide_eq_true digit
  have space : isSpace b = false := by
    refine decide_eq_false ?_
    rintro (rfl | ⟨-, high⟩)
    · exact absurd low (by decide)
    · omega
  have minus : b ≠ 45 := by
    rintro rfl
    exact absurd low (by decide)
  have plus : b ≠ 43 := by
    rintro rfl
    exact absurd low (by decide)
  have start : (decimal n).dropWhile isSpace = decimal n := by
    rw [text, dropWhile_cons_of_neg (by simp [space])]
  have first : (decimal n).head? = some b := by rw [text, head?_cons]
  have all : (decimal n).takeWhile isDigit = decimal n :=
    takeWhile_eq_self_iff.mpr fun b member => decimal_digits member
  unfold strtol
  simp only [start, first, Option.some.injEq, minus, plus, or_self, if_false, all,
    digitsValue_decimal]
  omega

end Base
