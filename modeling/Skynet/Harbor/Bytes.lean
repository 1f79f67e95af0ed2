import Skynet.Harbor.Model

/-! Words and headers come back from their bytes. -/
namespace Skynet.HarborService
open Base List

theorem toBigendian_values (n : UInt32) :
    toBigendian n = [(n.toNat / 16777216).toUInt8, (n.toNat / 65536 % 256).toUInt8,
      (n.toNat / 256 % 256).toUInt8, (n.toNat % 256).toUInt8] := by
  unfold toBigendian
  simp only [cons.injEq, and_true]
  refine ⟨?_, ?_, ?_, ?_⟩ <;> apply UInt8.toNat_inj.mp <;>
    simp only [UInt32.toNat_toUInt8, UInt32.toNat_and, UInt32.toNat_shiftRight, UInt32.reduceToNat,
      Nat.reduceMod, Nat.and_two_pow_sub_one_eq_mod _ 8, Nat.shiftRight_eq_div_pow, Nat.toUInt8,
      UInt8.toNat_ofNat']
  omega

variable {message : Nat → UInt8} {pos n : Nat}

theorem fromBigendian_values :
    (fromBigendian message pos).toNat = (message pos).toNat * 16777216 +
      (message (pos + 1)).toNat * 65536 + (message (pos + 2)).toNat * 256 +
      (message (pos + 3)).toNat := by
  have first := (message pos).toNat_lt
  have second := (message (pos + 1)).toNat_lt
  have third := (message (pos + 2)).toNat_lt
  have fourth := (message (pos + 3)).toNat_lt
  rw [← join_four _ second third fourth]
  simp only [fromBigendian, UInt32.toNat_or, UInt32.toNat_shiftLeft, UInt8.toNat_toUInt32,
    UInt32.reduceToNat, Nat.reduceMod]
  have fits : ∀ (b : Nat) (k : Nat), b < 256 → k ≤ 24 → b <<< k % 2 ^ 32 = b <<< k := by
    intro b k small low
    apply Nat.mod_eq_of_lt
    rw [Nat.shiftLeft_eq]
    calc b * 2 ^ k ≤ b * 2 ^ 24 := Nat.mul_le_mul_left b (Nat.pow_le_pow_right (by decide) low)
      _ < 2 ^ 32 := by omega
  rw [fits _ _ first (by decide), fits _ _ second (by decide), fits _ _ third (by decide)]

theorem fromBigendian_window {n : UInt32} (here : window message pos 4 = toBigendian n) :
    fromBigendian message pos = n := by
  have bound := n.toNat_lt
  rw [toBigendian_values] at here
  simp only [window, cons.injEq, and_true] at here
  obtain ⟨first, second, third, fourth⟩ := here
  apply UInt32.toNat_inj.mp
  rw [fromBigendian_values, first, second, third, fourth]
  simp only [Nat.toUInt8, UInt8.toNat_ofNat']
  omega

theorem messageToHeader_window {header : RemoteMessageHeader}
    (here : window message pos 12 = headerToMessage header) :
    messageToHeader message pos = header := by
  have parts : window message pos 12 =
      window message pos 4 ++ (window message (pos + 4) 4 ++ window message (pos + 8) 4) := by
    rw [← window_add, ← window_add]
  rw [parts, headerToMessage] at here
  obtain ⟨source, rest⟩ := append_inj here (window_length ..)
  obtain ⟨destination, session⟩ := append_inj rest (window_length ..)
  rw [messageToHeader, fromBigendian_window source, fromBigendian_window destination,
    fromBigendian_window session]

/- The length of a message that is not too long starts with a zero. -/
theorem toBigendian_small (small : n < 2 ^ 24) :
    ∃ b₁ b₂ b₃ : UInt8, toBigendian (UInt32.ofNat n) = [0, b₁, b₂, b₃] ∧
      b₁.toNat <<< 16 ||| b₂.toNat <<< 8 ||| b₃.toNat = n := by
  have value : (UInt32.ofNat n).toNat = n := by
    rw [UInt32.toNat_ofNat']
    omega
  have top : n / 16777216 = 0 := by omega
  refine ⟨_, _, _, by rw [toBigendian_values, value, top]; rfl, ?_⟩
  rw [join_three _ (UInt8.toNat_lt _) (UInt8.toNat_lt _)]
  simp only [Nat.toUInt8, UInt8.toNat_ofNat']
  omega

theorem toBigendian_large (large : 2 ^ 24 ≤ n) (accepted : n ≤ uint32Max) :
    ∃ b₀ b₁ b₂ b₃ : UInt8, toBigendian (UInt32.ofNat n) = [b₀, b₁, b₂, b₃] ∧ b₀ ≠ 0 := by
  unfold uint32Max at accepted
  have value : (UInt32.ofNat n).toNat = n := by
    rw [UInt32.toNat_ofNat']
    omega
  refine ⟨_, _, _, _, toBigendian_values _, ?_⟩
  intro zero
  have top := congrArg UInt8.toNat zero
  rw [value, Nat.toUInt8, UInt8.toNat_ofNat'] at top
  have small : n / 16777216 % 2 ^ 8 = 0 := top
  omega

theorem destination_type {destination type : UInt32} (small : type < 256) :
    (destination &&& handleMask ||| type <<< handleRemoteShift) >>> handleRemoteShift = type := by
  have below : type.toNat < 256 := small
  have low : destination.toNat % 2 ^ 24 < 2 ^ 24 := Nat.mod_lt _ (by decide)
  have high : type.toNat * 2 ^ 24 % 2 ^ 32 = type.toNat * 2 ^ 24 := by omega
  apply UInt32.toNat_inj.mp
  simp only [handleMask, handleRemoteShift, UInt32.toNat_or, UInt32.toNat_shiftLeft,
    UInt32.toNat_and, UInt32.toNat_shiftRight, UInt32.reduceToNat, Nat.reduceMod,
    Nat.and_two_pow_sub_one_eq_mod _ 24, Nat.shiftLeft_eq]
  rw [high, or_high low, Nat.shiftRight_eq_div_pow]
  omega

theorem destination_handle (destination type : UInt32) :
    (destination &&& handleMask ||| type <<< handleRemoteShift) &&& handleMask =
      destination &&& handleMask := by
  have low : destination.toNat % 2 ^ 24 < 2 ^ 24 := Nat.mod_lt _ (by decide)
  have high : type.toNat * 2 ^ 24 % 2 ^ 32 = type.toNat % 2 ^ 8 * 2 ^ 24 := by omega
  apply UInt32.toNat_inj.mp
  simp only [handleMask, handleRemoteShift, UInt32.toNat_or, UInt32.toNat_shiftLeft,
    UInt32.toNat_and, UInt32.reduceToNat, Nat.reduceMod,
    Nat.and_two_pow_sub_one_eq_mod _ 24, Nat.shiftLeft_eq]
  rw [high, or_high low]
  omega

end Skynet.HarborService
