import Mathlib

/-! The names in the packets of dns.lua. Positions count from 1, as in Lua. -/
namespace Skynet.Dns

/- string.unpack with the format B, none for its error. -/
def unpackB (chunk : List UInt8) (left : Nat) : Option UInt8 :=
  if left = 0 then none else chunk[left - 1]?

structure Walk where
  t : List (List UInt8)
  jumpPointer : Option Nat
  left : Nat

inductive Round where
  | next (w : Walk)
  | returns (name : List UInt8) (left : Nat)
  | error

/-- The loop of unpack_name once. A label has its length before it, and may end with the packet. -/
def round (chunk : List UInt8) (w : Walk) : Round :=
  match unpackB chunk w.left with
  | none => .error
  | some tag =>
    if tag &&& 0xc0 = 0xc0 then
      match unpackB chunk (w.left + 1) with
      | none => .error
      | some low => .next ⟨w.t, w.jumpPointer.or (some (w.left + 2)),
          (256 * tag.toNat + low.toNat) % 2 ^ 14 + 1⟩
    else if tag = 0 then .returns ([46].intercalate w.t) (w.jumpPointer.getD (w.left + 1))
    else if w.left + tag.toNat ≤ chunk.length then
      .next ⟨w.t ++ [(chunk.drop w.left).take tag.toNat], w.jumpPointer, w.left + 1 + tag.toNat⟩
    else .error

/- Nothing as long as the loop is not done. -/
def unpackLoop (chunk : List UInt8) : Nat → Walk → Option Round
  | 0, _ => none
  | rounds + 1, w =>
    match round chunk w with
    | .next w => unpackLoop chunk rounds w
    | r => some r

def unpackName (chunk : List UInt8) (left rounds : Nat) : Option Round :=
  unpackLoop chunk rounds ⟨[], none, left⟩

/-- A pointer at one position leads to the other. -/
def Pointer (chunk : List UInt8) (p q : Nat) : Prop :=
  ∃ tag low, unpackB chunk p = some tag ∧ tag &&& 0xc0 = 0xc0 ∧
    unpackB chunk (p + 1) = some low ∧ (256 * tag.toNat + low.toNat) % 2 ^ 14 + 1 = q

/-- A label stands between the two positions. -/
def Label (chunk : List UInt8) (p q : Nat) : Prop :=
  ∃ tag, unpackB chunk p = some tag ∧ tag &&& 0xc0 ≠ 0xc0 ∧ tag ≠ 0 ∧
    p + tag.toNat ≤ chunk.length ∧ p + 1 + tag.toNat = q

/-- The name that a pointer leads to ends before the pointer, with a pointer or without. -/
def Backward (chunk : List UInt8) : Prop :=
  ∀ p q e r, Pointer chunk p q → Relation.ReflTransGen (Label chunk) q e → Pointer chunk e r → e < p

variable {chunk : List UInt8}

theorem round_cases (w : Walk) : round chunk w = .error ∨
    (∃ name left, round chunk w = .returns name left) ∨
    ∃ v, round chunk w = .next v ∧
      (Pointer chunk w.left v.left ∨ Label chunk w.left v.left) := by
  unfold round
  split
  · exact .inl rfl
  next tag here =>
    split
    next top =>
      split
      · exact .inl rfl
      next low there => exact .inr (.inr ⟨_, rfl, .inl ⟨tag, low, here, top, there, rfl⟩⟩)
    next top =>
      split
      · exact .inr (.inl ⟨_, _, rfl⟩)
      next some =>
        split
        next inside => exact .inr (.inr ⟨_, rfl, .inr ⟨tag, here, top, some, inside, rfl⟩⟩)
        · exact .inl rfl

def Ends (chunk : List UInt8) (w : Walk) : Prop :=
  ∃ rounds, unpackLoop chunk rounds w = some .error ∨
    ∃ name left, unpackLoop chunk rounds w = some (.returns name left)

theorem Ends.before {w v : Walk} (step : round chunk w = .next v) (ends : Ends chunk v) :
    Ends chunk w := by
  obtain ⟨rounds, ends⟩ := ends
  refine ⟨rounds + 1, ?_⟩
  rw [unpackLoop, step]
  exact ends

/- By the next pointer that is met, and up to there by the bytes that are left. -/
theorem ends_below (backward : Backward chunk) (bound : Nat) (w : Walk)
    (below : ∀ e r, Relation.ReflTransGen (Label chunk) w.left e → Pointer chunk e r → e < bound) :
    Ends chunk w := by
  induction bound using Nat.strongRecOn generalizing w with
  | ind bound outer =>
    induction rest : chunk.length + 1 - w.left using Nat.strongRecOn generalizing w with
    | ind rest inner =>
      rcases @round_cases chunk w with stops | ⟨name, left, stops⟩ | ⟨v, step, leads⟩
      · exact ⟨1, .inl (by rw [unpackLoop, stops])⟩
      · exact ⟨1, .inr ⟨name, left, by rw [unpackLoop, stops]⟩⟩
      · refine Ends.before step ?_
        rcases leads with pointer | label
        · exact outer w.left (below _ _ .refl pointer) v fun e r => backward _ _ e r pointer
        · refine inner _ ?_ v (fun e r path => below e r (.head label path)) rfl
          obtain ⟨tag, -, -, -, inside, there⟩ := label
          omega

end Skynet.Dns
