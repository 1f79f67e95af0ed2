import Mathlib

/-! Bytes that are kept in a list of chunks, the first of which is read up to an offset. -/
namespace Base
open List

variable {α : Type}

/-- What is left to read. -/
def unread (chunks : List (List α)) (offset : Nat) : List α := chunks.flatten.drop offset

def InFirst (chunks : List (List α)) (offset : Nat) : Prop :=
  offset ≤ (chunks.headD []).length

theorem inFirst_zero (chunks : List (List α)) : InFirst chunks 0 := Nat.zero_le _

theorem unread_nil (offset : Nat) : unread ([] : List (List α)) offset = [] := List.drop_nil

theorem unread_zero (chunks : List (List α)) : unread chunks 0 = chunks.flatten := List.drop_zero

variable {chunk : List α} {offset : Nat} {chunks : List (List α)}

theorem unread_cons {later : List (List α)} (inside : InFirst (chunk :: later) offset) :
    unread (chunk :: later) offset = chunk.drop offset ++ unread later 0 := by
  have short : offset ≤ chunk.length := inside
  rw [unread, flatten_cons, drop_append_of_le_length short, unread_zero]

theorem unread_snoc (inside : InFirst chunks offset) (chunk : List α) :
    unread (chunks ++ [chunk]) offset = unread chunks offset ++ chunk := by
  cases chunks with
  | nil =>
    have start : offset = 0 := Nat.le_zero.mp inside
    subst start
    simp [unread]
  | cons first later =>
    have longer : InFirst (first :: (later ++ [chunk])) offset := inside
    rw [cons_append, unread_cons longer, unread_cons inside, unread_zero, unread_zero,
      flatten_append, flatten_singleton, append_assoc]

theorem inFirst_snoc (inside : InFirst chunks offset) (chunk : List α) :
    InFirst (chunks ++ [chunk]) offset := by
  cases chunks with
  | nil => exact Nat.le_trans inside (Nat.zero_le _)
  | cons first later => exact inside

theorem unread_advance (later : List (List α)) {n : Nat} (inside : offset + n ≤ chunk.length) :
    InFirst (chunk :: later) (offset + n) ∧
      (unread (chunk :: later) offset).take n = (chunk.drop offset).take n ∧
      unread (chunk :: later) (offset + n) = (unread (chunk :: later) offset).drop n := by
  have start : InFirst (chunk :: later) offset := Nat.le_of_add_right_le inside
  have short : n ≤ (chunk.drop offset).length := by
    rw [length_drop]
    omega
  refine ⟨inside, ?_, ?_⟩
  · rw [unread_cons start, take_append_of_le_length short]
  · rw [unread, unread, drop_drop]

end Base
