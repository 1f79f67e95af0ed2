import Mathlib

/-! Memory as a function of the address, and the stretch of it that holds a list. -/
namespace Base
open List

variable {α : Type} {mem mem' : Nat → α} {pos n : Nat}

def window (mem : Nat → α) (pos : Nat) : Nat → List α
  | 0 => []
  | n + 1 => mem pos :: window mem (pos + 1) n

def store (mem : Nat → α) (pos : Nat) (l : List α) : Nat → α :=
  fun k => if pos ≤ k then (l[k - pos]?).getD (mem k) else mem k

@[simp] theorem window_length (mem : Nat → α) (pos n : Nat) : (window mem pos n).length = n := by
  induction n generalizing pos with
  | zero => rfl
  | succ n ih => simp [window, ih]

theorem window_add (mem : Nat → α) (pos m n : Nat) :
    window mem pos (m + n) = window mem pos m ++ window mem (pos + m) n := by
  induction m generalizing pos with
  | zero => simp [window]
  | succ m ih =>
    rw [Nat.add_right_comm m 1 n]
    simp only [window, ih, cons_append, List.cons.injEq, true_and]
    rw [Nat.add_right_comm pos 1 m, ← Nat.add_assoc]

theorem window_congr (same : ∀ k, pos ≤ k → k < pos + n → mem k = mem' k) :
    window mem pos n = window mem' pos n := by
  induction n generalizing pos with
  | zero => rfl
  | succ n ih =>
    have first : mem pos = mem' pos := same pos (Nat.le_refl pos) (by omega)
    have rest : window mem (pos + 1) n = window mem' (pos + 1) n :=
      ih fun k low high => same k (by omega) (by omega)
    simp only [window, first, rest]

theorem window_shift (mem : Nat → α) (base pos n : Nat) :
    window (fun k => mem (base + k)) pos n = window mem (base + pos) n := by
  induction n generalizing pos with
  | zero => rfl
  | succ n ih =>
    simp only [window, ih]
    rw [Nat.add_assoc]

variable {k start : Nat} {l : List α}

theorem window_getElem? (inside : k < n) :
    (window mem pos n)[k]? = some (mem (pos + k)) := by
  induction n generalizing pos k with
  | zero => exact absurd inside (Nat.not_lt_zero k)
  | succ n ih =>
    cases k with
    | zero => rfl
    | succ k =>
      rw [window, getElem?_cons_succ, ih (by omega)]
      congr 2
      omega

theorem window_eq_iff :
    window mem pos l.length = l ↔ ∀ k (inside : k < l.length), mem (pos + k) = l[k] := by
  constructor
  · intro known k inside
    have found : (window mem pos l.length)[k]? = some (mem (pos + k)) := window_getElem? inside
    rw [known, getElem?_eq_getElem inside] at found
    exact (Option.some.inj found).symm
  · intro known
    refine ext_getElem? fun k => ?_
    by_cases inside : k < l.length
    · rw [window_getElem? inside, known k inside, getElem?_eq_getElem inside]
    · rw [getElem?_eq_none (by simpa using inside), getElem?_eq_none (Nat.le_of_not_lt inside)]

theorem window_getD (l : List α) (d : α) : window (fun k => l.getD k d) 0 l.length = l := by
  refine window_eq_iff.mpr fun k inside => ?_
  rw [Nat.zero_add, getD_eq_getElem?_getD, getElem?_eq_getElem inside]
  rfl

theorem store_before (before : k < pos) : store mem pos l k = mem k :=
  if_neg (Nat.not_le.mpr before)

theorem store_after (after : pos + l.length ≤ k) :
    store mem pos l k = mem k := by
  unfold store
  rw [if_pos (by omega), getElem?_eq_none (by omega)]
  rfl

theorem window_store (mem : Nat → α) (pos : Nat) (l : List α) :
    window (store mem pos l) pos l.length = l := by
  refine window_eq_iff.mpr fun k inside => ?_
  unfold store
  rw [if_pos (Nat.le_add_right pos k), Nat.add_sub_cancel_left, getElem?_eq_getElem inside]
  rfl

theorem window_store_before (before : pos + n ≤ start) :
    window (store mem start l) pos n = window mem pos n :=
  window_congr fun _ _ high => store_before (by omega)

theorem window_store_after (after : start + l.length ≤ pos) :
    window (store mem start l) pos n = window mem pos n :=
  window_congr fun _ low _ => store_after (by omega)

theorem window_store_append (mem : Nat → α) (pos : Nat) (l : List α) :
    window (store mem pos l) 0 (pos + l.length) = window mem 0 pos ++ l := by
  rw [window_add, Nat.zero_add, window_store, window_store_before (by omega)]

theorem window_update_outside {b : α} (outside : start < pos ∨ pos + n ≤ start) :
    window (Function.update mem start b) pos n = window mem pos n :=
  window_congr fun k low high => Function.update_of_ne (by omega) b mem

end Base
