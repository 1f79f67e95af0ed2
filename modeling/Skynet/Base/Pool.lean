import Skynet.Base.Run

/-! Pools of threads, each with a stack of activation frames. What a frame owns is
read through a selector, and ownership is counted over all frames of all threads. -/
namespace Base

variable {φ : Type}

def frames (threads : List (List φ)) : Multiset φ := (threads.flatten : List φ)

theorem frames_set {threads : List (List φ)} {t : Nat} {stack : List φ}
    (here : threads[t]? = some stack) :
    ∃ rest : Multiset φ, frames threads = (stack : Multiset φ) + rest ∧
      ∀ stack' : List φ, frames (threads.set t stack') = (stack' : Multiset φ) + rest := by
  induction threads generalizing t with
  | nil => cases here
  | cons first threads ih =>
    cases t with
    | zero =>
      cases Option.some.inj here
      exact ⟨frames threads, by simp [frames], fun stack' => by simp [frames]⟩
    | succ t =>
      obtain ⟨rest, now, after⟩ := ih (by simpa using here)
      refine ⟨(first : Multiset φ) + rest, ?_, fun stack' => ?_⟩
      · rw [add_left_comm, ← now]
        simp [frames]
      · rw [add_left_comm, ← after stack']
        simp [frames]

/-- How many frames the selector maps to `x`. -/
def held (select : φ → Option Nat) (all : Multiset φ) (x : Nat) : Nat :=
  all.countP (fun f => some x = select f)

@[simp] theorem held_zero (select : φ → Option Nat) (x : Nat) : held select 0 x = 0 := rfl

@[simp] theorem held_cons (select : φ → Option Nat) (f : φ) (all : Multiset φ) (x : Nat) :
    held select (f ::ₘ all) x = held select all x + if some x = select f then 1 else 0 :=
  Multiset.countP_cons _ _ _

@[simp] def tally (select : φ → Option Nat) : List φ → Nat → Nat
  | [], _ => 0
  | f :: new, x => tally select new x + if some x = select f then 1 else 0

@[simp] theorem held_add (select : φ → Option Nat) (new : List φ) (all : Multiset φ) (x : Nat) :
    held select ((new : Multiset φ) + all) x = held select all x + tally select new x := by
  induction new with
  | nil => simp
  | cons f new ih =>
    rw [← Multiset.cons_coe, Multiset.cons_add, held_cons, ih, tally, Nat.add_assoc]

variable {select : φ → Option Nat} {x : Nat} {all : Multiset φ}

theorem tally_eq_zero {new : List φ} :
    tally select new x = 0 ↔ ∀ f ∈ new, select f ≠ some x := by
  induction new with
  | nil => simp
  | cons f new ih =>
    rw [tally, Nat.add_eq_zero_iff, ih, List.forall_mem_cons, and_comm]
    simp [eq_comm]

theorem held_pos {f : φ} (member : f ∈ all) (selected : select f = some x) :
    0 < held select all x :=
  Multiset.countP_pos.mpr ⟨f, member, selected.symm⟩

theorem held_le {first second : φ → Option Nat} {y : Nat}
    (implied : ∀ f ∈ all, first f = some x → second f = some y) :
    held first all x ≤ held second all y := by
  induction all using Multiset.induction with
  | empty => exact Nat.le_refl _
  | cons f all ih =>
    have rest := ih fun g member => implied g (Multiset.mem_cons_of_mem member)
    have here := implied f (Multiset.mem_cons_self f all)
    rw [held_cons, held_cons]
    split_ifs with a b <;> first | omega | exact absurd (here a.symm).symm b

end Base
