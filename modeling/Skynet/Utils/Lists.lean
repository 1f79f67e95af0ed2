import Mathlib.Data.List.Sort

/-! The lists of utils.lua: binary search, and shuffling. -/
namespace Skynet.Utils
open List

section
variable {β : Type} [LinearOrder β] (values : List β) (x : β)

/- The walk to the left after a hit. Positions start at 1. -/
def firstHit : Nat → Nat
  | mid + 2 => if values[mid]? = some x then firstHit (mid + 1) else mid + 2
  | mid => mid

/-- The position or -1, or nil, if so many calls are enough, in a list whose elements, or whose
elements' fields, are `values`. A missing element is an error. -/
def bsearch : Nat → Nat → Nat → Option (Option Int)
  | 0, _, _ => none
  | calls + 1, low, high =>
    if high < low then some (some (-1))
    else
      let mid := (low + high + 1) / 2
      values[mid - 1]?.bind fun value =>
        if x = value then some (some (firstHit values x mid))
        else if x < value then bsearch calls low (mid - 1)
        else if value < x then bsearch calls (mid + 1) high
        else some none

variable {values x}

/-- The smallest position of x, or -1. -/
def IsFirst (values : List β) (x : β) (r : Int) : Prop :=
  r = -1 ∧ x ∉ values ∨ ∃ i : Nat, r = i + 1 ∧ values[i]? = some x ∧ x ∉ values.take i

variable (sorted : values.SortedLE)
include sorted

theorem around {i : Nat} {v : β} (here : values[i]? = some v) :
    (∀ w ∈ values.take (i + 1), w ≤ v) ∧ ∀ w ∈ values.drop i, v ≤ w := by
  obtain ⟨inside, rfl⟩ := List.getElem?_eq_some_iff.mp here
  refine ⟨fun w before => ?_, fun w after => ?_⟩
  · obtain ⟨j, bound, rfl⟩ := mem_take_iff_getElem.mp before
    exact sorted.getElem_le_getElem_of_le (by omega)
  · obtain ⟨j, bound, rfl⟩ := mem_drop_iff_getElem.mp after
    exact sorted.getElem_le_getElem_of_le (by omega)

theorem firstHit_first {i : Nat} (hit : values[i]? = some x) :
    IsFirst values x (firstHit values x (i + 1)) := by
  induction i with
  | zero => exact .inr ⟨0, rfl, hit, by simp⟩
  | succ i ih =>
    rw [firstHit]
    split
    · exact ih ‹_›
    · rename_i other
      refine .inr ⟨i + 1, rfl, hit, fun member => other ?_⟩
      obtain ⟨inside, -⟩ := List.getElem?_eq_some_iff.mp hit
      have prev := getElem?_eq_getElem (show i < values.length by omega)
      have low := (around sorted prev).1 x member
      have high := (around sorted hit).1 _ (mem_take_iff_getElem.mpr ⟨i, by omega, rfl⟩)
      rw [prev, high.antisymm low]

/- Everything before the bounds is below x and everything behind them is above x. -/
theorem bsearch_between (calls low high : Nat) (enough : high + 1 < low + calls)
    (start : 1 ≤ low) (order : low ≤ high + 1) (inside : high ≤ values.length)
    (below : ∀ v ∈ values.take (low - 1), v < x) (above : ∀ v ∈ values.drop high, x < v) :
    ∃ r, bsearch values x calls low high = some (some r) ∧ IsFirst values x r := by
  induction calls generalizing low high with
  | zero => omega
  | succ calls ih =>
    rw [bsearch]
    split
    · refine ⟨-1, rfl, .inl ⟨rfl, fun member => ?_⟩⟩
      rw [← take_append_drop high values] at member
      rw [show low - 1 = high by omega] at below
      rcases mem_append.mp member with left | right
      · exact (below x left).false
      · exact (above x right).false
    · obtain ⟨i, middle⟩ : ∃ i, (low + high + 1) / 2 = i + 1 :=
        Nat.exists_eq_succ_of_ne_zero (by omega)
      have here := getElem?_eq_getElem (show i < values.length by omega)
      obtain ⟨left, right⟩ := around sorted here
      simp only [middle, Nat.add_sub_cancel, here, Option.bind_some]
      rcases lt_trichotomy x values[i] with less | same | more
      · rw [if_neg less.ne, if_pos less]
        exact ih low i (by omega) start (by omega) (by omega) below
          fun v after => less.trans_le (right v after)
      · rw [if_pos same]
        exact ⟨_, rfl, firstHit_first sorted (same ▸ here)⟩
      · rw [if_neg more.ne', if_neg more.asymm, if_pos more]
        exact ih (i + 2) high (by omega) (by omega) (by omega) inside
          (fun v before => (left v before).trans_lt more) above

end

theorem bsearch_smallest {α β : Type} [LinearOrder β] (elements : List α) (value : α → β) (x : β)
    (sorted : (elements.map value).SortedLE) : ∃ calls r,
    bsearch (elements.map value) x calls 1 elements.length = some (some r) ∧
      IsFirst (elements.map value) x r :=
  ⟨elements.length + 1, bsearch_between sorted _ 1 elements.length (by omega) le_rfl (by omega)
    (by simp) (by simp) (by simp [drop_eq_nil_of_le])⟩

theorem bsearch_smallest_twice : ([1, 1, 2].map id).SortedLE ∧ ∃ calls r,
    bsearch ([1, 1, 2].map id) 1 calls 1 3 = some (some r) ∧ IsFirst ([1, 1, 2].map id) 1 r :=
  have sorted : ([1, 1, 2].map id).SortedLE := sortedLE_iff_pairwise.mpr (by decide)
  ⟨sorted, bsearch_smallest [1, 1, 2] id 1 sorted⟩

section
variable {α : Type}

/- Round by round the first element is swapped with a later one; what stands before is final. -/
def shuffleLoop : List Nat → List α → List α
  | value :: draws, first :: rest =>
    match rest[value - 1]? with
    | some later => later :: shuffleLoop draws (rest.set (value - 1) first)
    | none => first :: rest
  | _, array => array

/-- The list and the shuffled copy of it. -/
def randomShuffle (tb : List α) (draws : List Nat) : List α × List α := (tb, shuffleLoop draws tb)

/-- What math.rand can return in the rounds that are left for so many elements. -/
def Drawn : List Nat → Nat → Prop
  | [], left => left ≤ 1
  | value :: draws, left => 1 ≤ value ∧ value ≤ left - 1 ∧ Drawn draws (left - 1)

theorem drawn_ones (n : Nat) : Drawn (replicate (n - 1) 1) n := by
  induction n using Nat.twoStepInduction with
  | zero | one => simp [Drawn]
  | more n _ ih => exact ⟨le_rfl, by omega, ih⟩

theorem shuffleLoop_perm (draws : List Nat) (array : List α) : shuffleLoop draws array ~ array := by
  fun_induction shuffleLoop draws array with
  | case1 value draws first rest later found ih =>
    obtain ⟨inside, rfl⟩ := List.getElem?_eq_some_iff.mp found
    exact (ih.cons _).trans (set_set_perm (show 0 < (first :: rest).length by simp)
      (show value - 1 + 1 < (first :: rest).length by simpa))
  | case2 | case3 => rfl

/- Where a round leaves the first element as it is, the rest is as before too. -/
theorem shuffleLoop_same (draws : List Nat) (array : List α) (drawn : Drawn draws array.length)
    (same : shuffleLoop draws array = array) : ∀ a ∈ array, ∀ b ∈ array, a = b := by
  induction draws generalizing array with
  | nil =>
    rcases array with _ | ⟨first, _ | ⟨second, rest⟩⟩
    · simp
    · simp
    · simp [Drawn] at drawn
  | cons value draws ih =>
    obtain ⟨low, high, drawn⟩ := drawn
    cases array with
    | nil => simp
    | cons first rest =>
      have inside : value - 1 < rest.length := by rw [length_cons] at high; omega
      simp only [shuffleLoop, getElem?_eq_getElem inside, cons_eq_cons] at same
      obtain ⟨here, kept⟩ := same
      rw [← here, set_getElem_self] at kept
      have equal := ih rest drawn kept
      have all : ∀ a ∈ first :: rest, a = first :=
        forall_mem_cons.mpr ⟨rfl, fun a member => here ▸ equal a member _ (getElem_mem inside)⟩
      exact fun a left b right => (all a left).trans (all b right).symm

/-- The result is always a permutation, but each of them can be the result only where the list
has no two different elements. -/
theorem shuffle_permutations (tb : List α) :
    (∀ draws, Drawn draws tb.length →
      (randomShuffle tb draws).2 ~ tb ∧ (randomShuffle tb draws).1 = tb) ∧
    ((∀ result, result ~ tb →
        ∃ draws, Drawn draws tb.length ∧ (randomShuffle tb draws).2 = result) ↔
      ∀ a ∈ tb, ∀ b ∈ tb, a = b) := by
  refine ⟨fun draws _ => ⟨shuffleLoop_perm draws tb, rfl⟩, fun all => ?_, fun same result perm => ?_⟩
  · obtain ⟨draws, drawn, reached⟩ := all tb (.refl tb)
    exact shuffleLoop_same draws tb drawn reached
  · have shuffled := (shuffleLoop_perm (replicate (tb.length - 1) 1) tb).trans perm.symm
    refine ⟨_, drawn_ones tb.length, ext_getElem shuffled.length_eq fun i _ _ => ?_⟩
    exact same _ (perm.mem_iff.mp (shuffled.mem_iff.mp (getElem_mem _)))
      _ (perm.mem_iff.mp (getElem_mem _))

theorem shuffle_unreached : ¬ ∃ draws, Drawn draws [true, false].length ∧
    (randomShuffle [true, false] draws).2 = [true, false] := by
  rintro ⟨draws, drawn, reached⟩
  exact absurd (shuffleLoop_same draws _ drawn reached) (by decide)

end

end Skynet.Utils
