import Mathlib

/-! Arrays in memory that hold a list: binary search with a probe of the entries,
insertion by moving the entries above a position, and compaction in place. -/
namespace Base
open List Function

variable {α : Type}

def Represents (cells : Nat → Option α) (l : List α) : Prop := ∀ i < l.length, cells i = l[i]?

/-! Binary search. -/

/-- An entry with probe 0, or the position at which one would stand. -/
inductive Bisected (α : Type) where
  | hit (x : α)
  | miss (position : Int)

/- The bounds are inclusive. A read of a cell that holds nothing has no result. -/
def bisect (cells : Nat → Option α) (probe : α → Int) : Nat → Int → Int → Option (Bisected α)
  | 0, _, _ => none
  | rounds + 1, first, last =>
    if first ≤ last then
      let mid := (first + last) / 2
      match cells mid.toNat with
      | none => none
      | some x =>
        let c := probe x
        if c = 0 then some (.hit x)
        else if c < 0 then bisect cells probe rounds (mid + 1) last
        else bisect cells probe rounds first (mid - 1)
    else some (.miss first)

/-- The probe rises along the list: it is negative, then possibly 0 once, then positive. -/
def Rising (probe : α → Int) (l : List α) : Prop := l.Pairwise fun x y => probe x < 0 ∨ 0 < probe y

def Bisected.Right (probe : α → Int) (l : List α) : Bisected α → Prop
  | .hit x => x ∈ l ∧ probe x = 0
  | .miss position => ∃ n : Nat, position = n ∧ n ≤ l.length ∧
      (∀ x ∈ l.take n, probe x < 0) ∧ ∀ x ∈ l.drop n, 0 < probe x

section Search

variable {cells : Nat → Option α} {probe : α → Int} {l : List α}

theorem rising_at (rising : Rising probe l) {i j : Nat} {x y : α} (hx : l[i]? = some x)
    (hy : l[j]? = some y) (less : i < j) : probe x < 0 ∨ 0 < probe y := by
  obtain ⟨hi, rfl⟩ := List.getElem?_eq_some_iff.mp hx
  obtain ⟨hj, rfl⟩ := List.getElem?_eq_some_iff.mp hy
  exact pairwise_iff_getElem.mp rising i j hi hj less

/- The entries below the interval have negative probes and those above it positive ones. -/
theorem bisect_between (held : Represents cells l) (rising : Rising probe l) (rounds : Nat)
    {first last : Int} (start : 0 ≤ first) (stop : last < l.length) (near : first ≤ last + 1)
    (enough : last - first + 1 < rounds)
    (below : ∀ (i : Nat) x, l[i]? = some x → (i : Int) < first → probe x < 0)
    (above : ∀ (i : Nat) x, l[i]? = some x → last < i → 0 < probe x) :
    ∃ result, bisect cells probe rounds first last = some result ∧ result.Right probe l := by
  induction rounds generalizing first last with
  | zero => omega
  | succ rounds ih =>
    unfold bisect
    split
    · obtain ⟨mid, middle⟩ : ∃ mid : Nat, (first + last) / 2 = mid :=
        ⟨((first + last) / 2).toNat, by omega⟩
      have inside : mid < l.length := by omega
      have entry : l[mid]? = some l[mid] := getElem?_eq_getElem inside
      simp only [middle, Int.toNat_natCast, held mid inside, entry]
      split
      · rename_i zero
        exact ⟨_, rfl, getElem_mem inside, zero⟩
      · split
        · rename_i negative
          apply ih (by omega) stop (by omega) (by omega) _ above
          intro i x hx lower
          rcases Nat.lt_or_ge i mid with less | reached
          · rcases rising_at rising hx entry less with done | positive
            · exact done
            · omega
          · obtain rfl : i = mid := by omega
            rw [entry] at hx
            cases hx
            exact negative
        · apply ih start (by omega) (by omega) (by omega) below
          intro i x hx upper
          rcases Nat.lt_or_ge mid i with less | reached
          · rcases rising_at rising entry hx less with negative | done
            · omega
            · exact done
          · obtain rfl : i = mid := by omega
            rw [entry] at hx
            cases hx
            omega
    · obtain ⟨n, eq⟩ : ∃ n : Nat, first = n := ⟨first.toNat, by omega⟩
      refine ⟨_, rfl, n, eq, by omega, ?_, ?_⟩
      · intro x member
        obtain ⟨i, less, rfl⟩ := mem_take_iff_getElem.mp member
        exact below i _ (getElem?_eq_getElem _) (by omega)
      · intro x member
        obtain ⟨i, less, rfl⟩ := mem_drop_iff_getElem.mp member
        exact above (n + i) _ (getElem?_eq_getElem _) (by omega)

theorem bisect_right (held : Represents cells l) (rising : Rising probe l) :
    ∃ result, bisect cells probe (l.length + 1) 0 (l.length - 1) = some result ∧
      result.Right probe l := by
  apply bisect_between held rising
  · exact Int.le_refl 0
  · omega
  · omega
  · omega
  · intro i x hx negative
    omega
  · intro i x hx beyond
    obtain ⟨inside, -⟩ := List.getElem?_eq_some_iff.mp hx
    omega

end Search

/-! Moving entries. -/

/-- The copy loop from `start`, `count` rounds, `offset` cells further up. -/
def copyCells (source : Nat → Option α) (offset start count : Nat) (target : Nat → Option α) :
    Nat → Option α :=
  (List.range' start count).foldl (fun t i => update t (i + offset) (source i)) target

theorem copyCells_apply (source : Nat → Option α) (offset start count : Nat)
    (target : Nat → Option α) (j : Nat) :
    copyCells source offset start count target j =
      if start + offset ≤ j ∧ j < start + count + offset then source (j - offset)
      else target j := by
  induction count with
  | zero =>
    rw [if_neg (by omega)]
    rfl
  | succ count ih =>
    have last : copyCells source offset start (count + 1) target =
        update (copyCells source offset start count target) (start + count + offset)
          (source (start + count)) := by
      simp [copyCells, range'_1_concat]
    rw [last, update_apply, ih]
    split_ifs with here
    all_goals first
      | rfl
      | omega
      | (subst here; congr 1; omega)

/-- The loop that moves the `count` entries above `before` up by one, from the top. -/
def shiftUp (before : Nat) : Nat → (Nat → Option α) → Nat → Option α
  | 0, cells => cells
  | count + 1, cells =>
    shiftUp before count (update cells (before + count + 1) (cells (before + count)))

theorem shiftUp_apply (before count : Nat) (cells : Nat → Option α) (j : Nat) :
    shiftUp before count cells j =
      if before < j ∧ j ≤ before + count then cells (j - 1) else cells j := by
  induction count generalizing cells with
  | zero =>
    rw [if_neg (by omega)]
    rfl
  | succ count ih =>
    rw [shiftUp, ih]
    simp only [update_apply]
    split_ifs
    all_goals first
      | rfl
      | omega
      | (congr 1; omega)

variable {cells : Nat → Option α} {l : List α}

/- The gap of an array whose upper part moved up, filled with an entry. -/
theorem represents_insert {cells' : Nat → Option α} {before : Nat} {x : α}
    (held : Represents cells l) (bound : before ≤ l.length)
    (lower : ∀ i < before, cells' i = cells i) (middle : cells' before = some x)
    (upper : ∀ i, before < i → i ≤ l.length → cells' i = cells (i - 1)) :
    Represents cells' (l.take before ++ x :: l.drop before) := by
  intro i inside
  have taken : (l.take before).length = before := length_take_of_le bound
  rw [length_append, length_cons, length_drop, taken] at inside
  rcases Nat.lt_trichotomy i before with less | same | more
  · rw [lower i less, held i (by omega), getElem?_append_left (by omega), getElem?_take_of_lt less]
  · rw [same, middle, getElem?_append_right (by omega), taken, Nat.sub_self]
    rfl
  · obtain ⟨k, rfl⟩ : ∃ k, i = before + k + 1 := ⟨i - before - 1, by omega⟩
    rw [upper _ more (by omega), held _ (by omega), getElem?_append_right (by omega), taken,
      show before + k + 1 - before = k + 1 by omega, getElem?_cons_succ, getElem?_drop]
    rfl

/-! Compaction. -/

/- One round: an entry that is dropped is passed over, the others move down to `j`. -/
def compactOne (drop : α → Bool) (state : (Nat → Option α) × Nat) (i : Nat) :
    Option ((Nat → Option α) × Nat) :=
  match state.1 i with
  | none => none
  | some x =>
    if drop x then some state
    else some (if i ≠ state.2 then update state.1 state.2 (some x) else state.1,
      state.2 + 1)

def compact (drop : α → Bool) (count : Nat) (cells : Nat → Option α) :
    Option ((Nat → Option α) × Nat) :=
  (List.range count).foldlM (compactOne drop) (cells, 0)

/-- After `n` rounds the entries kept so far are at the front, and from `n` on the array is
as it was. -/
structure Compacted (drop : α → Bool) (cells : Nat → Option α) (l : List α) (n : Nat)
    (state : (Nat → Option α) × Nat) : Prop where
  count : state.2 = ((l.take n).filter (fun x => !drop x)).length
  front : Represents state.1 ((l.take n).filter (fun x => !drop x))
  rest : ∀ i, n ≤ i → state.1 i = cells i

theorem compactOne_compacted {drop : α → Bool} {n : Nat} {state : (Nat → Option α) × Nat}
    (held : Represents cells l) (inside : n < l.length) (done : Compacted drop cells l n state) :
    ∃ state', compactOne drop state n = some state' ∧ Compacted drop cells l (n + 1) state' := by
  have here : state.1 n = some l[n] := by
    rw [done.rest n (Nat.le_refl n), held n inside, getElem?_eq_getElem inside]
  have short : state.2 ≤ n := by
    have filtered := length_filter_le (fun x => !drop x) (l.take n)
    have taken := length_take_le n l
    have count := done.count
    omega
  have next : (l.take (n + 1)).filter (fun x => !drop x) =
      (l.take n).filter (fun x => !drop x) ++ [l[n]].filter (fun x => !drop x) := by
    rw [take_succ_eq_append_getElem inside, filter_append]
  unfold compactOne
  simp only [here]
  cases dropped : drop l[n] with
  | true =>
    refine ⟨state, rfl, ?_, ?_, fun i beyond => done.rest i (by omega)⟩
    · simp [next, dropped, done.count]
    · simpa [next, dropped] using done.front
  | false =>
    refine ⟨_, rfl, ?_, ?_, ?_⟩
    · simp [next, dropped, done.count]
    · intro i less
      simp only [next, dropped, Bool.not_false, filter_cons_of_pos, filter_nil,
        length_append, length_singleton] at less ⊢
      rcases Nat.lt_succ_iff_lt_or_eq.mp less with before | last
      · have other : i ≠ state.2 := by
          rw [done.count]
          omega
        rw [getElem?_append_left before, ← done.front i before]
        split_ifs <;> simp [other]
      · have same : i = state.2 := by rw [done.count, last]
        rw [last, getElem?_concat_length, ← last, same]
        split_ifs with apart
        · simp
        · have met : n = state.2 := by simpa using apart
          rw [← met, here]
    · intro i beyond
      have other : i ≠ state.2 := by omega
      rw [← done.rest i (by omega)]
      split_ifs <;> simp [other]

theorem compact_represents (drop : α → Bool) (held : Represents cells l) :
    ∃ cells', compact drop l.length cells = some (cells', (l.filter fun x => !drop x).length) ∧
      Represents cells' (l.filter fun x => !drop x) ∧ ∀ i, l.length ≤ i → cells' i = cells i := by
  have rounds : ∀ n ≤ l.length, ∃ state, (List.range n).foldlM (compactOne drop) (cells, 0) =
      some state ∧ Compacted drop cells l n state := by
    intro n bound
    induction n with
    | zero => exact ⟨_, rfl, rfl, fun i less => by simp at less, fun i _ => rfl⟩
    | succ n ih =>
      obtain ⟨state, folded, done⟩ := ih (by omega)
      obtain ⟨state', taken, done'⟩ := compactOne_compacted held bound done
      refine ⟨state', ?_, done'⟩
      rw [range_succ, foldlM_append, folded]
      simp [taken]
  obtain ⟨⟨cells', count⟩, folded, done⟩ := rounds l.length (Nat.le_refl _)
  have kept := done.count
  have front := done.front
  rw [take_length] at kept front
  exact ⟨cells', by rw [compact, folded, ← kept], front, done.rest⟩

end Base
