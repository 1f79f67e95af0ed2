import Skynet.Base.Run

/-! RingBuffer buffers with one free cell. The buffer grows when a push has filled the
last free cell; `grow` answers the new capacity. -/
namespace Base
open List Function

variable {α : Type}

structure RingBuffer (α : Type) where
  cap : Nat
  head : Nat
  tail : Nat
  cells : Nat → Option α

def RingBuffer.empty (cap : Nat) : RingBuffer α := ⟨cap, 0, 0, fun _ => none⟩

def RingBuffer.length (r : RingBuffer α) : Nat :=
  if r.head ≤ r.tail then r.tail - r.head else r.tail + r.cap - r.head

def RingBuffer.advance (r : RingBuffer α) (i : Nat) : Nat := if i + 1 ≥ r.cap then 0 else i + 1

def RingBuffer.cell (r : RingBuffer α) (i : Nat) : Option α := r.cells ((r.head + i) % r.cap)

/-- The stored elements, oldest first. -/
def RingBuffer.items (r : RingBuffer α) : List α := (range r.length).filterMap r.cell

def RingBuffer.expand (grow : Nat → Nat) (r : RingBuffer α) : RingBuffer α where
  cap := grow r.cap
  head := 0
  tail := r.cap
  cells := fun i => if i < r.cap then r.cells ((r.head + i) % r.cap) else none

def RingBuffer.push (grow : Nat → Nat) (r : RingBuffer α) (x : α) : RingBuffer α :=
  let stored := { r with
    cells := update r.cells r.tail (some x)
    tail := r.advance r.tail }
  if stored.head = stored.tail then stored.expand grow else stored

def RingBuffer.pop (r : RingBuffer α) : Option (α × RingBuffer α) :=
  if r.head ≠ r.tail then
    (r.cells r.head).map fun x => (x, { r with head := r.advance r.head })
  else none

structure RingBuffer.Sound (r : RingBuffer α) : Prop where
  head : r.head < r.cap
  tail : r.tail < r.cap
  filled : ∀ i < r.length, (r.cell i).isSome

theorem ring_empty_sound {cap : Nat} (positive : 0 < cap) :
    (RingBuffer.empty cap : RingBuffer α).Sound :=
  ⟨positive, positive, fun i bound => by simp [RingBuffer.empty, RingBuffer.length] at bound⟩

@[simp] theorem ring_empty_items (cap : Nat) :
    (RingBuffer.empty cap : RingBuffer α).items = [] := rfl

variable {r r' : RingBuffer α} {i : Nat} {x : α}

section
variable (sound : r.Sound)
include sound

theorem ring_length_lt : r.length < r.cap := by
  have tail := sound.tail
  unfold RingBuffer.length
  split <;> omega

theorem ring_items_lt : r.items.length < r.cap := by
  have most := length_filterMap_le r.cell (range r.length)
  rw [length_range] at most
  exact Nat.lt_of_le_of_lt most (ring_length_lt sound)

theorem ring_items_length : r.items.length = r.length := by
  have all : ∀ i ∈ range r.length, (r.cell i).isSome :=
    fun i member => sound.filled i (mem_range.mp member)
  have same := filterMap_length_eq_length.mpr all
  simpa [RingBuffer.items] using same

theorem ring_index (bound : i < r.cap) :
    (r.head + i) % r.cap = if r.head + i < r.cap then r.head + i else r.head + i - r.cap := by
  have head := sound.head
  split
  · rename_i inside
    exact Nat.mod_eq_of_lt inside
  · rename_i beyond
    rw [Nat.mod_eq_sub_mod (Nat.le_of_not_lt beyond), Nat.mod_eq_of_lt (by omega)]

/- Counting from the head, the first free cell is the one at the tail. -/
theorem ring_tail : (r.head + r.length) % r.cap = r.tail := by
  have head := sound.head
  have tail := sound.tail
  rw [ring_index sound (ring_length_lt sound)]
  unfold RingBuffer.length
  split_ifs <;> omega

theorem ring_cell_ne_tail (bound : i < r.length) : (r.head + i) % r.cap ≠ r.tail := by
  have short := ring_length_lt sound
  rw [ring_index sound (by omega)]
  unfold RingBuffer.length at bound short
  split_ifs at bound short ⊢ <;> omega

end

theorem items_snoc (length : r'.length = r.length + 1) (kept : ∀ i < r.length, r'.cell i = r.cell i)
    (last : r'.cell r.length = some x) :
    r'.items = r.items ++ [x] := by
  unfold RingBuffer.items
  rw [length, range_succ, filterMap_append]
  congr 1
  · exact filterMap_congr fun i member => kept i (mem_range.mp member)
  · simp [last]

theorem filled_snoc (sound : r.Sound) (length : r'.length = r.length + 1)
    (kept : ∀ i < r.length, r'.cell i = r.cell i) (last : r'.cell r.length = some x) :
    ∀ i < r'.length, (r'.cell i).isSome := by
  intro i bound
  rcases Nat.lt_succ_iff_lt_or_eq.mp (length ▸ bound) with old | rfl
  · rw [kept i old]
    exact sound.filled i old
  · simp [last]

/- The push before a possible expansion, read from the head. -/
theorem ring_store (sound : r.Sound) (x : α) :
    let stored := update r.cells r.tail (some x)
    (∀ i < r.length, stored ((r.head + i) % r.cap) = r.cell i) ∧
      stored ((r.head + r.length) % r.cap) = some x := by
  refine ⟨fun i bound => ?_, ?_⟩
  · exact update_of_ne (ring_cell_ne_tail sound bound) _ _
  · rw [ring_tail sound, update_self]

theorem ring_push {grow : Nat → Nat} (larger : ∀ cap, 0 < cap → cap < grow cap) (sound : r.Sound)
    (x : α) :
    (r.push grow x).Sound ∧ (r.push grow x).items = r.items ++ [x] := by
  obtain ⟨kept, last⟩ := ring_store sound x
  have head := sound.head
  have tail := sound.tail
  unfold RingBuffer.push
  dsimp only
  split
  · rename_i full
    have length : r.length + 1 = r.cap := by
      simp only [RingBuffer.advance] at full
      unfold RingBuffer.length
      split at full <;> split <;> omega
    have more := larger r.cap (by omega)
    have grown : ∀ i < r.cap, (RingBuffer.expand grow { r with
        cells := update r.cells r.tail (some x), tail := r.advance r.tail }).cell i =
          update r.cells r.tail (some x) ((r.head + i) % r.cap) := by
      intro i bound
      simp only [RingBuffer.cell, RingBuffer.expand, Nat.zero_add,
        Nat.mod_eq_of_lt (Nat.lt_trans bound more), if_pos bound]
    have size : (RingBuffer.expand grow { r with
        cells := update r.cells r.tail (some x), tail := r.advance r.tail }).length =
          r.length + 1 := by
      simp [RingBuffer.length, RingBuffer.expand] at length ⊢
      omega
    have same := fun i (bound : i < r.length) => (grown i (by omega)).trans (kept i bound)
    have end_ := (grown r.length (by omega)).trans last
    exact ⟨⟨by simp only [RingBuffer.expand]; omega, more, filled_snoc sound size same end_⟩,
      items_snoc size same end_⟩
  · rename_i room
    have size : RingBuffer.length { r with
        cells := update r.cells r.tail (some x), tail := r.advance r.tail } = r.length + 1 := by
      simp only [RingBuffer.length, RingBuffer.advance] at room ⊢
      split_ifs at room ⊢ <;> omega
    refine ⟨⟨head, ?_, filled_snoc sound size kept last⟩, items_snoc size kept last⟩
    simp only [RingBuffer.advance]
    split <;> omega

theorem ring_pop_none (sound : r.Sound) (empty : r.pop = none) :
    r.items = [] := by
  unfold RingBuffer.pop at empty
  split at empty
  · have some : 0 < r.length := by
      have head := sound.head
      unfold RingBuffer.length
      split <;> omega
    have filled := sound.filled 0 some
    rw [RingBuffer.cell, Nat.add_zero, Nat.mod_eq_of_lt sound.head] at filled
    rw [Option.map_eq_none_iff] at empty
    rw [empty] at filled
    cases filled
  · rename_i together
    have zero : r.length = 0 := by
      simp only [ne_eq, not_not] at together
      simp [RingBuffer.length, together]
    simp [RingBuffer.items, zero]

theorem ring_pop_some (sound : r.Sound) (taken : r.pop = some (x, r')) :
    r'.Sound ∧ r.items = x :: r'.items := by
  unfold RingBuffer.pop at taken
  split at taken
  · obtain ⟨y, first, pair⟩ := Option.map_eq_some_iff.mp taken
    obtain ⟨rfl, rfl⟩ := Prod.mk.inj pair
    have head := sound.head
    have tail := sound.tail
    have size : r.length = RingBuffer.length { r with head := r.advance r.head } + 1 := by
      simp only [RingBuffer.length, RingBuffer.advance]
      split_ifs <;> omega
    have shifted : ∀ i, RingBuffer.cell { r with head := r.advance r.head } i = r.cell (i + 1) := by
      intro i
      simp only [RingBuffer.cell, RingBuffer.advance]
      split
      · rw [show r.head + (i + 1) = i + r.cap by omega, Nat.add_mod_right, Nat.zero_add]
      · rw [show r.head + 1 + i = r.head + (i + 1) by omega]
    refine ⟨⟨?_, tail, fun i bound => ?_⟩, ?_⟩
    · simp only [RingBuffer.advance]
      split <;> omega
    · rw [shifted]
      exact sound.filled (i + 1) (by omega)
    · unfold RingBuffer.items
      rw [size, range_succ_eq_map, filterMap_cons]
      have start : r.cell 0 = some y := by
        rw [RingBuffer.cell, Nat.add_zero, Nat.mod_eq_of_lt head, first]
      rw [start, filterMap_map]
      simp only [cons.injEq, true_and]
      exact filterMap_congr fun i _ => (shifted i).symm
  · cases taken

section Reserve

/- The other discipline: a push into a buffer with one free cell doubles it first. -/
def RingBuffer.double (r : RingBuffer α) : RingBuffer α where
  cap := r.cap * 2
  head := 0
  tail := r.cap - 1
  cells := fun i => if i < r.cap - 1 then r.cells ((r.head + i) % r.cap) else none

def RingBuffer.reserve (r : RingBuffer α) : RingBuffer α :=
  if (r.tail + 1) % r.cap = r.head then r.double else r

def RingBuffer.put (r : RingBuffer α) (x : α) : RingBuffer α :=
  { r with cells := update r.cells r.tail (some x), tail := (r.tail + 1) % r.cap }

def RingBuffer.take (r : RingBuffer α) : Option (α × RingBuffer α) :=
  if r.head = r.tail then none
  else (r.cells r.head).map fun x => (x, { r with head := (r.head + 1) % r.cap })

variable {r : RingBuffer α}

theorem ring_advance {i : Nat} (inside : i < r.cap) :
    (i + 1) % r.cap = r.advance i := by
  unfold RingBuffer.advance
  split
  next last =>
    have whole : i + 1 = r.cap := by omega
    rw [whole, Nat.mod_self]
  next room => exact Nat.mod_eq_of_lt (by omega)

theorem ring_take (sound : r.Sound) : r.take = r.pop := by
  unfold RingBuffer.take RingBuffer.pop
  rw [ring_advance sound.head]
  by_cases empty : r.head = r.tail <;> simp [empty]

theorem ring_double (sound : r.Sound) (full : (r.tail + 1) % r.cap = r.head) :
    r.double.Sound ∧ r.double.items = r.items ∧
      (r.double.tail + 1) % r.double.cap ≠ r.double.head := by
  have tail := sound.tail
  rw [ring_advance tail, RingBuffer.advance] at full
  have length : r.length = r.cap - 1 := by
    unfold RingBuffer.length
    split at full <;> split <;> omega
  have size : r.double.length = r.length := by
    rw [length]
    simp [RingBuffer.length, RingBuffer.double]
  have same : ∀ i < r.length, r.double.cell i = r.cell i := by
    intro i bound
    simp only [RingBuffer.cell, RingBuffer.double, Nat.zero_add]
    rw [Nat.mod_eq_of_lt (by omega), if_pos (by omega)]
  refine ⟨⟨?_, ?_, ?_⟩, ?_, ?_⟩
  · simp only [RingBuffer.double]
    omega
  · simp only [RingBuffer.double]
    omega
  · intro i bound
    rw [size] at bound
    rw [same i bound]
    exact sound.filled i bound
  · unfold RingBuffer.items
    rw [size]
    exact filterMap_congr fun i member => same i (mem_range.mp member)
  · simp only [RingBuffer.double]
    rw [Nat.mod_eq_of_lt (by omega)]
    omega

theorem ring_put (sound : r.Sound) (room : (r.tail + 1) % r.cap ≠ r.head) (x : α) :
    (r.put x).Sound ∧ (r.put x).items = r.items ++ [x] := by
  have pushed := ring_push (fun cap _ => Nat.lt_succ_self cap) sound x
  rw [ring_advance sound.tail] at room
  unfold RingBuffer.push at pushed
  unfold RingBuffer.put
  rw [ring_advance sound.tail]
  simpa only [if_neg (Ne.symm room)] using pushed

theorem ring_reserve_put (sound : r.Sound) (x : α) :
    (r.reserve.put x).Sound ∧ (r.reserve.put x).items = r.items ++ [x] := by
  unfold RingBuffer.reserve
  split
  next full =>
    obtain ⟨sound', items, room⟩ := ring_double sound full
    rw [← items]
    exact ring_put sound' room x
  next room => exact ring_put sound room x

end Reserve

end Base
