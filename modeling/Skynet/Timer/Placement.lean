import Skynet.Base.Bits
import Skynet.Timer.Wheel

/-! Where a node belongs. The list chosen by add_node depends only on the current
time and the expiry; over the unbounded tick count it is a statement about
quotients by powers of two, which says what each carry has to move. -/
namespace Skynet.TimerWheel
open Base List

inductive Slot where
  | near (idx : Nat)
  | level (i idx : Nat)
  deriving DecidableEq, Repr

def Timer.list (T : Timer) : Slot → List TimerNode
  | .near idx => T.near idx
  | .level i idx => T.t i idx

def Timer.link (T : Timer) : Slot → TimerNode → Timer
  | .near idx => linkNear T idx
  | .level i idx => linkLevel T i idx

/- The choice made by add_node, as a slot. -/
def slotOf (currentTime time : Nat) : Slot :=
  if time ||| timeNearMask = currentTime ||| timeNearMask then .near (time &&& timeNearMask)
  else
    let i := levelLoop time currentTime 3 0 (timeNear <<< timeLevelShift)
    .level i ((time >>> (timeNearShift + i * timeLevelShift)) &&& timeLevelMask)

theorem addNode_eq_link (T : Timer) (node : TimerNode) :
    addNode T node = T.link (slotOf T.time node.expire) node := by
  unfold addNode slotOf
  dsimp only
  split <;> rfl

@[simp] theorem link_time (T : Timer) (s : Slot) (node : TimerNode) :
    (T.link s node).time = T.time := by
  cases s <;> rfl

theorem link_list (T : Timer) (s s' : Slot) (node : TimerNode) :
    (T.link s node).list s' = if s' = s then T.list s' ++ [node] else T.list s' := by
  cases s <;> cases s' <;> simp [Timer.link, Timer.list, linkNear, linkLevel]

/-- The slot in terms of the unbounded tick count and deadline. -/
def place (now deadline : Nat) : Slot :=
  if deadline / 2 ^ 8 = now / 2 ^ 8 then .near (deadline % 2 ^ 8)
  else if deadline / 2 ^ 14 = now / 2 ^ 14 then .level 0 (deadline / 2 ^ 8 % 2 ^ 6)
  else if deadline / 2 ^ 20 = now / 2 ^ 20 then .level 1 (deadline / 2 ^ 14 % 2 ^ 6)
  else if deadline / 2 ^ 26 = now / 2 ^ 26 then .level 2 (deadline / 2 ^ 20 % 2 ^ 6)
  else .level 3 (deadline / 2 ^ 26 % 2 ^ 6)

theorem levelLoop_eq (time currentTime : Nat) :
    levelLoop time currentTime 3 0 (timeNear <<< timeLevelShift) =
      if time / 2 ^ 14 = currentTime / 2 ^ 14 then 0
      else if time / 2 ^ 20 = currentTime / 2 ^ 20 then 1
      else if time / 2 ^ 26 = currentTime / 2 ^ 26 then 2
      else 3 := by
  have first : timeNear <<< timeLevelShift = 2 ^ 14 := by decide
  have second : (2 ^ 14) <<< timeLevelShift = 2 ^ 20 := by decide
  have third : (2 ^ 20) <<< timeLevelShift = 2 ^ 26 := by decide
  simp only [levelLoop, first, second, third, or_mask_eq_iff]

variable {now deadline n i idx : Nat}

/- The 32-bit comparison of add_node is exact as long as the deadline lies less
than half the range ahead; the wrap of T->time to 0 is covered by the quotients. -/
theorem slotOf_eq_place (ahead : now ≤ deadline) (close : deadline < now + 2 ^ 31) :
    slotOf (now % 2 ^ 32) (deadline % 2 ^ 32) = place now deadline := by
  have same (k : Nat) (small : k ∈ [8, 14, 20, 26]) :
      deadline % 2 ^ 32 / 2 ^ k = now % 2 ^ 32 / 2 ^ k ↔ deadline / 2 ^ k = now / 2 ^ k := by
    simp only [mem_cons, not_mem_nil, or_false] at small
    rcases small with rfl | rfl | rfl | rfl <;> omega
  have nearMask : timeNearMask = 2 ^ 8 - 1 := by decide
  have levelMask : timeLevelMask = 2 ^ 6 - 1 := by decide
  simp only [slotOf, place, nearMask, levelMask, or_mask_eq_iff, and_mask, levelLoop_eq,
    same 8 (by decide), same 14 (by decide), same 20 (by decide), same 26 (by decide)]
  simp only [Nat.shiftRight_eq_div_pow, timeNearShift, timeLevelShift]
  repeat' split
  all_goals congr 1; omega

/- A node in the near list that the current time points at is due now. -/
theorem place_near (here : place now deadline = .near (now % 2 ^ 8)) :
    deadline = now := by
  unfold place at here
  split at here
  · have low := Slot.near.inj here
    omega
  · repeat' split at here
    all_goals cases here

theorem place_now (now : Nat) : place now now = .near (now % 2 ^ 8) := by
  simp [place]

/-- The list that timer_shift moves when the tick count becomes `n`. -/
def carry (n : Nat) : Option (Nat × Nat) :=
  if n % 2 ^ 8 ≠ 0 then none
  else if n % 2 ^ 14 ≠ 0 then some (0, n / 2 ^ 8 % 2 ^ 6)
  else if n % 2 ^ 20 ≠ 0 then some (1, n / 2 ^ 14 % 2 ^ 6)
  else if n % 2 ^ 26 ≠ 0 then some (2, n / 2 ^ 20 % 2 ^ 6)
  else some (3, n / 2 ^ 26 % 2 ^ 6)

theorem shiftLoop_round (ct rounds i : Nat) (T : Timer) (inside : i < 4) :
    shiftLoop ct (rounds + 1) (2 ^ (8 + 6 * i)) (ct / 2 ^ (8 + 6 * i)) i T =
      if ct % 2 ^ (8 + 6 * i) ≠ 0 then some T
      else if ct / 2 ^ (8 + 6 * i) % 2 ^ 6 ≠ 0 then
        some (moveList T i (ct / 2 ^ (8 + 6 * i) % 2 ^ 6))
      else if i < 3 then
        shiftLoop ct rounds (2 ^ (8 + 6 * (i + 1))) (ct / 2 ^ (8 + 6 * (i + 1))) (i + 1) T
      else none := by
  have levelMask : timeLevelMask = 2 ^ 6 - 1 := by decide
  have mask : (2 ^ (8 + 6 * i)) <<< timeLevelShift = 2 ^ (8 + 6 * (i + 1)) := by
    rw [Nat.shiftLeft_eq, timeLevelShift, ← Nat.pow_add]
    congr 1
  have next : (ct / 2 ^ (8 + 6 * i)) >>> timeLevelShift = ct / 2 ^ (8 + 6 * (i + 1)) := by
    rw [Nat.shiftRight_eq_div_pow, timeLevelShift, Nat.div_div_eq_div_mul, ← Nat.pow_add]
    congr 1
  have sign : 2 ^ (8 + 6 * (i + 1)) < 2 ^ 31 ↔ i < 3 := by
    rw [Nat.pow_lt_pow_iff_right (by decide)]
    omega
  simp only [shiftLoop, levelMask, and_mask, mask, next, sign, inside, ite_true, ite_not]

theorem shiftLoop_eq_carry (n : Nat) (T : Timer) (positive : n % 2 ^ 32 ≠ 0) :
    shiftLoop (n % 2 ^ 32) 31 timeNear ((n % 2 ^ 32) >>> timeNearShift) 0 T =
      some (match carry n with
        | none => T
        | some (i, idx) => moveList T i idx) := by
  have start : (n % 2 ^ 32) >>> timeNearShift = n % 2 ^ 32 / 2 ^ (8 + 6 * 0) := by
    rw [Nat.shiftRight_eq_div_pow]; rfl
  have near : timeNear = 2 ^ (8 + 6 * 0) := by decide
  rw [start, near, shiftLoop_round _ 30 0 T (by decide), shiftLoop_round _ 29 1 T (by decide),
    shiftLoop_round _ 28 2 T (by decide), shiftLoop_round _ 27 3 T (by decide)]
  have rem (k : Nat) (small : k ∈ [8, 14, 20, 26]) : n % 2 ^ 32 % 2 ^ k = n % 2 ^ k := by
    simp only [mem_cons, not_mem_nil, or_false] at small
    rcases small with rfl | rfl | rfl | rfl <;> omega
  have quo (k : Nat) (small : k ∈ [8, 14, 20, 26]) :
      n % 2 ^ 32 / 2 ^ k % 2 ^ 6 = n / 2 ^ k % 2 ^ 6 := by
    simp only [mem_cons, not_mem_nil, or_false] at small
    rcases small with rfl | rfl | rfl | rfl <;> omega
  simp only [Nat.mul_zero, Nat.add_zero, Nat.mul_one, Nat.reduceMul, Nat.reduceAdd,
    rem 8 (by decide), rem 14 (by decide), rem 20 (by decide), rem 26 (by decide),
    quo 8 (by decide), quo 14 (by decide), quo 20 (by decide), quo 26 (by decide), carry]
  by_cases h8 : n % 2 ^ 8 = 0
  · by_cases h14 : n % 2 ^ 14 = 0
    · have i0 : n / 2 ^ 8 % 2 ^ 6 = 0 := by omega
      by_cases h20 : n % 2 ^ 20 = 0
      · have i1 : n / 2 ^ 14 % 2 ^ 6 = 0 := by omega
        by_cases h26 : n % 2 ^ 26 = 0
        · have i2 : n / 2 ^ 20 % 2 ^ 6 = 0 := by omega
          have i3 : n / 2 ^ 26 % 2 ^ 6 ≠ 0 := by omega
          simp [-Nat.reducePow, h8, h14, h20, h26, i0, i1, i2, i3]
        · have i2 : n / 2 ^ 20 % 2 ^ 6 ≠ 0 := by omega
          simp [-Nat.reducePow, h8, h14, h20, h26, i0, i1, i2]
      · have i1 : n / 2 ^ 14 % 2 ^ 6 ≠ 0 := by omega
        simp [-Nat.reducePow, h8, h14, h20, i0, i1]
    · have i0 : n / 2 ^ 8 % 2 ^ 6 ≠ 0 := by omega
      simp [-Nat.reducePow, h8, h14, i0]
  · simp [-Nat.reducePow, h8]

/- The loop always breaks in time, and the list it moves is the one of the carry. -/
theorem timerShift_eq_carry (T : Timer) (now : Nat) (clock : T.time = now % 2 ^ 32) :
    timerShift T = some (match carry (now + 1) with
      | none => { T with time := (now + 1) % 2 ^ 32 }
      | some (i, idx) => moveList { T with time := (now + 1) % 2 ^ 32 } i idx) := by
  have next : (T.time + 1) % 2 ^ 32 = (now + 1) % 2 ^ 32 := by omega
  simp only [timerShift, next]
  split
  · have last : carry (now + 1) = some (3, 0) := by
      have h8 : (now + 1) % 2 ^ 8 = 0 := by omega
      have h14 : (now + 1) % 2 ^ 14 = 0 := by omega
      have h20 : (now + 1) % 2 ^ 20 = 0 := by omega
      have h26 : (now + 1) % 2 ^ 26 = 0 := by omega
      have idx : (now + 1) / 2 ^ 26 % 2 ^ 6 = 0 := by omega
      simp [-Nat.reducePow, carry, h8, h14, h20, h26, idx]
    rw [last]
  · rename_i positive
    exact shiftLoop_eq_carry (now + 1) _ positive

theorem carry_some (moved : carry n = some (i, idx)) :
    i < 4 ∧ n % 2 ^ (8 + 6 * i) = 0 ∧ idx = n / 2 ^ (8 + 6 * i) % 2 ^ 6 ∧
      (i < 3 → n % 2 ^ (14 + 6 * i) ≠ 0) := by
  unfold carry at moved
  split_ifs at moved with h8 h14 h20 h26 <;>
    obtain ⟨rfl, rfl⟩ := Prod.mk.inj (Option.some.inj moved) <;>
    simp_all [-Nat.reducePow]

theorem carry_none (still : carry n = none) : n % 2 ^ 8 ≠ 0 := by
  unfold carry at still
  split_ifs at still with h8
  exact h8

/- The slot changes only with the levels on which the two times agree. -/
theorem place_congr {now' : Nat}
    (same : ∀ k ∈ [8, 14, 20, 26], deadline / 2 ^ k = now' / 2 ^ k ↔
      deadline / 2 ^ k = now / 2 ^ k) :
    place now' deadline = place now deadline := by
  simp only [place, same 8 (by decide), same 14 (by decide), same 20 (by decide),
    same 26 (by decide)]

theorem place_of_carried (moved : carry (now + 1) = some (i, idx))
    (shared : deadline / 2 ^ (8 + 6 * i) = (now + 1) / 2 ^ (8 + 6 * i)) :
    place now deadline = .level i idx := by
  obtain ⟨inside, low, rfl, high⟩ := carry_some moved
  clear moved
  have h8 : deadline / 2 ^ 8 ≠ now / 2 ^ 8 := by interval_cases i <;> omega
  rw [← shared, place, if_neg h8]
  interval_cases i
  · have h14 : deadline / 2 ^ 14 = now / 2 ^ 14 := by omega
    rw [if_pos h14]
  · have h14 : deadline / 2 ^ 14 ≠ now / 2 ^ 14 := by omega
    have h20 : deadline / 2 ^ 20 = now / 2 ^ 20 := by omega
    rw [if_neg h14, if_pos h20]
  · have h14 : deadline / 2 ^ 14 ≠ now / 2 ^ 14 := by omega
    have h20 : deadline / 2 ^ 20 ≠ now / 2 ^ 20 := by omega
    have h26 : deadline / 2 ^ 26 = now / 2 ^ 26 := by omega
    rw [if_neg h14, if_neg h20, if_pos h26]
  · have h14 : deadline / 2 ^ 14 ≠ now / 2 ^ 14 := by omega
    have h20 : deadline / 2 ^ 20 ≠ now / 2 ^ 20 := by omega
    have h26 : deadline / 2 ^ 26 ≠ now / 2 ^ 26 := by omega
    rw [if_neg h14, if_neg h20, if_neg h26]

/- Nodes outside the carried list keep their slot: above the carry the quotients of
the two times agree, and at and below it the node shares them with neither. -/
theorem place_stays (ahead : now < deadline)
    (stays : ∀ i idx, carry (now + 1) = some (i, idx) → place now deadline ≠ .level i idx) :
    place (now + 1) deadline = place now deadline := by
  apply place_congr
  intro k small
  simp only [mem_cons, not_mem_nil, or_false] at small
  cases moved : carry (now + 1) with
  | none =>
    have low := carry_none moved
    rcases small with rfl | rfl | rfl | rfl <;> omega
  | some target =>
    obtain ⟨i, idx⟩ := target
    have apart : deadline / 2 ^ (8 + 6 * i) ≠ (now + 1) / 2 ^ (8 + 6 * i) :=
      fun shared => stays i idx moved (place_of_carried moved shared)
    obtain ⟨inside, low, -, high⟩ := carry_some moved
    clear moved stays
    interval_cases i <;> rcases small with rfl | rfl | rfl | rfl <;> omega

end Skynet.TimerWheel
