import Skynet.Handle.Sequential

/-! The handle 0 and skynet_handle_retireall. Handle 0 is reserved by starting handle_index
at 1; nothing keeps it out when the index has come round. -/
namespace Skynet.Handle
open Base List Function Option

/- One slot of the inner loop: the handle is read, and retired unless it is 0. -/
def retireSlot (handleOf : Nat → Nat) (state : HandleStorage × Nat) (i : Nat) :
    HandleStorage × Nat :=
  let handle :=
    match state.1.slot i with
    | some ctx => handleOf ctx
    | none => 0
  if handle ≠ 0 then
    match handleRetire handleOf state.1 handle with
    | some (s, _) => (s, state.2 + 1)
    | none => state
  else state

def retireRound (handleOf : Nat → Nat) (s : HandleStorage) : HandleStorage × Nat :=
  (range s.slotSize).foldl (retireSlot handleOf) (s, 0)

/- The outer loop returns after a round that retired nothing; `rounds` bounds the rounds. -/
def handleRetireall (handleOf : Nat → Nat) : Nat → HandleStorage → Option HandleStorage
  | 0, _ => none
  | rounds + 1, s =>
    let (s', n) := retireRound handleOf s
    if n = 0 then some s' else handleRetireall handleOf rounds s'

/-- The table in which skynet_handle_register finds the free slot: a full one is doubled. -/
def HandleStorage.searched (handleOf : Nat → Nat) (s : HandleStorage) : HandleStorage :=
  match s.scan with
  | some _ => s
  | none =>
    match rehash handleOf s with
    | .ok t => t
    | .error _ => s

/-- The search of a register call does not come to handle 0, or finds its slot taken. -/
def SkipsZero (r : Registry) : RegistryOp → Prop
  | .register =>
    let s := r.storage.searched r.handleOf
    s.slot 0 ≠ none ∨ ∃ handle, s.handleIndex ≤ handle ∧ handle ≤ handleMask ∧
      s.slot (handle &&& (s.slotSize - 1)) = none
  | .retire _ => True
  | .grab _ => True

/-! Which handle the search finds. -/

variable {s : HandleStorage} {raw index : Nat} {r r' : Registry}

theorem scan_first (found : s.scan = some raw) :
    ∃ i, raw = (i + s.handleIndex) % 2 ^ 24 ∧
      s.slot (raw &&& (s.slotSize - 1)) = none ∧
      ∀ j < i, s.slot ((j + s.handleIndex) % 2 ^ 24 &&& (s.slotSize - 1)) ≠ none := by
  unfold HandleStorage.scan at found
  obtain ⟨before, i, after, range, here, earlier⟩ := findSome?_eq_some_iff.mp found
  rw [range_eq_range'] at range
  obtain ⟨k, -, rfl, rest⟩ := range'_eq_append_iff.mp range
  obtain ⟨rfl, -, -⟩ := range'_eq_cons_iff.mp rest.symm
  simp only [Nat.mul_one, Nat.zero_add] at here earlier
  split at here
  · rename_i free
    cases here
    rw [candidate_eq] at free ⊢
    refine ⟨k, rfl, free, ?_⟩
    intro j less
    have busy := earlier j (by simpa using less)
    simp only [candidate_eq] at busy
    simpa using busy
  · cases here

theorem register_searched (good : r.Good) {s' : HandleStorage} {handle : Nat}
    (registered : handleRegister r.handleOf r.storage r.handles.length = .ok (s', handle)) :
    ∃ raw, (r.storage.searched r.handleOf).scan = some raw ∧ handle = raw ||| r.storage.harbor ∧
      (r.storage.searched r.handleOf).handleIndex = r.storage.handleIndex := by
  unfold handleRegister registerLoop at registered
  unfold HandleStorage.searched
  cases found : r.storage.scan with
  | some raw =>
    simp only [found, Except.ok.injEq, Prod.mk.injEq] at registered
    exact ⟨raw, found, registered.2.symm, rfl⟩
  | none =>
    simp only [found] at registered
    split at registered
    · rename_i fits
      have room : r.storage.slotSize ≠ 2 ^ 24 := by
        intro full
        rw [full] at fits
        exact absurd fits (by decide)
      obtain ⟨t, moved, hashed, -, index, harbor, -, j, inside, free⟩ :=
        rehash_hashed good.hashed (scan_none good.hashed found) (fun _ _ _ => rfl) room
      simp only [moved] at registered ⊢
      cases again : t.scan with
      | none => exact absurd free (scan_none hashed again j inside)
      | some raw =>
        simp only [registerLoop, again, Except.ok.injEq, Prod.mk.injEq] at registered
        exact ⟨raw, rfl, by rw [← harbor]; exact registered.2.symm, index⟩
    · cases registered

theorem scan_ne_zero (positive : 0 < s.handleIndex)
    (skips : s.slot 0 ≠ none ∨ ∃ handle, s.handleIndex ≤ handle ∧ handle ≤ handleMask ∧
      s.slot (handle &&& (s.slotSize - 1)) = none)
    (found : s.scan = some raw) : raw ≠ 0 := by
  obtain ⟨i, eq, free, earlier⟩ := scan_first found
  rintro rfl
  rcases skips with taken | ⟨handle, above, below, empty⟩
  · exact taken (by simpa using free)
  · have mask : handleMask = 2 ^ 24 - 1 := by decide
    have reached : i ≤ handle - s.handleIndex := by
      by_contra later
      apply earlier (handle - s.handleIndex) (by omega)
      rw [Nat.sub_add_cancel above, Nat.mod_eq_of_lt (by omega)]
      exact empty
    rw [Nat.mod_eq_of_lt (by omega)] at eq
    omega

/-! The invariant: no handle with low bits 0 was given out. -/

structure Registry.Reserved (r : Registry) : Prop where
  good : r.Good
  positive : 0 < r.storage.handleIndex
  nonzero : ∀ handle ∈ r.handles, handle % 2 ^ 24 ≠ 0

theorem reserved_initial (harbor : Nat) : (Registry.initial harbor).Reserved := by
  constructor
  · exact good_initial harbor
  · exact Nat.one_pos
  · simp [Registry.initial]

theorem register_reserved (reserved : r.Reserved) (skips : SkipsZero r .register)
    (taken : r.step .register = some r') : r'.Reserved := by
  have good' := step_register_good reserved.good taken
  unfold Registry.step at taken
  rcases register_good reserved.good with ⟨storage, raw, done, -, index, -⟩ | full
  · rw [done] at taken
    cases some.inj taken
    refine ⟨good', by simp [index], ?_⟩
    intro handle member
    rcases mem_append.mp member with old | new
    · exact reserved.nonzero handle old
    · cases mem_singleton.mp new
      obtain ⟨found, scan, eq, same⟩ := register_searched reserved.good done
      have apart := scan_ne_zero (by rw [same]; exact reserved.positive) skips scan
      obtain ⟨i, small, -⟩ := scan_first scan
      have less : found < 2 ^ 24 := by
        rw [small]
        exact Nat.mod_lt _ (by decide)
      obtain ⟨id, harbor⟩ := reserved.good.hashed.harbor
      rw [eq, harbor, or_high less, Nat.add_mul_mod_self_right, Nat.mod_eq_of_lt less]
      exact apart
  · rw [full] at taken
    cases taken

theorem retire_reserved (reserved : r.Reserved) (handle : Nat)
    (taken : r.step (.retire handle) = some r') : r'.Reserved := by
  have good' := step_retire_good reserved.good handle taken
  simp only [Registry.step] at taken
  cases retired : handleRetire r.handleOf r.storage handle with
  | none =>
    simp only [retired, some.injEq] at taken
    cases taken
    exact reserved
  | some result =>
    simp only [retired, some.injEq] at taken
    cases taken
    obtain ⟨-, -, same⟩ := retire_some retired
    refine ⟨good', ?_, reserved.nonzero⟩
    rw [same]
    exact reserved.positive

theorem reserved_run {harbor : Nat}
    (reached : Reaches Registry.step SkipsZero (Registry.initial harbor) r) : r.Reserved := by
  refine reached.invariant Registry.Reserved (reserved_initial harbor) ?_
  intro r op r' reserved skips taken
  cases op with
  | register => exact register_reserved reserved skips taken
  | retire handle => exact retire_reserved reserved handle taken
  | grab handle => cases some.inj taken; exact reserved

/-! The rounds of skynet_handle_retireall. -/

section Retireall

variable {handleOf : Nat → Nat} {s : HandleStorage}

/-- The slots before `n` have been emptied and the others are as they were. -/
structure Emptied (s : HandleStorage) (n : Nat) (t : HandleStorage) : Prop where
  size : t.slotSize = s.slotSize
  before : ∀ i < n, t.slot i = none
  after : ∀ i, n ≤ i → t.slot i = s.slot i

section
variable (h : Hashed s handleOf) (nonzero : ∀ i ctx, s.slot i = some ctx → handleOf ctx ≠ 0)
include h nonzero

theorem retireSlot_emptied {state : HandleStorage × Nat} {i : Nat} (emptied : Emptied s i state.1) :
    Emptied s (i + 1) (retireSlot handleOf state i).1 := by
  have same := emptied.after i (Nat.le_refl i)
  unfold retireSlot
  cases here : s.slot i with
  | none =>
    simp only [same, here, ne_eq, not_true_eq_false, if_false]
    refine ⟨emptied.size, ?_, fun j above => emptied.after j (by omega)⟩
    intro j below
    rcases Nat.lt_succ_iff_lt_or_eq.mp below with before | rfl
    · exact emptied.before j before
    · rw [same, here]
  | some ctx =>
    have place : handleOf ctx &&& (state.1.slotSize - 1) = i := by
      rw [emptied.size, h.mask]
      exact (h.slots i ctx here).2
    have retired : handleRetire handleOf state.1 (handleOf ctx) = some ({ state.1 with
        slot := update state.1.slot i none
        name := state.1.name.filter (fun n => n.handle ≠ handleOf ctx) }, ctx) := by
      simp [handleRetire, place, same, here]
    simp only [same, here, retired, if_pos (nonzero i ctx here)]
    constructor
    · exact emptied.size
    · intro j below
      rcases Nat.lt_succ_iff_lt_or_eq.mp below with before | rfl
      · simp [Nat.ne_of_lt before, emptied.before j before]
      · simp
    · intro j above
      simp [Nat.ne_of_gt above, emptied.after j (by omega)]

theorem retireRound_emptied : ∀ i, (retireRound handleOf s).1.slot i = none := by
  have passed : ∀ n, Emptied s n ((range n).foldl (retireSlot handleOf) (s, 0)).1 := by
    intro n
    induction n with
    | zero => exact ⟨rfl, fun i below => absurd below (Nat.not_lt_zero i), fun i _ => rfl⟩
    | succ n ih =>
      rw [range_succ, foldl_append]
      exact retireSlot_emptied h nonzero ih
  intro i
  rcases Nat.lt_or_ge i s.slotSize with inside | outside
  · exact (passed s.slotSize).before i inside
  · have same := (passed s.slotSize).after i outside
    cases here : s.slot i with
    | none => exact same.trans here
    | some ctx => exact absurd (h.slots i ctx here).1 (Nat.not_lt.mpr outside)

end

theorem retireRound_idle (zero : ∀ i ctx, s.slot i = some ctx → handleOf ctx = 0) :
    retireRound handleOf s = (s, 0) := by
  have skipped : ∀ i, retireSlot handleOf (s, 0) i = (s, 0) := by
    intro i
    cases here : s.slot i with
    | none => simp [retireSlot, here]
    | some ctx => simp [retireSlot, here, zero i ctx here]
  have kept : ∀ is : List Nat, is.foldl (retireSlot handleOf) (s, 0) = (s, 0) := by
    intro is
    induction is with
    | nil => rfl
    | cons i is ih => rw [foldl_cons, skipped, ih]
  exact kept _

theorem retireall_empty (h : Hashed s handleOf)
    (nonzero : ∀ i ctx, s.slot i = some ctx → handleOf ctx ≠ 0) :
    ∃ t, (∀ rounds, handleRetireall handleOf (rounds + 2) s = some t) ∧ ∀ i, t.slot i = none := by
  have empty := retireRound_emptied h nonzero
  refine ⟨(retireRound handleOf s).1, ?_, empty⟩
  intro rounds
  rw [handleRetireall]
  dsimp only
  split
  · rfl
  · rw [handleRetireall, retireRound_idle fun i ctx here => by simp [empty i] at here]
    rfl

end Retireall

/-- In every run whose register calls do not take the slot of handle 0, every handle given out
differs from 0 in its low bits, and retireall, which returns after two rounds at the latest,
leaves no context in the table. -/
theorem handle_zero_reserved (harbor : Nat) (r : Registry)
    (reached : Reaches Registry.step SkipsZero (Registry.initial harbor) r) :
    (∀ handle ∈ r.handles, handle % 2 ^ 24 ≠ 0) ∧
    ∃ s, (∀ rounds, handleRetireall r.handleOf (rounds + 2) r.storage = some s) ∧
      ∀ i, s.slot i = none := by
  have reserved := reserved_run reached
  refine ⟨reserved.nonzero, retireall_empty reserved.good.hashed ?_⟩
  intro i ctx here zero
  have member := (reserved.good.live ctx).mpr ⟨i, here⟩
  have known := reserved.good.known ctx member
  have given : r.handleOf ctx ∈ r.handles := by
    rw [Registry.handleOf, getD_eq_getElem _ _ known]
    exact getElem_mem known
  exact reserved.nonzero _ given (by rw [zero]; rfl)

theorem handle_zero_reserved_two :
    ∃ r, Reaches Registry.step SkipsZero (Registry.initial 1) r ∧
      r.handles = [0x1000001, 0x1000002] ∧ (∀ handle ∈ r.handles, handle % 2 ^ 24 ≠ 0) ∧
      ∃ s, handleRetireall r.handleOf 2 r.storage = some s ∧ ∀ i, s.slot i = none := by
  obtain ⟨r, first⟩ : ∃ r, (Registry.initial 1).step .register = some r := ⟨_, rfl⟩
  obtain ⟨r', second, handles⟩ : ∃ r', r.step .register = some r' ∧
      r'.handles = [0x1000001, 0x1000002] := by
    cases first
    exact ⟨_, rfl, rfl⟩
  have skips : SkipsZero (Registry.initial 1) .register := Or.inr ⟨1, by decide, by decide, rfl⟩
  have skips' : SkipsZero r .register := by
    cases first
    exact Or.inr ⟨2, by decide, by decide, rfl⟩
  have reached : Reaches Registry.step SkipsZero (Registry.initial 1) r' :=
    .next (.next .start skips first) skips' second
  obtain ⟨nonzero, s, returns, empty⟩ := handle_zero_reserved 1 r' reached
  exact ⟨r', reached, handles, nonzero, s, returns 0, empty⟩

/-! Registering and retiring one context at a time brings handle_index round to 0. -/

/- Between two services: the table is empty and the next handle is `index`. -/
structure Registry.Idle (r : Registry) (index : Nat) : Prop where
  run : Run Registry.step (Registry.initial 0) r
  harbor : r.storage.harbor = 0
  size : r.storage.slotSize = 4
  index : r.storage.handleIndex = index
  slots : ∀ i, r.storage.slot i = none

theorem idle_register (idle : r.Idle index) :
    ∃ r', r.step .register = some r' ∧ r'.handles = r.handles ++ [index % 2 ^ 24] ∧
      r'.storage = { r.storage with
        slot := Function.update r.storage.slot (index % 2 ^ 24 &&& 3) (some r.handles.length)
        handleIndex := index % 2 ^ 24 + 1 } := by
  have scan : r.storage.scan = some (index % 2 ^ 24) := by
    have candidate := candidate_eq 0 index
    rw [Nat.zero_add] at candidate
    unfold HandleStorage.scan
    rw [idle.size, idle.index]
    simp only [show range 4 = [0, 1, 2, 3] from rfl, findSome?_cons, idle.slots,
      if_true, Nat.zero_add, candidate]
  have registered : handleRegister r.handleOf r.storage r.handles.length = .ok ({ r.storage with
        slot := update r.storage.slot (index % 2 ^ 24 &&& 3) (some r.handles.length)
        handleIndex := index % 2 ^ 24 + 1 }, index % 2 ^ 24) := by
    simp [handleRegister, registerLoop, scan, idle.size, idle.harbor]
  exact ⟨_, by rw [Registry.step, registered], rfl, rfl⟩

theorem idle_round (idle : r.Idle index) (small : index < 2 ^ 24) :
    ∃ r', Registry.Idle r' (index + 1) := by
  obtain ⟨r₁, first, handles, storage⟩ := idle_register idle
  rw [Nat.mod_eq_of_lt small] at handles storage
  have retired : handleRetire r₁.handleOf r₁.storage index = some ({ r₁.storage with
      slot := update r₁.storage.slot (index &&& 3) none
      name := r₁.storage.name.filter (fun n => n.handle ≠ index) }, r.handles.length) := by
    simp [handleRetire, storage, idle.size, Registry.handleOf, handles]
  refine ⟨{ r₁ with
    storage := { r₁.storage with
      slot := update r₁.storage.slot (index &&& 3) none
      name := r₁.storage.name.filter (fun n => n.handle ≠ index) }
    live := r₁.live.filter (· ≠ r.handles.length) }, ?_, ?_, ?_, ?_, ?_⟩
  · refine .next (.next idle.run trivial first) trivial (a := .retire index) ?_
    rw [Registry.step, retired]
  · simp [storage, idle.harbor]
  · simp [storage, idle.size]
  · simp [storage]
  · intro i
    simp [storage, update_apply, idle.slots]

theorem idle_reached (n : Nat) (small : n < 2 ^ 24) : ∃ r, Registry.Idle r (n + 1) := by
  induction n with
  | zero => exact ⟨Registry.initial 0, .start, rfl, rfl, rfl, fun _ => rfl⟩
  | succ n ih =>
    obtain ⟨r, idle⟩ := ih (by omega)
    exact idle_round idle small

/-- After 2 ^ 24 - 1 services, one at a time, the next one is given handle 0, and retireall
leaves it in its slot. -/
theorem handle_zero_issued :
    ∃ r, Run Registry.step (Registry.initial 0) r ∧ (∃ handle ∈ r.handles, handle % 2 ^ 24 = 0) ∧
      ∃ s, handleRetireall r.handleOf 1 r.storage = some s ∧ s.slot 0 ≠ none := by
  obtain ⟨r, idle⟩ := idle_reached (2 ^ 24 - 1) (by decide)
  obtain ⟨r', taken, handles, storage⟩ := idle_register idle
  refine ⟨r', .next idle.run trivial taken, ⟨0, by simp [handles], rfl⟩, r'.storage, ?_, ?_⟩
  · have zero : ∀ i ctx, r'.storage.slot i = some ctx → r'.handleOf ctx = 0 := by
      intro i ctx here
      simp only [storage, update_apply, idle.slots] at here
      split at here
      · cases here
        simp [Registry.handleOf, handles]
      · cases here
    rw [handleRetireall, retireRound_idle zero]
    rfl
  · simp [storage]

end Skynet.Handle
