import Skynet.Handle.Registry

/-! The registry used by one thread: a register call together with the assignment
of its result to the context is one step. -/
namespace Skynet.Handle
open Base List Option

/-- The contexts created so far are numbered in order; `handles` lists the handle
stored in each, `live` those registered and not yet retired. -/
structure Registry where
  storage : HandleStorage
  handles : List Nat
  live : List Nat
  wrapped : Bool

def Registry.handleOf (r : Registry) (ctx : Nat) : Nat := r.handles.getD ctx 0

def Registry.initial (harbor : Nat) : Registry := ⟨handleInit harbor, [], [], false⟩

inductive RegistryOp where
  | register
  | retire (handle : Nat)
  | grab (handle : Nat)
  deriving DecidableEq, Repr

/- A register call that an assertion stops ends the process and has no next state.
The wrap of handle_index shows as a register call after which it is not larger. -/
def Registry.step (r : Registry) : RegistryOp → Option Registry
  | .register =>
    match handleRegister r.handleOf r.storage r.handles.length with
    | .ok (storage, handle) =>
      some {
        storage := storage
        handles := r.handles ++ [handle]
        live := r.live ++ [r.handles.length]
        wrapped := r.wrapped || decide (storage.handleIndex ≤ r.storage.handleIndex) }
    | .error _ => none
  | .retire handle =>
    match handleRetire r.handleOf r.storage handle with
    | some (storage, ctx) => some { r with storage := storage, live := r.live.filter (· ≠ ctx) }
    | none => some r
  | .grab _ => some r

structure Registry.Good (r : Registry) : Prop where
  hashed : Hashed r.storage r.handleOf
  live : ∀ ctx, ctx ∈ r.live ↔ r.storage.Holds ctx
  known : ∀ ctx ∈ r.live, ctx < r.handles.length
  rising : r.wrapped = false → r.handles.Pairwise (· < ·) ∧
    ∀ h ∈ r.handles, h < r.storage.handleIndex + r.storage.harbor

theorem good_initial (harbor : Nat) : (Registry.initial harbor).Good := by
  refine ⟨hashed_init harbor _, ?_, ?_, ?_⟩
  · intro ctx
    simp [Registry.initial, HandleStorage.Holds, handleInit]
  · simp [Registry.initial]
  · simp [Registry.initial]

variable {r r' : Registry}

theorem register_fresh (good : r.Good) : ¬ r.storage.Holds r.handles.length :=
  fun held => Nat.lt_irrefl _ (good.known _ ((good.live _).mpr held))

/- Registering in a good registry: the two outcomes, with what the first leaves. -/
theorem register_good (good : r.Good) :
    (∃ storage raw, handleRegister r.handleOf r.storage r.handles.length =
        .ok (storage, raw + r.storage.harbor) ∧
      Hashed storage (Function.update r.handleOf r.handles.length (raw + r.storage.harbor)) ∧
      storage.handleIndex = raw + 1 ∧ storage.harbor = r.storage.harbor) ∨
    handleRegister r.handleOf r.storage r.handles.length = .error .tableFull := by
  rcases register_hashed good.hashed (register_fresh good) (fun _ _ _ _ => rfl) with
    ⟨storage, raw, done, hashed, index, harbor, -⟩ | full
  · exact .inl ⟨storage, raw, done, hashed, index, harbor⟩
  · exact .inr full

theorem step_register_good (good : r.Good) (taken : r.step .register = some r') : r'.Good := by
  unfold Registry.step at taken
  rcases register_good good with ⟨storage, raw, done, hashed, index, harbor⟩ | full
  · rw [done] at taken
    cases some.inj taken
    obtain ⟨k, -, -, size⟩ := good.hashed.size
    have holds := (registerLoop_tidy 32 good.hashed.tidy ⟨k, size⟩ (register_fresh good) done).2.2.1
    refine ⟨?_, ?_, ?_, ?_⟩
    · show Hashed storage (fun ctx => (r.handles ++ [raw + r.storage.harbor]).getD ctx 0)
      rw [getD_snoc]
      exact hashed
    · intro ctx
      rw [holds, ← good.live]
      simp
    · intro ctx member
      show ctx < (r.handles ++ [raw + r.storage.harbor]).length
      rw [length_append, length_singleton]
      rcases mem_append.mp member with old | new
      · exact Nat.lt_succ_of_lt (good.known ctx old)
      · cases mem_singleton.mp new
        exact Nat.lt_succ_self _
    · intro unwrapped
      simp only [Bool.or_eq_false_iff, decide_eq_false_iff_not, Nat.not_le] at unwrapped
      obtain ⟨rising, below⟩ := good.rising unwrapped.1
      rw [index] at unwrapped
      rw [index, harbor]
      refine ⟨pairwise_append.mpr ⟨rising, by simp, ?_⟩, ?_⟩
      · intro h hh new hn
        cases mem_singleton.mp hn
        have less := below h hh
        omega
      · intro h hh
        rcases mem_append.mp hh with old | new
        · have less := below h old
          omega
        · cases mem_singleton.mp new
          omega
  · rw [full] at taken
    cases taken

theorem step_retire_good (good : r.Good) (handle : Nat) (taken : r.step (.retire handle) = some r') :
    r'.Good := by
  simp only [Registry.step] at taken
  cases retired : handleRetire r.handleOf r.storage handle with
  | none =>
    rw [retired] at taken
    cases some.inj taken
    exact good
  | some result =>
    obtain ⟨storage, ctx⟩ := result
    rw [retired] at taken
    cases some.inj taken
    have holds := retire_holds good.hashed.tidy retired
    obtain ⟨-, -, rfl⟩ := retire_some retired
    refine ⟨⟨good.hashed.size, good.hashed.harbor, good.hashed.index, ?_⟩, ?_, ?_, good.rising⟩
    · intro i c here
      by_cases eq : i = handle &&& (r.storage.slotSize - 1)
      · simp [eq] at here
      · exact good.hashed.slots i c (by simpa [eq] using here)
    · intro c
      rw [holds, ← good.live]
      simp
    · exact fun c member => good.known c (mem_filter.mp member).1

theorem good_run {harbor : Nat} (reached : Run Registry.step (Registry.initial harbor) r) :
    r.Good := by
  refine reached.invariant Registry.Good (good_initial harbor) ?_
  intro r op r' good _ taken
  cases op with
  | register => exact step_register_good good taken
  | retire handle => exact step_retire_good good handle taken
  | grab handle => cases some.inj taken; exact good

theorem grab_iff_live (good : r.Good) (handle ctx : Nat) :
    handleGrab r.handleOf r.storage handle = some ctx ↔ ctx ∈ r.live ∧ r.handleOf ctx = handle := by
  constructor
  · intro grabbed
    obtain ⟨here, same⟩ := grab_some grabbed
    exact ⟨(good.live ctx).mpr ⟨_, here⟩, same⟩
  · rintro ⟨member, rfl⟩
    obtain ⟨i, here⟩ := (good.live ctx).mp member
    have place := (good.hashed.slots i ctx here).2
    simp only [handleGrab, good.hashed.mask, place, here, if_true]

theorem live_handles_distinct (good : r.Good) {c d : Nat} (hc : c ∈ r.live) (hd : d ∈ r.live)
    (same : r.handleOf c = r.handleOf d) : c = d := by
  have first := (grab_iff_live good (r.handleOf d) c).mpr ⟨hc, same⟩
  have second := (grab_iff_live good (r.handleOf d) d).mpr ⟨hd, rfl⟩
  exact some.inj (first.symm.trans second)

/-- The registry used sequentially, over every run from any harbor. -/
theorem sequential_registry_correct (harbor : Nat) (r : Registry)
    (reached : Run Registry.step (Registry.initial harbor) r) :
    (∀ i ctx, r.storage.slot i = some ctx →
      r.handleOf ctx &&& (r.storage.slotSize - 1) = i) ∧
    (∀ c ∈ r.live, ∀ d ∈ r.live, r.handleOf c = r.handleOf d → c = d) ∧
    (∀ handle ctx, handleGrab r.handleOf r.storage handle = some ctx ↔
      ctx ∈ r.live ∧ r.handleOf ctx = handle) ∧
    (∀ handle, handleGrab r.handleOf r.storage handle = none ↔
      ∀ ctx ∈ r.live, r.handleOf ctx ≠ handle) ∧
    (∀ e, handleRegister r.handleOf r.storage r.handles.length = .error e → e = .tableFull) ∧
    (r.wrapped = false → r.handles.Pairwise (· < ·) ∧
      ∀ ctx < r.handles.length, ctx ∉ r.live →
        handleGrab r.handleOf r.storage (r.handleOf ctx) = none) := by
  have good := good_run reached
  refine ⟨?_, ?_, grab_iff_live good, ?_, ?_, ?_⟩
  · intro i ctx here
    rw [good.hashed.mask]
    exact (good.hashed.slots i ctx here).2
  · exact fun c hc d hd same => live_handles_distinct good hc hd same
  · intro handle
    constructor
    · intro missed ctx member same
      have found := (grab_iff_live good handle ctx).mpr ⟨member, same⟩
      rw [missed] at found
      cases found
    · intro absent
      cases grabbed : handleGrab r.handleOf r.storage handle with
      | none => rfl
      | some ctx =>
        obtain ⟨member, same⟩ := (grab_iff_live good handle ctx).mp grabbed
        exact absurd same (absent ctx member)
  · intro e failed
    rcases register_good good with ⟨storage, raw, done, -⟩ | full
    · rw [done] at failed; cases failed
    · rw [full] at failed; cases failed; rfl
  · intro unwrapped
    obtain ⟨rising, -⟩ := good.rising unwrapped
    refine ⟨rising, ?_⟩
    intro ctx old dead
    cases grabbed : handleGrab r.handleOf r.storage (r.handleOf ctx) with
    | none => rfl
    | some other =>
      obtain ⟨member, same⟩ := (grab_iff_live good _ other).mp grabbed
      have known := good.known other member
      have position : other = ctx := by
        simp only [Registry.handleOf, getD_eq_getElem _ _ known, getD_eq_getElem _ _ old] at same
        exact (List.Nodup.getElem_inj_iff (rising.imp Nat.ne_of_lt)).mp same
      exact absurd (position ▸ member) dead

/- One service registered at harbor 1 and found again under its handle. -/
theorem sequential_registry_first :
    ∃ r, Run Registry.step (Registry.initial 1) r ∧ r.handles = [0x1000001] ∧
      handleGrab r.handleOf r.storage 0x1000001 = some 0 := by
  obtain ⟨r, taken, handles, live⟩ : ∃ r, (Registry.initial 1).step .register = some r ∧
      r.handles = [0x1000001] ∧ r.live = [0] := ⟨_, rfl, rfl, rfl⟩
  have reached : Run Registry.step (Registry.initial 1) r := .next .start trivial taken
  refine ⟨r, reached, handles, ?_⟩
  exact ((sequential_registry_correct 1 r reached).2.2.1 0x1000001 0).mpr
    ⟨by simp [live], by simp [Registry.handleOf, handles]⟩

end Skynet.Handle
