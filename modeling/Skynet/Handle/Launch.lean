import Skynet.Handle.Registry

/-! Concurrent launches. skynet_context_new stores the result of
skynet_handle_register after the lock is released, so register calls of other
threads may fall between the two and rehash a context whose handle is still 0. -/
namespace Skynet.Handle
open Base List Option

/-- The contexts in the order of their register calls, with what each call returned,
those whose launching thread has stored it, and those retired. -/
structure Launches where
  storage : HandleStorage
  returned : List Nat
  assigned : List Nat
  retired : List Nat

def Launches.given (l : Launches) (ctx : Nat) : Nat := l.returned.getD ctx 0

def Launches.handleOf (l : Launches) (ctx : Nat) : Nat :=
  if ctx ∈ l.assigned then l.given ctx else 0

def Launches.initial (harbor : Nat) : Launches := ⟨handleInit harbor, [], [], []⟩

inductive LaunchOp where
  | register
  | assign (ctx : Nat)
  | retire (handle : Nat)
  deriving DecidableEq, Repr

def Launches.step (l : Launches) : LaunchOp → Option Launches
  | .register =>
    match handleRegister l.handleOf l.storage l.returned.length with
    | .ok (storage, handle) => some { l with storage := storage, returned := l.returned ++ [handle] }
    | .error _ => none
  | .assign ctx =>
    if ctx < l.returned.length ∧ ctx ∉ l.assigned then
      some { l with assigned := ctx :: l.assigned }
    else none
  | .retire handle =>
    match handleRetire l.handleOf l.storage handle with
    | some (storage, ctx) => some { l with storage := storage, retired := ctx :: l.retired }
    | none => some l

/-- A register call that finds the table full, and so doubles it, finds in it only
contexts whose handle is stored, or whose handle belongs into slot 0 of the doubled
table, which is where the rehash puts a context that still has handle 0. -/
def Settled (l : Launches) : LaunchOp → Prop
  | .register => (∀ i < l.storage.slotSize, l.storage.slot i ≠ none) →
      ∀ i ctx, l.storage.slot i = some ctx →
        ctx ∈ l.assigned ∨ l.given ctx &&& (l.storage.slotSize * 2 - 1) = 0
  | _ => True

structure Launches.Good (l : Launches) : Prop where
  hashed : Hashed l.storage l.given
  holds : ∀ ctx, l.storage.Holds ctx ↔ ctx < l.returned.length ∧ ctx ∉ l.retired
  assigned : ∀ ctx ∈ l.assigned, ctx < l.returned.length
  retired : ∀ ctx ∈ l.retired, ctx < l.returned.length

theorem launches_initial (harbor : Nat) : (Launches.initial harbor).Good := by
  refine ⟨hashed_init harbor _, ?_, ?_, ?_⟩
  · intro ctx
    simp [Launches.initial, HandleStorage.Holds, handleInit]
  · simp [Launches.initial]
  · simp [Launches.initial]

variable {l : Launches}

theorem launch_fresh (good : l.Good) : ¬ l.storage.Holds l.returned.length :=
  fun held => Nat.lt_irrefl _ ((good.holds _).mp held).1

theorem settled_register (good : l.Good) (settled : Settled l .register) :
    (∃ storage raw, handleRegister l.handleOf l.storage l.returned.length =
        .ok (storage, raw + l.storage.harbor) ∧
      Hashed storage (Function.update l.given l.returned.length (raw + l.storage.harbor))) ∨
    handleRegister l.handleOf l.storage l.returned.length = .error .tableFull := by
  have stored : (∀ i < l.storage.slotSize, l.storage.slot i ≠ none) →
      ∀ i c, l.storage.slot i = some c →
        l.handleOf c % (l.storage.slotSize * 2) = l.given c % (l.storage.slotSize * 2) := by
    intro full i ctx here
    unfold Launches.handleOf
    rcases settled full i ctx here with known | zero
    · rw [if_pos known]
    · rw [good.hashed.mask_double] at zero
      split
      · rfl
      · rw [zero, Nat.zero_mod]
  rcases register_hashed good.hashed (launch_fresh good) stored with
    ⟨storage, raw, done, hashed, -⟩ | full
  · exact .inl ⟨storage, raw, done, hashed⟩
  · exact .inr full

theorem launches_step {l' : Launches} {op : LaunchOp} (good : l.Good) (settled : Settled l op)
    (taken : l.step op = some l') : l'.Good := by
  cases op with
  | register =>
    simp only [Launches.step] at taken
    rcases settled_register good settled with ⟨storage, raw, done, hashed⟩ | full
    · rw [done] at taken
      cases some.inj taken
      obtain ⟨k, -, -, size⟩ := good.hashed.size
      have holds := (registerLoop_tidy 32 good.hashed.tidy ⟨k, size⟩ (launch_fresh good) done).2.2.1
      refine ⟨?_, ?_, ?_, ?_⟩
      · show Hashed storage (fun ctx => (l.returned ++ [raw + l.storage.harbor]).getD ctx 0)
        rw [getD_snoc]
        exact hashed
      · intro ctx
        rw [holds, good.holds, length_append, length_singleton]
        constructor
        · rintro (⟨old, live⟩ | rfl)
          · exact ⟨Nat.lt_succ_of_lt old, live⟩
          · exact ⟨Nat.lt_succ_self _, fun dead => Nat.lt_irrefl _ (good.retired _ dead)⟩
        · rintro ⟨bound, live⟩
          rcases Nat.lt_succ_iff_lt_or_eq.mp bound with old | new
          · exact .inl ⟨old, live⟩
          · exact .inr new
      · intro ctx member
        rw [length_append]
        exact Nat.lt_succ_of_lt (good.assigned ctx member)
      · intro ctx member
        rw [length_append]
        exact Nat.lt_succ_of_lt (good.retired ctx member)
    · rw [full] at taken
      cases taken
  | assign ctx =>
    simp only [Launches.step] at taken
    split at taken
    · rename_i allowed
      cases some.inj taken
      refine ⟨good.hashed, good.holds, ?_, good.retired⟩
      intro c member
      rcases mem_cons.mp member with rfl | old
      · exact allowed.1
      · exact good.assigned c old
    · cases taken
  | retire handle =>
    simp only [Launches.step] at taken
    cases retired : handleRetire l.handleOf l.storage handle with
    | none =>
      rw [retired] at taken
      cases some.inj taken
      exact good
    | some result =>
      obtain ⟨storage, ctx⟩ := result
      rw [retired] at taken
      cases some.inj taken
      have holds := retire_holds good.hashed.tidy retired
      obtain ⟨here, -, rfl⟩ := retire_some retired
      refine ⟨⟨good.hashed.size, good.hashed.harbor, good.hashed.index, ?_⟩, ?_, good.assigned, ?_⟩
      · intro i c slot
        by_cases eq : i = handle &&& (l.storage.slotSize - 1)
        · simp [eq] at slot
        · exact good.hashed.slots i c (by simpa [eq] using slot)
      · intro c
        rw [holds, good.holds, mem_cons, not_or]
        constructor
        · rintro ⟨⟨bound, live⟩, other⟩
          exact ⟨bound, other, live⟩
        · rintro ⟨bound, other, live⟩
          exact ⟨⟨bound, live⟩, other⟩
      · intro c member
        rcases mem_cons.mp member with rfl | old
        · exact ((good.holds _).mp ⟨_, here⟩).1
        · exact good.retired c old

theorem launches_run {harbor : Nat}
    (reached : Reaches Launches.step Settled (Launches.initial harbor) l) : l.Good :=
  reached.invariant Launches.Good (launches_initial harbor)
    (fun _ _ _ good settled taken => launches_step good settled taken)

theorem grab_assigned (good : l.Good) {ctx : Nat} (stored : ctx ∈ l.assigned)
    (live : ctx ∉ l.retired) : handleGrab l.handleOf l.storage (l.handleOf ctx) = some ctx := by
  obtain ⟨i, here⟩ := (good.holds ctx).mpr ⟨good.assigned ctx stored, live⟩
  have place := (good.hashed.slots i ctx here).2
  have handle : l.handleOf ctx = l.given ctx := if_pos stored
  simp only [handleGrab, good.hashed.mask, handle, place, here, if_true]

/-- Launches that are settled whenever the table doubles: a stored handle finds its
context until it is retired, and the assertion of the rehash holds. -/
theorem settled_launches_addressable (harbor : Nat) (l : Launches)
    (reached : Reaches Launches.step Settled (Launches.initial harbor) l) :
    (∀ ctx ∈ l.assigned, ctx ∉ l.retired →
      handleGrab l.handleOf l.storage (l.handleOf ctx) = some ctx) ∧
    (Settled l .register →
      ∀ e, handleRegister l.handleOf l.storage l.returned.length = .error e → e = .tableFull) := by
  have good := launches_run reached
  refine ⟨fun ctx stored live => grab_assigned good stored live, ?_⟩
  intro settled e failed
  rcases settled_register good settled with ⟨storage, raw, done, -⟩ | full
  · rw [done] at failed; cases failed
  · rw [full] at failed; cases failed; rfl

/- The first context of harbor 1, registered and then assigned. -/
theorem settled_launch_first :
    ∃ l, Reaches Launches.step Settled (Launches.initial 1) l ∧ l.handleOf 0 = 0x1000001 ∧
      handleGrab l.handleOf l.storage (l.handleOf 0) = some 0 := by
  obtain ⟨l, first, full⟩ : ∃ l, (Launches.initial 1).step .register = some l ∧
      l.returned = [0x1000001] := ⟨_, rfl, rfl⟩
  obtain ⟨l', second, eq⟩ : ∃ l', l.step (.assign 0) = some l' ∧
      l' = { l with assigned := 0 :: l.assigned } := by
    refine ⟨_, ?_, rfl⟩
    have fresh : l.assigned = [] := by cases some.inj first; rfl
    simp [Launches.step, full, fresh]
  have empty : Settled (Launches.initial 1) .register :=
    fun occupied => absurd rfl (occupied 0 (by decide))
  have reached : Reaches Launches.step Settled (Launches.initial 1) l' :=
    .next (.next .start empty first) (show Settled l (.assign 0) from trivial) second
  have live : l'.retired = [] := by
    subst eq
    cases some.inj first
    rfl
  refine ⟨l', reached, ?_, ?_⟩
  · subst eq
    simp [Launches.handleOf, Launches.given, full]
  · exact (settled_launches_addressable 1 l' reached).1 0 (by simp [eq]) (by simp [live])

/- Four launches fill the table. When the fifth doubles it before the fourth has
stored its handle 4, the rehash puts that context into slot 0 and handle 4 is never
found; when two launches have not stored theirs, the assertion fails. -/
theorem launch_race_loses_context :
    (∃ l, Run Launches.step (Launches.initial 1) l ∧ 3 ∈ l.assigned ∧ 3 ∉ l.retired ∧
      handleGrab l.handleOf l.storage (l.handleOf 3) = none) ∧
    (∃ l, Run Launches.step (Launches.initial 1) l ∧
      handleRegister l.handleOf l.storage l.returned.length = .error .slotTaken) := by
  constructor
  · exact ⟨_, run_of_list [.register, .assign 0, .register, .assign 1, .register, .assign 2,
      .register, .register, .assign 3] rfl, by decide, by decide, rfl⟩
  · exact ⟨_, run_of_list [.register, .assign 0, .register, .assign 1, .register,
      .register] rfl, rfl⟩

end Skynet.Handle
