import Skynet.Stm.Lock

/-! The reference count of the object. It is what the agents and the pointers on their way hold
together; exactly one agent goes to free the object once it is zero, and an agent that has given up
its reference and still has the lock to give back keeps it from becoming zero. -/
namespace Skynet.Stm
open Function

open Base

def Next.holds : Next → Nat
  | .gone => 0
  | _ => 1

/-- The references an agent holds; stm_grab has a second one in hand. -/
def Pc.holds : Pc → Nat
  | .absent => 0
  | .runlock (.grab _) => 2
  | .runlock .release => 0
  | .lastReader => 0
  | .readerFree => 0
  | .wunlock .release => 0
  | .writerFree => 0
  | .drop _ next => next.holds
  | .freeMsg _ next => next.holds
  | .freeCopy _ next => next.holds
  | .done => 0
  | _ => 1

/-- The agent has taken the count to zero and goes to free the object. -/
def Pc.freeing : Pc → Nat
  | .lastReader => 1
  | .readerFree => 1
  | .writerFree => 1
  | _ => 0

/-- The agent has given up its reference and not yet the lock. -/
def Pc.unlocking : Pc → Bool
  | .runlock .release => true
  | .wunlock .release => true
  | _ => false

variable {R : Type} [Fintype R]

structure Counted (w : World R) : Prop where
  reference : w.reference = total (fun t : Thread => t.pc.holds) w.thread + w.handed
  freeing : total (fun t : Thread => t.pc.freeing) w.thread + w.freed = ifZero w.reference
  unlocking : w.reference = 0 → ∀ b, (w.thread b).pc.unlocking = false
  grabbed : ∀ b ref, (w.thread b).pc = .runlock (.grab ref) → 0 < ref

variable {w w' : World R} {a : Option R} {t : Thread} {pc q : Pc} {next : Next}

section
variable (counted : Counted w)
include counted

theorem Counted.positive (holds : 0 < (w.thread a).pc.holds) : 0 < w.reference := by
  have some := weight_le_total (fun t : Thread => t.pc.holds) w.thread a
  have count := counted.reference
  omega

theorem Counted.live (nonzero : w.reference ≠ 0) : w.freed = 0 := by
  have conserved := counted.freeing
  rw [ifZero_of_ne nonzero] at conserved
  omega

theorem Counted.freed_le : w.freed ≤ 1 := by
  have conserved := counted.freeing
  unfold ifZero at conserved
  split at conserved <;> omega

theorem Counted.there (touches : 0 < (w.thread a).pc.holds ∨ 0 < (w.thread a).pc.freeing ∨
      (w.thread a).pc.unlocking = true) : w.freed = 0 := by
  rcases touches with holds | freeing | unlocking
  · exact counted.live (ne_of_gt (counted.positive holds))
  · have some := weight_le_total (fun t : Thread => t.pc.freeing) w.thread a
    have conserved := counted.freeing
    unfold ifZero at conserved
    split at conserved <;> omega
  · refine counted.live fun none => ?_
    exact absurd (counted.unlocking none a) (by rw [unlocking]; decide)

theorem Counted.setCopy (c : Nat) (copy : Copy) : Counted (setCopy w c copy) :=
  ⟨counted.reference, counted.freeing, counted.unlocking, counted.grabbed⟩

end

/- Only the writer has a write lock to give back, and it has none while somebody reads. -/
theorem nobody_unlocking (placed : Placed w) (locked : Locked w) (live : w.freed = 0)
    (inside : (w.thread a).pc.entered = true)
    (alone : ∀ b, (w.thread b).pc ≠ .runlock .release) (b : Option R) :
    (w.thread b).pc.unlocking = false := by
  cases unlocking : (w.thread b).pc.unlocking with
  | false => rfl
  | true =>
    cases here : (w.thread b).pc with
    | runlock after =>
      rw [here] at unlocking
      cases after with
      | release => exact absurd here (alone b)
      | grab ref => contradiction
      | copy ret => contradiction
    | wunlock after =>
      obtain rfl := placed.writer (by rw [here]; rfl)
      have outside := (locked live).entered inside
      rw [here] at outside
      contradiction
    | _ =>
      rw [here] at unlocking
      contradiction

/- While the writer is in, no other agent is between its decrement and the end of its lock. -/
theorem readers_not_unlocking (placed : Placed w) (locked : Locked w) (live : w.freed = 0)
    (within : (w.thread none).pc.within = true) (b : Option R) (other : b ≠ none) :
    (w.thread b).pc.unlocking = false := by
  have outside := (locked live).exclusive within b
  cases unlocking : (w.thread b).pc.unlocking with
  | false => rfl
  | true =>
    cases here : (w.thread b).pc with
    | runlock after =>
      rw [here] at outside
      contradiction
    | wunlock after => exact absurd (placed.writer (by rw [here]; rfl)) other
    | _ =>
      rw [here] at unlocking
      contradiction

variable [DecidableEq R]

section
variable (counted : Counted w) (old : (w.thread a).pc = pc)
include counted old

theorem Counted.move (thread : w'.thread = update w.thread a t)
    (reference : w'.reference + pc.holds + w.handed = w.reference + t.pc.holds + w'.handed)
    (freeing : t.pc.freeing + w'.freed + ifZero w.reference =
      pc.freeing + w.freed + ifZero w'.reference)
    (unlocking : w'.reference = 0 → t.pc.unlocking = false ∧
      ∀ b, b ≠ a → (w.thread b).pc.unlocking = false)
    (grabbed : ∀ ref, t.pc = .runlock (.grab ref) → 0 < ref) : Counted w' := by
  subst old
  have holds := total_update (fun t : Thread => t.pc.holds) w.thread a t
  have frees := total_update (fun t : Thread => t.pc.freeing) w.thread a t
  have count := counted.reference
  have conserved := counted.freeing
  refine ⟨?_, ?_, ?_, ?_⟩
  · rw [thread]
    omega
  · rw [thread]
    omega
  · intro none
    rw [thread]
    exact (forall_update_iff w.thread fun _ t => t.pc.unlocking = false).mpr
      (unlocking none)
  · rw [thread]
    exact (forall_update_iff w.thread fun _ t =>
      ∀ ref, t.pc = .runlock (.grab ref) → 0 < ref).mpr ⟨grabbed, fun b _ => counted.grabbed b⟩

/- An access that leaves the count, by an agent that goes on holding what it held. -/
theorem Counted.keep (thread : w'.thread = update w.thread a t)
    (reference : w'.reference = w.reference)
    (handed : w'.handed = w.handed) (freed : w'.freed = w.freed) (holds : t.pc.holds = pc.holds)
    (freeing : t.pc.freeing = pc.freeing) (unlocking : t.pc.unlocking = false)
    (grabbed : ∀ ref, t.pc ≠ .runlock (.grab ref)) : Counted w' := by
  refine counted.move old thread ?_ ?_ ?_ fun ref grab => absurd grab (grabbed ref)
  · rw [reference, handed, holds]
  · rw [reference, freed, freeing]
  · intro none
    exact ⟨unlocking, fun b _ => counted.unlocking (reference ▸ none) b⟩

theorem counted_finish (holds : pc.holds = next.holds) (freeing : pc.freeing = 0) :
    Counted (finish w a next) := by
  cases next with
  | idle | clear | gone => exact counted.keep old rfl rfl rfl rfl holds.symm freeing.symm rfl nofun
  | keep copy =>
    cases copy <;> exact counted.keep old rfl rfl rfl rfl holds.symm freeing.symm rfl nofun

end

/-- A reader takes the count to zero only when no other reader is between its decrement and the
end of its read lock. -/
def Alone (w : World R) (a : Option R) : Prop :=
  (w.thread a).pc = .reading .release → w.reference = 1 →
    ∀ b, (w.thread b).pc ≠ .runlock .release

theorem access_counted (placed : Placed w) (locked : Locked w) (counted : Counted w)
    (alone : Alone w a) (access : Access w a w') : Counted w' := by
  cases access with
  | stay => exact counted
  | test old _ _ | add old _ | enter old _ _ | refuse old _ _ | back old _ | load old _ _
  | loadNone old _ _ | unlockSame old _ | unlockNew old _ | unlockRelease old _
  | lastReader old _ | checkCopy old _ | testAndSet old _ _ | alone old _ _ | update old _
  | dropOwn old _ | unlockUpdate old _ | unlockEnd old _ | clear old _ | finc old _
  | dropLast old _ | freeMsg old | use old =>
    exact counted.keep old rfl rfl rfl rfl rfl rfl rfl nofun
  | grab old live =>
    have positive := counted.positive (a := a) (by rw [old]; decide)
    refine counted.move old rfl ?_ ?_ ?_ ?_
    · simp only [go, put, Pc.holds]
      omega
    · simp [go, put, Pc.freeing, ifZero_of_ne (ne_of_gt positive),
        ifZero_of_ne (by omega : w.reference + 1 ≠ 0)]
    · intro none
      change w.reference + 1 = 0 at none
      omega
    · intro ref same
      cases same
      exact positive
  | lastRelease old live one =>
    refine counted.move old rfl ?_ ?_ ?_ (by simp)
    · simp [go, put, Pc.holds]
    · simp only [go, put, Pc.freeing, ifZero_of_ne (by omega : w.reference ≠ 0),
        ifZero_of_eq (by omega : w.reference - 1 = 0)]
      omega
    · intro _
      refine ⟨rfl, fun b _ => ?_⟩
      exact nobody_unlocking placed locked live (by rw [old]; rfl) (alone old one) b
  | release old live more | decrement old live more =>
    have positive := counted.positive (a := a) (by rw [old]; decide)
    refine counted.move old rfl ?_ ?_ ?_ (by simp)
    · simp [go, put, Pc.holds]
    · simp [go, put, Pc.freeing, ifZero_of_ne (ne_of_gt positive),
        ifZero_of_ne (by omega : w.reference - 1 ≠ 0)]
    · intro none
      change w.reference - 1 = 0 at none
      omega
  | unlockGrab old live =>
    refine counted.move old rfl ?_ rfl ?_ (by simp)
    · simp only [go, put, Pc.holds]
      omega
    · intro none
      exact ⟨rfl, fun b _ => counted.unlocking none b⟩
  | readerFree old live | writerFree old live =>
    refine counted.move old rfl rfl ?_ ?_ (by simp)
    · simp only [go, put, Pc.freeing]
      omega
    · intro none
      exact ⟨rfl, fun b _ => counted.unlocking none b⟩
  | decrementLast old live last =>
    have positive := counted.positive (a := a) (by rw [old]; decide)
    obtain rfl := placed.writer (by rw [old]; rfl)
    refine counted.move old rfl ?_ ?_ ?_ (by simp)
    · simp [go, put, Pc.holds]
    · simp only [go, put, Pc.freeing, ifZero_of_ne (by omega : w.reference ≠ 0),
        ifZero_of_eq (by omega : w.reference - 1 = 0)]
      omega
    · intro _
      exact ⟨rfl, readers_not_unlocking placed locked live (by rw [old]; rfl)⟩
  | dropNone old => exact counted_finish counted old rfl rfl
  | drop old _ | freeCopy old => exact counted_finish (counted.setCopy _ _) old rfl rfl

theorem begins_counted (counted : Counted w) (old : (w.thread a).pc = .idle)
    (begins : Begins w a w') : Counted w' := by
  cases begins <;> exact counted.keep old rfl rfl rfl rfl rfl rfl rfl nofun

theorem newcopy_counted (counted : Counted w) {r : R} (old : (w.thread (some r)).pc = .absent)
    (waits : 0 < w.handed) :
    Counted (put { w with handed := w.handed - 1 } (some r) ⟨.idle, none⟩) := by
  refine counted.move old rfl ?_ rfl ?_ (by simp)
  · simp only [put, Pc.holds]
    omega
  · intro none
    exact ⟨rfl, fun b _ => counted.unlocking none b⟩

end Skynet.Stm
