import Skynet.Base.Total
import Skynet.Stm.Placed

/-! The lock of rwlock.h. While the object is not freed, the word `read` counts the readers that
have added themselves, `write` is the flag of the writer, and nobody has entered to read while the
writer is in. -/
namespace Skynet.Stm

open Base Function

/-- The agent is counted in the word `read`. -/
def Pc.counted : Pc → Nat
  | .rlock .check _ => 1
  | .rlock .back _ => 1
  | .reading _ => 1
  | .finc _ => 1
  | .runlock _ => 1
  | .lastReader => 1
  | .readerFree => 1
  | _ => 0

/-- The agent has the read lock. -/
def Pc.entered : Pc → Bool
  | .reading _ => true
  | .finc _ => true
  | .runlock _ => true
  | .lastReader => true
  | .readerFree => true
  | _ => false

/-- The agent has the write lock. -/
def Pc.within : Pc → Bool
  | .writing _ => true
  | .wunlock _ => true
  | .clear => true
  | .decrement => true
  | .writerFree => true
  | .drop _ next => next.writerOnly
  | .freeMsg _ next => next.writerOnly
  | .freeCopy _ next => next.writerOnly
  | _ => false

/-- The agent has set the word `write`. -/
def Pc.flag : Pc → Bool
  | .wlock .readers _ => true
  | pc => pc.within

theorem Pc.counted_of_entered {pc : Pc} (entered : pc.entered = true) : pc.counted = 1 := by
  cases pc <;> first | rfl | contradiction

theorem Pc.flag_of_within {pc : Pc} (within : pc.within = true) : pc.flag = true := by
  cases pc with
  | wlock phase op => contradiction
  | _ => exact within

variable {R : Type} [Fintype R]

structure Held (w : World R) : Prop where
  read : w.read = total (fun t : Thread => t.pc.counted) w.thread
  write : w.write = (w.thread none).pc.flag
  exclusive : (w.thread none).pc.within = true → ∀ b, (w.thread b).pc.entered = false

/- Nothing is known of the lock of a freed object. -/
def Locked (w : World R) : Prop := w.freed = 0 → Held w

theorem locked_start : Locked (World.start : World R) := by
  intro _
  refine ⟨?_, rfl, fun within => nomatch within⟩
  have empty : total (fun t : Thread => t.pc.counted) (World.start : World R).thread = 0 := by
    refine total_of_zero fun a => ?_
    cases a <;> rfl
  rw [empty]
  rfl

variable {w w' : World R} {a : Option R} {t : Thread} {pc q : Pc} {next : Next}

theorem Held.unlocked (held : Held w) (free : w.write = false) :
    (w.thread none).pc.within = false := by
  cases within : (w.thread none).pc.within with
  | false => rfl
  | true =>
    have set := held.write.trans (Pc.flag_of_within within)
    exact absurd (free.symm.trans set) (by decide)

theorem Held.nobody (held : Held w) (none : w.read = 0) (b : Option R) :
    (w.thread b).pc.entered = false := by
  cases entered : (w.thread b).pc.entered with
  | false => rfl
  | true =>
    have one := Pc.counted_of_entered entered
    have some := weight_le_total (fun t : Thread => t.pc.counted) w.thread b
    have count := held.read
    omega

theorem Held.entered (held : Held w) (inside : (w.thread a).pc.entered = true) :
    (w.thread none).pc.within = false := by
  cases within : (w.thread none).pc.within with
  | false => rfl
  | true => exact absurd (held.exclusive within a) (by rw [inside]; decide)

theorem Held.setCopy (held : Held w) (c : Nat) (copy : Copy) : Held (setCopy w c copy) :=
  ⟨held.read, held.write, held.exclusive⟩

variable [DecidableEq R]

section
variable (held : Held w)
include held

theorem read_update (thread : w'.thread = update w.thread a t)
    (read : w'.read + (w.thread a).pc.counted = w.read + t.pc.counted) :
    w'.read = total (fun t : Thread => t.pc.counted) w'.thread := by
  have moved := total_update (fun t : Thread => t.pc.counted) w.thread a t
  have count := held.read
  rw [thread]
  omega

/- An access that is no writer's: the writer's flag is as it was, and whoever enters has found it
down. -/
theorem Held.reads (old : (w.thread a).pc = pc) (thread : w'.thread = update w.thread a t)
    (read : w'.read + pc.counted = w.read + t.pc.counted) (write : w'.write = w.write)
    (before : pc.flag = false) (after : t.pc.flag = false)
    (enters : t.pc.entered = true → pc.entered = true ∨ w.write = false) : Held w' := by
  subst old
  have flag : (w'.thread none).pc.flag = (w.thread none).pc.flag := by
    rw [thread]
    by_cases self : a = none
    · rw [← self, update_self, before, after]
    · rw [update_of_ne (Ne.symm self)]
  refine ⟨read_update held thread read, write.trans (held.write.trans flag.symm), ?_⟩
  intro within
  have inside : (w.thread none).pc.within = true := by
    by_cases self : a = none
    · rw [thread, self, update_self] at within
      exact absurd (Pc.flag_of_within within) (by rw [after]; decide)
    · rwa [thread, update_of_ne (Ne.symm self)] at within
  rw [thread]
  refine (Function.forall_update_iff w.thread fun _ t => t.pc.entered = false).mpr
    ⟨?_, fun b _ => held.exclusive inside b⟩
  cases entered : t.pc.entered with
  | false => rfl
  | true =>
    rcases enters entered with old | free
    · exact absurd (held.exclusive inside a) (by rw [old]; decide)
    · exact absurd inside (by rw [held.unlocked free]; decide)

/- An access of the writer to the lock or under it. -/
theorem Held.writes (self : a = none) (old : (w.thread a).pc = pc)
    (thread : w'.thread = update w.thread a t) (read : w'.read = w.read)
    (before : pc.counted = 0) (after : t.pc.counted = 0) (write : w'.write = t.pc.flag)
    (enters : t.pc.within = true → pc.within = true ∨ w.read = 0) : Held w' := by
  subst self old
  refine ⟨read_update held thread (by rw [read, before, after]), ?_, ?_⟩
  · rw [thread, update_self]
    exact write
  · intro within
    rw [thread, update_self] at within
    rw [thread]
    refine (Function.forall_update_iff w.thread fun _ t => t.pc.entered = false).mpr ⟨?_, ?_⟩
    · cases entered : t.pc.entered with
      | false => rfl
      | true => exact absurd (Pc.counted_of_entered entered) (by rw [after]; decide)
    · intro b _
      rcases enters within with inside | none
      · exact held.exclusive inside b
      · exact held.nobody none b

theorem Held.apart (old : (w.thread a).pc = pc)
    (thread : w'.thread = update w.thread a t) (read : w'.read = w.read)
    (write : w'.write = w.write) (counted : t.pc.counted = pc.counted)
    (entered : t.pc.entered = pc.entered) (within : t.pc.within = pc.within)
    (flag : t.pc.flag = pc.flag) : Held w' := by
  subst old
  have same : ∀ (f : Pc → Bool) b, f t.pc = f (w.thread a).pc →
      f (w'.thread b).pc = f (w.thread b).pc := by
    intro f b kept
    rw [thread]
    by_cases self : b = a
    · rw [self, update_self, kept]
    · rw [update_of_ne self]
  refine ⟨read_update held thread (by rw [read, counted]), ?_, ?_⟩
  · rw [write, same Pc.flag none flag]
    exact held.write
  · intro inside b
    rw [same Pc.within none within] at inside
    rw [same Pc.entered b entered]
    exact held.exclusive inside b

theorem held_finish (old : (w.thread a).pc = pc) (counted : pc.counted = 0)
    (entered : pc.entered = false) (within : pc.within = next.writerOnly)
    (flag : pc.flag = next.writerOnly) : Held (finish w a next) := by
  cases next with
  | idle | clear | gone =>
    exact held.apart old rfl rfl rfl counted.symm entered.symm within.symm flag.symm
  | keep copy =>
    cases copy <;> exact held.apart old rfl rfl rfl counted.symm entered.symm within.symm flag.symm

end

theorem access_locked (placed : Placed w) (locked : Locked w) (access : Access w a w') :
    Locked w' := by
  cases access with
  | stay => exact locked
  | test old live _ | refuse old live _ =>
    exact fun _ => (locked live).reads old rfl rfl rfl rfl rfl nofun
  | add old live | back old live =>
    exact fun _ => (locked live).reads old rfl (by simp [go, put, Pc.counted]) rfl rfl rfl nofun
  | enter old live free =>
    exact fun _ => (locked live).reads old rfl rfl rfl rfl rfl fun _ => .inr free
  | grab old live | load old live _ | loadNone old live _ | lastRelease old live _
  | release old live _ | lastReader old live =>
    exact fun _ => (locked live).reads old rfl rfl rfl rfl rfl fun _ => .inl rfl
  | finc old _ =>
    exact fun live => (locked live).reads old rfl rfl rfl rfl rfl fun _ => .inl rfl
  | unlockGrab old live | unlockSame old live | unlockNew old live | unlockRelease old live =>
    exact fun _ => (locked live).reads old rfl (by simp [go, put, Pc.counted]) rfl rfl rfl nofun
  | readerFree _ _ | writerFree _ _ => exact fun gone => absurd gone (Nat.succ_ne_zero _)
  | checkCopy old live | update old live | dropOwn old live | clear old live
  | decrement old live _ | decrementLast old live _ =>
    exact fun _ => (locked live).apart old rfl rfl rfl rfl rfl rfl rfl
  | testAndSet old live _ | unlockUpdate old live | unlockEnd old live =>
    have self := placed.writer (by rw [old]; rfl)
    exact fun _ => (locked live).writes self old rfl rfl rfl rfl rfl nofun
  | alone old live nobody =>
    have self := placed.writer (by rw [old]; rfl)
    have set : w.write = true := by rw [(locked live).write, ← self, old]; rfl
    exact fun _ => (locked live).writes self old rfl rfl rfl rfl set fun _ => .inr nobody
  | dropNone old => exact fun live => held_finish (locked live) old rfl rfl rfl rfl
  | drop old _ | freeCopy old =>
    exact fun live => held_finish ((locked live).setCopy _ _) old rfl rfl rfl rfl
  | dropLast old _ | freeMsg old | use old =>
    exact fun live => (locked live).apart old rfl rfl rfl rfl rfl rfl rfl

theorem begins_locked (locked : Locked w) (old : (w.thread a).pc = .idle)
    (begins : Begins w a w') : Locked w' := by
  cases begins <;> exact fun live => (locked live).apart old rfl rfl rfl rfl rfl rfl rfl

theorem newcopy_locked (locked : Locked w) {r : R} (old : (w.thread (some r)).pc = .absent)
    (handed : Nat) : Locked (put { w with handed := handed } (some r) ⟨.idle, none⟩) :=
  fun live => (locked live).apart old rfl rfl rfl rfl rfl rfl rfl

end Skynet.Stm
