import Skynet.Stm.Copies

/-! Every access keeps the reference counts of the copies. -/
namespace Skynet.Stm

open Base Function

variable {R : Type} [Fintype R]

theorem kept_start : Kept (World.start : World R) := by
  have idle : ∀ (weight : Thread → Nat), weight ⟨.idle, none⟩ = 0 → weight ⟨.absent, none⟩ = 0 →
      total weight (World.start : World R).thread = 0 := by
    intro weight writer reader
    refine total_of_zero fun a => ?_
    cases a with
    | none => exact writer
    | some r => exact reader
  have unheld_start : ∀ c, unheld (World.start : World R) c = 0 := by
    intro c
    by_cases first : c = 0
    · subst first
      rfl
    · exact if_neg fun made => first (Nat.lt_one_iff.mp made)
  have whole : ∀ c, ((World.start : World R).copies c).freed = 0 ∧
      ((World.start : World R).copies c).msgFreed = 0 := by
    intro c
    by_cases first : c = 0
    · subst first
      exact ⟨rfl, rfl⟩
    · simp [World.start, first]
  refine ⟨?_, ?_, ?_, ?_, ?_⟩
  · intro c
    rw [idle (Thread.refs c) rfl rfl]
    by_cases first : c = 0
    · subst first
      rfl
    · have other : objectRefs (World.start : World R) c = 0 := refers_other first
      rw [other]
      simp [World.start, first]
  · intro c
    rw [idle (fun t => t.pc.freeingCopy c) rfl rfl, (whole c).1, unheld_start]
  · intro c
    rw [idle (fun t => t.pc.freeingMsg c) rfl rfl, (whole c).2, unheld_start]
  · intro c beyond
    change 1 ≤ c at beyond
    exact if_neg (by omega)
  · intro _ b c fincs
    cases b <;> contradiction

variable {w w' : World R} {a : Option R} {pc q : Pc} {next : Next} {c : Nat}

/- Under the write lock nobody is about to take a reference to the copy of the object. -/
theorem nobody_loaded (locked : Locked w) (live : w.freed = 0)
    (within : (w.thread none).pc.within = true) (b : Option R) (d : Nat) :
    (w.thread b).pc ≠ .finc d := by
  intro fincs
  have outside := (locked live).exclusive within b
  rw [fincs] at outside
  contradiction

variable [DecidableEq R]

section
variable (kept : Kept w)
include kept

/- The end of stm_releasecopy, when no copy changes any more. -/
theorem kept_after (old : (w.thread a).pc = .drop none next) : Kept (finish w a next) := by
  obtain ⟨settled, plain⟩ := (w.thread a).after_settled next
  have owns : ((w.thread a).after next).pc.owns = (w.thread a).pc.owns := by
    rw [Thread.owns_after, old]
    rfl
  have thread : (finish w a next).thread = update w.thread a ((w.thread a).after next) := rfl
  refine kept.still thread rfl rfl ?_ ?_ ?_ ?_
  · intro c
    rw [Thread.refs_after, objectRefs_keep thread rfl owns c]
    unfold Thread.refs
    rw [old]
    simp only [Pc.refs, refers_none, Pc.keepsLast, Nat.zero_add]
    rfl
  · intro c
    rw [(settled c).1, old]
    rfl
  · intro c
    rw [(settled c).2, old]
    rfl
  · intro live
    exact ⟨fun c fincs => absurd fincs (plain c), fun b _ => kept.loaded live b⟩

theorem kept_drop (old : (w.thread a).pc = .drop (some c) next)
    (more : (w.copies c).reference ≠ 1) : Kept (finish (addCopy w c (-1)) a next) := by
  obtain ⟨settled, plain⟩ := (w.thread a).after_settled next
  have refs : ∀ d, (w.thread a).refs d = refers d (some c) + ((w.thread a).after next).refs d := by
    intro d
    rw [Thread.refs_after]
    unfold Thread.refs
    rw [old]
    exact Nat.add_assoc ..
  have positive : 0 < (w.copies c).reference := by
    refine kept.positive (a := a) ?_
    rw [refs, refers_self]
    omega
  have before := ifZero_of_ne (ne_of_gt positive)
  have after := ifZero_of_ne (by omega : (w.copies c).reference + -1 ≠ 0)
  refine kept.change (t := (w.thread a).after next) (kept.made positive) ?_ ?_ ?_ ?_ ?_ plain
  · rw [old]
    exact Thread.owns_after _ next
  · intro d distinct
    rw [refs, refers_other distinct, (settled d).1, (settled d).2, old]
    exact ⟨(Nat.zero_add _).symm, rfl, rfl⟩
  · rw [refs c, refers_self]
    dsimp only
    omega
  · rw [(settled c).1, old, before, after]
    rfl
  · rw [(settled c).2, old, before, after]
    rfl

theorem kept_dropLast (old : (w.thread a).pc = .drop (some c) next)
    (last : (w.copies c).reference = 1) :
    Kept (go (addCopy w c (-1)) a (.freeMsg c next)) := by
  have refs : ∀ d, (w.thread a).refs d =
      refers d (some c) + Thread.refs d ⟨.freeMsg c next, (w.thread a).lastcopy⟩ := by
    intro d
    unfold Thread.refs
    rw [old]
    exact Nat.add_assoc ..
  have before := ifZero_of_ne (by omega : (w.copies c).reference ≠ 0)
  have after := ifZero_of_eq (by omega : (w.copies c).reference + -1 = 0)
  refine kept.change (t := ⟨.freeMsg c next, (w.thread a).lastcopy⟩) (kept.made (by omega))
    ?_ ?_ ?_ ?_ ?_ nofun
  · rw [old]
    rfl
  · intro d distinct
    rw [refs, refers_other distinct, old]
    exact ⟨(Nat.zero_add _).symm, refers_other distinct, refers_other distinct⟩
  · rw [refs c, refers_self]
    dsimp only
    omega
  · simp only [old, before, after, Pc.freeingCopy, refers_self]
    omega
  · simp only [old, before, after, Pc.freeingMsg, refers_self]
    omega

theorem kept_freeMsg (old : (w.thread a).pc = .freeMsg c next) : Kept (freeMsg w a c next) := by
  have made : c < w.allocated := by
    refine (kept.unfreed (a := a) ?_).1
    simp only [old, Pc.freeingCopy, refers_self]
    decide
  refine kept.change (t := ⟨.freeCopy c next, (w.thread a).lastcopy⟩) made ?_ ?_ ?_ ?_ ?_ nofun
  · rw [old]
    rfl
  · intro d distinct
    unfold Thread.refs
    rw [old]
    exact ⟨rfl, rfl, (refers_other distinct).symm⟩
  · unfold Thread.refs
    rw [old]
    rfl
  · rw [old]
    rfl
  · simp only [old, Pc.freeingMsg, refers_self]
    omega

theorem kept_freeCopy (old : (w.thread a).pc = .freeCopy c next) : Kept (freeCopy w a c next) := by
  obtain ⟨settled, plain⟩ := (w.thread a).after_settled next
  have made : c < w.allocated := by
    refine (kept.unfreed (a := a) ?_).1
    simp only [old, Pc.freeingCopy, refers_self]
    decide
  have refs : ∀ d, ((w.thread a).after next).refs d = (w.thread a).refs d := by
    intro d
    rw [Thread.refs_after]
    unfold Thread.refs
    rw [old]
    rfl
  refine kept.change (t := (w.thread a).after next) made ?_ ?_ ?_ ?_ ?_ plain
  · rw [old]
    exact Thread.owns_after _ next
  · intro d distinct
    rw [refs d, (settled d).1, (settled d).2, old]
    exact ⟨rfl, (refers_other distinct).symm, rfl⟩
  · rw [refs c]
  · rw [(settled c).1, old]
    simp only [Pc.freeingCopy, refers_self]
    omega
  · rw [(settled c).2, old]
    rfl

theorem kept_finc (old : (w.thread a).pc = .finc c) (positive : 0 < (w.copies c).reference) :
    Kept (go (addCopy w c 1) a (.runlock (.copy (some c)))) := by
  have refs : ∀ d, Thread.refs d ⟨.runlock (.copy (some c)), (w.thread a).lastcopy⟩ =
      refers d (some c) + (w.thread a).refs d := by
    intro d
    unfold Thread.refs
    rw [old]
    exact congrArg (refers d (some c) + ·) (Nat.zero_add _).symm
  have before := ifZero_of_ne (ne_of_gt positive)
  have after := ifZero_of_ne (by omega : (w.copies c).reference + 1 ≠ 0)
  refine kept.change (t := ⟨.runlock (.copy (some c)), (w.thread a).lastcopy⟩)
    (kept.made positive) ?_ ?_ ?_ ?_ ?_ nofun
  · rw [old]
    rfl
  · intro d distinct
    rw [refs, refers_other distinct, old]
    exact ⟨Nat.zero_add _, rfl, rfl⟩
  · rw [refs c, refers_self]
    dsimp only
    omega
  · simp only [old, before, after, Pc.freeingCopy]
  · simp only [old, before, after, Pc.freeingMsg]

end

/- The writer's accesses to obj->copy, which pass its reference between object and writer. -/
theorem kept_writer (locked : Locked w) (kept : Kept w) (live : w.freed = 0)
    (old : (w.thread none).pc = pc) (within : pc.within = true)
    (thread : w'.thread = update w.thread none { w.thread none with pc := q })
    (copies : w'.copies = w.copies) (allocated : w'.allocated = w.allocated)
    (passed : ∀ c, (if pc.owns then refers c w.copy else 0) +
        Thread.refs c ⟨pc, (w.thread none).lastcopy⟩ =
      (if q.owns then refers c w'.copy else 0) + Thread.refs c ⟨q, (w.thread none).lastcopy⟩)
    (before : ∀ c, pc.freeingCopy c = 0 ∧ pc.freeingMsg c = 0)
    (after : ∀ c, q.freeingCopy c = 0 ∧ q.freeingMsg c = 0) (plain : ∀ c, q ≠ .finc c) :
    Kept w' := by
  subst old
  refine kept.still thread copies allocated ?_ ?_ ?_ ?_
  · intro c
    rw [objectRefs_writer thread c]
    exact passed c
  · intro c
    exact (after c).1.trans (before c).1.symm
  · intro c
    exact (after c).2.trans (before c).2.symm
  · intro _
    refine ⟨fun c fincs => absurd fincs (plain c), ?_⟩
    intro b _ c fincs
    exact absurd fincs (nobody_loaded locked live within b c)

theorem access_kept (placed : Placed w) (locked : Locked w) (kept : Kept w)
    (access : Access w a w') : Kept w' := by
  cases access with
  | stay => exact kept
  | test old _ _ | add old _ | enter old _ _ | refuse old _ _ | back old _ | grab old _
  | loadNone old _ _ | lastRelease old _ _ | release old _ _ | unlockGrab old _
  | unlockSame old _ | lastReader old _ | checkCopy old _ | testAndSet old _ _ | alone old _ _
  | unlockUpdate old _ | decrement old _ _ | decrementLast old _ _ | use old =>
    exact kept.keep old rfl rfl rfl rfl id (fun _ => rfl) rfl (fun _ => rfl) (fun _ => rfl) nofun
  | load old _ there =>
    refine kept.keep old rfl rfl rfl rfl id (fun _ => rfl) rfl (fun _ => rfl) (fun _ => rfl) ?_
    intro d same
    cases same
    exact there
  | @unlockNew ret old _ =>
    refine kept.keep old rfl rfl rfl rfl id ?_ rfl (fun _ => rfl) (fun _ => rfl) nofun
    intro c
    change refers c (w.thread a).lastcopy + refers c ret = refers c ret + _
    exact Nat.add_comm _ _
  | unlockRelease old _ =>
    refine kept.keep old rfl rfl rfl rfl id ?_ rfl (fun _ => rfl) (fun _ => rfl) nofun
    intro c
    exact Nat.add_comm _ _
  | readerFree old live =>
    refine kept.keep old rfl rfl rfl rfl (fun _ => live) ?_ rfl (fun _ => rfl) (fun _ => rfl) nofun
    intro c
    exact Nat.add_comm _ _
  | unlockEnd old live | writerFree old live =>
    have last := placed.lastcopy (a := a) (by rw [old]; rfl)
    refine kept.keep old rfl rfl rfl rfl (fun _ => live) ?_ rfl (fun _ => rfl) (fun _ => rfl) nofun
    intro c
    rw [last]
    rfl
  | update old live =>
    obtain rfl := placed.writer (by rw [old]; rfl)
    refine kept_writer locked kept live old rfl rfl rfl rfl ?_ (fun _ => ⟨rfl, rfl⟩)
      (fun _ => ⟨rfl, rfl⟩) nofun
    intro c
    exact Nat.add_left_comm _ _ _
  | dropOwn old live =>
    obtain rfl := placed.writer (by rw [old]; rfl)
    refine kept_writer locked kept live old rfl rfl rfl rfl ?_ (fun _ => ⟨rfl, rfl⟩)
      (fun _ => ⟨rfl, rfl⟩) nofun
    intro c
    simp [Pc.owns, Next.writerOnly, Thread.refs, Pc.refs, Writing.refs, Next.refs, Pc.keepsLast,
      Next.keepsLast]
  | clear old live =>
    obtain rfl := placed.writer (by rw [old]; rfl)
    exact kept_writer locked kept live old rfl rfl rfl rfl (fun _ => rfl) (fun _ => ⟨rfl, rfl⟩)
      (fun _ => ⟨rfl, rfl⟩) nofun
  | finc old positive => exact kept_finc kept old positive
  | dropNone old => exact kept_after kept old
  | drop old more => exact kept_drop kept old more
  | dropLast old last => exact kept_dropLast kept old last
  | freeMsg old => exact kept_freeMsg kept old
  | freeCopy old => exact kept_freeCopy kept old

/- stm_newcopy: the first reference is the writer's. -/
theorem kept_newcopy (kept : Kept w) (old : (w.thread none).pc = .idle)
    (thread : w'.thread = update w.thread none
      { w.thread none with pc := .wlock .testAndSet (.update w.allocated) })
    (copies : w'.copies = update w.copies w.allocated ⟨1, 0, 0⟩)
    (allocated : w'.allocated = w.allocated + 1) (copy : w'.copy = w.copy)
    (freed : w'.freed = w.freed) : Kept w' := by
  have absent := kept.fresh w.allocated (Nat.le_refl _)
  have self : w'.copies w.allocated = ⟨1, 0, 0⟩ := by rw [copies, update_self]
  have other : ∀ d, d ≠ w.allocated → w'.copies d = w.copies d := by
    intro d distinct
    rw [copies, update_of_ne distinct]
  have held : ∀ d, unheld w' d = unheld w d := by
    intro d
    unfold unheld
    by_cases new : d = w.allocated
    · rw [new, self, allocated, if_pos (Nat.lt_succ_self _), if_neg (Nat.lt_irrefl _)]
      rfl
    · have same : d < w.allocated + 1 ↔ d < w.allocated := by omega
      simp only [other d new, allocated, same]
  have refs : ∀ d, Thread.refs d ⟨.wlock .testAndSet (.update w.allocated),
      (w.thread none).lastcopy⟩ = refers d (some w.allocated) + (w.thread none).refs d := by
    intro d
    unfold Thread.refs
    rw [old]
    exact congrArg (refers d (some w.allocated) + ·) (Nat.zero_add _).symm
  refine kept.move thread ?_ ?_ ?_ ?_ ?_
  · intro d
    rw [objectRefs_keep thread copy (by rw [old]; rfl) d, refs d]
    by_cases new : d = w.allocated
    · rw [new, self, absent, refers_self]
      dsimp only
      omega
    · rw [other d new, refers_other new, Nat.zero_add]
  · intro d
    rw [held d, old]
    by_cases new : d = w.allocated
    · rw [new, self, absent]
      rfl
    · rw [other d new]
      rfl
  · intro d
    rw [held d, old]
    by_cases new : d = w.allocated
    · rw [new, self, absent]
      rfl
    · rw [other d new]
      rfl
  · intro d beyond
    rw [other d (by omega)]
    exact kept.fresh d (by omega)
  · intro live
    rw [copy]
    exact ⟨nofun, fun b _ => kept.loaded (freed ▸ live) b⟩

theorem begins_kept (kept : Kept w) (old : (w.thread a).pc = .idle) (begins : Begins w a w') :
    Kept w' := by
  cases begins with
  | copy | read | readerRelease | writerRelease =>
    exact kept.keep old rfl rfl rfl rfl id (fun _ => rfl) rfl (fun _ => rfl) (fun _ => rfl) nofun
  | update => exact kept_newcopy kept old rfl rfl rfl rfl rfl

theorem newcopy_kept (kept : Kept w) {r : R} (old : (w.thread (some r)).pc = .absent)
    (handed : Nat) : Kept (put { w with handed := handed } (some r) ⟨.idle, none⟩) := by
  have thread : (put { w with handed := handed } (some r) ⟨.idle, none⟩).thread =
      update w.thread (some r) ⟨.idle, none⟩ := rfl
  refine kept.still thread rfl rfl ?_ ?_ ?_ ?_
  · intro c
    rw [objectRefs_keep thread rfl (by rw [old]; rfl) c]
    unfold Thread.refs
    rw [old]
    rfl
  · intro c
    rw [old]
    rfl
  · intro c
    rw [old]
    rfl
  · intro live
    exact ⟨nofun, fun b _ => kept.loaded live b⟩

end Skynet.Stm
