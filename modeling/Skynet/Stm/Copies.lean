import Skynet.Stm.Lock

/-! The reference counts of the copies. A copy is held by the object, by a lastcopy, or by an agent
that has it in hand; its message and then the copy itself are freed by the agent that takes its
count to zero. -/
namespace Skynet.Stm

open Base Function

def refers (c : Nat) (copy : Option Nat) : Nat := if copy = some c then 1 else 0

theorem refers_none (c : Nat) : refers c none = 0 := rfl

theorem refers_self (c : Nat) : refers c (some c) = 1 := if_pos rfl

theorem refers_other {c d : Nat} (other : c ≠ d) : refers c (some d) = 0 :=
  if_neg fun same => other (Option.some.inj same).symm

def Next.refs (c : Nat) : Next → Nat
  | .keep copy => refers c copy
  | _ => 0

def Next.keepsLast : Next → Bool
  | .idle => true
  | .clear => true
  | _ => false

def Writing.refs (c : Nat) : Writing → Nat
  | .update d => refers c (some d)
  | .release => 0

/-- The references to a copy that an agent has in hand. -/
def Pc.refs (c : Nat) : Pc → Nat
  | .runlock (.copy ret) => refers c ret
  | .wlock _ op => op.refs c
  | .writing op => op.refs c
  | .wunlock (.update oldcopy) => refers c oldcopy
  | .drop copy next => refers c copy + next.refs c
  | .freeMsg _ next => next.refs c
  | .freeCopy _ next => next.refs c
  | _ => 0

/-- The reference of lastcopy is still that of the box. -/
def Pc.keepsLast : Pc → Bool
  | .absent => false
  | .drop _ next => next.keepsLast
  | .freeMsg _ next => next.keepsLast
  | .freeCopy _ next => next.keepsLast
  | .done => false
  | _ => true

def Thread.refs (c : Nat) (t : Thread) : Nat :=
  t.pc.refs c + if t.pc.keepsLast then refers c t.lastcopy else 0

/-- The writer has not begun to release the copy of the object. -/
def Pc.owns : Pc → Bool
  | .drop _ next => !next.writerOnly
  | .freeMsg _ next => !next.writerOnly
  | .freeCopy _ next => !next.writerOnly
  | .clear => false
  | _ => true

def Pc.freeingCopy (c : Nat) : Pc → Nat
  | .freeMsg d _ => refers c (some d)
  | .freeCopy d _ => refers c (some d)
  | _ => 0

def Pc.freeingMsg (c : Nat) : Pc → Nat
  | .freeMsg d _ => refers c (some d)
  | _ => 0

variable {R : Type}

def objectRefs (w : World R) (c : Nat) : Nat :=
  if (w.thread none).pc.owns then refers c w.copy else 0

/-- A copy that was made and is held by nobody. -/
def unheld (w : World R) (c : Nat) : Nat :=
  if c < w.allocated then ifZero (w.copies c).reference else 0

structure Kept [Fintype R] (w : World R) : Prop where
  reference : ∀ c, (w.copies c).reference = objectRefs w c + total (Thread.refs c) w.thread
  freeing : ∀ c, total (fun t : Thread => t.pc.freeingCopy c) w.thread + (w.copies c).freed =
    unheld w c
  freeingMsg : ∀ c, total (fun t : Thread => t.pc.freeingMsg c) w.thread +
    (w.copies c).msgFreed = unheld w c
  fresh : ∀ c, w.allocated ≤ c → w.copies c = ⟨0, 0, 0⟩
  loaded : w.freed = 0 → ∀ b c, (w.thread b).pc = .finc c → w.copy = some c

variable {w w' : World R} {a : Option R} {t : Thread} {pc q : Pc} {next : Next} {c : Nat}

theorem unheld_of_lt (made : c < w.allocated) : unheld w c = ifZero (w.copies c).reference :=
  if_pos made

theorem unheld_of_positive (positive : 0 < (w.copies c).reference) : unheld w c = 0 := by
  unfold unheld
  split
  · exact ifZero_of_ne (ne_of_gt positive)
  · rfl

theorem unheld_le (w : World R) (c : Nat) : unheld w c ≤ 1 := by
  unfold unheld ifZero
  split
  · split <;> omega
  · omega

theorem Thread.refs_after (t : Thread) (next : Next) (c : Nat) :
    (t.after next).refs c = next.refs c + if next.keepsLast then refers c t.lastcopy else 0 := by
  cases next with
  | idle => rfl
  | clear => rfl
  | gone => rfl
  | keep copy =>
    cases copy with
    | none => rfl
    | some d => exact Nat.add_comm _ _

theorem Thread.owns_after (t : Thread) (next : Next) :
    (t.after next).pc.owns = !next.writerOnly := by
  cases next with
  | keep copy => cases copy <;> rfl
  | _ => rfl

theorem Thread.after_settled (t : Thread) (next : Next) :
    (∀ c, (t.after next).pc.freeingCopy c = 0 ∧ (t.after next).pc.freeingMsg c = 0) ∧
      ∀ c, (t.after next).pc ≠ .finc c := by
  cases next with
  | keep copy => cases copy <;> exact ⟨fun _ => ⟨rfl, rfl⟩, nofun⟩
  | _ => exact ⟨fun _ => ⟨rfl, rfl⟩, nofun⟩

section
variable [Fintype R]

section
variable (kept : Kept w)
include kept

theorem Kept.made (positive : 0 < (w.copies c).reference) : c < w.allocated := by
  by_contra beyond
  have none := kept.fresh c (by omega)
  rw [none] at positive
  contradiction

theorem Kept.positive (refs : 0 < (w.thread a).refs c) : 0 < (w.copies c).reference := by
  have some := weight_le_total (Thread.refs c) w.thread a
  have count := kept.reference c
  omega

theorem Kept.there (positive : 0 < (w.copies c).reference) :
    (w.copies c).freed = 0 ∧ (w.copies c).msgFreed = 0 := by
  have conserved := kept.freeing c
  have conserved' := kept.freeingMsg c
  rw [unheld_of_positive positive] at conserved conserved'
  omega

theorem Kept.once (c : Nat) : (w.copies c).freed ≤ 1 ∧ (w.copies c).msgFreed ≤ 1 := by
  have conserved := kept.freeing c
  have conserved' := kept.freeingMsg c
  have few := unheld_le w c
  omega

theorem Kept.unfreed (freeing : 0 < (w.thread a).pc.freeingCopy c) :
    c < w.allocated ∧ (w.copies c).freed = 0 := by
  have some := weight_le_total (fun t : Thread => t.pc.freeingCopy c) w.thread a
  have conserved := kept.freeing c
  have few := unheld_le w c
  refine ⟨?_, by omega⟩
  by_contra beyond
  have none : unheld w c = 0 := if_neg beyond
  omega

theorem Kept.unfreedMsg (freeing : 0 < (w.thread a).pc.freeingMsg c) :
    (w.copies c).msgFreed = 0 := by
  have some := weight_le_total (fun t : Thread => t.pc.freeingMsg c) w.thread a
  have conserved := kept.freeingMsg c
  have few := unheld_le w c
  omega

end

end

variable [DecidableEq R]

theorem objectRefs_keep (thread : w'.thread = update w.thread a t)
    (copy : w'.copy = w.copy) (owns : t.pc.owns = (w.thread a).pc.owns) (c : Nat) :
    objectRefs w' c = objectRefs w c := by
  have same : (w'.thread none).pc.owns = (w.thread none).pc.owns := by
    rw [thread]
    by_cases self : a = none
    · rw [self, update_self, owns, self]
    · rw [update_of_ne (Ne.symm self)]
  unfold objectRefs
  rw [same, copy]

theorem objectRefs_writer (thread : w'.thread = update w.thread none t) (c : Nat) :
    objectRefs w' c = if t.pc.owns then refers c w'.copy else 0 := by
  unfold objectRefs
  rw [thread, update_self]

variable [Fintype R]

theorem Kept.move (kept : Kept w) (thread : w'.thread = update w.thread a t)
    (reference : ∀ c, (w'.copies c).reference + objectRefs w c + (w.thread a).refs c =
      (w.copies c).reference + objectRefs w' c + t.refs c)
    (freeing : ∀ c, t.pc.freeingCopy c + (w'.copies c).freed + unheld w c =
      (w.thread a).pc.freeingCopy c + (w.copies c).freed + unheld w' c)
    (freeingMsg : ∀ c, t.pc.freeingMsg c + (w'.copies c).msgFreed + unheld w c =
      (w.thread a).pc.freeingMsg c + (w.copies c).msgFreed + unheld w' c)
    (fresh : ∀ c, w'.allocated ≤ c → w'.copies c = ⟨0, 0, 0⟩)
    (loaded : w'.freed = 0 → (∀ c, t.pc = .finc c → w'.copy = some c) ∧
      ∀ b, b ≠ a → ∀ c, (w.thread b).pc = .finc c → w'.copy = some c) : Kept w' := by
  refine ⟨?_, ?_, ?_, fresh, ?_⟩
  · intro c
    have moved := total_update (Thread.refs c) w.thread a t
    have count := kept.reference c
    have change := reference c
    rw [thread]
    omega
  · intro c
    have moved := total_update (fun t : Thread => t.pc.freeingCopy c) w.thread a t
    have conserved := kept.freeing c
    have change := freeing c
    rw [thread]
    omega
  · intro c
    have moved := total_update (fun t : Thread => t.pc.freeingMsg c) w.thread a t
    have conserved := kept.freeingMsg c
    have change := freeingMsg c
    rw [thread]
    omega
  · intro live
    rw [thread]
    exact (Function.forall_update_iff w.thread fun _ t => ∀ c, t.pc = .finc c →
      w'.copy = some c).mpr (loaded live)

theorem Kept.still (kept : Kept w) (thread : w'.thread = update w.thread a t)
    (copies : w'.copies = w.copies) (allocated : w'.allocated = w.allocated)
    (reference : ∀ c, objectRefs w c + (w.thread a).refs c = objectRefs w' c + t.refs c)
    (freeing : ∀ c, t.pc.freeingCopy c = (w.thread a).pc.freeingCopy c)
    (freeingMsg : ∀ c, t.pc.freeingMsg c = (w.thread a).pc.freeingMsg c)
    (loaded : w'.freed = 0 → (∀ c, t.pc = .finc c → w'.copy = some c) ∧
      ∀ b, b ≠ a → ∀ c, (w.thread b).pc = .finc c → w'.copy = some c) : Kept w' := by
  have same : ∀ c, unheld w' c = unheld w c := by
    intro c
    unfold unheld
    rw [copies, allocated]
  refine kept.move thread ?_ ?_ ?_ ?_ loaded
  · intro c
    have moved := reference c
    rw [copies]
    omega
  · intro c
    rw [copies, same, freeing]
  · intro c
    rw [copies, same, freeingMsg]
  · intro c beyond
    rw [copies]
    exact kept.fresh c (allocated ▸ beyond)

/- An access that leaves the copies and whose agent holds the references it held. -/
theorem Kept.keep (kept : Kept w) (old : (w.thread a).pc = pc)
    (thread : w'.thread = update w.thread a { w.thread a with pc := q })
    (copies : w'.copies = w.copies) (allocated : w'.allocated = w.allocated)
    (copy : w'.copy = w.copy) (freed : w'.freed = 0 → w.freed = 0)
    (refs : ∀ c, Thread.refs c ⟨q, (w.thread a).lastcopy⟩ =
      Thread.refs c ⟨pc, (w.thread a).lastcopy⟩)
    (owns : q.owns = pc.owns) (freeing : ∀ c, q.freeingCopy c = pc.freeingCopy c)
    (freeingMsg : ∀ c, q.freeingMsg c = pc.freeingMsg c)
    (loaded : ∀ c, q = .finc c → w.copy = some c) : Kept w' := by
  subst old
  refine kept.still thread copies allocated ?_ freeing freeingMsg ?_
  · intro c
    rw [objectRefs_keep thread copy owns c]
    exact congrArg _ (refs c).symm
  · intro live
    rw [copy]
    exact ⟨loaded, fun b _ => kept.loaded (freed live) b⟩

theorem Kept.change (kept : Kept w) {k : Copy} (made : c < w.allocated)
    (owns : t.pc.owns = (w.thread a).pc.owns)
    (others : ∀ d, d ≠ c → t.refs d = (w.thread a).refs d ∧
      t.pc.freeingCopy d = (w.thread a).pc.freeingCopy d ∧
      t.pc.freeingMsg d = (w.thread a).pc.freeingMsg d)
    (reference : k.reference + (w.thread a).refs c = (w.copies c).reference + t.refs c)
    (freeing : t.pc.freeingCopy c + k.freed + ifZero (w.copies c).reference =
      (w.thread a).pc.freeingCopy c + (w.copies c).freed + ifZero k.reference)
    (freeingMsg : t.pc.freeingMsg c + k.msgFreed + ifZero (w.copies c).reference =
      (w.thread a).pc.freeingMsg c + (w.copies c).msgFreed + ifZero k.reference)
    (loaded : ∀ d, t.pc ≠ .finc d) : Kept (put (setCopy w c k) a t) := by
  have self : (put (setCopy w c k) a t).copies c = k := update_self ..
  have other : ∀ d, d ≠ c → (put (setCopy w c k) a t).copies d = w.copies d :=
    fun d distinct => update_of_ne distinct ..
  have same : ∀ d, d ≠ c → unheld (put (setCopy w c k) a t) d = unheld w d := by
    intro d distinct
    unfold unheld
    rw [other d distinct]
    rfl
  have here : unheld (put (setCopy w c k) a t) c = ifZero k.reference := by
    unfold unheld
    rw [self]
    exact if_pos made
  have object : ∀ d, objectRefs (put (setCopy w c k) a t) d = objectRefs w d :=
    objectRefs_keep rfl rfl owns
  refine kept.move rfl ?_ ?_ ?_ ?_ ?_
  · intro d
    rw [object d]
    by_cases distinct : d = c
    · subst distinct
      rw [self]
      omega
    · rw [other d distinct, (others d distinct).1]
  · intro d
    by_cases distinct : d = c
    · subst distinct
      rw [self, here, unheld_of_lt made]
      exact freeing
    · rw [other d distinct, same d distinct, (others d distinct).2.1]
  · intro d
    by_cases distinct : d = c
    · subst distinct
      rw [self, here, unheld_of_lt made]
      exact freeingMsg
    · rw [other d distinct, same d distinct, (others d distinct).2.2]
  · intro d beyond
    rw [other d (made.trans_le beyond).ne']
    exact kept.fresh d beyond
  · intro live
    exact ⟨fun d fincs => absurd fincs (loaded d), fun b _ => kept.loaded live b⟩

end Skynet.Stm
