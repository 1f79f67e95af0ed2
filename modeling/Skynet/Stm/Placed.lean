import Skynet.Stm.Access

/-! Which accesses belong to the writer's box and which to a reader's, and when the object has a
copy. -/
namespace Skynet.Stm

open Base Function

variable {R : Type}

def Next.writerOnly : Next → Bool
  | .clear => true
  | _ => false

def Next.readerOnly : Next → Bool
  | .keep _ => true
  | .gone => true
  | _ => false

def Reading.readerOnly : Reading → Bool
  | .grab => false
  | _ => true

def RUnlock.readerOnly : RUnlock → Bool
  | .grab _ => false
  | _ => true

def Pc.writerOnly : Pc → Bool
  | .checkCopy => true
  | .wlock _ _ => true
  | .writing _ => true
  | .wunlock _ => true
  | .clear => true
  | .decrement => true
  | .writerFree => true
  | .drop _ next => next.writerOnly
  | .freeMsg _ next => next.writerOnly
  | .freeCopy _ next => next.writerOnly
  | _ => false

def Pc.readerOnly : Pc → Bool
  | .absent => true
  | .rlock _ op => op.readerOnly
  | .reading op => op.readerOnly
  | .finc _ => true
  | .runlock after => after.readerOnly
  | .lastReader => true
  | .readerFree => true
  | .drop _ next => next.readerOnly
  | .freeMsg _ next => next.readerOnly
  | .freeCopy _ next => next.readerOnly
  | .use _ => true
  | _ => false

/-- The writer has set obj->copy to NULL. -/
def Pc.cleared : Pc → Bool
  | .decrement => true
  | .writerFree => true
  | .wunlock .release => true
  | .done => true
  | _ => false

/-- The copy that lread goes on to use is the one it has stored. -/
def Used (t : Thread) : Prop := ∀ c, t.pc = .use c → t.lastcopy = some c

def Fits (copy : Option Nat) : Option R → Thread → Prop
  | none, t => t.pc.readerOnly = false ∧ t.lastcopy = none ∧
      (copy = none ↔ t.pc.cleared = true)
  | some _, t => t.pc.writerOnly = false ∧ Used t

def Placed (w : World R) : Prop := ∀ a, Fits w.copy a (w.thread a)

theorem placed_start : Placed (World.start : World R)
  | none => ⟨rfl, rfl, ⟨fun absent => (nomatch absent), fun cleared => (nomatch cleared)⟩⟩
  | some _ => ⟨rfl, fun _ used => nomatch used⟩

variable {w w' : World R} {a : Option R} {t : Thread} {pc : Pc} {next : Next}

section
variable (placed : Placed w)
include placed

theorem Placed.writer (only : (w.thread a).pc.writerOnly = true) :
    a = none := by
  cases a with
  | none => rfl
  | some r => exact absurd only (by rw [(placed (some r)).1]; decide)

theorem Placed.reader (only : (w.thread a).pc.readerOnly = true) :
    ∃ r, a = some r := by
  cases a with
  | none => exact absurd only (by rw [(placed none).1]; decide)
  | some r => exact ⟨r, rfl⟩

theorem Placed.copy_none_iff :
    w.copy = none ↔ (w.thread none).pc.cleared = true := (placed none).2.2

theorem Placed.lastcopy (only : (w.thread a).pc.writerOnly = true) :
    (w.thread a).lastcopy = none := by
  obtain rfl := placed.writer only
  exact (placed none).2.1

theorem Placed.used {c : Nat} (use : (w.thread a).pc = .use c) :
    (w.thread a).lastcopy = some c := by
  obtain ⟨r, rfl⟩ := placed.reader (by rw [use]; rfl)
  exact (placed (some r)).2 c use

theorem Placed.setCopy (c : Nat) (copy : Copy) : Placed (setCopy w c copy) :=
  placed

theorem Placed.put [DecidableEq R] (thread : w'.thread = update w.thread a t)
    (copy : a ≠ none → w'.copy = w.copy) (fits : Fits w'.copy a t) : Placed w' := by
  unfold Placed
  rw [thread]
  refine (Function.forall_update_iff w.thread fun b t => Fits w'.copy b t).mpr ⟨fits, ?_⟩
  intro b other
  cases b with
  | none => exact copy (Ne.symm other) ▸ placed none
  | some r => exact placed (some r)

end

/- A move of a box within its own part of the program. -/
def Pc.keepsTo (p q : Pc) : Prop :=
  (p.writerOnly = false → q.writerOnly = false) ∧ (p.readerOnly = false → q.readerOnly = false)

theorem Placed.move [DecidableEq R] (placed : Placed w)
    (thread : w'.thread = update w.thread a t) (copy : w'.copy = w.copy)
    (keeps : (w.thread a).pc.keepsTo t.pc) (cleared : a = none → t.pc.cleared = false)
    (before : a = none → (w.thread a).pc.cleared = false)
    (lastcopy : a = none → t.lastcopy = (w.thread a).lastcopy) (used : Used t) : Placed w' := by
  refine placed.put thread (fun _ => copy) ?_
  cases a with
  | none =>
    refine ⟨keeps.2 (placed none).1, (lastcopy rfl).trans (placed none).2.1, ?_⟩
    rw [copy, cleared rfl, ← before rfl]
    exact placed.copy_none_iff
  | some r => exact ⟨keeps.1 (placed (some r)).1, used⟩

section
variable [DecidableEq R]

section
variable (placed : Placed w)
include placed

section
variable (old : (w.thread a).pc = pc)
include old

theorem Placed.go {q : Pc} (thread : w'.thread = update w.thread a { w.thread a with pc := q })
    (copy : w'.copy = w.copy) (keeps : pc.keepsTo q) (before : pc.cleared = false)
    (after : q.cleared = false) (plain : ∀ c, q ≠ .use c) : Placed w' := by
  refine placed.move thread copy ?_ (fun _ => after) (fun _ => ?_) (fun _ => rfl) ?_
  · rw [old]
    exact keeps
  · rw [old]
    exact before
  · intro c use
    exact absurd use (plain c)

/- The writer goes on after its copy is cleared. -/
theorem Placed.after {q : Pc} (thread : w'.thread = update w.thread a { w.thread a with pc := q })
    (copy : w'.copy = w.copy) (only : pc.writerOnly = true) (plain : q.readerOnly = false)
    (before : pc.cleared = true) (after : q.cleared = true) : Placed w' := by
  obtain rfl := placed.writer (by rw [old]; exact only)
  refine placed.put thread (fun _ => copy) ⟨plain, (placed none).2.1, fun _ => after, fun _ => ?_⟩
  rw [copy, placed.copy_none_iff, old]
  exact before

/- What follows stm_releasecopy, from whichever of its accesses is the last. -/
theorem placed_finish (writer : pc.writerOnly = next.writerOnly)
    (reader : pc.readerOnly = next.readerOnly) (before : pc.cleared = false) :
    Placed (finish w a next) := by
  cases next with
  | idle => exact placed.go old rfl rfl ⟨fun _ => rfl, fun _ => rfl⟩ before rfl nofun
  | clear =>
    refine placed.go old rfl rfl ⟨?_, fun _ => rfl⟩ before rfl nofun
    intro plain
    exact absurd (writer.symm.trans plain) (by decide)
  | gone =>
    obtain ⟨r, rfl⟩ := placed.reader (by rw [old]; exact reader)
    exact placed.put rfl (fun _ => rfl) ⟨rfl, nofun⟩
  | keep copy =>
    obtain ⟨r, rfl⟩ := placed.reader (by rw [old]; exact reader)
    cases copy with
    | none => exact placed.put rfl (fun _ => rfl) ⟨rfl, nofun⟩
    | some c =>
      refine placed.put rfl (fun _ => rfl) ⟨rfl, ?_⟩
      intro d use
      cases use
      rfl

end

theorem access_placed (access : Access w a w') : Placed w' := by
  cases access with
  | stay => exact placed
  | test old _ _ | add old _ | enter old _ _ | refuse old _ _ | back old _ | grab old _
  | load old _ _ | loadNone old _ _ | lastRelease old _ _ | release old _ _ | finc old _
  | unlockGrab old _ | unlockNew old _ | unlockRelease old _ | lastReader old _
  | readerFree old _ | checkCopy old _ | testAndSet old _ _ | alone old _ _ | dropOwn old _
  | dropLast old _ | freeMsg old =>
    exact placed.go old rfl rfl ⟨id, id⟩ rfl rfl nofun
  | unlockSame old _ => exact placed.go old rfl rfl ⟨id, nofun⟩ rfl rfl nofun
  | unlockUpdate old _ => exact placed.go old rfl rfl ⟨nofun, id⟩ rfl rfl nofun
  | unlockEnd old _ | decrement old _ _ | decrementLast old _ _ | writerFree old _ =>
    exact placed.after old rfl rfl rfl rfl rfl rfl
  | update old _ =>
    obtain rfl := placed.writer (by rw [old]; rfl)
    exact placed.put rfl (absurd rfl) ⟨rfl, (placed none).2.1, nofun, nofun⟩
  | clear old _ =>
    obtain rfl := placed.writer (by rw [old]; rfl)
    exact placed.put rfl (absurd rfl) ⟨rfl, (placed none).2.1, fun _ => rfl, fun _ => rfl⟩
  | dropNone old => exact placed_finish placed old rfl rfl rfl
  | drop old _ | freeCopy old => exact placed_finish (placed.setCopy _ _) old rfl rfl rfl
  | use old => exact placed.go old rfl rfl ⟨fun _ => rfl, fun _ => rfl⟩ rfl rfl nofun

theorem begins_placed (old : (w.thread a).pc = .idle) (begins : Begins w a w') : Placed w' := by
  cases begins with
  | copy => exact placed.go old rfl rfl ⟨id, id⟩ rfl rfl nofun
  | read | readerRelease => exact placed.put rfl (fun _ => rfl) ⟨rfl, nofun⟩
  | writerRelease | update =>
    refine placed.put rfl (fun _ => rfl) ⟨rfl, (placed none).2.1, ?_⟩
    exact placed.copy_none_iff.trans (by rw [old]; rfl)

theorem newcopy_placed (r : R) (handed : Nat) :
    Placed (put { w with handed := handed } (some r) ⟨.idle, none⟩) :=
  placed.put rfl (fun _ => rfl) ⟨rfl, nofun⟩

end

end

end Skynet.Stm
