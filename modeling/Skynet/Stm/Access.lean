import Skynet.Stm.Model

/-! Everything one access can do when it does not fault: the place of the agent, what it has found
in shared memory, and the world it leaves. -/
namespace Skynet.Stm

open Base

variable {R : Type} {w w' : World R} {a : Option R} {P : World R → Prop}
  {x : Except Fault (World R)} {c : Nat} {op : Reading}

theorem yields_touch (rest : w.freed = 0 → Yields (fun _ => True) P x) :
    Yields (fun _ => True) P (touch w x) :=
  Yields.ite rest fun _ => trivial

theorem yields_touchCopy (rest : Yields (fun _ => True) P x) :
    Yields (fun _ => True) P (touchCopy w c x) :=
  Yields.ite (fun _ => rest) fun _ => trivial

theorem yields_touchMsg (rest : Yields (fun _ => True) P x) :
    Yields (fun _ => True) P (touchMsg w c x) :=
  Yields.ite (fun _ => rest) fun _ => trivial

variable [DecidableEq R]

inductive Access (w : World R) (a : Option R) : World R → Prop where
  | stay : Access w a w
  | test {op : Reading} : (w.thread a).pc = .rlock .test op → w.freed = 0 → w.write = false →
      Access w a (go w a (.rlock .add op))
  | add {op : Reading} : (w.thread a).pc = .rlock .add op → w.freed = 0 →
      Access w a (go { w with read := w.read + 1 } a (.rlock .check op))
  | enter {op : Reading} : (w.thread a).pc = .rlock .check op → w.freed = 0 → w.write = false →
      Access w a (go w a (.reading op))
  | refuse {op : Reading} : (w.thread a).pc = .rlock .check op → w.freed = 0 → w.write = true →
      Access w a (go w a (.rlock .back op))
  | back {op : Reading} : (w.thread a).pc = .rlock .back op → w.freed = 0 →
      Access w a (go { w with read := w.read - 1 } a (.rlock .test op))
  | grab : (w.thread a).pc = .reading .grab → w.freed = 0 →
      Access w a (go { w with reference := w.reference + 1 } a (.runlock (.grab w.reference)))
  | load {c : Nat} : (w.thread a).pc = .reading .copy → w.freed = 0 → w.copy = some c →
      Access w a (go w a (.finc c))
  | loadNone : (w.thread a).pc = .reading .copy → w.freed = 0 → w.copy = none →
      Access w a (go w a (.runlock (.copy none)))
  | lastRelease : (w.thread a).pc = .reading .release → w.freed = 0 → w.reference = 1 →
      Access w a (go { w with reference := w.reference - 1 } a .lastReader)
  | release : (w.thread a).pc = .reading .release → w.freed = 0 → w.reference ≠ 1 →
      Access w a (go { w with reference := w.reference - 1 } a (.runlock .release))
  | finc {c : Nat} : (w.thread a).pc = .finc c → 0 < (w.copies c).reference →
      Access w a (go (addCopy w c 1) a (.runlock (.copy (some c))))
  | unlockGrab {ref : Int} : (w.thread a).pc = .runlock (.grab ref) → w.freed = 0 →
      Access w a (go { w with read := w.read - 1, handed := w.handed + 1 } a .idle)
  | unlockSame : (w.thread a).pc = .runlock (.copy (w.thread a).lastcopy) → w.freed = 0 →
      Access w a (go { w with read := w.read - 1 } a (.drop (w.thread a).lastcopy .idle))
  | unlockNew {ret : Option Nat} : (w.thread a).pc = .runlock (.copy ret) → w.freed = 0 →
      Access w a (go { w with read := w.read - 1 } a (.drop (w.thread a).lastcopy (.keep ret)))
  | unlockRelease : (w.thread a).pc = .runlock .release → w.freed = 0 →
      Access w a (go { w with read := w.read - 1 } a (.drop (w.thread a).lastcopy .gone))
  | lastReader : (w.thread a).pc = .lastReader → w.freed = 0 → Access w a (go w a .readerFree)
  | readerFree : (w.thread a).pc = .readerFree → w.freed = 0 →
      Access w a (go { w with freed := w.freed + 1 } a (.drop (w.thread a).lastcopy .gone))
  | checkCopy : (w.thread a).pc = .checkCopy → w.freed = 0 →
      Access w a (go w a (.wlock .testAndSet .release))
  | testAndSet {op : Writing} : (w.thread a).pc = .wlock .testAndSet op → w.freed = 0 →
      w.write = false → Access w a (go { w with write := true } a (.wlock .readers op))
  | alone {op : Writing} : (w.thread a).pc = .wlock .readers op → w.freed = 0 → w.read = 0 →
      Access w a (go w a (.writing op))
  | update {c : Nat} : (w.thread a).pc = .writing (.update c) → w.freed = 0 →
      Access w a (go { w with copy := some c } a (.wunlock (.update w.copy)))
  | dropOwn : (w.thread a).pc = .writing .release → w.freed = 0 →
      Access w a (go w a (.drop w.copy .clear))
  | unlockUpdate {oldcopy : Option Nat} : (w.thread a).pc = .wunlock (.update oldcopy) →
      w.freed = 0 → Access w a (go { w with write := false } a (.drop oldcopy .idle))
  | unlockEnd : (w.thread a).pc = .wunlock .release → w.freed = 0 →
      Access w a (go { w with write := false } a .done)
  | clear : (w.thread a).pc = .clear → w.freed = 0 →
      Access w a (go { w with copy := none } a .decrement)
  | decrement : (w.thread a).pc = .decrement → w.freed = 0 → 0 < w.reference - 1 →
      Access w a (go { w with reference := w.reference - 1 } a (.wunlock .release))
  | decrementLast : (w.thread a).pc = .decrement → w.freed = 0 → ¬ 0 < w.reference - 1 →
      Access w a (go { w with reference := w.reference - 1 } a .writerFree)
  | writerFree : (w.thread a).pc = .writerFree → w.freed = 0 →
      Access w a (go { w with freed := w.freed + 1 } a .done)
  | dropNone {next : Next} : (w.thread a).pc = .drop none next → Access w a (finish w a next)
  | drop {c : Nat} {next : Next} : (w.thread a).pc = .drop (some c) next →
      (w.copies c).reference ≠ 1 → Access w a (finish (addCopy w c (-1)) a next)
  | dropLast {c : Nat} {next : Next} : (w.thread a).pc = .drop (some c) next →
      (w.copies c).reference = 1 → Access w a (go (addCopy w c (-1)) a (.freeMsg c next))
  | freeMsg {c : Nat} {next : Next} : (w.thread a).pc = .freeMsg c next →
      Access w a (freeMsg w a c next)
  | freeCopy {c : Nat} {next : Next} : (w.thread a).pc = .freeCopy c next →
      Access w a (freeCopy w a c next)
  | use {c : Nat} : (w.thread a).pc = .use c → Access w a (go w a .idle)

theorem go_self {pc : Pc} (old : (w.thread a).pc = pc) : go w a pc = w := by
  unfold go put
  subst old
  rw [Function.update_eq_self]

theorem access_rlock {phase : RLock} (old : (w.thread a).pc = .rlock phase op) (live : w.freed = 0) :
    Access w a (rlock w a op phase) := by
  cases phase with
  | test =>
    cases locked : w.write with
    | true =>
      simp only [rlock, locked, if_true, go_self old]
      exact .stay
    | false =>
      simp only [rlock, locked, Bool.false_eq_true, if_false]
      exact .test old live locked
  | add => exact .add old live
  | check =>
    cases locked : w.write with
    | true =>
      simp only [rlock, locked, if_true]
      exact .refuse old live locked
    | false =>
      simp only [rlock, locked, Bool.false_eq_true, if_false]
      exact .enter old live locked
  | back => exact .back old live

theorem access_reading (old : (w.thread a).pc = .reading op) (live : w.freed = 0) :
    Access w a (reading w a op) := by
  cases op with
  | grab => exact .grab old live
  | copy =>
    cases there : w.copy with
    | none =>
      simp only [reading, there]
      exact .loadNone old live there
    | some c =>
      simp only [reading, there]
      exact .load old live there
  | release =>
    by_cases last : w.reference = 1
    · rw [reading, if_pos (by omega)]
      exact .lastRelease old live last
    · rw [reading, if_neg (by omega)]
      exact .release old live last

theorem access_runlock {after : RUnlock} (old : (w.thread a).pc = .runlock after)
    (live : w.freed = 0) : Yields (fun _ => True) (Access w a) (runlock w a after) := by
  cases after with
  | grab ref => exact Yields.ite (fun _ => .unlockGrab old live) fun _ => trivial
  | copy ret =>
    refine Yields.ite (fun same => ?_) fun _ => .unlockNew old live
    obtain rfl : ret = (w.thread a).lastcopy := same
    exact .unlockSame old live
  | release => exact .unlockRelease old live

theorem access_wlock {phase : WLock} {op : Writing} (old : (w.thread a).pc = .wlock phase op)
    (live : w.freed = 0) : Access w a (wlock w a op phase) := by
  cases phase with
  | testAndSet =>
    cases locked : w.write with
    | true =>
      have same : { w with write := true } = w := by rw [← locked]
      simp only [wlock, locked, if_true, same, go_self old]
      exact .stay
    | false =>
      simp only [wlock, locked, Bool.false_eq_true, if_false]
      exact .testAndSet old live locked
  | readers =>
    by_cases none : w.read = 0
    · rw [wlock, if_pos none]
      exact .alone old live none
    · rw [wlock, if_neg none, go_self old]
      exact .stay

theorem access_writing {op : Writing} (old : (w.thread a).pc = .writing op)
    (live : w.freed = 0) : Access w a (writing w a op) := by
  cases op with
  | update c => exact .update old live
  | release => exact .dropOwn old live

theorem access_wunlock {after : WUnlock} (old : (w.thread a).pc = .wunlock after)
    (live : w.freed = 0) : Access w a (wunlock w a after) := by
  cases after with
  | update oldcopy => exact .unlockUpdate old live
  | release => exact .unlockEnd old live

theorem access_decrement (old : (w.thread a).pc = .decrement) (live : w.freed = 0) :
    Access w a (decrement w a) := by
  by_cases more : 0 < w.reference - 1
  · rw [decrement, if_pos more]
    exact .decrement old live more
  · rw [decrement, if_neg more]
    exact .decrementLast old live more

theorem access_dropCopy {next : Next} (old : (w.thread a).pc = .drop (some c) next) :
    Access w a (dropCopy w a c next) := by
  by_cases last : (w.copies c).reference = 1
  · rw [dropCopy, if_pos (by omega)]
    exact .dropLast old last
  · rw [dropCopy, if_neg (by omega)]
    exact .drop old last

theorem advance_access {result : Except Fault (World R)} (taken : advance w a = some result) :
    Yields (fun _ => True) (Access w a) result := by
  unfold advance at taken
  generalize old : (w.thread a).pc = pc at taken
  cases pc with
  | absent => contradiction
  | idle => contradiction
  | done => contradiction
  | rlock phase op =>
    cases taken
    exact yields_touch (access_rlock old)
  | reading op =>
    cases taken
    exact yields_touch (access_reading old)
  | finc c =>
    cases taken
    exact yields_touchCopy (Yields.ite (.finc old) fun _ => trivial)
  | runlock after =>
    cases taken
    exact yields_touch (access_runlock old)
  | lastReader =>
    cases taken
    exact yields_touch fun live => Yields.ite (fun _ => .lastReader old live) fun _ => trivial
  | readerFree =>
    cases taken
    exact yields_touch (.readerFree old)
  | checkCopy =>
    cases taken
    exact yields_touch fun live => Yields.ite (fun _ => trivial) fun _ => .checkCopy old live
  | wlock phase op =>
    cases taken
    exact yields_touch (access_wlock old)
  | writing op =>
    cases taken
    exact yields_touch (access_writing old)
  | wunlock after =>
    cases taken
    exact yields_touch (access_wunlock old)
  | clear =>
    cases taken
    exact yields_touch (.clear old)
  | decrement =>
    cases taken
    exact yields_touch (access_decrement old)
  | writerFree =>
    cases taken
    exact yields_touch (.writerFree old)
  | drop copy next =>
    cases copy with
    | none =>
      cases taken
      exact Access.dropNone old
    | some c =>
      cases taken
      exact yields_touchCopy (access_dropCopy old)
  | freeMsg c next =>
    cases taken
    exact yields_touchCopy (yields_touchMsg (Access.freeMsg old))
  | freeCopy c next =>
    cases taken
    exact yields_touchCopy (Access.freeCopy old)
  | use c =>
    cases taken
    exact yields_touchCopy (yields_touchMsg (Access.use old))

/-- What the calls of a box begin with. -/
inductive Begins (w : World R) : Option R → World R → Prop where
  | copy {a : Option R} : Begins w a (go w a (.rlock .test .grab))
  | read {r : R} : Begins w (some r) (go w (some r) (.rlock .test .copy))
  | readerRelease {r : R} : Begins w (some r) (go w (some r) (.rlock .test .release))
  | writerRelease : Begins w none (go w none .checkCopy)
  | update : Begins w none
      (go { setCopy w w.allocated ⟨1, 0, 0⟩ with allocated := w.allocated + 1 } none
        (.wlock .testAndSet (.update w.allocated)))

theorem begin_begins {c : Call} (taken : begin w a c = some w') : Begins w a w' := by
  cases c with
  | copy =>
    cases taken
    exact .copy
  | read =>
    cases a with
    | none => contradiction
    | some r =>
      cases taken
      exact .read
  | update =>
    cases a with
    | none =>
      cases taken
      exact .update
    | some r => contradiction
  | release =>
    cases a with
    | none =>
      cases taken
      exact .writerRelease
    | some r =>
      cases taken
      exact .readerRelease

end Skynet.Stm
