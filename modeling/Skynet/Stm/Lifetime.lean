import Skynet.Stm.Counted
import Skynet.Stm.CopySteps

/-! The lifetime of an stm_object and its copies: no agent touches freed memory, and when every
holder has released all is freed once. -/
namespace Skynet.Stm

open Base Option

variable {R : Type}

section
variable {w : World R} {c : Nat} {x : Except Fault (World R)}

def Safe (x : Except Fault (World R)) : Prop := Yields (fun _ => False) (fun _ => True) x

theorem safe_touch (live : w.freed = 0) (rest : Safe x) : Safe (touch w x) :=
  Yields.ite (fun _ => rest) fun freed => freed live

theorem safe_touchCopy (there : (w.copies c).freed = 0) (rest : Safe x) :
    Safe (touchCopy w c x) :=
  Yields.ite (fun _ => rest) fun freed => freed there

theorem safe_touchMsg (there : (w.copies c).msgFreed = 0) (rest : Safe x) :
    Safe (touchMsg w c x) :=
  Yields.ite (fun _ => rest) fun freed => freed there

end

variable [Fintype R]

structure Inv (w : World R) : Prop where
  placed : Placed w
  locked : Locked w
  counted : Counted w
  kept : Kept w

theorem counted_start : Counted (World.start : World R) := by
  have reader : ∀ (weight : Pc → Nat) n, weight .idle = n → weight .absent = 0 →
      total (fun t : Thread => weight t.pc) (World.start : World R).thread = n := by
    intro weight n idle absent
    have readers : ∑ _r : R, weight .absent = 0 := Finset.sum_eq_zero fun _ _ => absent
    exact (Fintype.sum_option _).trans (by rw [← idle]; exact congrArg (weight .idle + ·) readers)
  refine ⟨?_, ?_, nofun, ?_⟩
  · rw [reader Pc.holds 1 rfl rfl]
    rfl
  · rw [reader Pc.freeing 0 rfl rfl]
    rfl
  · intro b ref grab
    cases b <;> contradiction

theorem inv_start : Inv (World.start : World R) :=
  ⟨placed_start, locked_start, counted_start, kept_start⟩

variable {pc : Pc} {next : Next} {result : Except Fault (World R)} {action : Action R}

theorem Pc.owns_of_outside (outside : pc.within = false) : pc.owns = true := by
  cases pc with
  | drop _ _ | freeMsg _ _ | freeCopy _ _ => exact congrArg (!·) outside
  | clear => contradiction
  | _ => rfl

theorem Next.readerOnly_of_holds (holds : next.holds = 0) :
    next.readerOnly = true := by
  cases next <;> first | rfl | contradiction

theorem Pc.cleared_of_holds (writer : pc.readerOnly = false) (holds : pc.holds = 0) :
    pc.cleared = true := by
  cases pc with
  | drop _ _ | freeMsg _ _ | freeCopy _ _ =>
    exact absurd (Next.readerOnly_of_holds holds) (ne_true_of_eq_false writer)
  | runlock after => cases after <;> contradiction
  | wunlock after =>
    cases after with
    | update oldcopy => contradiction
    | release => rfl
  | writerFree => rfl
  | done => rfl
  | _ => contradiction

variable {w w' : World R} {a : Option R} {c : Nat}

section
variable (inv : Inv w)
include inv

section
variable (old : (w.thread a).pc = pc)
include old

theorem Inv.holding {n : Nat} (holds : pc.holds = n + 1) : w.freed = 0 := by
  refine inv.counted.there (a := a) (.inl ?_)
  rw [old, holds]
  exact Nat.succ_pos n

theorem Inv.freeing (freeing : pc.freeing = 1) : w.freed = 0 := by
  refine inv.counted.there (a := a) (.inr (.inl ?_))
  rw [old, freeing]
  exact Nat.one_pos

theorem Inv.unlocking (unlocking : pc.unlocking = true) : w.freed = 0 := by
  refine inv.counted.there (a := a) (.inr (.inr ?_))
  rw [old, unlocking]

end

theorem Inv.loaded (old : (w.thread a).pc = .finc c) :
    0 < (w.copies c).reference := by
  have live := inv.holding old rfl
  have copy := inv.kept.loaded live a c old
  have outside := (inv.locked live).entered (a := a) (by rw [old]; rfl)
  have count := inv.kept.reference c
  have object : objectRefs w c = 1 := by
    rw [objectRefs, Pc.owns_of_outside outside, copy]
    exact refers_self c
  omega

theorem Inv.dropped (old : (w.thread a).pc = .drop (some c) next) :
    0 < (w.copies c).reference := by
  refine inv.kept.positive (a := a) ?_
  unfold Thread.refs
  simp only [old, Pc.refs, refers_self]
  omega

theorem Inv.used (old : (w.thread a).pc = .use c) :
    0 < (w.copies c).reference := by
  refine inv.kept.positive (a := a) ?_
  unfold Thread.refs
  simp only [old, Pc.refs, Pc.keepsLast, inv.placed.used old, if_true, refers_self]
  decide

theorem Inv.last (old : (w.thread a).pc = .lastReader) : w.copy = none := by
  have one := weight_le_total (fun t : Thread => t.pc.freeing) w.thread a
  have conserved := inv.counted.freeing
  have none : w.reference = 0 := by
    by_contra nonzero
    rw [ifZero_of_ne nonzero] at conserved
    rw [old] at one
    change 1 ≤ _ at one
    omega
  have count := inv.counted.reference
  have empty : total (fun t : Thread => t.pc.holds) w.thread = 0 := by omega
  exact inv.placed.copy_none_iff.mpr
    (Pc.cleared_of_holds (inv.placed Option.none).1 (total_eq_zero empty Option.none))

theorem Inv.released (released : Released w) :
    w.freed = 1 ∧ ∀ c, c < w.allocated → (w.copies c).freed = 1 ∧ (w.copies c).msgFreed = 1 := by
  obtain ⟨handed, writer, readers⟩ := released
  have empty : ∀ weight : Thread → Nat, (∀ last, weight ⟨.done, last⟩ = 0) →
      (∀ last, weight ⟨.absent, last⟩ = 0) → total weight w.thread = 0 := by
    intro weight done absent
    refine total_of_zero fun a => ?_
    have either : (w.thread a).pc = .done ∨ (w.thread a).pc = .absent := by
      cases a with
      | none => exact .inl writer
      | some r => exact readers r
    rcases either with ended | never
    · have thread : w.thread a = ⟨.done, (w.thread a).lastcopy⟩ := by rw [← ended]
      rw [thread, done]
    · have thread : w.thread a = ⟨.absent, (w.thread a).lastcopy⟩ := by rw [← never]
      rw [thread, absent]
  have count := inv.counted.reference
  rw [empty (fun t => t.pc.holds) (fun _ => rfl) (fun _ => rfl), handed] at count
  have conserved := inv.counted.freeing
  rw [empty (fun t => t.pc.freeing) (fun _ => rfl) (fun _ => rfl), ifZero_of_eq count] at conserved
  refine ⟨by omega, ?_⟩
  intro c made
  have copy := inv.placed.copy_none_iff.mpr (by rw [writer]; rfl)
  have object : objectRefs w c = 0 := by
    rw [objectRefs, copy, writer]
    rfl
  have references := inv.kept.reference c
  rw [object, empty (Thread.refs c) (fun _ => rfl) (fun _ => rfl)] at references
  have gone : unheld w c = 1 := by
    rw [unheld_of_lt made]
    exact ifZero_of_eq references
  have freeing := inv.kept.freeing c
  have freeingMsg := inv.kept.freeingMsg c
  rw [gone, empty (fun t => t.pc.freeingCopy c) (fun _ => rfl) (fun _ => rfl)] at freeing
  rw [gone, empty (fun t => t.pc.freeingMsg c) (fun _ => rfl) (fun _ => rfl)] at freeingMsg
  omega

end

variable [DecidableEq R]

theorem safe_runlock (inv : Inv w) {after : RUnlock} (old : (w.thread a).pc = .runlock after) :
    Safe (touch w (runlock w a after)) := by
  cases after with
  | grab ref =>
    refine safe_touch (inv.holding old rfl) ?_
    exact Yields.ite (fun _ => trivial) fun none => none (inv.counted.grabbed a ref old)
  | copy ret =>
    refine safe_touch (inv.holding old rfl) ?_
    exact Yields.ite (fun _ => trivial) fun _ => trivial
  | release =>
    exact safe_touch (inv.unlocking old rfl) trivial

theorem advance_safe (inv : Inv w) (taken : advance w a = some result) : Safe result := by
  unfold advance at taken
  generalize old : (w.thread a).pc = pc at taken
  cases pc with
  | absent => contradiction
  | idle => contradiction
  | done => contradiction
  | rlock _ _ | reading _ | wlock _ _ | writing _ | clear | decrement =>
    cases taken
    exact safe_touch (inv.holding old rfl) trivial
  | finc c =>
    cases taken
    have positive := inv.loaded old
    refine safe_touchCopy (inv.kept.there positive).1 ?_
    exact Yields.ite (fun _ => trivial) fun none => none positive
  | runlock after =>
    cases taken
    exact safe_runlock inv old
  | lastReader =>
    cases taken
    refine safe_touch (inv.freeing old rfl) ?_
    exact Yields.ite (fun _ => trivial) fun there => there (inv.last old)
  | readerFree | writerFree =>
    cases taken
    exact safe_touch (inv.freeing old rfl) trivial
  | checkCopy =>
    cases taken
    refine safe_touch (inv.holding old rfl) ?_
    refine Yields.ite (fun none => ?_) fun _ => trivial
    obtain rfl := inv.placed.writer (by rw [old]; rfl)
    have cleared := inv.placed.copy_none_iff.mp none
    rw [old] at cleared
    contradiction
  | wunlock after =>
    cases taken
    cases after with
    | update oldcopy => exact safe_touch (inv.holding old rfl) trivial
    | release => exact safe_touch (inv.unlocking old rfl) trivial
  | drop copy next =>
    cases copy with
    | none =>
      cases taken
      trivial
    | some c =>
      cases taken
      exact safe_touchCopy (inv.kept.there (inv.dropped old)).1 trivial
  | freeMsg c next =>
    cases taken
    have freeing : 0 < (w.thread a).pc.freeingCopy c := by
      rw [old]
      exact Nat.lt_of_lt_of_eq Nat.one_pos (refers_self c).symm
    have freeingMsg : 0 < (w.thread a).pc.freeingMsg c := by
      rw [old]
      exact Nat.lt_of_lt_of_eq Nat.one_pos (refers_self c).symm
    exact safe_touchCopy (inv.kept.unfreed freeing).2
      (safe_touchMsg (inv.kept.unfreedMsg freeingMsg) trivial)
  | freeCopy c next =>
    cases taken
    have freeing : 0 < (w.thread a).pc.freeingCopy c := by
      rw [old]
      exact Nat.lt_of_lt_of_eq Nat.one_pos (refers_self c).symm
    exact safe_touchCopy (inv.kept.unfreed freeing).2 trivial
  | use c =>
    cases taken
    have there := inv.kept.there (inv.used old)
    exact safe_touchCopy there.1 (safe_touchMsg there.2 trivial)

/-- Every step that takes the object's count to zero in a reader's release is taken alone. -/
def LastAlone (st : State R) : Action R → Prop
  | .advance a => Alone st.world a
  | _ => True

theorem perform_inv (inv : Inv w) (alone : LastAlone ⟨w, none⟩ action)
    (taken : perform w action = some result) :
    Yields (fun _ => False) Inv result := by
  cases action with
  | call a c =>
    obtain ⟨idle, started⟩ := ite_none_right_eq_some.mp taken
    obtain ⟨w', begun, rfl⟩ := map_eq_some_iff.mp started
    have begins := begin_begins begun
    exact ⟨begins_placed inv.placed idle begins, begins_locked inv.locked idle begins,
      begins_counted inv.counted idle begins, begins_kept inv.kept idle begins⟩
  | newcopy r =>
    obtain ⟨⟨absent, waits⟩, made⟩ := ite_none_right_eq_some.mp taken
    cases made
    exact ⟨newcopy_placed inv.placed r _, newcopy_locked inv.locked absent _,
      newcopy_counted inv.counted absent waits, newcopy_kept inv.kept absent _⟩
  | advance a =>
    have safe := advance_safe inv taken
    have access := advance_access taken
    cases result with
    | error fault => exact safe
    | ok w' =>
      exact ⟨access_placed inv.placed access, access_locked inv.placed inv.locked access,
        access_counted inv.placed inv.locked inv.counted alone access,
        access_kept inv.placed inv.locked inv.kept access⟩

theorem step_inv {st st' : State R} (sound : st.fault = none ∧ Inv st.world)
    (alone : LastAlone st action) (taken : step st action = some st') :
    st'.fault = none ∧ Inv st'.world := by
  obtain ⟨fault, inv⟩ := sound
  rw [step, if_neg (not_not_intro fault)] at taken
  obtain ⟨result, performed, rfl⟩ := map_eq_some_iff.mp taken
  have alone' : LastAlone ⟨st.world, none⟩ action := by
    cases action <;> exact alone
  have yields := perform_inv inv alone' performed
  cases result with
  | error fault => exact yields.elim
  | ok w' => exact ⟨rfl, yields⟩

theorem stm_lifetime {st : State R} (reached : Reaches step LastAlone State.start st) :
    st.fault = none ∧ st.world.freed ≤ 1 ∧
      (∀ c, (st.world.copies c).freed ≤ 1 ∧ (st.world.copies c).msgFreed ≤ 1) ∧
      (Released st.world → st.world.freed = 1 ∧ ∀ c, c < st.world.allocated →
        (st.world.copies c).freed = 1 ∧ (st.world.copies c).msgFreed = 1) := by
  obtain ⟨fault, inv⟩ := reached.invariant (fun st => st.fault = none ∧ Inv st.world)
    ⟨rfl, inv_start⟩ fun _ _ _ sound alone taken => step_inv sound alone taken
  exact ⟨fault, inv.counted.freed_le, inv.kept.once, inv.released⟩

/- A call and the first of its accesses. -/
def calls (a : Option Bool) (c : Call) (n : Nat) : List (Action Bool) :=
  .call a c :: List.replicate n (.advance a)

/- The writer gives a pointer to either reader. -/
def twoReaders : List (Action Bool) :=
  calls none .copy 5 ++ [.newcopy false] ++ calls none .copy 5 ++ [.newcopy true]

def checkedAlone (st : State Bool) : Action Bool → Bool
  | .advance a =>
    (st.world.thread a).pc != .reading .release || st.world.reference != 1 ||
      [none, some false, some true].all fun b => (st.world.thread b).pc != .runlock .release
  | _ => true

theorem lastAlone_of_checked (st : State Bool) (action : Action Bool)
    (passed : checkedAlone st action = true) : LastAlone st action := by
  cases action with
  | call a c => trivial
  | newcopy r => trivial
  | advance a =>
    intro release one b unlocks
    simp only [checkedAlone, release, one, bne_self_eq_false, Bool.false_or] at passed
    have member : b ∈ [none, some false, some true] := by
      cases b with
      | none => decide
      | some r => cases r <;> decide
    have other := List.all_eq_true.mp passed b member
    rw [unlocks] at other
    contradiction

/- Two readers read, the writer updates, both read again, and all three release. -/
def shared : List (Action Bool) :=
  twoReaders ++ calls (some false) .read 8 ++ calls none .update 5 ++ calls (some true) .read 8 ++
    calls (some false) .read 10 ++ calls none .release 8 ++ calls (some false) .release 6 ++
    calls (some true) .release 9

theorem stm_lifetime_two :
    ∃ st : State Bool, Reaches step LastAlone State.start st ∧ Released st.world ∧
      st.world.allocated = 2 ∧ st.fault = none ∧ st.world.freed = 1 := by
  obtain ⟨st, taken, handed, writer, first, second, made⟩ : ∃ st : State Bool,
      shared.foldlM (fun st action => if checkedAlone st action then step st action else none)
        State.start = some st ∧ st.world.handed = 0 ∧ (st.world.thread none).pc = .done ∧
      (st.world.thread (some false)).pc = .done ∧ (st.world.thread (some true)).pc = .done ∧
      st.world.allocated = 2 := ⟨_, rfl, rfl, rfl, rfl, rfl, rfl⟩
  have run := reaches_of_checked checkedAlone lastAlone_of_checked _ taken
  have lifetime := stm_lifetime run
  have released : Released st.world := by
    refine ⟨handed, writer, fun r => .inl ?_⟩
    cases r with
    | false => exact first
    | true => exact second
  exact ⟨st, run, released, made, lifetime.1, (lifetime.2.2.2 released).1⟩

/- After the writer has released both readers decrement; the second frees the object, and the
first is still to give back its lock. -/
def overlapping : List (Action Bool) :=
  twoReaders ++ calls none .release 10 ++ calls (some false) .release 4 ++
    calls (some true) .release 6 ++ [.advance (some false)]

theorem stm_unlock_after_free :
    ∃ st : State Bool, Run step State.start st ∧ st.fault = some .object := by
  obtain ⟨st, taken, fault⟩ : ∃ st : State Bool,
      overlapping.foldlM step State.start = some st ∧ st.fault = some .object := ⟨_, rfl, rfl⟩
  exact ⟨st, run_of_list _ taken, fault⟩

end Skynet.Stm
