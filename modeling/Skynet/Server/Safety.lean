import Skynet.Server.Launching

/-! The invariant over whole runs. -/
namespace Skynet.Server
open Base Skynet.Handle Option

variable {s : Shared} {rest all : Multiset Frame} {st : State} {thread : Nat}
  {result : Except Fault (Shared × List Frame)}

theorem act_fine {f : Frame} (ok : Bool) (inv : Inv s (f ::ₘ rest)) : Fine rest (act s ok f) := by
  cases f with
  | contextPush d m => exact fine_grab inv (.inr ⟨m, rfl⟩)
  | pushTo c m => exact fine_pushTo inv
  | harborSend type m => exact fine_harborSend inv
  | release c => exact fine_release inv (.inl rfl)
  | delete c => exact fine_delete inv
  | retire h => exact fine_retire inv
  | endless h => exact fine_grab inv (.inl rfl)
  | popNext w => exact fine_popNext inv
  | worker w q => exact fine_worker inv
  | loop b => exact fine_loop inv
  | measure b m => exact fine_measure inv
  | consume b m => exact fine_consume inv
  | callback b m => exact fine_callback inv
  | pushBack q => exact fine_pushBack inv
  | mqRelease q h => exact fine_mqRelease inv
  | dropQueue q h => exact fine_dropQueue inv
  | dropMessage q h m => exact fine_dropMessage inv
  | free q => exact fine_free inv
  | assign c h => exact fine_assign inv
  | createQueue c => exact fine_createQueue inv
  | init c q => exact fine_init inv
  | launched c q => exact fine_release inv (.inr ⟨q, rfl⟩)
  | setInit c q => exact fine_setInit inv
  | publish q => exact fine_publish inv
  | failed h q => exact fine_failed inv

/-- A launch registers a handle that is not in use. All other steps are free. -/
def Fresh (st : State) : Action → Prop
  | .call _ .launch => ∀ storage handle,
      handleRegister (Function.update st.shared.handle st.shared.contextCount 0) st.shared.storage
        st.shared.contextCount = .ok (storage, handle) → HandleUnused st.shared handle
  | _ => True

theorem start_fine {caller : Option Nat} {what : Call} (inv : Inv st.shared all)
    (running : ∀ c, caller = some c → 0 < held Frame.grabbed all c)
    (fresh : Fresh st (.call thread what)) (started : start st.shared caller what = some result) :
    Fine all result := by
  cases what with
  | send source destination type session data sz =>
    cases some.inj started
    have light := skynetSend_light (s := st.shared) st.shared.storage.harbor source destination type
      session data sz
    have zero : ∀ select : Frame → Option Nat,
        (∀ g ∈ skynetSend st.shared.storage.harbor source destination type session data sz,
          select g = none) → select (.popNext 0) = none →
        Balanced select (.popNext 0)
          (skynetSend st.shared.storage.harbor source destination type session data sz) := by
      intro select none owner x
      rw [owner, if_neg nofun, tally_eq_zero]
      intro g member
      rw [none g member]
      exact nofun
    exact inv.light.swap (zero _ (fun g here => (light g here).1) rfl)
      (zero _ (fun g here => (light g here).2.1) rfl)
      (zero _ (fun g here => (light g here).2.2.1) rfl)
      (zero _ (fun g here => (light g here).2.2.2.1) rfl)
      (fun g here _ => (light g here).2.2.2.2.1) (fun g here => (light g here).2.2.2.2.2)
  | contextPush _ _ | retire _ | endless _ =>
    cases some.inj started
    refine inv.light.swap ?_ ?_ ?_ ?_ ?_ ?_ <;> simp [Balanced]
  | launch =>
    cases some.inj started
    exact fine_contextNew inv fresh
  | dispatch w =>
    simp only [start] at started
    split_ifs at started
    cases some.inj started
    refine inv.light.swap ?_ ?_ ?_ ?_ ?_ ?_ <;> simp [Balanced]
  | harborStart =>
    obtain ⟨c, here, rfl⟩ := map_eq_some_iff.mp started
    have owned := running c here
    refine inv.light.rereference ((inv.references.reserve owned).congr ?_ ?_) ?_ ?_ ?_ ?_ <;>
      simp [Balanced]
  | setCallback on =>
    obtain ⟨c, here, rfl⟩ := map_eq_some_iff.mp started
    have swapped : Inv st.shared ((([] : List Frame) : Multiset Frame) + all) := by
      refine inv.light.swap ?_ ?_ ?_ ?_ ?_ ?_ <;> simp [Balanced]
    exact ⟨swapped.references, swapped.presence, swapped.ownership, swapped.handles, swapped.logs,
      swapped.hands, swapped.locals_same (.of_eq rfl rfl rfl rfl rfl rfl)⟩

/-- The invariant of a state: it holds also after a fault, which changes nothing. -/
structure State.Good (st : State) : Prop where
  inv : Inv st.shared (frames st.threads)
  fault : ∀ e, st.fault = some e → e.Tolerated

theorem good_initial (harbor threads : Nat) : (State.initial harbor threads).Good := by
  refine ⟨?_, nofun⟩
  have none : frames (State.initial harbor threads).threads = 0 := by
    simp [frames, State.initial]
  rw [none]
  refine ⟨⟨tidy_init harbor, ⟨2, rfl⟩, ?_, ?_, ?_, ?_, ?_, ?_, ?_⟩, ⟨[], chain_empty, ?_, ?_, ?_⟩,
    ⟨?_, ?_, ?_⟩, ⟨?_, ?_, ?_, ?_, ?_, ?_⟩, ⟨?_, ?_, ?_, ?_, ?_, ?_, ?_, ?_⟩, ⟨?_, ?_⟩, ?_⟩ <;>
    simp [State.initial, Shared.initial, HandleStorage.Holds, handleInit]

theorem finish_good {below : List Frame} (good : st.Good)
    (now : ∀ new : List Frame, frames (st.threads.set thread new) = (new : Multiset Frame) + rest)
    (fine : Fine ((below : Multiset Frame) + rest) result) :
    (st.finish thread below result).Good := by
  cases result with
  | error e =>
    refine ⟨good.inv, fun e' same => ?_⟩
    cases some.inj same
    exact fine
  | ok pair =>
    refine ⟨?_, nofun⟩
    simp only [State.finish]
    rw [now, ← Multiset.coe_add, add_assoc]
    exact fine

theorem step_good {st' : State} {a : Action} (good : st.Good) (fresh : Fresh st a)
    (taken : step st a = some st') : st'.Good := by
  unfold step at taken
  split at taken
  · cases taken
  · cases a with
    | call thread what =>
      simp only [bind_eq_bind, bind_eq_some_iff, pure_def, some.injEq] at taken
      obtain ⟨stack, here, caller, allowed, result, started, rfl⟩ := taken
      obtain ⟨rest, before, after⟩ := frames_set here
      refine finish_good good after ?_
      rw [← before]
      refine start_fine good.inv ?_ fresh started
      intro c running
      rw [before]
      cases stack with
      | nil => cases some.inj allowed; cases running
      | cons f below =>
        obtain ⟨c', top, eq⟩ := map_eq_some_iff.mp allowed
        have owner : f.grabbed = some c := by
          rw [← running, ← eq]
          cases f <;> simp_all [Frame.running]
        exact held_pos (by simp) owner
    | run thread ok =>
      dsimp only at taken
      split at taken
      · rename_i f below here
        cases some.inj taken
        obtain ⟨rest, before, after⟩ := frames_set here
        refine finish_good good after (act_fine ok ?_)
        rw [← Multiset.cons_add, Multiset.cons_coe, ← before]
        exact good.inv
      · cases taken

theorem run_good {harbor threads : Nat}
    (reached : Reaches step Fresh (State.initial harbor threads) st) : st.Good :=
  reached.invariant State.Good (good_initial harbor threads)
    (fun _ _ _ good fresh taken => step_good good fresh taken)

def Frame.calling : Frame → Option Nat
  | .callback b _ => some b.ctx
  | _ => none

theorem calling_once (inv : Inv s all) (c : Nat) :
    held Frame.calling all c ≤ 1 := by
  by_cases any : held Frame.calling all c = 0
  · omega
  · obtain ⟨f, member, calling⟩ := Multiset.countP_pos.mp (Nat.pos_of_ne_zero any)
    obtain ⟨entries, presence⟩ := inv.presence
    obtain ⟨q, queue⟩ : ∃ q, s.queue c = some q := by
      cases f <;> simp only [Frame.calling, reduceCtorEq, some.injEq] at calling
      subst calling
      exact ⟨_, inv.locals _ member⟩
    have few : held Frame.calling all c ≤ held Frame.holding all q := by
      refine held_le fun g here running => ?_
      cases g <;> simp only [Frame.calling, reduceCtorEq, some.injEq] at running
      have known := inv.locals _ here
      simp only [Local, running, queue] at known
      exact known.symm
    have := presence.total (q := q)
    omega

theorem holding_split (all : Multiset Frame) (q : Nat) :
    held Frame.holding all q = held Frame.workerQueue all q + held Frame.launchQueue all q := by
  induction all using Multiset.induction with
  | empty => rfl
  | cons f all ih =>
    rw [held_cons, held_cons, held_cons, ih]
    cases f <;> simp <;> omega

end Skynet.Server
