import Skynet.Server.Invariant

/-! Every step keeps the invariant or stops the process by one of the faults that the
invariant does not exclude. -/
namespace Skynet.Server
open Base Skynet.Handle

def Fault.Tolerated : Fault → Prop
  | .register _ | .notInit | .harbor | .noQueue => True
  | _ => False

def Fine (rest : Multiset Frame) : Except Fault (Shared × List Frame) → Prop
  | .ok (s, new) => Inv s ((new : Multiset Frame) + rest)
  | .error e => e.Tolerated

/-- The new frames own of one kind what the old one owned. -/
def Balanced (select : Frame → Option Nat) (f : Frame) (new : List Frame) : Prop :=
  ∀ x, tally select new x = if some x = select f then 1 else 0

section Steps
variable {s : Shared} {f : Frame} {new : List Frame} {rest : Multiset Frame} {ok : Bool}

theorem balanced_held {select : Frame → Option Nat} (balanced : Balanced select f new) (x : Nat) :
    held select ((new : Multiset Frame) + rest) x = held select (f ::ₘ rest) x := by
  rw [held_add, held_cons, balanced x]

theorem Inv.hands_keep (inv : Inv s (f ::ₘ rest)) (holding : Balanced Frame.holding f new)
    (hands : ∀ g ∈ new, g.holding ≠ none → g.hand = f.hand) :
    Hands s.hand ((new : Multiset Frame) + rest) := by
  refine inv.hands.replace inv.once (fun _ _ => rfl) ?_ ?_
  · intro g member q here
    have same : f.holding = some q := by
      by_contra other
      have zero := holding q
      rw [if_neg fun eq => other eq.symm, tally_eq_zero] at zero
      exact zero g member here
    rw [hands g member (by rw [here]; exact nofun), inv.hand_here same]
  · intro q here nobody
    have one := holding q
    rw [tally_eq_zero.mpr nobody, here, if_pos rfl] at one
    cases one

variable {storage : HandleStorage} {ref reserved : Nat → Nat} {remote : Option Nat} {b : Batch}
  {m : SkynetMessage} {c q h : Nat}

theorem Inv.rereference (inv : Inv s (f ::ₘ rest))
    (references : References storage s.live ref reserved remote s.contextCount
      (held Frame.grabbed ((new : Multiset Frame) + rest))
      (held Frame.deleting ((new : Multiset Frame) + rest)))
    (building : Balanced Frame.building f new) (holding : Balanced Frame.holding f new)
    (hands : ∀ g ∈ new, g.holding ≠ none → g.hand = f.hand) (locals : ∀ g ∈ new, Local s g) :
    Inv { s with storage := storage, ref := ref, reserved := reserved, remote := remote }
      ((new : Multiset Frame) + rest) := by
  obtain ⟨entries, presence⟩ := inv.presence
  refine ⟨references, ⟨entries, presence.congr (balanced_held holding)⟩,
    inv.ownership.congr (balanced_held building), inv.handles, inv.logs,
    inv.hands_keep holding hands, inv.locals_extend (.of_eq rfl rfl rfl rfl rfl rfl) ?_⟩
  intro g member
  have known := locals g member
  cases g <;> exact known

theorem Inv.swap (inv : Inv s (f ::ₘ rest)) (grabbed : Balanced Frame.grabbed f new)
    (deleting : Balanced Frame.deleting f new) (building : Balanced Frame.building f new)
    (holding : Balanced Frame.holding f new)
    (hands : ∀ g ∈ new, g.holding ≠ none → g.hand = f.hand) (locals : ∀ g ∈ new, Local s g) :
    Inv s ((new : Multiset Frame) + rest) :=
  inv.rereference (inv.references.congr (balanced_held grabbed) (balanced_held deleting))
    building holding hands locals

attribute [simp] Frame.grabbed Frame.deleting Frame.building Frame.workerQueue Frame.launchQueue
  Frame.holding Frame.hand Local

theorem fine_callback (inv : Inv s (.callback b m ::ₘ rest)) :
    Fine rest (act s ok (.callback b m)) := by
  refine inv.swap ?_ ?_ ?_ ?_ ?_ ?_ <;> simp [Balanced]
  simpa using inv.local_here

theorem fine_measure (inv : Inv s (.measure b m ::ₘ rest)) :
    Fine rest (act s ok (.measure b m)) := by
  have alive := inv.mqLive (q := b.q) rfl
  simp only [act, alive, if_true]
  refine inv.swap ?_ ?_ ?_ ?_ ?_ ?_ <;> simp [Balanced]
  simpa using inv.local_here

theorem fine_init (inv : Inv s (.init c q ::ₘ rest)) :
    Fine rest (act s ok (.init c q)) := by
  obtain ⟨queue, stored⟩ := inv.local_here
  have own := inv.handles.own c q (inv.live rfl) queue
  cases ok with
  | true =>
    refine inv.swap ?_ ?_ ?_ ?_ ?_ ?_ <;> simp [Balanced]
    exact queue
  | false =>
    refine inv.swap ?_ ?_ ?_ ?_ ?_ ?_ <;> simp [Balanced]
    rw [own, stored]

theorem fine_setInit (inv : Inv s (.setInit c q ::ₘ rest)) :
    Fine rest (act s ok (.setInit c q)) := by
  have swapped : Inv s (([.publish q] : List Frame) + rest) := by
    refine inv.swap ?_ ?_ ?_ ?_ ?_ ?_ <;> simp [Balanced]
  simp only [act]
  split
  · exact ⟨swapped.references, swapped.presence, swapped.ownership, swapped.handles, swapped.logs,
      swapped.hands, inv.locals_extend (.of_eq rfl rfl rfl rfl rfl rfl) (by simp)⟩
  · exact swapped

theorem fine_release (inv : Inv s (f ::ₘ rest)) (kind : f = .release c ∨ ∃ q, f = .launched c q) :
    Fine rest (act s ok f) := by
  rcases kind with rfl | ⟨q, rfl⟩
  all_goals
    have alive := inv.live (c := c) rfl
    by_cases last : s.ref c - 1 = 0
    · simp only [act, alive, if_true, Shared.contextRelease, last, decide_true]
      refine inv.rereference (last ▸ inv.references.release ?_ ?_) ?_ ?_ ?_ ?_ <;>
        simp [Balanced, last]
    · simp only [act, alive, if_true, Shared.contextRelease, last, decide_false,
        Bool.false_eq_true, if_false]
      refine inv.rereference (inv.references.release ?_ ?_) ?_ ?_ ?_ ?_ <;> simp [Balanced, last]

theorem handleGrab_some {s' : Shared} (grabbed : s.handleGrab h = some (c, s')) :
    s.storage.Holds c ∧ s.handle c = h ∧
      s' = { s with ref := Function.update s.ref c (s.ref c + 1) } := by
  obtain ⟨c', found, pair⟩ := Option.map_eq_some_iff.mp grabbed
  obtain ⟨rfl, rfl⟩ := Prod.mk.inj pair
  obtain ⟨here, handle⟩ := grab_some found
  exact ⟨⟨_, here⟩, handle, rfl⟩

theorem References.grab_held {live : Nat → Bool} {count : Nat} {refs dels refs' dels' : Nat → Nat}
    (h : References storage live ref reserved remote count refs dels) (inside : storage.Holds c)
    (refs_eq : ∀ x, refs' x = refs x + if x = c then 1 else 0) (dels_eq : ∀ x, dels' x = dels x) :
    References storage live (Function.update ref c (ref c + 1)) reserved remote count
      refs' dels' := by
  refine h.grab (h.table c inside) ?_ refs_eq dels_eq
  have := h.inTable c inside
  omega

theorem fine_grab (inv : Inv s (f ::ₘ rest)) (kind : f = .endless h ∨ ∃ m, f = .contextPush h m) :
    Fine rest (act s ok f) := by
  rcases kind with rfl | ⟨m, rfl⟩
  all_goals
    simp only [act]
    split
    · rename_i c s' grabbed
      obtain ⟨inside, -, rfl⟩ := handleGrab_some grabbed
      refine inv.rereference (inv.references.grab_held inside ?_ ?_) ?_ ?_ ?_ ?_ <;> simp [Balanced]
    · refine inv.swap ?_ ?_ ?_ ?_ ?_ ?_ <;> simp [Balanced]

theorem fine_retire (inv : Inv s (.retire h ::ₘ rest)) :
    Fine rest (act s ok (.retire h)) := by
  simp only [act]
  split
  · rename_i storage c retired
    refine inv.rereference (inv.references.retire retired ?_ ?_) ?_ ?_ ?_ ?_ <;> simp [Balanced]
  · refine inv.swap ?_ ?_ ?_ ?_ ?_ ?_ <;> simp [Balanced]

theorem fine_failed (inv : Inv s (.failed h q ::ₘ rest)) :
    Fine rest (act s ok (.failed h q)) := by
  have known : s.mqHandle q = h := inv.local_here
  simp only [act]
  split
  · rename_i storage c retired
    refine inv.rereference (inv.references.retire retired ?_ ?_) ?_ ?_ ?_ ?_ <;>
      simp [Balanced, known]
  · refine inv.swap ?_ ?_ ?_ ?_ ?_ ?_ <;> simp [Balanced, known]

/- The handle a queue carries finds no context but the one the queue belongs to. -/
theorem fine_worker {w : Int} (inv : Inv s (.worker w q ::ₘ rest)) :
    Fine rest (act s ok (.worker w q)) := by
  have alive := inv.mqLive (q := q) rfl
  simp only [act, alive, if_true]
  split
  · rename_i c s' grabbed
    obtain ⟨inside, handle, rfl⟩ := handleGrab_some grabbed
    have context := inv.references.table c inside
    have given : s.mqHandle q = s.given c := by
      rcases inv.handles.stored c context with zero | stored
      · exact absurd (handle.symm.trans zero) (inv.handles.nonzero q alive)
      · exact handle.symm.trans stored
    have own := inv.handles.only c q context alive given
    refine inv.rereference (inv.references.grab_held inside ?_ ?_) ?_ ?_ ?_ ?_ <;>
      simp [Balanced, own]
  · refine inv.swap ?_ ?_ ?_ ?_ ?_ ?_ <;> simp [Balanced]

end Steps
end Skynet.Server
