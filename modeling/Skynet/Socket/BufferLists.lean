import Skynet.Socket.Slot
import Skynet.Base.Outcome

/-! The linked lists of write buffers: what appending, sending and freeing make of them. -/
namespace Skynet.SocketSlot

open Base List Function Option
open SocketServer (WriteResult)

variable {heap heap' : Heap} {list : WbList} {l : List Nat} {a : Nat}

def nextOf (heap : Heap) (a : Nat) : Option Nat := (heap a).bind (·.next)

def sizeOf (heap : Heap) (a : Nat) : Nat := (heap a).elim 0 (·.sz)

/-- The bytes that are left in the buffers of a list. -/
def total (heap : Heap) (l : List Nat) : Int := (l.map fun a => (sizeOf heap a : Int)).sum

/-- The head pointer leads through exactly these buffers, all of them allocated. -/
structure Linked (heap : Heap) (p : Option Nat) (l : List Nat) : Prop where
  path : Path (nextOf heap) p l
  allocated : ∀ a ∈ l, heap a ≠ none
  nodup : l.Nodup

/-- A list as it is between two calls: the tail pointer is its last buffer. -/
structure Listed (heap : Heap) (list : WbList) (l : List Nat) : Prop extends
    Linked heap list.head l where
  tail : list.tail = l.getLast?

theorem total_nil (heap : Heap) : total heap [] = 0 := rfl

theorem total_cons (heap : Heap) (a : Nat) (l : List Nat) :
    total heap (a :: l) = sizeOf heap a + total heap l := by
  simp [total]

theorem total_append (heap : Heap) (l later : List Nat) :
    total heap (l ++ later) = total heap l + total heap later := by
  simp [total]

theorem total_congr (same : ∀ a ∈ l, sizeOf heap' a = sizeOf heap a) :
    total heap' l = total heap l := by
  unfold total
  congr 1
  apply map_congr_left
  intro a member
  rw [same a member]

variable {p : Option Nat} {w buf : WriteBuffer} {q : Queue} {place : Nat}

theorem Linked.same_next (linked : Linked heap p l) (next : ∀ a ∈ l, nextOf heap' a = nextOf heap a)
    (allocated : ∀ a ∈ l, heap' a ≠ none) :
    Linked heap' p l :=
  ⟨path_congr next linked.path, allocated, linked.nodup⟩

theorem Linked.frame (linked : Linked heap p l) (same : ∀ a ∈ l, heap' a = heap a) :
    Linked heap' p l := by
  apply linked.same_next
  · intro a member
    rw [nextOf, nextOf, same a member]
  · intro a member
    rw [same a member]
    exact linked.allocated a member

theorem Linked.modify {w' : WriteBuffer} (linked : Linked heap p l) (here : heap a = some w)
    (next : w'.next = w.next) :
    Linked (update heap a (some w')) p l := by
  have self : update heap a (some w') a = some w' := update_self ..
  have others : ∀ b ≠ a, update heap a (some w') b = heap b := fun b other => update_of_ne other ..
  apply linked.same_next
  · intro b _
    by_cases same : b = a
    · rw [same, nextOf, nextOf, self, here]
      exact next
    · rw [nextOf, nextOf, others b same]
  · intro b member
    by_cases same : b = a
    · rw [same, self]
      exact some_ne_none w'
    · rw [others b same]
      exact linked.allocated b member

theorem Listed.frame (listed : Listed heap list l) (same : ∀ a ∈ l, heap' a = heap a) :
    Listed heap' list l :=
  ⟨listed.toLinked.frame same, listed.tail⟩

theorem total_frame (same : ∀ a ∈ l, heap' a = heap a) : total heap' l = total heap l := by
  apply total_congr
  intro a member
  rw [sizeOf, sizeOf, same a member]

theorem listed_clear (heap : Heap) : Listed heap .clear [] :=
  ⟨⟨rfl, fun _ member => absurd member not_mem_nil, nodup_nil⟩, rfl⟩

theorem Linked.free (linked : Linked heap (some a) l) (here : heap a = some w) :
    ∃ later, l = a :: later ∧ Linked (update heap a none) w.next later := by
  obtain ⟨later, split, path⟩ := path_some linked.path
  cases split
  obtain ⟨absent, nodup⟩ := nodup_cons.mp linked.nodup
  rw [nextOf, here] at path
  have rest : Linked heap w.next later :=
    ⟨path, fun b member => linked.allocated b (mem_cons_of_mem a member), nodup⟩
  refine ⟨later, rfl, rest.frame ?_⟩
  intro b member
  have other : b ≠ a := fun same => absent (same ▸ member)
  exact update_of_ne other ..

theorem Linked.head (linked : Linked heap p l) (some' : p = some a) :
    ∃ w, heap a = some w := by
  cases some'
  obtain ⟨later, split, -⟩ := path_some linked.path
  cases split
  exact ne_none_iff_exists'.mp (linked.allocated a (mem_cons_self ..))

theorem Linked.empty (linked : Linked heap none l) : l = [] := path_none linked.path

theorem freeWbList_spec (fuel : Nat) (heap : Heap) (p : Option Nat) (l : List Nat)
    (linked : Linked heap p l) (enough : l.length ≤ fuel) :
    Yields (fun _ => False) (fun heap' => ∀ a ∉ l, heap' a = heap a) (freeWbList fuel heap p) := by
  induction fuel generalizing heap p l with
  | zero =>
    have empty : l = [] := length_eq_zero_iff.mp (Nat.le_zero.mp enough)
    cases empty
    cases linked.path
    intro _ _
    rfl
  | succ fuel ih =>
    cases p with
    | none =>
      intro _ _
      rfl
    | some wb =>
      obtain ⟨w, here⟩ := linked.head rfl
      obtain ⟨later, split, rest⟩ := linked.free here
      cases split
      rw [freeWbList, here]
      apply (ih _ _ later rest (Nat.le_of_succ_le_succ enough)).mono
      intro heap' same b absent
      rw [mem_cons, not_or] at absent
      rw [same b absent.2, update_of_ne absent.1]

/-- A list that is being sent: once it is empty, the tail pointer no longer means anything. -/
structure Draining (q : Queue) (l : List Nat) : Prop extends Linked q.heap q.list.head l where
  tail : l ≠ [] → q.list.tail = l.getLast?

/-- What sending has made of a list: it is a list again, no buffer outside it was touched, and the
account changed by what its buffers have less. -/
structure Drained (q q' : Queue) (l l' : List Nat) : Prop where
  listed : Listed q'.heap q'.list l'
  suffix : l' <:+ l
  elsewhere : ∀ a ∉ l, q'.heap a = q.heap a
  size : q'.wbSize - total q'.heap l' = q.wbSize - total q.heap l

theorem Listed.draining (listed : Listed q.heap q.list l) : Draining q l :=
  ⟨listed.toLinked, fun _ => listed.tail⟩

theorem Draining.stop (draining : Draining q l) (first : q.list.head = some a) :
    Drained q q l l := by
  have filled : l ≠ [] := by
    rintro rfl
    cases first.symm.trans draining.path
  exact ⟨⟨draining.toLinked, draining.tail filled⟩, suffix_rfl, fun _ _ => rfl, rfl⟩

theorem Draining.finish (draining : Draining q l) (none' : q.list.head = none) :
    Drained q { q with list := ⟨none, none⟩ } l [] := by
  have linked := draining.toLinked
  rw [none'] at linked
  cases linked.empty
  exact ⟨listed_clear q.heap, suffix_rfl, fun _ _ => rfl, rfl⟩

theorem Draining.pop (draining : Draining q l) (first : q.list.head = some a)
    (here : q.heap a = some w) :
    ∃ later, l = a :: later ∧
      Draining ⟨update q.heap a none, ⟨w.next, q.list.tail⟩, q.wbSize - w.sz⟩ later ∧
      total q.heap l = w.sz + total (update q.heap a none) later := by
  have linked := draining.toLinked
  rw [first] at linked
  obtain ⟨later, split, rest⟩ := linked.free here
  cases split
  refine ⟨later, rfl, ⟨rest, ?_⟩, ?_⟩
  · intro filled
    have last := draining.tail (cons_ne_nil a later)
    rw [getLast?_cons_of_ne_nil filled] at last
    exact last
  · rw [total_cons, sizeOf, here]
    congr 1
    symm
    apply total_frame
    intro b member
    have other : b ≠ a := fun same => (nodup_cons.mp linked.nodup).1 (same ▸ member)
    exact update_of_ne other ..

theorem Drained.after {next q' : Queue} {later l' : List Nat} (drained : Drained next q' later l')
    (heap : next.heap = update q.heap a none) (size : next.wbSize = q.wbSize - w.sz)
    (sum : total q.heap (a :: later) = w.sz + total (update q.heap a none) later) :
    Drained q q' (a :: later) l' := by
  refine ⟨drained.listed, drained.suffix.trans (suffix_cons a later), ?_, ?_⟩
  · intro b absent
    rw [mem_cons, not_or] at absent
    rw [drained.elsewhere b absent.2, heap, update_of_ne absent.1]
  · rw [drained.size, heap, size, sum]
    omega

theorem Draining.shrink {sz : Nat} (draining : Draining q l) (first : q.list.head = some a)
    (here : q.heap a = some w) (part : sz ≤ w.sz) :
    let w' := { w with ptr := w.ptr + sz, sz := w.sz - sz }
    Drained q ⟨update q.heap a (some w'), q.list, q.wbSize - sz⟩ l l := by
  intro w'
  obtain ⟨later, split, -⟩ := draining.pop first here
  cases split
  obtain ⟨absent, -⟩ := nodup_cons.mp draining.nodup
  have others : ∀ b ≠ a, update q.heap a (some w') b = q.heap b :=
    fun b other => update_of_ne other ..
  have self : update q.heap a (some w') a = some w' := update_self ..
  refine ⟨⟨draining.toLinked.modify here rfl, draining.tail (cons_ne_nil a later)⟩,
    suffix_rfl, ?_, ?_⟩
  · intro b outside
    exact others b fun same => outside (same ▸ mem_cons_self ..)
  · have rest : total (update q.heap a (some w')) later = total q.heap later := by
      apply total_frame
      intro b member
      exact others b fun same => absent (same ▸ member)
    have before : sizeOf q.heap a = w.sz := by rw [sizeOf, here]; rfl
    have after : sizeOf (update q.heap a (some w')) a = w.sz - sz := by
      rw [sizeOf, self]
      rfl
    change q.wbSize - sz - total (update q.heap a (some w')) (a :: later) = _
    rw [total_cons, total_cons, rest, before, after]
    omega

/- By induction on the answers: a call that was interrupted is made again. -/
theorem sendListTcp_spec (script : List WriteResult) (q : Queue) (l : List Nat)
    (draining : Draining q l) :
    Yields (fun _ => False) (fun sent => ∃ l', Drained q sent.queue l l')
      (sendListTcp script q) := by
  fun_induction sendListTcp script q generalizing l with
  | case1 script q none' => exact ⟨[], draining.finish none'⟩
  | case2 script q tmp first freed =>
    obtain ⟨w, here⟩ := draining.head first
    cases freed.symm.trans here
  | case3 _ _ first | case5 _ _ first | case6 _ _ first => exact ⟨l, draining.stop first⟩
  | case4 q tmp first w here script ih => exact ih l draining
  | case7 q tmp first w here n =>
    exact ⟨l, draining.shrink first here (Nat.min_le_right n w.sz)⟩
  | case8 q tmp first w here n script sz whole ih =>
    obtain ⟨later, split, rest, sum⟩ := draining.pop first here
    cases split
    rw [not_not.mp whole] at ih ⊢
    apply (ih _ rest).mono
    rintro sent ⟨l', drained⟩
    exact ⟨l', drained.after rfl rfl sum⟩

theorem sendListUdp_spec (protocol : Protocol) (script : List WriteResult) (q : Queue)
    (l : List Nat) (draining : Draining q l) :
    Yields (fun _ => False) (fun sent => ∃ l', Drained q sent.queue l l')
      (sendListUdp protocol script q) := by
  fun_induction sendListUdp protocol script q generalizing l with
  | case1 script q none' => exact ⟨[], draining.finish none'⟩
  | case2 script q tmp first freed =>
    obtain ⟨w, here⟩ := draining.head first
    cases freed.symm.trans here
  | case3 _ _ first | case4 _ _ first | case5 _ _ first | case6 _ _ first =>
    exact ⟨l, draining.stop first⟩
  | case7 q tmp first w here call n script ih =>
    obtain ⟨later, split, rest, sum⟩ := draining.pop first here
    cases split
    apply (ih _ rest).map
    rintro sent ⟨l', drained⟩
    exact ⟨l', drained.after rfl rfl sum⟩

theorem sendList_spec (protocol : Protocol) (script : List WriteResult)
    (listed : Listed q.heap q.list l) :
    Yields (fun _ => False) (fun sent => ∃ l', Drained q sent.queue l l')
      (sendList protocol script q) := by
  unfold sendList
  apply Yields.either
  · exact sendListTcp_spec script q l listed.draining
  · apply (sendListUdp_spec protocol script q l listed.draining).map
    intro sent drained
    exact drained

theorem listed_single (here : heap a = some buf) (ends : buf.next = none) :
    Listed heap ⟨some a, some a⟩ [a] := by
  refine ⟨⟨⟨rfl, ?_⟩, ?_, nodup_singleton a⟩, rfl⟩
  · rw [nextOf, here]
    exact ends
  · intro b member
    rw [mem_singleton.mp member, here]
    exact some_ne_none buf

theorem Listed.link {before : List Nat} {final : Nat}
    (listed : Listed heap list (before ++ [final])) (here : heap place = some buf)
    (ends : buf.next = none) (absent : place ∉ before ++ [final]) :
    Listed (update heap final (some { w with next := some place }))
      ⟨list.head, some place⟩ (before ++ [final] ++ [place]) := by
  have apart : final ≠ place := fun same => absent (same ▸ by simp)
  have next : nextOf (update heap final (some { w with next := some place })) =
      update (nextOf heap) final (some place) := by
    funext b
    by_cases same : b = final
    · rw [same, nextOf, update_self, update_self]
      rfl
    · rw [nextOf, update_of_ne same, update_of_ne same]
      rfl
  have single := listed_single here ends
  refine ⟨⟨?_, ?_, ?_⟩, ?_⟩
  · rw [next, append_assoc]
    exact path_link listed.nodup listed.path (by simpa using apart) single.path
  · intro b member
    by_cases same : b = final
    · rw [same, update_self]
      exact some_ne_none _
    · rw [update_of_ne same]
      rcases mem_append.mp member with old | new
      · exact listed.allocated b old
      · exact single.allocated b new
  · exact nodup_append.mpr ⟨listed.nodup, single.nodup, fun b old c new same =>
      absent (mem_singleton.mp new ▸ same ▸ old)⟩
  · rw [getLast?_concat]

theorem appendSendbuffer_spec (listed : Listed heap list l) (unused : heap place = none)
    (ends : buf.next = none) :
    Yields (fun _ => False)
      (fun made => Listed made.1 made.2 (l ++ [place]) ∧
        (∀ b ∉ l ++ [place], made.1 b = heap b) ∧
        total made.1 (l ++ [place]) = total heap l + buf.sz)
      (appendSendbuffer_ heap list place buf) := by
  have absent : place ∉ l := fun member => listed.allocated place member unused
  have others : ∀ b ≠ place, update heap place (some buf) b = heap b :=
    fun b other => update_of_ne other ..
  have self : update heap place (some buf) place = some buf := update_self ..
  have old : ∀ b ∈ l, update heap place (some buf) b = heap b :=
    fun b member => others b fun same => absent (same ▸ member)
  have sum : total (update heap place (some buf)) (l ++ [place]) = total heap l + buf.sz := by
    rw [total_append, total_frame old, total_cons, total_nil, sizeOf, self]
    simp
  unfold appendSendbuffer_
  apply Yields.ite
  · intro none'
    have linked := listed.toLinked
    rw [none'] at linked
    cases linked.empty
    refine ⟨listed_single self ends, ?_, sum⟩
    intro b outside
    exact others b fun same => outside (same ▸ mem_singleton_self place)
  · intro filled
    have last : ∃ before final, l = before ++ [final] := by
      rcases eq_nil_or_concat l with empty | ⟨before, final, split⟩
      · cases empty
        exact absurd listed.path filled
      · exact ⟨before, final, by simpa using split⟩
    obtain ⟨before, final, rfl⟩ := last
    have tail : list.tail = some final := by
      rw [listed.tail, getLast?_concat]
    have member : final ∈ before ++ [final] := by simp
    obtain ⟨w, here⟩ := ne_none_iff_exists'.mp (listed.allocated final member)
    have there : update heap place (some buf) final = some w := by
      rw [old final member, here]
    have free : w.next = none := by
      have ended := path_last listed.path
      rw [nextOf, here] at ended
      exact ended
    simp only [tail, there]
    apply Yields.ite
    · intro linked
      exact absurd free linked
    · intro _
      refine ⟨(listed.frame old).link self ends absent, ?_, Eq.trans (total_congr ?_) sum⟩
      · intro b outside
        rw [mem_append, not_or] at outside
        have other : b ≠ final := fun same => outside.1 (same ▸ member)
        exact (update_of_ne other ..).trans
          (others b fun same => outside.2 (same ▸ mem_singleton_self place))
      · intro b _
        unfold sizeOf
        dsimp only
        by_cases same : b = final
        · rw [same, update_self, there]
          rfl
        · rw [update_of_ne same]

end Skynet.SocketSlot
