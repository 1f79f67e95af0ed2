import Skynet.Socket.BufferLists

/-! The account of the bytes that are queued, and the two lists, through sending and queueing. -/
namespace Skynet.SocketSlot

open Base List Function Option
open SocketServer (SocketType Priority WriteResult)

/-- The buffers of the two lists, and the account of a socket that is open. -/
structure Sound (s : Slot) (hi lo : List Nat) : Prop where
  high : Listed s.heap s.high hi
  low : Listed s.heap s.low lo
  apart : ∀ a ∈ hi, a ∉ lo
  few : hi.length + lo.length ≤ s.mallocs
  size : live s.type = true → s.wbSize = total s.heap hi + total s.heap lo
  bare : live s.type = false → hi = [] ∧ lo = []

def Accounted (s : Slot) : Prop := ∃ hi lo, Sound s hi lo

/- The faults of the lists do not occur; others are not the lists' matter. -/
abbrev Accounts (r : Except Fault Slot) : Prop := Yields (fun f => f.ofLists = false) Accounted r

variable {s : Slot} {hi lo : List Nat}

theorem Yields.never {A : Type} {P : A → Prop} {x : Except Fault A}
    (first : Yields (fun _ => False) P x) : Yields (fun f => f.ofLists = false) P x := by
  cases x with
  | error f => exact first.elim
  | ok a => exact first

theorem sound_clear (high : s.high = .clear) (low : s.low = .clear)
    (size : live s.type = true → s.wbSize = 0) : Sound s [] [] := by
  constructor
  · rw [high]
    exact listed_clear s.heap
  · rw [low]
    exact listed_clear s.heap
  · intro a member
    cases member
  · exact Nat.zero_le _
  · exact size
  · intro _
    exact ⟨rfl, rfl⟩

theorem accounts_forceClose (sound : Sound s hi lo) : Accounts (forceClose s) := by
  unfold forceClose
  apply Yields.ite
  · intro _
    exact ⟨hi, lo, sound⟩
  intro _
  apply Yields.ite
  · intro _
    rfl
  intro _
  have few := sound.few
  apply Yields.bind
    (Yields.never (freeWbList_spec s.mallocs s.heap s.high.head hi sound.high.toLinked (by omega)))
  intro heap same
  have low := sound.low.toLinked.frame fun a member =>
    same a fun other => sound.apart a other member
  apply Yields.bind (Yields.never (freeWbList_spec s.mallocs heap s.low.head lo low (by omega)))
  intro heap' _
  exact ⟨[], [], sound_clear rfl rfl (by intro h; cases h)⟩

/- For the account one list is as good as the other. -/
theorem Sound.swap (sound : Sound s hi lo) :
    Sound { s with high := s.low, low := s.high } lo hi where
  high := sound.low
  low := sound.high
  apart a member other := sound.apart a other member
  few := by
    have few := sound.few
    exact Nat.le_trans (by omega) few
  size alive := (sound.size alive).trans (add_comm _ _)
  bare dead := (sound.bare dead).symm

variable {q : Queue} {heap : Heap} {list : WbList} {script : List WriteResult} {place : Nat}
  {buf : WriteBuffer} {request : RequestSend} {answer : WriteResult}

theorem Sound.sendHigh {hi' : List Nat} (sound : Sound s hi lo)
    (drained : Drained ⟨s.heap, s.high, s.wbSize⟩ q hi hi') :
    Sound { s with heap := q.heap, high := q.list, wbSize := q.wbSize } hi' lo := by
  have same : ∀ a ∈ lo, q.heap a = s.heap a := fun a member =>
    drained.elsewhere a fun other => sound.apart a other member
  have within : ∀ a ∈ hi', a ∈ hi := fun a member => drained.suffix.subset member
  constructor
  · exact drained.listed
  · exact sound.low.frame same
  · intro a member
    exact sound.apart a (within a member)
  · have shorter := drained.suffix.length_le
    have few := sound.few
    exact Nat.le_trans (by omega) few
  · intro alive
    have size := sound.size alive
    have moved := drained.size
    dsimp only at moved ⊢
    rw [total_frame same]
    omega
  · intro dead
    obtain ⟨none', low⟩ := sound.bare dead
    cases none'
    exact ⟨suffix_nil.mp drained.suffix, low⟩

theorem Sound.sendLow {lo' : List Nat} (sound : Sound s hi lo)
    (drained : Drained ⟨s.heap, s.low, s.wbSize⟩ q lo lo') :
    Sound { s with heap := q.heap, low := q.list, wbSize := q.wbSize } hi lo' :=
  (sound.swap.sendHigh drained).swap

theorem listUncomplete_spec {l : List Nat} (listed : Listed heap list l) :
    Yields (fun f => f.ofLists = false) (fun uncomplete => uncomplete = true → list.head ≠ none)
      (listUncomplete heap list) := by
  unfold listUncomplete
  split
  · intro h
    cases h
  · rename_i wb first
    obtain ⟨w, here⟩ := listed.toLinked.head first
    rw [here]
    intro _
    rw [first]
    exact some_ne_none wb

theorem accounts_raiseUncomplete (sound : Sound s [] lo) (filled : s.low.head ≠ none) :
    Accounts (raiseUncomplete s) := by
  obtain ⟨tmp, first⟩ := ne_none_iff_exists'.mp filled
  obtain ⟨w, here⟩ := sound.low.toLinked.head first
  unfold raiseUncomplete
  simp only [first, here]
  have empty : s.high.head = none := sound.high.path
  rw [if_neg (not_not.mpr empty)]
  have linked := sound.low.toLinked
  rw [first] at linked
  obtain ⟨later, split, path⟩ := path_some linked.path
  cases split
  obtain ⟨absent, nodup⟩ := nodup_cons.mp linked.nodup
  have others : ∀ a ∈ later, update s.heap tmp (some { w with next := none }) a = s.heap a := by
    intro a member
    have other : a ≠ tmp := fun same => absent (same ▸ member)
    exact update_of_ne other ..
  have self : update s.heap tmp (some { w with next := none }) tmp =
      some { w with next := none } := update_self ..
  rw [nextOf, here, bind_some] at path
  refine ⟨[tmp], later, listed_single self rfl, ⟨Linked.frame ⟨path, ?_, nodup⟩ others, ?_⟩, ?_, ?_,
    ?_, ?_⟩
  · intro a member
    exact linked.allocated a (mem_cons_of_mem tmp member)
  · have tail := sound.low.tail
    change (if w.next = none then none else s.low.tail) = later.getLast?
    split
    · rename_i none'
      rw [none'] at path
      cases path_none path
      rfl
    · rename_i more
      have rest : later ≠ [] := by
        rintro rfl
        exact more path
      rw [tail, getLast?_cons_of_ne_nil rest]
  · intro a member
    rw [mem_singleton.mp member]
    exact absent
  · have few := sound.few
    simp only [length_nil, length_cons] at few ⊢
    omega
  · intro alive
    have size := sound.size alive
    have before : sizeOf s.heap tmp = w.sz := by rw [sizeOf, here]; rfl
    have after : sizeOf (update s.heap tmp (some { w with next := none })) tmp = w.sz := by
      rw [sizeOf, self]
      rfl
    rw [total_nil, total_cons, before] at size
    change s.wbSize = total (update s.heap tmp _) [tmp] + total _ later
    rw [total_cons, total_nil, after, total_frame others]
    omega
  · intro dead
    cases (sound.bare dead).2

theorem accounts_sendLow (sound : Sound s [] lo) :
    Accounts (sendLow s script) := by
  unfold SocketSlot.sendLow
  apply Yields.bind (Yields.never (sendList_spec s.protocol script sound.low))
  rintro sent ⟨lo', drained⟩
  have sending := sound.sendLow drained
  apply Yields.either
  · exact accounts_forceClose sending
  · apply Yields.bind (listUncomplete_spec sending.low)
    intro uncomplete filled
    apply Yields.ite
    · intro here
      exact accounts_raiseUncomplete sending (filled here)
    · intro _
      exact ⟨[], lo', sending⟩

section
variable (sound : Sound s hi lo)
include sound

/- The parts of a slot that the account does not depend on. -/
theorem Sound.writing (writing registered : Bool) (address : List UInt8) :
    Sound { s with writing := writing, registered := registered, udpAddress := address } hi lo :=
  ⟨sound.high, sound.low, sound.apart, sound.few, sound.size, sound.bare⟩

theorem accounts_checkClose : Accounts (checkClose s) := by
  have off := sound.writing false s.registered s.udpAddress
  unfold checkClose
  apply Yields.either
  · exact accounts_forceClose off
  · exact ⟨hi, lo, off⟩

theorem accounts_sendRest :
    Accounts (sendRest s script) := by
  unfold sendRest
  apply Yields.ite
  · intro empty
    have linked := sound.high.toLinked
    rw [empty] at linked
    cases linked.empty
    apply Yields.either
    · exact accounts_sendLow sound
    · exact accounts_checkClose sound
  · intro _
    exact ⟨hi, lo, sound⟩

theorem accounts_sendBuffer :
    Accounts (sendBuffer s script) := by
  unfold sendBuffer
  apply Yields.bind (listUncomplete_spec sound.low)
  intro uncomplete _
  apply Yields.either
  · rfl
  · apply Yields.bind (Yields.never (sendList_spec s.protocol script sound.high))
    rintro sent ⟨hi', drained⟩
    have sending := sound.sendHigh drained
    apply Yields.either
    · exact accounts_forceClose sending
    · exact accounts_sendRest sending

section
variable (alive : live s.type = true)
include alive

section
variable (unused : s.heap place = none)
include unused

/- A new buffer in one of the lists of a socket that is open. -/
theorem Sound.append {sz : Nat} (listed : Listed heap list (hi ++ [place]))
    (elsewhere : ∀ a, a ∉ hi ++ [place] → heap a = s.heap a)
    (sum : total heap (hi ++ [place]) = total s.heap hi + sz) :
    Sound { s with heap := heap, high := list, wbSize := s.wbSize + sz, mallocs := s.mallocs + 1 }
      (hi ++ [place]) lo := by
  have fresh : place ∉ lo := fun member => sound.low.allocated place member unused
  have outside : ∀ a ∈ lo, a ∉ hi ++ [place] := by
    intro a member other
    rcases mem_append.mp other with old | new
    · exact sound.apart a old member
    · exact fresh (mem_singleton.mp new ▸ member)
  have same : ∀ a ∈ lo, heap a = s.heap a := fun a member => elsewhere a (outside a member)
  refine ⟨listed, sound.low.frame same, ?_, ?_, ?_, ?_⟩
  · intro a member other
    exact outside a other member
  · have few := sound.few
    rw [length_append]
    exact Nat.le_trans (by simp; omega) (Nat.succ_le_succ few)
  · intro _
    have size := sound.size alive
    change s.wbSize + sz = total heap (hi ++ [place]) + total heap lo
    rw [sum, total_frame same]
    omega
  · intro dead
    rw [alive] at dead
    cases dead

theorem accounts_appendHigh (ends : buf.next = none) : Accounts (appendHigh s place buf) := by
  apply (Yields.never (appendSendbuffer_spec sound.high unused ends)).map
  rintro ⟨heap, list⟩ ⟨listed, elsewhere, sum⟩
  exact ⟨hi ++ [place], lo, sound.append alive unused listed elsewhere sum⟩

theorem accounts_appendLow (ends : buf.next = none) : Accounts (appendLow s place buf) := by
  apply (Yields.never (appendSendbuffer_spec sound.low unused ends)).map
  rintro ⟨heap, list⟩ ⟨listed, elsewhere, sum⟩
  exact ⟨hi, lo ++ [place], (sound.swap.append alive unused listed elsewhere sum).swap⟩

theorem accounts_appendSendbufferUdp {priority : Priority} {buffer udpAddress : List UInt8} :
    Accounts (appendSendbufferUdp s priority place buffer udpAddress) := by
  cases priority with
  | high => exact accounts_appendHigh sound alive unused rfl
  | low => exact accounts_appendLow sound alive unused rfl

end

end

end

theorem accounted_enableWrite (accounted : Accounted s) : Accounted (enableWrite s) := by
  obtain ⟨hi, lo, sound⟩ := accounted
  exact ⟨hi, lo, sound.writing true s.registered s.udpAddress⟩

section
variable (sound : Sound s hi lo)
include sound

section
variable (alive : live s.type = true)
include alive

section
variable (unused : s.heap request.place = none)
include unused

theorem accounts_sendDirect {n : Nat} : Accounts (sendDirect s request n) := by
  unfold sendDirect
  apply Yields.either
  · exact ⟨hi, lo, sound⟩
  · exact (accounts_appendHigh sound alive unused rfl).map fun _ => accounted_enableWrite

theorem accounts_sendTcp : Accounts (sendTcp s request answer) := by
  cases answer with
  | wrote _ | eintr | eagain => exact accounts_sendDirect sound alive unused
  | failed => exact accounts_forceClose sound

theorem accounts_sendUdp : Accounts (sendUdp s request answer) := by
  unfold sendUdp
  apply Yields.either
  · exact ⟨hi, lo, sound⟩
  · exact (accounts_appendSendbufferUdp sound alive unused).map fun _ => accounted_enableWrite

theorem accounts_sendQueued : Accounts (sendQueued s request) := by
  unfold sendQueued
  apply Yields.either
  · cases request.priority with
    | low => exact accounts_appendLow sound alive unused rfl
    | high => exact accounts_appendHigh sound alive unused rfl
  · exact accounts_appendSendbufferUdp sound alive unused

end

end

theorem accounts_sendSocket (opened : s.id = request.id → s.type ≠ .reserve)
    (unused : s.heap request.place = none) : Accounts (sendSocket s request answer) := by
  unfold sendSocket
  apply Yields.ite
  · intro _
    exact ⟨hi, lo, sound⟩
  intro first
  apply Yields.ite
  · intro _
    exact ⟨hi, lo, sound⟩
  intro _
  push Not at first
  have alive : live s.type = true := decide_eq_true ⟨first.1, opened first.2.1⟩
  apply Yields.either
  · apply Yields.ite
    · intro _
      exact accounts_sendTcp sound alive unused
    · intro _
      exact accounts_sendUdp sound alive unused
  · exact accounts_sendQueued sound alive unused

end

end Skynet.SocketSlot
