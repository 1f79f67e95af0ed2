import Skynet.Socket.Tcp

/-! The order of the bytes on a TCP socket. Both lists together are read as one queue of
which only the first buffer may have been begun; sending a list takes buffers off its
front, and the requests begun are recorded in the order they were begun. -/
namespace Skynet.SocketServer
open Base List

def bytes (l : List RequestSend) : List UInt8 := (l.map (·.buffer)).flatten

def unsent (b : WriteBuffer) : List UInt8 := b.request.buffer.drop b.ptr

/- The requests that no byte was written of, and the bytes owed by one that was begun. -/
def waiting (l : List WriteBuffer) : List RequestSend :=
  (l.filter (fun b => b.ptr = 0)).map (·.request)

def owed : List WriteBuffer → List UInt8
  | [] => []
  | b :: _ => if b.ptr = 0 then [] else unsent b

/-- The queue `l` holds what is left of the requests begun in this order, and all others. -/
structure Tracks (l : List WriteBuffer) (out : List UInt8) (sent order : List RequestSend) :
    Prop where
  valid : ∀ b ∈ l, b.ptr + b.sz = b.request.buffer.length
  fresh : ∀ b ∈ l.tail, b.ptr = 0
  out : out ++ owed l = bytes order
  current : ∀ b rest, l = b :: rest → b.ptr ≠ 0 → ∃ earlier, order = earlier ++ [b.request]
  pending : ∀ p, sent.filter (fun r => r.priority = p) =
    (order ++ waiting l).filter (fun r => r.priority = p)

section Tracks
variable {l : List WriteBuffer} {out : List UInt8} {sent order : List RequestSend} {b : WriteBuffer}

theorem bytes_append (l l' : List RequestSend) : bytes (l ++ l') = bytes l ++ bytes l' := by
  simp [bytes]

theorem owed_fresh (fresh : ∀ b ∈ l, b.ptr = 0) : owed l = [] := by
  cases l with
  | nil => rfl
  | cons b l => simp [owed, fresh b (mem_cons_self ..)]

/- What the first buffer still owes completes the requests begun with it. -/
theorem Tracks.begun (h : Tracks (b :: l) out sent order) :
    out ++ unsent b = bytes (order ++ waiting [b]) := by
  have known := h.out
  by_cases zero : b.ptr = 0
  · simp only [owed, zero, if_true, append_nil] at known
    simp [waiting, unsent, zero, bytes, known]
  · simp only [owed, zero, if_false] at known
    simp [waiting, zero, known]

theorem waiting_cons (b : WriteBuffer) (l : List WriteBuffer) :
    waiting (b :: l) = waiting [b] ++ waiting l := by
  by_cases zero : b.ptr = 0 <;> simp [waiting, zero]

theorem Tracks.finish (h : Tracks (b :: l) out sent order) :
    Tracks l (out ++ unsent b) sent (order ++ waiting [b]) := by
  have fresh : ∀ b ∈ l, b.ptr = 0 := h.fresh
  refine ⟨fun b' member => h.valid b' (mem_cons_of_mem b member),
    fun b' member => fresh b' (mem_of_mem_tail member), ?_, ?_, ?_⟩
  · rw [owed_fresh fresh, append_nil, h.begun]
  · rintro b' rest rfl begun
    exact absurd (fresh b' (mem_cons_self ..)) begun
  · intro p
    rw [h.pending p, waiting_cons, append_assoc]

theorem Tracks.advance (h : Tracks (b :: l) out sent order) {n : Nat} (positive : 0 < n)
    (less : n < b.sz) :
    Tracks ({ b with ptr := b.ptr + n, sz := b.sz - n } :: l) (out ++ (unsent b).take n) sent
      (order ++ waiting [b]) := by
  have valid := h.valid b (mem_cons_self ..)
  refine ⟨?_, h.fresh, ?_, ?_, ?_⟩
  · intro b' member
    rcases mem_cons.mp member with rfl | old
    · dsimp only
      omega
    · exact h.valid b' (mem_cons_of_mem b old)
  · have begun : b.ptr + n ≠ 0 := by omega
    simp only [owed, begun, if_false]
    rw [← h.begun, append_assoc]
    simp only [unsent, ← drop_drop, take_append_drop]
  · rintro b' rest eq -
    cases eq
    by_cases zero : b.ptr = 0
    · exact ⟨order, by simp [waiting, zero]⟩
    · obtain ⟨earlier, known⟩ := h.current b l rfl zero
      exact ⟨earlier, by simp [waiting, zero, known]⟩
  · intro p
    have begun : b.ptr + n ≠ 0 := by omega
    have rest : waiting ({ b with ptr := b.ptr + n, sz := b.sz - n } :: l) = waiting l := by
      simp only [waiting, begun, decide_false, Bool.false_eq_true, not_false_eq_true,
        filter_cons_of_neg]
    rw [h.pending p, waiting_cons, rest, append_assoc]

theorem offered_eq (valid : b.ptr + b.sz = b.request.buffer.length) : offered b = unsent b := by
  unfold offered unsent
  exact take_of_length_le (by rw [length_drop]; omega)

theorem Tracks.send (script : List WriteResult) {front : List WriteBuffer}
    (h : Tracks (front ++ l) out sent order) :
    ∃ order', Tracks ((sendListTcp script front).list ++ l)
      (out ++ (sendListTcp script front).written) sent order' := by
  induction script, front using sendListTcp.induct generalizing out order with
  | case1 _ | case2 _ _ | case4 _ _ _ | case5 _ _ _ =>
    exact ⟨order, by simpa [sendListTcp] using h⟩
  | case3 front filled script ih => simpa [sendListTcp] using ih h
  | case6 n script tmp front sz =>
    rename_i short
    have valid := h.valid tmp (mem_cons_self ..)
    simp only [sendListTcp, offered_eq valid]
    rw [if_pos short]
    by_cases zero : min n tmp.sz = 0
    · exact ⟨order, by simpa [zero] using h⟩
    · exact ⟨_, h.advance (Nat.pos_of_ne_zero zero) (by omega)⟩
  | case7 n script tmp front sz whole =>
    rename_i ih
    have valid := h.valid tmp (mem_cons_self ..)
    have all : min n tmp.sz = tmp.sz := by omega
    have written : (offered tmp).take tmp.sz = unsent tmp := by
      rw [offered_eq valid]
      exact take_of_length_le (by rw [unsent, length_drop]; omega)
    obtain ⟨order', sent⟩ := ih h.finish
    refine ⟨order', ?_⟩
    simpa only [sendListTcp, all, ne_eq, not_true, if_false, written, append_assoc] using sent

theorem sendListTcp_suffix (script : List WriteResult) (list : List WriteBuffer) :
    (sendListTcp script list).list.map (·.request) <:+ list.map (·.request) := by
  induction script, list using sendListTcp.induct with
  | case1 _ | case2 _ _ | case4 _ _ _ | case5 _ _ _ => simp [sendListTcp]
  | case3 list filled script ih => simpa [sendListTcp] using ih
  | case6 n script tmp list sz =>
    rename_i short
    simp only [sendListTcp]
    rw [if_pos short]
    exact suffix_refl _
  | case7 n script tmp list sz whole =>
    rename_i ih
    simp only [sendListTcp]
    rw [if_neg whole]
    exact ih.trans (suffix_cons ..)

/- A request goes before buffers none of which is begun or has its priority. -/
theorem Tracks.insert {front back : List WriteBuffer} (h : Tracks (front ++ back) out sent order)
    (request : RequestSend) (fresh : ∀ b ∈ back, b.ptr = 0)
    (other : ∀ b ∈ back, b.request.priority ≠ request.priority) :
    Tracks (front ++ writeBuffer request 0 :: back) out (sent ++ [request]) order := by
  refine ⟨?_, ?_, ?_, ?_, ?_⟩
  · intro b member
    rcases mem_append.mp member with before | later
    · exact h.valid b (mem_append_left back before)
    · rcases mem_cons.mp later with rfl | later
      · simp [writeBuffer]
      · exact h.valid b (mem_append_right front later)
  · intro b member
    cases front with
    | nil => exact fresh b member
    | cons a front =>
      rcases mem_append.mp member with before | later
      · exact h.fresh b (mem_append_left back before)
      · rcases mem_cons.mp later with rfl | later
        · rfl
        · exact fresh b later
  · have known := h.out
    cases front with
    | nil =>
      rw [nil_append, owed_fresh fresh] at known
      simpa [owed, writeBuffer] using known
    | cons a front => simpa only [cons_append, owed] using known
  · intro b rest eq begun
    cases front with
    | nil =>
      obtain ⟨rfl, -⟩ := List.cons.inj eq
      exact absurd rfl begun
    | cons a front =>
      obtain ⟨rfl, -⟩ := List.cons.inj eq
      exact h.current a (front ++ back) rfl begun
  · intro p
    have added : waiting (front ++ writeBuffer request 0 :: back) =
        waiting front ++ request :: waiting back := by
      simp [waiting, writeBuffer]
    have split : waiting (front ++ back) = waiting front ++ waiting back := by
      simp [waiting]
    rw [filter_append, h.pending p, added, split]
    by_cases same : request.priority = p
    · have none : (waiting back).filter (fun r => r.priority = p) = [] := by
        refine filter_eq_nil_iff.mpr fun r member => ?_
        obtain ⟨b, inside, rfl⟩ := mem_map.mp member
        simpa [← same] using other b (mem_filter.mp inside).1
      simp [filter_append, same, none]
    · simp [filter_append, same]

theorem Tracks.append (h : Tracks l out sent order) (request : RequestSend) :
    Tracks (l ++ [writeBuffer request 0]) out (sent ++ [request]) order :=
  Tracks.insert ((append_nil l).symm ▸ h) request nofun nofun

end Tracks

/-- The bytes are those of whole requests, of which the last may be cut; the requests of
either priority stand as they were made, and none stands twice. -/
def InOrder (out : List UInt8) (sent : List RequestSend) : Prop :=
  ∃ whole part cut, part.length ≤ 1 ∧ out = bytes whole ++ cut ∧ cut <+: bytes part ∧
    (whole ++ part).Nodup ∧
    ∀ p, (whole ++ part).filter (fun r => r.priority = p) <+: sent.filter (fun r => r.priority = p)

theorem nodup_of_priorities {order sent : List RequestSend} (distinct : sent.Nodup)
    (ordered : ∀ p, order.filter (fun r => r.priority = p) <+:
      sent.filter (fun r => r.priority = p)) : order.Nodup := by
  rw [nodup_iff_count_le_one] at distinct ⊢
  intro r
  calc order.count r = (order.filter (fun x => x.priority = r.priority)).count r := by
        rw [count_filter (by simp)]
    _ ≤ (sent.filter (fun x => x.priority = r.priority)).count r :=
        (ordered r.priority).sublist.count_le r
    _ = sent.count r := by rw [count_filter (by simp)]
    _ ≤ 1 := distinct r

theorem Tracks.inOrder {l : List WriteBuffer} {out : List UInt8} {sent order : List RequestSend}
    (h : Tracks l out sent order) (distinct : sent.Nodup) : InOrder out sent := by
  have ordered : ∀ p, order.filter (fun r => r.priority = p) <+:
      sent.filter (fun r => r.priority = p) := by
    intro p
    rw [h.pending p, filter_append]
    exact prefix_append ..
  have nodup := nodup_of_priorities distinct ordered
  by_cases cut : ∃ b rest, l = b :: rest ∧ b.ptr ≠ 0
  · obtain ⟨b, rest, rfl, begun⟩ := cut
    obtain ⟨whole, rfl⟩ := h.current b rest rfl begun
    refine ⟨whole, [b.request], b.request.buffer.take b.ptr, le_refl 1, ?_, ?_, nodup, ordered⟩
    · have known := h.out
      simp only [owed, begun, if_false, bytes_append] at known
      have cut : bytes [b.request] = b.request.buffer.take b.ptr ++ unsent b := by
        simp [bytes, unsent]
      rw [cut, ← append_assoc] at known
      exact append_cancel_right known
    · simpa [bytes] using take_prefix b.ptr b.request.buffer
  · have nothing : owed l = [] := by
      cases l with
      | nil => rfl
      | cons b l =>
        by_cases zero : b.ptr = 0
        · simp [owed, zero]
        · exact absurd ⟨b, l, rfl, zero⟩ cut
    refine ⟨order, [], [], Nat.zero_le 1, ?_, nil_prefix, by simpa using nodup,
      by simpa using ordered⟩
    have known := h.out
    rwa [nothing, append_nil, ← append_nil (bytes order)] at known

end Skynet.SocketServer
