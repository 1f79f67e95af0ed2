import Skynet.Socket.BufferLists

/-! Which of the queued packets one call of send_list_udp attempts. -/
namespace Skynet.SocketSlot

open Base List Function
open SocketServer (WriteResult)

/-- The calls of sendto that a list of packets asks for, in order. -/
def datagrams (protocol : Protocol) (heap : Heap) (l : List Nat) : List Datagram :=
  (l.filterMap heap).map (WriteBuffer.datagram protocol)

/- An answer that is not to be tried again later. -/
def settled (answer : WriteResult) : Prop := answer ≠ .eintr ∧ answer ≠ .eagain

theorem datagrams_cons {protocol : Protocol} {heap : Heap} {a : Nat} {l : List Nat}
    {w : WriteBuffer} (here : heap a = some w) (absent : a ∉ l) :
    datagrams protocol heap (a :: l) =
      w.datagram protocol :: datagrams protocol (Function.update heap a none) l := by
  have same : l.filterMap (update heap a none) = l.filterMap heap := by
    apply filterMap_congr
    intro b member
    have other : b ≠ a := fun same => absent (same ▸ member)
    exact update_of_ne other ..
  rw [datagrams, datagrams, filterMap_cons_some here, same, map_cons]

theorem sendListUdp_calls (protocol : Protocol) (script : List WriteResult) (q : Queue)
    (l : List Nat) (draining : Draining q l) (answers : l.length ≤ script.length)
    (final : ∀ answer ∈ script.take l.length, settled answer) :
    ∃ sent, sendListUdp protocol script q = .ok sent ∧
      ((sent.calls = datagrams protocol q.heap l ∧ sent.queue.list.head = none) ↔
        ∀ answer ∈ script.take l.length, answer ≠ .failed) := by
  induction l generalizing script q with
  | nil =>
    have none' : q.list.head = none := draining.path
    refine ⟨⟨{ q with list := ⟨none, none⟩ }, script, []⟩, ?_, ?_⟩
    · unfold sendListUdp
      rw [none']
    · simp [datagrams]
  | cons a l ih =>
    cases script with
    | nil => cases answers
    | cons answer script =>
      have first : q.list.head = some a := draining.path.1
      obtain ⟨w, here⟩ := draining.head first
      have now := final answer (by simp)
      cases answer with
      | eintr => exact absurd rfl now.1
      | eagain => exact absurd rfl now.2
      | failed =>
        refine ⟨⟨q, script, [w.datagram protocol]⟩, ?_, ?_⟩
        · unfold sendListUdp
          simp only [first, here]
        · constructor
          · rintro ⟨-, empty⟩
            rw [first] at empty
            cases empty
          · intro fine
            exact absurd rfl (fine .failed (by simp))
      | wrote n =>
        obtain ⟨later, split, rest, -⟩ := draining.pop first here
        cases split
        obtain ⟨sent, taken, calls⟩ := ih script _ rest (Nat.le_of_succ_le_succ answers)
          fun answer member => final answer (by simp [member])
        have absent := (nodup_cons.mp draining.nodup).1
        refine ⟨{ sent with calls := w.datagram protocol :: sent.calls }, ?_, ?_⟩
        · unfold sendListUdp
          simp only [first, here, taken]
          rfl
        · rw [datagrams_cons here absent, List.cons.injEq, and_iff_right rfl]
          refine calls.trans ?_
          simp

/-- One call attempts every queued packet and leaves the list empty if and only if no packet runs
into an error that stays. -/
theorem udp_packets_all_attempted_iff (protocol : Protocol) (script : List WriteResult) (q : Queue)
    (l : List Nat) (listed : Listed q.heap q.list l) (answers : l.length ≤ script.length)
    (final : ∀ answer ∈ script.take l.length, settled answer) :
    (∃ sent, sendListUdp protocol script q = .ok sent ∧
      sent.calls = datagrams protocol q.heap l ∧ sent.queue.list.head = none) ↔
      ∀ answer ∈ script.take l.length, answer ≠ .failed := by
  obtain ⟨sent, taken, calls⟩ := sendListUdp_calls protocol script q l listed.draining answers final
  rw [← calls, taken]
  constructor
  · rintro ⟨other, same, all⟩
    cases same
    exact all
  · intro all
    exact ⟨sent, rfl, all⟩

def packet (next : Option Nat) (byte : UInt8) : WriteBuffer :=
  ⟨next, [byte], 0, 1, [1, 31, 144, 127, 0, 0, 1]⟩

def twoPackets : Queue :=
  ⟨fun a =>
      if a = 0 then some (packet (some 1) 7) else if a = 1 then some (packet none 8) else none,
    ⟨some 0, some 1⟩, 2⟩

theorem twoPackets_listed : Listed twoPackets.heap twoPackets.list [0, 1] := by
  refine ⟨⟨⟨rfl, rfl, rfl⟩, ?_, by decide⟩, rfl⟩
  intro a member
  rcases mem_cons.mp member with rfl | later
  · exact Option.some_ne_none _
  · cases mem_singleton.mp later
    exact Option.some_ne_none _

theorem udp_packets_both_sent :
    ∃ sent, sendListUdp .udp [.wrote 1, .wrote 1] twoPackets = .ok sent ∧
      sent.calls = datagrams .udp twoPackets.heap [0, 1] ∧ sent.queue.list.head = none :=
  (udp_packets_all_attempted_iff .udp [.wrote 1, .wrote 1] twoPackets [0, 1] twoPackets_listed
    (by decide) (by simp [settled])).mpr (by simp)

/- The first packet cannot be sent, the second one could be: it is not attempted. -/
theorem udp_packet_blocked :
    Listed twoPackets.heap twoPackets.list [0, 1] ∧
      ∃ sent, sendListUdp .udp [.failed, .wrote 1] twoPackets = .ok sent ∧
        sent.calls = datagrams .udp twoPackets.heap [0] ∧ sent.queue.list.head = some 0 :=
  ⟨twoPackets_listed, _, rfl, rfl, rfl⟩

end Skynet.SocketSlot
