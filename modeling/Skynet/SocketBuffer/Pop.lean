import Skynet.SocketBuffer.Lists

/-! Taking bytes off the front of a buffer. -/
namespace Skynet.SocketBuffer
open Base List

/-- The buffer keeps these bytes after an operation, in nodes that were its own or free. -/
def Keeps (pool : Pool) (l : List Addr) (pool' : Pool) (sb' : Buffer) (bytes : List UInt8) : Prop :=
  ∃ free' nodes', Owns pool' sb' free' nodes' ∧ content pool' sb' nodes' = bytes ∧
    Moved pool l pool' (free' ++ nodes')

variable {pool pool' : Pool} {l : List Addr} {sb : Buffer} {bytes : List UInt8}

theorem Keeps.resize (keeps : Keeps pool l pool' sb bytes) (size : Int) :
    Keeps pool l pool' { sb with size := size } bytes := by
  obtain ⟨free', nodes', owns, same, moved⟩ := keeps
  exact ⟨free', nodes', ⟨owns.freePath, owns.path, owns.tail, owns.nodup, owns.below, owns.filled,
    owns.offset, owns.empty⟩, same, moved⟩

theorem Keeps.trans {pool'' : Pool} {l' : List Addr} (first : Moved pool l pool' l')
    (second : Keeps pool' l' pool'' sb bytes) :
    Keeps pool l pool'' sb bytes := by
  obtain ⟨free', nodes', owns, same, moved⟩ := second
  exact ⟨free', nodes', owns, same, first.trans moved⟩

section Pop
variable {pool : Pool} {sb : Buffer} {free nodes : List Addr} {a : Addr}

theorem release_keeps (owns : Owns pool sb free (a :: nodes)) (offset : Nat) :
    ∃ pool' sb', returnFreeNode pool { sb with offset := offset } = some (pool', sb') ∧
      Keeps pool (free ++ a :: nodes) pool' sb' (unread (pool.chunks nodes) 0) ∧
      sb'.size = sb.size := by
  obtain ⟨owns', same, moved⟩ := owns.release
  exact ⟨_, _, returnFreeNode_eq owns offset, ⟨_, _, owns', same, moved⟩, rfl⟩

theorem add_last (b rest : List UInt8) (sz skip : Nat) :
    (if skip < sz then b ++ rest.take (sz - skip) else b) = b ++ rest.take (sz - skip) := by
  split
  · rfl
  · next none' =>
    rw [Nat.sub_eq_zero_of_le (Nat.not_lt.mp none'), take_zero, append_nil]

theorem add_chunk (b rest : List UInt8) (n : Nat) :
    (if 0 < n then b ++ rest.take (if n < rest.length then n else rest.length) else b) =
      b ++ rest.take n := by
  split_ifs with some' within
  · rfl
  · rw [take_length, take_of_length_le (Nat.not_lt.mp within)]
  · rw [Nat.eq_zero_of_not_pos some', take_zero, append_nil]

variable {rounds : Nat}

theorem popLoop_spec {sz : Nat} (skip : Nat) (owns : Owns pool sb free nodes) (some' : 0 < sz)
    (enough : sz ≤ (content pool sb nodes).length) (fuel : sz ≤ rounds) (b : List UInt8) :
    ∃ pool' sb', popLoop rounds pool sb sz skip b =
        some (b ++ (content pool sb nodes).take (sz - skip), pool', sb') ∧
      Keeps pool (free ++ nodes) pool' sb' ((content pool sb nodes).drop sz) ∧
      sb'.size = sb.size := by
  induction rounds generalizing pool sb free nodes sz b with
  | zero => omega
  | succ rounds ih =>
    cases nodes with
    | nil =>
      rw [content, Pool.chunks, map_nil, unread_nil] at enough
      exact absurd enough (Nat.not_le.mpr some')
    | cons a later =>
      obtain ⟨size, offset, head, tail⟩ := sb
      obtain rfl : head = some a := owns.path.1
      have first := owns.content_cons
      have more : offset < (pool.node a).msg.length := owns.offset a rfl
      have long : ((pool.node a).msg.drop offset).length =
          (pool.node a).msg.length - offset := length_drop
      rw [first, length_append] at enough
      simp only [popLoop]
      dsimp only at first enough
      rw [first, ← long]
      by_cases within : sz ≤ ((pool.node a).msg.drop offset).length
      · have taken : ((pool.node a).msg.drop offset ++ unread (pool.chunks later) 0).take
            (sz - skip) = ((pool.node a).msg.drop offset).take (sz - skip) :=
          take_append_of_le_length (by omega)
        rw [if_pos within, taken]
        rw [add_last]
        by_cases all : ((pool.node a).msg.drop offset).length = sz
        · obtain ⟨pool', sb', returned, keeps, size⟩ := release_keeps owns (offset + sz)
          rw [if_pos all, returned, ← all, drop_left]
          exact ⟨pool', sb', rfl, keeps, size⟩
        · rw [if_neg all]
          have inside : sz < (pool.node a).msg.length - offset := by omega
          obtain ⟨owns', same⟩ := owns.advance inside
          refine ⟨_, _, rfl, ⟨free, a :: later, owns', ?_, Moved.refl _ _⟩, rfl⟩
          rw [same, first]
      · have short : ((pool.node a).msg.drop offset).length < sz := Nat.not_le.mp within
        obtain ⟨owns', same, moved⟩ := owns.release
        rw [if_neg within, add_chunk, returnFreeNode_eq owns offset]
        dsimp only
        rw [if_neg (Nat.sub_ne_zero_of_lt short)]
        obtain ⟨pool', sb', loop, keeps, size⟩ := ih owns' (Nat.sub_pos_of_lt short)
          (by rw [same]; omega) (by omega) (b ++ ((pool.node a).msg.drop offset).take (sz - skip))
        refine ⟨pool', sb', ?_, ?_, size⟩
        · rw [loop, same, take_append, append_assoc, Nat.sub_right_comm]
        · rw [drop_append, drop_eq_nil_of_le short.le, nil_append, ← same]
          exact keeps.trans moved

/- A string that lies in one node is cut as in the first round of the loop. -/
theorem popLstring_eq {sz : Nat} (skip : Nat) (some' : 0 < sz) :
    popLstring pool sb sz skip = popLoop sz pool sb sz skip [] := by
  obtain ⟨rounds, rfl⟩ := Nat.exists_eq_add_one.mpr some'
  unfold popLstring
  split
  next head => rw [popLoop, head]
  next a head =>
    have added := add_last [] ((pool.node a).msg.drop sb.offset) (rounds + 1) skip
    simp only [nil_append] at added
    dsimp only
    split
    next within =>
      rw [popLoop, head]
      simp only [if_pos within.le, if_neg within.ne', nil_append, added]
    next =>
      split
      next all =>
        rw [popLoop, head]
        simp only [if_pos all.le, if_pos all.symm, nil_append, added, returnFreeNode, head]
      next => rfl

theorem popLstring_spec (sz skip : Nat) (owns : Owns pool sb free nodes) (some' : 0 < sz)
    (enough : sz ≤ (content pool sb nodes).length) :
    ∃ pool' sb', popLstring pool sb sz skip =
        some ((content pool sb nodes).take (sz - skip), pool', sb') ∧
      Keeps pool (free ++ nodes) pool' sb' ((content pool sb nodes).drop sz) ∧
      sb'.size = sb.size := by
  rw [popLstring_eq skip some']
  exact popLoop_spec skip owns some' enough (Nat.le_refl sz) []

theorem readallLoop_spec (owns : Owns pool sb free nodes) (fuel : nodes.length < rounds)
    (b : List UInt8) :
    ∃ pool' sb', readallLoop rounds pool sb b =
        some (b ++ content pool sb nodes, pool', sb') ∧
      Keeps pool (free ++ nodes) pool' sb' [] := by
  induction rounds generalizing pool sb free nodes b with
  | zero => cases fuel
  | succ rounds ih =>
    cases nodes with
    | nil =>
      have head : sb.head = none := owns.path
      have nothing : content pool sb [] = [] := unread_nil _
      refine ⟨pool, sb, ?_, free, [], owns, nothing, Moved.refl _ _⟩
      rw [readallLoop, head, nothing, append_nil]
    | cons a later =>
      have head : sb.head = some a := owns.path.1
      obtain ⟨owns', same, moved⟩ := owns.release
      obtain ⟨pool', sb', loop, keeps⟩ := ih owns' (Nat.lt_of_succ_lt_succ fuel)
        (b ++ (pool.node a).msg.drop sb.offset)
      refine ⟨pool', sb', ?_, keeps.trans moved⟩
      have returned : returnFreeNode pool sb = some (freed pool a, sb.rest (pool.next a)) :=
        returnFreeNode_eq owns sb.offset
      simp only [readallLoop, head, returned, Option.bind_some]
      rw [loop, owns.content_cons, same, append_assoc]

/- Clearing takes the nodes off as reading everything does. -/
theorem clearLoop_eq (b : List UInt8) :
    clearLoop rounds pool sb = (readallLoop rounds pool sb b).map Prod.snd := by
  induction rounds generalizing pool sb b with
  | zero => rfl
  | succ rounds ih =>
    rw [clearLoop, readallLoop]
    cases sb.head with
    | none => rfl
    | some a =>
      rw [if_neg (Option.some_ne_none a), Option.map_bind]
      exact Option.bind_congr fun _ _ => ih _

theorem clearLoop_spec (owns : Owns pool sb free nodes) (fuel : nodes.length < rounds) :
    ∃ pool' sb', clearLoop rounds pool sb = some (pool', sb') ∧
      Keeps pool (free ++ nodes) pool' sb' [] := by
  obtain ⟨pool', sb', loop, keeps⟩ := readallLoop_spec owns fuel []
  refine ⟨pool', sb', ?_, keeps⟩
  rw [clearLoop_eq [], loop]
  rfl

end Pop

end Skynet.SocketBuffer
