import Skynet.SocketBuffer.Pop

/-! Adding a chunk to a buffer, in a node that is free or new. -/
namespace Skynet.SocketBuffer
open Base List Function Option

section Push
variable {pool : Pool} {sb : Buffer} {free nodes : List Addr}

def growth (pool : Pool) : Nat :=
  if (if pool.rawlen = 0 then 1 else pool.rawlen) ≤ largePageNode - 3 then
    8 <<< (if pool.rawlen = 0 then 1 else pool.rawlen)
  else 8 <<< (largePageNode - 3)

theorem growth_pos (pool : Pool) : 0 < growth pool := by
  unfold growth
  have pos : ∀ k, 0 < 8 <<< k := by
    intro k
    rw [Nat.shiftLeft_eq]
    exact Nat.mul_pos (by decide) (Nat.two_pow_pos k)
  split_ifs <;> exact pos _

variable {size : Nat} {x a : Addr} {node : BufferNode} {msg : List UInt8}

theorem newpool_node (old : x < pool.fresh) :
    (newpool pool size).node x = pool.node x :=
  if_neg fun new => absurd old (Nat.not_lt.mpr new.1)

theorem newpool_path (some' : 0 < size) :
    Path (newpool pool size).next (some pool.fresh) (range' pool.fresh size) := by
  have linked : ∀ i, i < size → (newpool pool size).next (pool.fresh + i) =
      if pool.fresh + i + 1 < pool.fresh + size then some (pool.fresh + i + 1) else none := by
    intro i inside
    have new : pool.fresh ≤ pool.fresh + i ∧ pool.fresh + i < pool.fresh + size :=
      ⟨Nat.le_add_right .., Nat.add_lt_add_left inside _⟩
    exact congrArg BufferNode.next (if_pos new)
  apply path_range
  · intro i inside
    have room : pool.fresh + i + 1 < pool.fresh + size := Nat.add_lt_add_left inside pool.fresh
    rw [linked i (Nat.lt_of_succ_lt inside), if_pos room]
  · intro _
    have last : ¬ pool.fresh + (size - 1) + 1 < pool.fresh + size := by
      rw [Nat.add_assoc, Nat.sub_add_cancel some']
      exact Nat.lt_irrefl _
    rw [linked (size - 1) (Nat.sub_lt some' Nat.one_pos), if_neg last]
  · exact some'

theorem takeNode_spec (owns : Owns pool sb free nodes) :
    ∃ a pool' free', takeNode pool = (a, pool') ∧ Path pool'.next pool'.freeNode free' ∧
      (a :: free' ++ nodes).Nodup ∧ (∀ x ∈ a :: free' ++ nodes, x < pool'.fresh) ∧
      (∀ x, x < pool.fresh → pool'.node x = pool.node x) ∧
      Moved pool (free ++ nodes) pool' (a :: free' ++ nodes) := by
  rcases eq_none_or_eq_some pool.freeNode with none' | ⟨a, some'⟩
  · have empty : free = [] := path_none (none' ▸ owns.freePath)
    subst empty
    have size : growth pool = growth pool - 1 + 1 := (Nat.sub_add_cancel (growth_pos pool)).symm
    have path : Path (newpool pool (growth pool)).next _ _ := newpool_path (growth_pos pool)
    rw [size, range'_succ, ← size] at path
    have added : pool.fresh :: range' (pool.fresh + 1) (growth pool - 1) =
        range' pool.fresh (growth pool) := by
      rw [← range'_succ, ← size]
    refine ⟨pool.fresh, { newpool pool (growth pool) with
      freeNode := (newpool pool (growth pool)).next pool.fresh
      rawlen := (if pool.rawlen = 0 then 1 else pool.rawlen) + 1 },
      range' (pool.fresh + 1) (growth pool - 1), ?_, path.2, ?_, ?_, ?_, ?_⟩
    · unfold takeNode
      rw [none']
      rfl
    · rw [added]
      refine nodup_append'.mpr ⟨nodup_range', owns.nodup, ?_⟩
      intro x new old
      rw [mem_range'_1] at new
      exact absurd (owns.below x old) (Nat.not_lt.mpr new.1)
    · intro x member
      rw [added] at member
      rcases mem_append.mp member with new | old
      · exact (mem_range'_1.mp new).2
      · exact Nat.lt_of_lt_of_le (owns.below x old) (Nat.le_add_right ..)
    · exact fun x old => newpool_node old
    · refine ⟨?_, fun x _ old => newpool_node old, Nat.le_add_right ..⟩
      intro x member
      rw [added] at member
      rcases mem_append.mp member with new | old
      · exact .inr (mem_range'_1.mp new).1
      · exact .inl old
  · obtain ⟨free', rfl, path⟩ := path_some (some' ▸ owns.freePath)
    refine ⟨a, { pool with freeNode := (pool.node a).next }, free', ?_, path, owns.nodup,
      owns.below, fun _ _ => rfl, ?_⟩
    · unfold takeNode
      rw [some']
    · exact ⟨fun x member => .inl member, fun _ _ _ => rfl, Nat.le_refl _⟩

theorem set_next :
    (pool.set a node).next = update pool.next a node.next := by
  funext x
  unfold Pool.next Pool.set
  dsimp only
  rw [update_apply, update_apply]
  split <;> rfl

theorem set_node (other : x ≠ a) :
    (pool.set a node).node x = pool.node x := update_of_ne other ..

theorem set_msg (same : node.msg = msg) :
    ((pool.set a node).node a).msg = msg := by
  unfold Pool.set
  dsimp only
  rw [update_self, same]

theorem append_keeps {pool' pool'' : Pool} {sb' : Buffer} {free' : List Addr}
    (owns : Owns pool sb free nodes) (some' : 0 < msg.length) (nodup : (a :: free' ++ nodes).Nodup)
    (below : ∀ x ∈ a :: free' ++ nodes, x < pool'.fresh)
    (moved : Moved pool (free ++ nodes) pool' (a :: free' ++ nodes))
    (fresh : pool''.fresh = pool'.fresh) (freePath : Path pool''.next pool''.freeNode free')
    (path : Path pool''.next sb'.head (nodes ++ [a])) (tail : sb'.tail = some a)
    (offset : sb'.offset = sb.offset) (msgs : ∀ x ∈ nodes, (pool''.node x).msg = (pool.node x).msg)
    (here : (pool''.node a).msg = msg)
    (kept : ∀ x, x ∉ a :: free' ++ nodes → pool''.node x = pool'.node x) :
    Keeps pool (free ++ nodes) pool'' sb' (content pool sb nodes ++ msg) := by
  have perm : (free' ++ (nodes ++ [a])).Perm (a :: free' ++ nodes) := by
    rw [← append_assoc]
    exact perm_append_singleton a (free' ++ nodes)
  have chunks : pool''.chunks (nodes ++ [a]) = pool.chunks nodes ++ [msg] := by
    have first : pool''.chunks nodes = pool.chunks nodes := map_congr_left msgs
    rw [Pool.chunks, map_append, map_singleton, here]
    exact congrArg (· ++ [msg]) first
  refine ⟨free', nodes ++ [a], ⟨freePath, path, ?_, perm.nodup_iff.mpr nodup, ?_, ?_, ?_, ?_⟩,
    ?_, ?_⟩
  · rw [tail, getLast?_append_of_ne_nil _ (cons_ne_nil a []), getLast?_singleton]
  · intro x member
    rw [fresh]
    exact below x (perm.mem_iff.mp member)
  · intro x member
    rcases mem_append.mp member with old | new
    · rw [msgs x old]
      exact owns.filled x old
    · rw [mem_singleton.mp new, here]
      exact some'
  · intro x first
    rw [offset]
    cases nodes with
    | nil =>
      obtain rfl : a = x := some.inj first
      rw [owns.empty rfl, here]
      exact some'
    | cons b later =>
      obtain rfl : b = x := some.inj first
      rw [msgs b (mem_cons_self ..)]
      exact owns.offset b rfl
  · intro none'
    exact absurd none' (append_ne_nil_of_right_ne_nil nodes (cons_ne_nil a []))
  · rw [content, chunks, offset]
    exact unread_snoc owns.inFirst msg
  · refine moved.trans ⟨fun x member => .inl (perm.mem_iff.mp member), ?_, fresh.ge⟩
    exact fun x absent _ => kept x absent

theorem push_spec (owns : Owns pool sb free nodes) (some' : 0 < msg.length) :
    ∃ pool' sb', pushbuffer pool sb msg = some (toInt (sb.size + msg.length), pool', sb') ∧
      Keeps pool (free ++ nodes) pool' sb' (content pool sb nodes ++ msg) ∧
      sb'.size = toInt (sb.size + msg.length) := by
  obtain ⟨a, pool', free', taken, freePath, nodup, below, same, moved⟩ := takeNode_spec owns
  have apart : a ∉ free' ++ nodes := (nodup_cons.mp nodup).1
  have apartFree : a ∉ free' := fun member => apart (mem_append_left _ member)
  have apartNodes : a ∉ nodes := fun member => apart (mem_append_right _ member)
  have old : ∀ x ∈ nodes, pool'.node x = pool.node x := fun x member =>
    same x (owns.below x (mem_append_right _ member))
  have path : Path (pool'.set a ⟨msg, none⟩).next sb.head nodes := by
    rw [set_next]
    refine path_update apartNodes (path_congr (fun x member => ?_) owns.path)
    exact congrArg BufferNode.next (old x member)
  have freePath' : Path (pool'.set a ⟨msg, none⟩).next pool'.freeNode free' := by
    rw [set_next]
    exact path_update apartFree freePath
  have here : (pool'.set a ⟨msg, none⟩).node a = ⟨msg, none⟩ := update_self ..
  unfold pushbuffer
  rw [taken]
  rcases eq_nil_or_concat nodes with rfl | ⟨front, last, rfl⟩
  · have head : sb.head = none := owns.path
    have tail : sb.tail = none := owns.tail
    rw [head, tail]
    refine ⟨_, _, rfl, ?_, rfl⟩
    refine append_keeps owns some' nodup below moved rfl freePath' ?_ rfl rfl ?_ ?_ ?_
    · exact ⟨rfl, congrArg BufferNode.next here⟩
    · exact fun x member => absurd member not_mem_nil
    · exact congrArg BufferNode.msg here
    · exact fun x absent => set_node fun eq => absent (eq ▸ mem_cons_self ..)
  · rw [concat_eq_append] at *
    obtain ⟨size, offset, head, tail⟩ := sb
    obtain rfl : tail = some last := owns.tail.trans getLast?_concat
    obtain ⟨first, rfl⟩ : ∃ first, head = some first := by
      refine ne_none_iff_exists'.mp fun none' => ?_
      have empty := path_none (none' ▸ owns.path)
      exact absurd empty (append_ne_nil_of_right_ne_nil _ (cons_ne_nil last []))
    have member : last ∈ front ++ [last] := mem_append_right _ (mem_singleton_self last)
    have other : last ≠ a := fun eq => apartNodes (eq ▸ member)
    have lastFree : last ∉ free' := fun inFree =>
      (nodup_append'.mp (nodup_cons.mp nodup).2).2.2 inFree member
    refine ⟨_, _, rfl, ?_, rfl⟩
    refine append_keeps owns some' nodup below moved rfl ?_ ?_ rfl rfl ?_ ?_ ?_
    · rw [set_next]
      exact path_update lastFree freePath'
    · rw [set_next, append_assoc]
      refine path_link (nodup_append'.mp owns.nodup).2.1 path ?_ ?_
      · exact fun eq => other (mem_singleton.mp eq)
      · exact ⟨rfl, congrArg BufferNode.next here⟩
    · intro x inNodes
      have notNew : x ≠ a := fun eq => apartNodes (eq ▸ inNodes)
      have before : (pool'.set a ⟨msg, none⟩).node x = pool.node x := by
        rw [set_node notNew, old x inNodes]
      by_cases final : x = last
      · subst final
        rw [← before]
        exact set_msg rfl
      · exact congrArg BufferNode.msg ((set_node final).trans before)
    · exact congrArg BufferNode.msg ((set_node other.symm).trans here)
    · intro x absent
      have notNode : x ≠ last := by
        rintro rfl
        exact absent (mem_append_right _ member)
      have notNew : x ≠ a := fun eq => absent (eq ▸ mem_cons_self ..)
      exact (set_node notNode).trans (set_node notNew)

end Push

end Skynet.SocketBuffer
