import Skynet.SocketBuffer.Model

/-! The lists of nodes: the free list of the pool and the list of a buffer. -/
namespace Skynet.SocketBuffer
open Base List Function

def Pool.next (pool : Pool) (a : Addr) : Option Addr := (pool.node a).next

def Pool.chunks (pool : Pool) (nodes : List Addr) : List (List UInt8) :=
  nodes.map fun a => (pool.node a).msg

/-- The bytes of a buffer with these nodes. -/
def content (pool : Pool) (sb : Buffer) (nodes : List Addr) : List UInt8 :=
  unread (pool.chunks nodes) sb.offset

/-- These nodes are free, and those are in the buffer. Every node of the buffer has bytes
that are not read yet. -/
structure Owns (pool : Pool) (sb : Buffer) (free nodes : List Addr) : Prop where
  freePath : Path pool.next pool.freeNode free
  path : Path pool.next sb.head nodes
  tail : sb.tail = nodes.getLast?
  nodup : (free ++ nodes).Nodup
  below : ∀ a ∈ free ++ nodes, a < pool.fresh
  filled : ∀ a ∈ nodes, 0 < (pool.node a).msg.length
  offset : ∀ a ∈ nodes.head?, sb.offset < (pool.node a).msg.length
  empty : nodes = [] → sb.offset = 0

/-- Memory changes only in these nodes and in new ones, and those are what they become. -/
structure Moved (pool : Pool) (l : List Addr) (pool' : Pool) (l' : List Addr) : Prop where
  within : ∀ x ∈ l', x ∈ l ∨ pool.fresh ≤ x
  kept : ∀ x, x ∉ l → x < pool.fresh → pool'.node x = pool.node x
  grown : pool.fresh ≤ pool'.fresh

theorem Moved.refl (pool : Pool) (l : List Addr) : Moved pool l pool l :=
  ⟨fun _ member => .inl member, fun _ _ _ => rfl, Nat.le_refl _⟩

theorem Moved.trans {pool pool' pool'' : Pool} {l l' l'' : List Addr}
    (first : Moved pool l pool' l') (second : Moved pool' l' pool'' l'') :
    Moved pool l pool'' l'' := by
  refine ⟨?_, ?_, Nat.le_trans first.grown second.grown⟩
  · intro x member
    rcases second.within x member with old | new
    · exact first.within x old
    · exact .inr (Nat.le_trans first.grown new)
  · intro x absent below
    have absent' : x ∉ l' := by
      intro member
      rcases first.within x member with old | new
      · exact absent old
      · exact absurd below (Nat.not_lt.mpr new)
    rw [second.kept x absent' (Nat.lt_of_lt_of_le below first.grown), first.kept x absent below]

theorem chunks_congr {pool pool' : Pool} {nodes : List Addr}
    (same : ∀ x ∈ nodes, pool'.node x = pool.node x) : pool'.chunks nodes = pool.chunks nodes :=
  map_congr_left fun x member => congrArg BufferNode.msg (same x member)

section Buffer
variable {pool : Pool} {sb : Buffer} {free nodes : List Addr} {a : Addr}

theorem Owns.inFirst (owns : Owns pool sb free nodes) :
    InFirst (pool.chunks nodes) sb.offset := by
  cases nodes with
  | nil =>
    rw [owns.empty rfl]
    exact Nat.le_refl 0
  | cons a later => exact (owns.offset a rfl).le

theorem Owns.frame {pool' : Pool} {sb' : Buffer} {free' nodes' others : List Addr}
    {other : Buffer} (owns : Owns pool other free others) (apart : ∀ x ∈ others, x ∉ nodes)
    (moved : Moved pool (free ++ nodes) pool' (free' ++ nodes'))
    (result : Owns pool' sb' free' nodes') :
    Owns pool' other free' others ∧ content pool' other others = content pool other others ∧
      ∀ x ∈ others, x ∉ nodes' := by
  have apartFree : ∀ x ∈ others, x ∉ free := fun x member inFree =>
    (disjoint_of_nodup_append owns.nodup) inFree member
  have low : ∀ x ∈ others, x < pool.fresh := fun x member =>
    owns.below x (mem_append_right _ member)
  have outside : ∀ x ∈ others, x ∉ free ++ nodes := by
    intro x member both
    rcases mem_append.mp both with inFree | inNodes
    · exact apartFree x member inFree
    · exact apart x member inNodes
  have outside' : ∀ x ∈ others, x ∉ free' ++ nodes' := by
    intro x member both
    rcases moved.within x both with old | new
    · exact outside x member old
    · exact absurd (low x member) (Nat.not_lt.mpr new)
  have same : ∀ x ∈ others, pool'.node x = pool.node x := fun x member =>
    moved.kept x (outside x member) (low x member)
  refine ⟨⟨result.freePath, ?_, owns.tail, ?_, ?_, ?_, ?_, owns.empty⟩, ?_, ?_⟩
  · exact path_congr (fun x member => congrArg BufferNode.next (same x member)) owns.path
  · refine nodup_append'.mpr ⟨(nodup_append'.mp result.nodup).1,
      (nodup_append'.mp owns.nodup).2.1, ?_⟩
    intro x inFree member
    exact outside' x member (mem_append_left _ inFree)
  · intro x member
    rcases mem_append.mp member with inFree | inOthers
    · exact result.below x (mem_append_left _ inFree)
    · exact Nat.lt_of_lt_of_le (low x inOthers) moved.grown
  · intro x member
    rw [same x member]
    exact owns.filled x member
  · intro x first
    rw [same x (mem_of_mem_head? first)]
    exact owns.offset x first
  · rw [content, chunks_congr same]
    rfl
  · exact fun x member inNodes => outside' x member (mem_append_right _ inNodes)

def freed (pool : Pool) (a : Addr) : Pool :=
  { pool.set a ⟨[], pool.freeNode⟩ with freeNode := some a }

theorem freed_node {x : Addr} (other : x ≠ a) : (freed pool a).node x = pool.node x :=
  update_of_ne other ..

def Buffer.rest (sb : Buffer) (head : Option Addr) : Buffer :=
  { sb with offset := 0, head := head, tail := if head = none then none else sb.tail }

section
variable (owns : Owns pool sb free (a :: nodes))
include owns

theorem returnFreeNode_eq (offset : Nat) :
    returnFreeNode pool { sb with offset := offset } =
      some (freed pool a, sb.rest (pool.next a)) := by
  have head : sb.head = some a := owns.path.1
  unfold returnFreeNode
  rw [head]
  rfl

theorem Owns.release :
    Owns (freed pool a) (sb.rest (pool.next a)) (a :: free) nodes ∧
      content (freed pool a) (sb.rest (pool.next a)) nodes = unread (pool.chunks nodes) 0 ∧
      Moved pool (free ++ a :: nodes) (freed pool a) (a :: free ++ nodes) := by
  have perm : (a :: free ++ nodes).Perm (free ++ a :: nodes) := perm_middle.symm
  have nodup : (a :: free ++ nodes).Nodup := perm.nodup_iff.mpr owns.nodup
  have apart : a ∉ free ++ nodes := (nodup_cons.mp nodup).1
  have apartFree : a ∉ free := fun member => apart (mem_append_left _ member)
  have apartNodes : a ∉ nodes := fun member => apart (mem_append_right _ member)
  have same : ∀ x ∈ nodes, (freed pool a).node x = pool.node x := fun x member =>
    freed_node fun eq => apartNodes (eq ▸ member)
  have sameFree : ∀ x ∈ free, (freed pool a).node x = pool.node x := fun x member =>
    freed_node fun eq => apartFree (eq ▸ member)
  have path : Path pool.next (pool.next a) nodes := owns.path.2
  refine ⟨⟨⟨rfl, ?_⟩, ?_, ?_, nodup, ?_, ?_, ?_, fun _ => rfl⟩, ?_, ?_⟩
  · have here : (freed pool a).node a = ⟨[], pool.freeNode⟩ := update_self ..
    change Path (freed pool a).next ((freed pool a).node a).next free
    rw [here]
    exact path_congr (fun x member => congrArg BufferNode.next (sameFree x member)) owns.freePath
  · exact path_congr (fun x member => congrArg BufferNode.next (same x member)) path
  · cases nodes with
    | nil =>
      have last : pool.next a = none := path
      exact if_pos last
    | cons b later =>
      have more : pool.next a = some b := path.1
      change (if pool.next a = none then none else sb.tail) = _
      rw [more, if_neg (Option.some_ne_none b), owns.tail, getLast?_cons_cons]
  · exact fun x member => owns.below x (perm.mem_iff.mp member)
  · intro x member
    rw [same x member]
    exact owns.filled x (mem_cons_of_mem a member)
  · intro x first
    have member := mem_of_mem_head? first
    rw [same x member]
    exact owns.filled x (mem_cons_of_mem a member)
  · rw [content, chunks_congr same]
    rfl
  · refine ⟨fun x member => .inl (perm.mem_iff.mp member), fun x absent _ => ?_, Nat.le_refl _⟩
    exact freed_node fun eq => absent (eq ▸ by simp)

theorem Owns.content_cons :
    content pool sb (a :: nodes) =
      (pool.node a).msg.drop sb.offset ++ unread (pool.chunks nodes) 0 :=
  unread_cons owns.inFirst

theorem Owns.advance {n : Nat} (inside : n < (pool.node a).msg.length - sb.offset) :
    Owns pool { sb with offset := sb.offset + n } free (a :: nodes) ∧
      content pool { sb with offset := sb.offset + n } (a :: nodes) =
        (content pool sb (a :: nodes)).drop n := by
  have room : sb.offset + n ≤ (pool.node a).msg.length := by omega
  refine ⟨⟨owns.freePath, owns.path, owns.tail, owns.nodup, owns.below, owns.filled, ?_, nofun⟩, ?_⟩
  · rintro x ⟨⟩
    change sb.offset + n < _
    omega
  · exact (unread_advance (pool.chunks nodes) room).2.2

end

end Buffer

end Skynet.SocketBuffer
