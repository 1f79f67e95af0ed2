import Skynet.SocketBuffer.Pop

/-! The search for a separator, which may begin in one chunk and end in a later one. -/
namespace Skynet.SocketBuffer
open Base List

/-- The first place of the bytes where the separator is. -/
def placeOf (sep bytes : List UInt8) : Option Nat :=
  (range (bytes.length + 1)).find? fun i => sep.isPrefixOf (bytes.drop i)

theorem isPrefixOf_eq (sep l : List UInt8) : sep.isPrefixOf l = (l.take sep.length == sep) := by
  rw [Bool.eq_iff_iff, isPrefixOf_iff_prefix, prefix_iff_eq_take, beq_iff_eq]
  exact eq_comm

variable {sep : List UInt8}

theorem not_isPrefixOf {l : List UInt8} (short : l.length < sep.length) :
    sep.isPrefixOf l = false := by
  rw [isPrefixOf_eq, beq_eq_false_iff_ne]
  intro same
  have length := congrArg length same
  rw [length_take] at length
  omega

theorem placeOf_eq {bytes : List UInt8} (some' : 0 < sep.length) :
    placeOf sep bytes = (range' 0 (bytes.length + 1 - sep.length)).find? fun i =>
      sep.isPrefixOf (bytes.drop i) := by
  have split : range (bytes.length + 1) = range' 0 (bytes.length + 1 - sep.length) ++
        range' (bytes.length + 1 - sep.length) (min sep.length (bytes.length + 1)) := by
    have joined := @range'_append_1 0 (bytes.length + 1 - sep.length)
      (min sep.length (bytes.length + 1))
    rw [Nat.zero_add] at joined
    rw [joined, range_eq_range']
    congr 1
    omega
  have late : (range' (bytes.length + 1 - sep.length)
      (min sep.length (bytes.length + 1))).find? (fun i => sep.isPrefixOf (bytes.drop i)) =
        none := by
    rw [find?_eq_none]
    intro i member found
    rw [mem_range'_1] at member
    have short : (bytes.drop i).length < sep.length := by
      rw [length_drop]
      omega
    rw [not_isPrefixOf short] at found
    cases found
  rw [placeOf, split, find?_append, late, Option.or_none]

section Search
variable {pool : Pool} {nodes : List Addr} {start : Nat} {sep : List UInt8} {a : Addr}
  {later : List Addr}

/- The comparison goes from chunk to chunk. -/
theorem checkSepLoop_spec {rounds : Nat} {p : Option Addr} (path : Path pool.next p nodes)
    (filled : ∀ a ∈ nodes, 0 < (pool.node a).msg.length)
    (inside : ∀ a ∈ nodes.head?, start < (pool.node a).msg.length) (some' : 0 < sep.length)
    (enough : sep.length ≤ (unread (pool.chunks nodes) start).length) (fuel : sep.length ≤ rounds) :
    checkSepLoop pool rounds p start sep =
      some (sep.isPrefixOf (unread (pool.chunks nodes) start)) := by
  induction rounds generalizing p start sep nodes with
  | zero => omega
  | succ rounds ih =>
    cases nodes with
    | nil =>
      rw [Pool.chunks, map_nil, unread_nil] at enough
      exact absurd enough (Nat.not_le.mpr some')
    | cons a later =>
      obtain ⟨rfl, further⟩ := path
      have more := inside a rfl
      have first : unread (pool.chunks (a :: later)) start =
          (pool.node a).msg.drop start ++ unread (pool.chunks later) 0 := unread_cons more.le
      have long : ((pool.node a).msg.drop start).length = (pool.node a).msg.length - start :=
        length_drop
      rw [first, length_append] at enough
      simp only [checkSepLoop]
      rw [first, ← long]
      by_cases within : sep.length ≤ ((pool.node a).msg.drop start).length
      · rw [if_pos within, isPrefixOf_eq, take_append_of_le_length within]
      · have short := Nat.not_le.mp within
        rw [if_neg within, take_length]
        have joined : ((pool.node a).msg.drop start ++ unread (pool.chunks later) 0).take
            sep.length = (pool.node a).msg.drop start ++ (unread (pool.chunks later) 0).take
              (sep.drop ((pool.node a).msg.drop start).length).length := by
          rw [take_append, take_of_length_le short.le, length_drop (l := sep)]
        by_cases same : (pool.node a).msg.drop start =
            sep.take ((pool.node a).msg.drop start).length
        · rw [if_neg (by rw [bne_iff_ne, not_not]; exact same)]
          have rest : checkSepLoop pool rounds (pool.next a) 0
              (sep.drop ((pool.node a).msg.drop start).length) =
                some ((sep.drop ((pool.node a).msg.drop start).length).isPrefixOf
                  (unread (pool.chunks later) 0)) := by
            apply ih further
            · exact fun b member => filled b (mem_cons_of_mem a member)
            · exact fun b head => filled b (mem_cons_of_mem a (mem_of_mem_head? head))
            · rw [length_drop]
              omega
            · rw [length_drop]
              omega
            · rw [length_drop]
              omega
          refine rest.trans (congrArg some ?_)
          rw [isPrefixOf_eq, isPrefixOf_eq, joined, Bool.eq_iff_iff, beq_iff_eq, beq_iff_eq]
          constructor
          · intro equal
            rw [equal]
            nth_rewrite 1 [same]
            exact take_append_drop ..
          · intro equal
            nth_rewrite 2 [← equal]
            exact (drop_left ..).symm
        · rw [if_pos (bne_iff_ne.mpr same)]
          refine congrArg some (Eq.symm ?_)
          rw [isPrefixOf_eq, joined, beq_eq_false_iff_ne]
          intro equal
          apply same
          nth_rewrite 1 [← equal]
          exact (take_left ..).symm

section
variable (path : Path pool.next (some a) (a :: later))
  (filled : ∀ x ∈ a :: later, 0 < (pool.node x).msg.length)
  (inside : start < (pool.node a).msg.length)
include path filled inside

theorem checkSep_spec (some' : 0 < sep.length)
    (enough : sep.length ≤ (unread (pool.chunks (a :: later)) start).length) :
    checkSep pool a start sep = some (sep.isPrefixOf (unread (pool.chunks (a :: later)) start)) :=
  checkSepLoop_spec path filled (by rintro x ⟨⟩; exact inside) some' enough (Nat.le_succ _)

theorem readlineLoop_spec {left i bytes : Nat} {all : List UInt8}
    (count : bytes = (pool.node a).msg.length - start) (some' : 0 < sep.length)
    (here : unread (pool.chunks (a :: later)) start = all.drop i)
    (fits : i + left + sep.length ≤ all.length + 1) :
    readlineLoop pool sep left i a start bytes =
      some ((range' i left).find? fun j => sep.isPrefixOf (all.drop j)) := by
  induction left generalizing i a later start bytes with
  | zero => rfl
  | succ left ih =>
    have enough : sep.length ≤ (unread (pool.chunks (a :: later)) start).length := by
      rw [here, length_drop]
      omega
    have checked := checkSep_spec path filled inside some' enough
    rw [here] at checked
    simp only [readlineLoop, checked, range'_succ, find?_cons]
    cases found : sep.isPrefixOf (all.drop i) with
    | true => rfl
    | false =>
      have first : unread (pool.chunks (a :: later)) start =
          (pool.node a).msg.drop start ++ unread (pool.chunks later) 0 := unread_cons inside.le
      have step : all.drop (i + 1) =
          (pool.node a).msg.drop (start + 1) ++ unread (pool.chunks later) 0 := by
        rw [← drop_drop, ← here, first, drop_append_of_le_length, drop_drop]
        rw [length_drop]
        omega
      by_cases end' : bytes - 1 = 0
      · rw [if_pos end']
        have done : (pool.node a).msg.drop (start + 1) = [] := drop_eq_nil_of_le (by omega)
        rw [done, nil_append] at step
        have further : Path pool.next (pool.next a) later := path.2
        cases later with
        | nil =>
          have last : (pool.node a).next = none := further
          rw [last]
          have past : all.length ≤ i + 1 := by
            rw [Pool.chunks, map_nil, unread_nil] at step
            exact drop_eq_nil_iff.mp step
          have none' : left = 0 := by omega
          rw [none']
          rfl
        | cons b later =>
          have next : (pool.node a).next = some b := further.1
          rw [next]
          have filled' : ∀ x ∈ b :: later, 0 < (pool.node x).msg.length :=
            fun x member => filled x (mem_cons_of_mem a member)
          exact ih ⟨rfl, further.2⟩ filled' (filled' b (mem_cons_self ..)) rfl step.symm (by omega)
      · rw [if_neg end']
        have inside' : start + 1 < (pool.node a).msg.length := by omega
        refine ih path filled inside' (by omega) ?_ (by omega)
        rw [step]
        exact unread_cons inside'.le

end

end Search

end Skynet.SocketBuffer
