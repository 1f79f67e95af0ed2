import Skynet.LuaBson.Written

/-! When a table inside a document is taken for a list. The test is one step of next at the length,
so it depends on the order in which the keys are visited. -/
namespace Skynet.LuaBson
open Base Lua List

variable {entries : List (Key × Value)} {len : Nat}

/-- The keys are 1..n. -/
def Sequence (entries : List (Key × Value)) : Prop :=
  ∃ n, 0 < n ∧ n < 2 ^ 63 ∧ (entries.map (·.1)).Perm ((range n).map index)

/-- The keys up to the length are visited first and in order. -/
def ListFirst (len : Nat) (entries : List (Key × Value)) : Prop :=
  ∃ others, entries.map (·.1) = (range len).map index ++ others

theorem Sequence.length (sequence : Sequence entries) (border : IsBorder len entries)
    (first : ListFirst len entries) : entries.map (·.1) = (range len).map index := by
  obtain ⟨n, positive, bound, keys⟩ := sequence
  obtain ⟨others, visited⟩ := first
  have count := keys.length_eq
  rw [visited] at count
  simp only [length_append, length_map, length_range] at count
  have low : n ≤ len := by
    by_contra above
    have member : index len ∈ entries.map (·.1) :=
      keys.mem_iff.mpr (mem_map_of_mem (mem_range.mpr (Nat.lt_of_not_le above)))
    obtain ⟨e, inside, same⟩ := mem_map.mp member
    have missing := border.outside
    simp only [find, Option.map_eq_none_iff, find?_eq_none, decide_eq_true_eq] at missing
    exact missing e inside same
  have none' : others = [] := length_eq_zero_iff.mp (by omega)
  rw [visited, none', append_nil]

/- The entries after that of the length decide. -/
theorem isRawarray_iff (distinct : (entries.map (·.1)).Nodup) (border : IsBorder len entries)
    (first : ListFirst len entries) : ∃ list, isRawarray len entries = .ok list ∧
      (list = true ↔ Sequence entries) := by
  have whole := fun sequence : Sequence entries => sequence.length border first
  cases len with
  | zero =>
    refine ⟨false, rfl, nofun, fun sequence => ?_⟩
    have empty := whole sequence
    obtain ⟨n, positive, -, keys⟩ := sequence
    rw [empty] at keys
    have count := keys.length_eq
    simp at count
    omega
  | succ m =>
    obtain ⟨others, visited⟩ := first
    have last := visited
    rw [range_succ, map_append, append_assoc] at last
    obtain ⟨start, later, rfl, starts, laters⟩ := map_eq_append_iff.mp last
    obtain ⟨e, rest, rfl, key, rests⟩ := map_eq_cons_iff.mp laters
    have next := luaNext_append distinct
    rw [key] at next
    refine ⟨rest.head?.isNone, ?_, ?_, ?_⟩
    · exact congrArg (Except.map _) next
    · intro ended
      obtain rfl : rest = [] := by simpa using ended
      obtain rfl : [] = others := rests
      rw [append_nil] at visited
      exact ⟨m + 1, Nat.succ_pos m, border.bound, .of_eq visited⟩
    · intro sequence
      have nothing : others = [] := by simpa using visited.symm.trans (whole sequence)
      simpa [nothing] using rests

/- A table in which next visits the keys given, all with the value true. -/
def visiting (keys : List Key) : List (Key × Value) := keys.map fun k => (k, .boolean true)

/- The key of the hash part may be visited before the key 1, which then ends the traversal: the
table is taken for an array and the other key is lost. And 2 may be visited before 1. -/
end Skynet.LuaBson
