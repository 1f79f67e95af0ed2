import Skynet.Lua.Value

/-! Tables as finite maps: what a table maps its keys to, after entries were set one by one. -/
namespace Skynet.Lua
open List Function

theorem find_nil (k : Key) : find [] k = none := rfl

theorem find_cons (e : Key × Value) (entries : List (Key × Value)) (k : Key) :
    find (e :: entries) k = if e.1 = k then some e.2 else find entries k := by
  unfold find
  rw [find?_cons]
  by_cases same : e.1 = k <;> simp [same]

variable {entries more : List (Key × Value)} {k : Key} {v : Value}

theorem find_append_none (absent : find entries k = none) :
    find (entries ++ more) k = find more k := by
  induction entries with
  | nil => rfl
  | cons e entries ih =>
    rw [find_cons] at absent
    split at absent
    · cases absent
    next other => rw [cons_append, find_cons, if_neg other, ih absent]

theorem find_append_some (present : find entries k = some v) :
    find (entries ++ more) k = some v := by
  induction entries with
  | nil => cases present
  | cons e entries ih =>
    rw [find_cons] at present
    rw [cons_append, find_cons]
    split at present
    next same => rw [if_pos same, present]
    next other => rw [if_neg other, ih present]

theorem find_filter (entries : List (Key × Value)) (k k' : Key) :
    find (entries.filter fun e => e.1 ≠ k) k' = if k' = k then none else find entries k' := by
  induction entries with
  | nil => simp [find_nil]
  | cons e entries ih =>
    by_cases same : e.1 = k
    · rw [filter_cons_of_neg (by simpa using same), ih, find_cons]
      split
      · rfl
      next other => rw [if_neg fun eq => other (eq.symm.trans same)]
    · rw [filter_cons_of_pos (by simpa using same), find_cons, ih, find_cons]
      by_cases here : e.1 = k'
      · have other : k' ≠ k := fun eq => same (here.trans eq)
        simp [here, other]
      · simp [here]

def present (v : Value) : Option Value := if v.isNil then none else some v

theorem find_rawset (entries : List (Key × Value)) (k k' : Key) (v : Value) :
    find (rawset entries k v) k' = if k' = k then present v else find entries k' := by
  unfold rawset present
  have others := find_filter entries k k'
  by_cases same : k' = k
  · rw [if_pos same] at others ⊢
    split
    · exact others
    · rw [find_append_none others, find_cons, if_pos same.symm]
  · rw [if_neg same] at others ⊢
    split
    · exact others
    · cases known : find entries k' with
      | none =>
        rw [known] at others
        rw [find_append_none others, find_cons, if_neg fun eq => same eq.symm, find_nil]
      | some w =>
        rw [known] at others
        exact find_append_some others

theorem find_of_mem {e : Key × Value} (distinct : (entries.map (·.1)).Nodup) (member : e ∈ entries) :
    find entries e.1 = some e.2 := by
  induction entries with
  | nil => cases member
  | cons e' entries ih =>
    obtain ⟨absent, distinct'⟩ := nodup_cons.mp distinct
    rw [find_cons]
    rcases mem_cons.mp member with rfl | later
    · rw [if_pos rfl]
    · have other : e'.1 ≠ e.1 := fun same =>
        absent (mem_map.mpr ⟨e, later, same.symm⟩)
      rw [if_neg other, ih distinct' later]

theorem mem_of_find (found : find entries k = some v) : (k, v) ∈ entries := by
  obtain ⟨e, here, value⟩ := Option.map_eq_some_iff.mp found
  have key : e.1 = k := by simpa using find?_some here
  have member := mem_of_find?_eq_some here
  rwa [← key, ← value]

section Represents

variable {v v' : Value} {k : Key} {want : Key → Option Value} {entries : List (Key × Value)}

theorem same_isNil (same : Same v v') : v'.isNil = v.isNil := by
  cases same <;> rfl

theorem same_key (same : Same k.value v) : v = k.value := by
  cases k <;> cases same <;> rfl

def Represents (want : Key → Option Value) (entries : List (Key × Value)) : Prop :=
  ∀ k, Option.Rel Same (want k) (find entries k)

theorem represents_empty : Represents (fun _ => none) [] := fun _ => .none

def put (want : Key → Option Value) (k : Key) (v : Value) : Key → Option Value :=
  Function.update want k (present v)

theorem Represents.set (shows' : Represents want entries) (k : Key) (same : Same v v') :
    Represents (put want k v) (rawset entries k v') := by
  intro k'
  rw [find_rawset, put]
  by_cases here : k' = k
  · rw [here, update_self, if_pos rfl]
    unfold present
    rw [same_isNil same]
    split
    · exact .none
    · exact .some same
  · rw [update_of_ne here, if_neg here]
    exact shows' k'

def putAll (want : Key → Option Value) (entries : List (Key × Value)) : Key → Option Value :=
  entries.foldl (fun want e => put want e.1 e.2) want

theorem putAll_other (other : ∀ e ∈ entries, k ≠ e.1) : putAll want entries k = want k := by
  induction entries generalizing want with
  | nil => rfl
  | cons e entries ih =>
    have rest := @ih (put want e.1 e.2) fun e' member => other e' (mem_cons_of_mem e member)
    rw [put, update_of_ne (other e (mem_cons_self ..))] at rest
    exact rest

theorem putAll_entry {e : Key × Value} (distinct : (entries.map (·.1)).Nodup)
    (member : e ∈ entries) :
    putAll want entries e.1 = present e.2 := by
  induction entries generalizing want with
  | nil => cases member
  | cons e' entries ih =>
    obtain ⟨absent, distinct'⟩ := nodup_cons.mp distinct
    rcases mem_cons.mp member with rfl | later
    · have rest : putAll (put want e.1 e.2) entries e.1 = put want e.1 e.2 e.1 :=
        putAll_other fun e' member same => absent (mem_map.mpr ⟨e', member, same.symm⟩)
      rw [put, update_self] at rest
      exact rest
    · exact ih distinct' later

theorem present_of_find (filled : ∀ e ∈ entries, e.2.isNil = false)
    (found : find entries k = some v) : present v = some v := by
  rw [present, filled _ (mem_of_find found)]
  rfl

theorem putAll_find (distinct : (entries.map (·.1)).Nodup)
    (filled : ∀ e ∈ entries, e.2.isNil = false) :
    putAll (fun _ => none) entries = find entries := by
  funext k
  cases found : find entries k with
  | none =>
    refine putAll_other ?_
    rintro e member rfl
    rw [find_of_mem distinct member] at found
    cases found
  | some v =>
    have stored := @putAll_entry (fun _ => none) _ _ distinct (mem_of_find found)
    rw [stored, present_of_find filled found]

end Represents

theorem index_injective {i j : Nat} (small : i < 2 ^ 63) (small' : j < 2 ^ 63)
    (same : Key.integer (Int64.ofNat i) = .integer (Int64.ofNat j)) : i = j := by
  have values := congrArg Int64.toInt (Key.integer.inj same)
  rw [Int64.toInt_ofNat_of_lt small, Int64.toInt_ofNat_of_lt small'] at values
  exact Int.ofNat.inj values

end Skynet.Lua
