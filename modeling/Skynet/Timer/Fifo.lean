import Skynet.Timer.Exact

/-! Nodes that expire in the same tick are dispatched in the order in which they were added, on
whichever levels of the wheel they have been. -/
namespace Skynet.TimerWheel
open Base List

theorem pair_sublist {α : Type} {l : List α} {i j : Nat} {a b : α} (first : l[i]? = some a)
    (second : l[j]? = some b) (before : i < j) : [a, b].Sublist l := by
  have left : a ∈ l.take j := by
    have found : (l.take j)[i]? = some a := (getElem?_take_of_lt before).trans first
    exact mem_of_getElem? found
  have right : b ∈ l.drop j := by
    have found : (l.drop j)[0]? = some b := getElem?_drop.trans second
    exact mem_of_getElem? found
  have both := (singleton_sublist.mpr left).append (singleton_sublist.mpr right)
  rwa [take_append_drop] at both

theorem log_entry {h : History} (exact : Exact h) {n : TimerNode} {k : Nat}
    (logged : (n, k) ∈ h.log) : k ≤ h.ticks ∧ ∃ a ∈ h.added, a.deadline = k ∧ a.node = n := by
  have found : (n, k) ∈ h.log.filter (fun e => e.2 = k) := mem_filter.mpr ⟨logged, by simp⟩
  rw [exact.log k] at found
  split at found
  · rename_i past
    obtain ⟨m, member, same⟩ := mem_map.mp found
    cases same
    exact ⟨past, mem_atDeadline.mp member⟩
  · cases found

theorem log_nodup {h : History} (exact : Exact h) : (h.log.map Prod.fst).Nodup := by
  have own : ∀ n k k', (n, k) ∈ h.log → (n, k') ∈ h.log → k = k' := by
    intro n k k' first second
    obtain ⟨-, a, added, rfl, node⟩ := log_entry exact first
    obtain ⟨-, b, added', rfl, node'⟩ := log_entry exact second
    have same : a = b :=
      inj_on_of_nodup_map (nodes_distinct exact) added added' (node.trans node'.symm)
    rw [same]
  have pairs : h.log.Nodup := by
    rw [nodup_iff_count_le_one]
    rintro ⟨n, k⟩
    by_cases logged : (n, k) ∈ h.log
    · obtain ⟨-, a, added, -, rfl⟩ := log_entry exact logged
      rw [count_log exact a added k]
      split
      · exact Nat.le_refl 1
      · exact Nat.zero_le 1
    · rw [count_eq_zero_of_not_mem logged]
      exact Nat.zero_le 1
  refine pairs.map_on ?_
  rintro ⟨n, k⟩ first ⟨n', k'⟩ second same
  cases same
  rw [own n k k' first second]

/-- Timer FIFO. A node is dispatched once at most, and of two nodes with the same expiry tick the
one that was added first is dispatched before the other. -/
theorem timer_fifo (h : History)
    (reached : Base.Reaches step (fun _ op => op.Valid) initial h) :
    (h.log.map Prod.fst).Nodup ∧
    ∀ (i j : Nat) (a b : Added), i < j → h.added[i]? = some a → h.added[j]? = some b →
      a.tick + a.duration = b.tick + b.duration → b.node ∈ h.log.map Prod.fst →
      [a.node, b.node].Sublist (h.log.map Prod.fst) := by
  have exact := exact_run reached
  refine ⟨log_nodup exact, ?_⟩
  intro i j a b before first second same dispatched
  have later := mem_of_getElem? second
  obtain ⟨⟨n, k⟩, logged, node⟩ := mem_map.mp dispatched
  cases node
  obtain ⟨past, c, added, deadline, node⟩ := log_entry exact logged
  have own : c = b := inj_on_of_nodup_map (nodes_distinct exact) added later node
  have due : b.deadline ≤ h.ticks := by
    rw [← own, deadline]
    exact past
  /- Both are in the part of the log that belongs to their tick. -/
  have pair : [a, b].Sublist (h.added.filter (fun x => x.deadline = b.deadline)) := by
    have filtered := (pair_sublist first second before).filter (fun x => x.deadline = b.deadline)
    rwa [filter_eq_self.mpr] at filtered
    intro x member
    rcases mem_pair.mp member with rfl | rfl
    · exact decide_eq_true same
    · exact decide_eq_true rfl
  have tick : [(a.node, b.deadline), (b.node, b.deadline)].Sublist
      (h.log.filter (fun e => e.2 = b.deadline)) := by
    rw [exact.log b.deadline, if_pos due]
    exact (pair.map Added.node).map fun n => (n, b.deadline)
  exact (tick.trans filter_sublist).map Prod.fst

/- The second node is added one tick after the first, for one tick less. -/
def twoAdds : List Op :=
  [.add ⟨7, 1⟩ 2, .update [] [], .add ⟨7, 2⟩ 1, .update [] []]

theorem timer_fifo_two_adds : ∃ h : History, Base.Reaches step (fun _ op => op.Valid) initial h ∧
    (h.log.map fun e => e.1.event.session) = [1, 2] ∧
      ∃ a b, h.added = [a, b] ∧ [a.node, b.node].Sublist (h.log.map Prod.fst) := by
  obtain ⟨h, taken⟩ : ∃ h, twoAdds.foldlM step initial = some h := ⟨_, rfl⟩
  have valid : ∀ op ∈ twoAdds, History → op.Valid := by
    intro op member _
    simp only [twoAdds, mem_cons, not_mem_nil, or_false] at member
    rcases member with rfl | rfl | rfl | rfl
    · exact ⟨by decide, by decide⟩
    · exact ⟨nofun, nofun⟩
    · exact ⟨by decide, by decide⟩
    · exact ⟨nofun, nofun⟩
  have reached : Base.Reaches step (fun _ op => op.Valid) initial h :=
    reaches_of_list twoAdds valid taken
  have ordered := (timer_fifo h reached).2 0 1
  cases taken
  exact ⟨_, reached, rfl, _, _, rfl, ordered _ _ (by decide) rfl rfl rfl (by decide)⟩

end Skynet.TimerWheel
