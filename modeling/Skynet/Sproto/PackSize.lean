import Skynet.Sproto.PackLoop

/-! The size of what sproto_pack writes. A run costs two bytes more than its groups; a group that
ends a run before it is full costs two less than eight, so only the full runs and the last one
add to the size. -/
namespace Skynet.Sproto
open Base List

/-- The buffer of lpack. -/
def maxsz (sz : Nat) : Nat := (sz + 2047) / 2048 * 2 + sz + 2

/-- Nothing is the error of lpack. -/
def lpack (mem : Nat → UInt8) (sz : Nat) (output : Nat → UInt8) : Option (List UInt8) :=
  let s := sprotoPack mem sz output (maxsz sz)
  if s.size > maxsz sz then none else some (window s.buffer 0 s.size)

section Groups
variable {mem : Nat → UInt8} {srcsz : Nat} {s : PackState} {j full : Nat}

theorem packGroup_counts (mem : Nat → UInt8) (srcsz : Nat) (s : PackState) (j : Nat) :
    let k := (nonzeros (group mem srcsz j)).length
    let s' := packGroup mem srcsz s (8 * j)
    (s.ffN = 0 ∧ k = 8 ∧ s'.ffN = 1 ∧ s'.size = s.size + 10) ∨
    (s.ffN = 0 ∧ k < 8 ∧ s'.ffN = 0 ∧ s'.size = s.size + (k + 1)) ∨
    (0 < s.ffN ∧ 6 ≤ k ∧ s'.ffN = (if s.ffN = 255 then 0 else s.ffN + 1) ∧
      s'.size = s.size + 8) ∨
    (0 < s.ffN ∧ k < 6 ∧ s'.ffN = 0 ∧ s'.size = s.size + (k + 1)) := by
  have answer := packSeg_size (packSource mem srcsz (8 * j)).bytes s.buffer s.size s.bufsz s.ffN
  have most := nonzeros_length_le (group mem srcsz j)
  rw [group_length] at most
  rw [packSource_window] at answer
  unfold packGroup
  dsimp only
  rw [answer]
  generalize (nonzeros (group mem srcsz j)).length = k at most
  rcases Nat.eq_zero_or_pos s.ffN with closed | open'
  · by_cases all : k = 8
    · simp [closed, all]
    · have other : k ≠ 9 := by omega
      have less : k < 8 := by omega
      simp [closed, all, other, less]
  · by_cases many : 6 ≤ k
    · by_cases last : s.ffN = 255
      · simp [many, last, writeFf_size]
      · simp [open', many, last]
    · have few : k ≠ 9 ∧ k ≠ 7 := by omega
      simp [open', many, few, writeFf_size, Nat.not_le.mp many]

/-- The state after `j` groups, when so many runs have been filled. -/
structure Amortised (s : PackState) (j full : Nat) : Prop where
  groups : 256 * full + s.ffN ≤ j
  size : s.size ≤ 8 * j + 2 * full + if s.ffN = 0 then 0 else 2

theorem Amortised.next (before : Amortised s j full) :
    ∃ full, Amortised (packGroup mem srcsz s (8 * j)) (j + 1) full := by
  obtain ⟨groups, size⟩ := before
  have counts := packGroup_counts mem srcsz s j
  by_cases filled : 0 < s.ffN ∧ 6 ≤ (nonzeros (group mem srcsz j)).length ∧ s.ffN = 255
  · refine ⟨full + 1, ?_, ?_⟩ <;> grind
  · refine ⟨full, ?_, ?_⟩ <;> grind

theorem groups_amortised (mem : Nat → UInt8) (srcsz : Nat) (buffer : Nat → UInt8) (bufsz : Int)
    (n : Nat) :
    ∃ full, Amortised ((range n).foldl (fun s j => packGroup mem srcsz s (8 * j))
      ⟨source mem srcsz 0, 0, 0, 0, bufsz, buffer, false⟩) n full := by
  induction n with
  | zero => exact ⟨0, Nat.le_refl 0, Nat.le_refl 0⟩
  | succ n ih =>
    obtain ⟨full, before⟩ := ih
    rw [range_succ, foldl_append]
    exact before.next

/- The padding of the last group is zero. -/
theorem nonzeros_group_le (mem : Nat → UInt8) (srcsz j : Nat) :
    (nonzeros (group mem srcsz j)).length ≤ srcsz - 8 * j := by
  have most := nonzeros_length_le (group mem srcsz j)
  rw [group_length] at most
  by_cases cut : srcsz < 8 * j + 8
  · have parts := window_add (padded mem srcsz) (8 * j) (srcsz - 8 * j) (8 - (srcsz - 8 * j))
    have zeros : window (padded mem srcsz) (8 * j + (srcsz - 8 * j)) (8 - (srcsz - 8 * j)) =
        replicate (8 - (srcsz - 8 * j)) 0 := window_padded_zero (by omega)
    rw [Nat.add_sub_of_le (by omega), zeros] at parts
    have first := nonzeros_length_le (window (padded mem srcsz) (8 * j) (srcsz - 8 * j))
    rw [window_length] at first
    rw [group, parts]
    simpa [nonzeros, filter_append, filter_replicate] using first
  · omega

end Groups

theorem sprotoPack_size (mem : Nat → UInt8) (srcsz : Nat) (buffer : Nat → UInt8) (bufsz : Int) :
    (sprotoPack mem srcsz buffer bufsz).size = ((range ((srcsz + 7) / 8)).foldl
      (fun s j => packGroup mem srcsz s (8 * j))
      ⟨source mem srcsz 0, 0, 0, 0, bufsz, buffer, false⟩).size := by
  unfold sprotoPack
  dsimp only
  split_ifs <;> simp only [writeFf_size]

end Skynet.Sproto
