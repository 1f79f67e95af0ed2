import Skynet.Sproto.PackLoop
import Skynet.Sproto.Unpack

/-! The round trip of sproto_pack and sproto_unpack, and the inputs on which it fails: the
256th group of a run is written without the padding of the last group. -/
namespace Skynet.Sproto
open Base List

def groupOf (x : List UInt8) (j : Nat) : List UInt8 := window (fun k => x.getD k 0) (8 * j) 8

def groupsOf (x : List UInt8) (n : Nat) : List (List UInt8) := (range n).map (groupOf x)

/-- The bytes with zeros added up to the next multiple of 8. -/
def pad (x : List UInt8) : List UInt8 := x ++ replicate (align8 x.length - x.length) 0

/- How many groups a 0xff run that is not closed has, after one more group. -/
def runLength (r : Nat) (g : List UInt8) : Nat :=
  if r = 0 then if (nonzeros g).length = 8 then 1 else 0
  else if (nonzeros g).length ≥ 6 ∧ r + 1 ≠ 256 then r + 1 else 0

/-- The last group is cut, has six or seven non-zero bytes and is the 256th of a run. -/
def Overruns (x : List UInt8) : Prop :=
  x.length % 8 ≠ 0 ∧ (groupsOf x (x.length / 8)).foldl runLength 0 = 255 ∧
    (nonzeros (groupOf x (x.length / 8))).length ≥ 6

instance (x : List UInt8) : Decidable (Overruns x) := by
  unfold Overruns
  infer_instance

theorem run_length_next (p : Packing) (g : List UInt8) :
    (p.next g).run.length = runLength p.run.length g := by
  unfold Packing.next runLength
  by_cases closed : p.run = []
  · simp only [closed, if_true, length_nil]
    split <;> rfl
  · have busy : p.run.length ≠ 0 := fun zero => closed (length_eq_zero_iff.mp zero)
    simp only [closed, busy, if_false]
    by_cases many : (nonzeros g).length ≥ 6
    · by_cases last : p.run.length + 1 = 256
      · simp [many, last]
      · simp [many, last]
    · simp [many]

theorem run_length_fold (gs : List (List UInt8)) (p : Packing) :
    (gs.foldl Packing.next p).run.length = gs.foldl runLength p.run.length := by
  induction gs generalizing p with
  | nil => rfl
  | cons g gs ih => rw [foldl_cons, ih, run_length_next, foldl_cons]

def packing (x : List UInt8) (n : Nat) : Packing := (groupsOf x n).foldl Packing.next ⟨[], []⟩

theorem packing_succ (x : List UInt8) (n : Nat) :
    packing x (n + 1) = (packing x n).next (groupOf x n) := by
  simp [packing, groupsOf, range_succ]

theorem run_packing (x : List UInt8) (n : Nat) :
    (packing x n).run.length = (groupsOf x n).foldl runLength 0 :=
  run_length_fold (groupsOf x n) ⟨[], []⟩

def packed (x : List UInt8) : List UInt8 := encode (packing x ((x.length + 7) / 8)).finish

section Pack
variable {mem : Nat → UInt8} {x : List UInt8} (held : window mem 0 x.length = x)
include held

theorem padded_eq : padded mem x.length = fun k => x.getD k 0 := by
  funext k
  unfold padded
  split
  next inside =>
    have found := window_eq_iff.mp held k inside
    rw [Nat.zero_add] at found
    rw [found, getD_eq_getElem?_getD, getElem?_eq_getElem inside]
    rfl
  next outside =>
    rw [getD_eq_getElem?_getD, getElem?_eq_none (Nat.le_of_not_lt outside)]
    rfl

theorem group_eq (j : Nat) : group mem x.length j = groupOf x j := by
  unfold group groupOf
  rw [padded_eq held]

theorem follows_groups (buffer : Nat → UInt8) (bufsz : Int) (n : Nat) (inside : 8 * n ≤ x.length) :
    Follows mem x.length bufsz
      ((range n).foldl (fun s j => packGroup mem x.length s (8 * j))
        ⟨source mem x.length 0, 0, 0, 0, bufsz, buffer, false⟩) (packing x n) n := by
  induction n with
  | zero => exact follows_start mem x.length buffer bufsz
  | succ n ih =>
    rw [range_succ, foldl_append, packing_succ, ← group_eq held]
    exact (ih (by omega)).next (by omega) (.inl (by omega))

theorem sprotoPack_spec (fine : ¬ Overruns x) (buffer : Nat → UInt8) (bufsz : Int)
    (room : (packed x).length ≤ bufsz) :
    let r := sprotoPack mem x.length buffer bufsz
    r.overread = false ∧ r.size = (packed x).length ∧ window r.buffer 0 r.size = packed x := by
  have follows : Follows mem x.length bufsz
      ((range ((x.length + 7) / 8)).foldl (fun s j => packGroup mem x.length s (8 * j))
        ⟨source mem x.length 0, 0, 0, 0, bufsz, buffer, false⟩)
      (packing x ((x.length + 7) / 8)) ((x.length + 7) / 8) := by
    have inside : 8 * (x.length / 8) ≤ x.length := Nat.mul_div_le x.length 8
    have before := follows_groups held buffer bufsz (x.length / 8) inside
    by_cases even : x.length % 8 = 0
    · have count : (x.length + 7) / 8 = x.length / 8 := by omega
      rwa [count]
    · have count : (x.length + 7) / 8 = x.length / 8 + 1 := by omega
      rw [count, range_succ, foldl_append, packing_succ, ← group_eq held]
      refine before.next inside (.inr ?_)
      rintro ⟨full, many⟩
      rw [run_packing] at full
      rw [group_eq held] at many
      exact fine ⟨even, full, many⟩
  obtain ⟨overread, size, written⟩ := follows.finish
  refine ⟨overread, size, ?_⟩
  rw [sprotoPack, size]
  exact written room

/- The pointer of the run is followed by 2048 bytes that are not all in the source. -/
theorem sprotoPack_overruns (overruns : Overruns x) (buffer : Nat → UInt8) (bufsz : Int)
    (room : (encode (packing x (x.length / 8)).done).length + 2050 ≤ bufsz) :
    (sprotoPack mem x.length buffer bufsz).overread = true := by
  obtain ⟨cut, full, many⟩ := overruns
  have inside : 8 * (x.length / 8) ≤ x.length := Nat.mul_div_le x.length 8
  have follows := follows_groups held buffer bufsz (x.length / 8) inside
  rw [← run_packing] at full
  rw [← group_eq held] at many
  have count : (x.length + 7) / 8 = x.length / 8 + 1 := by omega
  unfold sprotoPack
  rw [count, range_succ, foldl_append, foldl_cons, foldl_nil]
  have open' : (packing x (x.length / 8)).run ≠ [] := fun closed => by simp [closed] at full
  have size := follows.size
  rw [if_neg open', full] at size
  obtain ⟨reads, idle⟩ := follows.overrun many (by omega) (by omega) (by omega)
  simpa only [idle, Nat.zero_ne_one, Nat.not_lt_zero, gt_iff_lt, if_false] using reads

end Pack

theorem flatten_groups (x : List UInt8) (n : Nat) :
    (groupsOf x n).flatten = window (fun k => x.getD k 0) 0 (8 * n) := by
  induction n with
  | zero => rfl
  | succ n ih =>
    have last : groupsOf x (n + 1) = groupsOf x n ++ [groupOf x n] := by
      simp [groupsOf, range_succ]
    rw [last, flatten_append, ih, Nat.mul_add, window_add]
    simp [groupOf]

theorem pad_eq (x : List UInt8) :
    pad x = (groupsOf x ((x.length + 7) / 8)).flatten := by
  have aligned : 8 * ((x.length + 7) / 8) = x.length + (align8 x.length - x.length) := by
    unfold align8
    omega
  rw [flatten_groups, aligned, window_add, pad]
  congr 1
  · exact (window_getD x 0).symm
  · rw [← padded_eq (window_getD x 0), window_padded_zero (Nat.le_of_eq (Nat.zero_add _).symm)]

/-- Packing depends on the message alone, and unpacking gives it back, padded. -/
def RoundTrips (x : List UInt8) : Prop :=
  ∃ output : List UInt8,
    (∀ mem buffer (bufsz : Int), window mem 0 x.length = x → output.length ≤ bufsz →
      let r := sprotoPack mem x.length buffer bufsz
      r.overread = false ∧ r.size = output.length ∧ window r.buffer 0 r.size = output) ∧
    ∀ mem buffer (bufsz : Int), window mem 0 output.length = output → (pad x).length ≤ bufsz →
      ∃ r, sprotoUnpack mem output.length buffer bufsz = some r ∧ r.overread = false ∧
        r.size = (pad x).length ∧ window r.buffer 0 r.size = pad x

theorem unpack_packed (x : List UInt8) {mem buffer : Nat → UInt8} {bufsz : Int}
    (held : window mem 0 (packed x).length = packed x) (room : (pad x).length ≤ bufsz) :
    ∃ r, sprotoUnpack mem (packed x).length buffer bufsz = some r ∧ r.overread = false ∧
      r.size = (pad x).length ∧ window r.buffer 0 r.size = pad x := by
  have eight : ∀ g ∈ groupsOf x ((x.length + 7) / 8), g.length = 8 := by
    intro g member
    obtain ⟨j, -, rfl⟩ := mem_map.mp member
    exact window_length ..
  obtain ⟨raw, valid⟩ := (packing_sound eight).finish
  rw [← pad_eq] at raw
  rw [← raw] at room ⊢
  obtain ⟨r, taken, emits⟩ := unpackLoop_spec _ valid (packed x).length
    ⟨0, (packed x).length, 0, bufsz, buffer, 0, false⟩ (Nat.le_refl _) room held rfl
    (Nat.le_of_eq (Nat.zero_add _))
  have size := emits.size
  rw [Nat.zero_add] at size
  refine ⟨r, taken, emits.overread, size, ?_⟩
  have written := emits.buffer
  rw [size]
  simpa [window] using written

/- Bytes without a zero form one run, closed after every 256 groups. -/
theorem groupOf_ones {n j : Nat} (inside : 8 * j + 8 ≤ n) :
    groupOf (replicate n 1) j = replicate 8 1 := by
  have ones : ∀ k, 8 * j ≤ k → k < 8 * j + 8 → (replicate n (1 : UInt8)).getD k 0 = 1 := by
    intro k _ high
    rw [getD_eq_getElem?_getD, getElem?_replicate, if_pos (by omega)]
    rfl
  exact window_congr ones

theorem groupsOf_ones {n m : Nat} (inside : 8 * m ≤ n) :
    groupsOf (replicate n 1) m = replicate m (replicate 8 1) := by
  refine eq_replicate_iff.mpr ⟨by simp [groupsOf], fun g member => ?_⟩
  obtain ⟨j, less, rfl⟩ := mem_map.mp member
  exact groupOf_ones (by have := mem_range.mp less; omega)

theorem runLength_ones {m : Nat} (short : m < 256) :
    (replicate m (replicate 8 (1 : UInt8))).foldl runLength 0 = m := by
  induction m with
  | zero => rfl
  | succ m ih =>
    have all : (nonzeros (replicate 8 1)).length = 8 := rfl
    rw [replicate_succ', foldl_append, ih (by omega), foldl_cons, foldl_nil, runLength, all]
    split_ifs <;> omega

theorem groupOf_cut {n j : Nat} (cut : 8 * j + 6 = n) :
    groupOf (replicate n 1) j = [1, 1, 1, 1, 1, 1, 0, 0] := by
  subst cut
  simp [groupOf, window, getD_eq_getElem?_getD]

theorem overruns_ones : Overruns (replicate 2046 1) := by
  unfold Overruns
  rw [length_replicate, groupsOf_ones (by decide), runLength_ones (by decide),
    groupOf_cut (by decide)]
  decide

theorem not_roundTrips {x : List UInt8} (overruns : Overruns x) : ¬ RoundTrips x := by
  rintro ⟨output, packs, -⟩
  obtain ⟨bufsz, room, enough⟩ : ∃ bufsz : Int, output.length ≤ bufsz ∧
      (encode (packing x (x.length / 8)).done).length + 2050 ≤ bufsz :=
    ⟨max output.length _, Int.le_max_left .., Int.le_max_right ..⟩
  have reads := sprotoPack_overruns (window_getD x 0) overruns (fun _ => 0) bufsz enough
  have fine := (packs _ (fun _ => 0) bufsz (window_getD x 0) room).1
  rw [reads] at fine
  exact Bool.noConfusion fine

/- 255 groups of non-zero bytes and six more bytes. -/
end Skynet.Sproto
