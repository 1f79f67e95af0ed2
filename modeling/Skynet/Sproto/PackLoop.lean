import Skynet.Sproto.Packed

/-! The loop of sproto_pack writes the packed format, as long as its buffer has room and it
does not read past the source. -/
namespace Skynet.Sproto
open Base List Function

section Seg
variable (src : Nat → UInt8)

/- The bytes of one group; a byte is stored while there is room. -/
theorem packByte_fold (n : Nat) (i : Nat) (s : Seg) :
    let s' := (range' i n).foldl (packByte src) s
    let stored := nonzeros (window src i n)
    s'.header = s.header ||| tagFrom i (window src i n) ∧
      s'.notzero = s.notzero + stored.length ∧
      (∀ k < s.pos, s'.buffer k = s.buffer k) ∧
      ((stored.length : Int) ≤ s.sz → window s'.buffer s.pos stored.length = stored) := by
  induction n generalizing i s with
  | zero => simp [window, nonzeros, tagFrom]
  | succ n ih =>
    rw [range'_succ, foldl_cons]
    by_cases zero : src i = 0
    · have skipped : packByte src s i = s := by simp [packByte, zero]
      have kept : nonzeros (window src i (n + 1)) = nonzeros (window src (i + 1) n) := by
        simp [window, nonzeros, zero]
      rw [skipped, kept]
      have := ih (i + 1) s
      simpa [window, tagFrom, zero] using this
    · have kept : nonzeros (window src i (n + 1)) = src i :: nonzeros (window src (i + 1) n) := by
        simp [window, nonzeros, zero]
      obtain ⟨header, notzero, before, stored⟩ := ih (i + 1) (packByte src s i)
      have tag : (packByte src s i).header = s.header ||| (1 <<< i.toUInt8) := by
        by_cases room : s.sz > 0 <;> simp [packByte, zero, room]
      have count : (packByte src s i).notzero = s.notzero + 1 := by
        by_cases room : s.sz > 0 <;> simp [packByte, zero, room]
      refine ⟨?_, ?_, ?_, ?_⟩
      · rw [header, tag, UInt8.or_assoc]
        simp [window, tagFrom, zero]
      · rw [notzero, count, kept, length_cons]
        omega
      · intro k less
        by_cases room : s.sz > 0
        · rw [before k (by simp [packByte, zero, room]; omega)]
          simp [packByte, zero, room, update_of_ne (Nat.ne_of_lt less)]
        · rw [before k (by simpa [packByte, zero, room] using less)]
          simp [packByte, zero, room]
      · rw [kept, length_cons]
        intro enough
        have room : s.sz > 0 := by omega
        have moved : packByte src s i = ⟨s.header ||| (1 <<< i.toUInt8), s.notzero + 1, s.pos + 1,
            s.sz - 1, update s.buffer s.pos (src i)⟩ := by
          simp [packByte, zero, room]
        rw [moved] at before stored ⊢
        have rest := stored (by dsimp only; omega)
        have first := (before s.pos (Nat.lt_succ_self _)).trans (update_self ..)
        rw [window, rest, first]

variable (buffer : Nat → UInt8) (pos : Nat) (sz : Int) (n : Nat)

theorem packSeg_before {k : Nat} (before : k < pos) :
    (packSeg src buffer pos sz n).1 k = buffer k := by
  obtain ⟨-, -, kept, -⟩ := packByte_fold src 8 0 ⟨0, 0, pos + 1, sz - 1, buffer⟩
  rw [← range_eq_range'] at kept
  have same := kept k (Nat.lt_succ_of_lt before)
  have other : k ≠ pos := Nat.ne_of_lt before
  unfold packSeg
  generalize (range 8).foldl (packByte src) ⟨0, 0, pos + 1, sz - 1, buffer⟩ = s at same ⊢
  by_cases room : sz - 1 < 0
  · simp only [room, if_true]
    split_ifs <;> exact same
  · simp only [room, if_false]
    split_ifs <;> first | exact same | exact (update_of_ne other ..).trans same

theorem packSeg_size :
    (packSeg src buffer pos sz n).2 =
      if n > 0 then if (nonzeros (window src 0 8)).length ≥ 6 then 8
        else (nonzeros (window src 0 8)).length + 1
      else if (nonzeros (window src 0 8)).length = 8 then 10
        else (nonzeros (window src 0 8)).length + 1 := by
  obtain ⟨-, count, -, -⟩ := packByte_fold src 8 0 ⟨0, 0, pos + 1, sz - 1, buffer⟩
  rw [← range_eq_range', Nat.zero_add] at count
  have most := nonzeros_length_le (window src 0 8)
  rw [window_length] at most
  unfold packSeg
  dsimp only
  rw [count]
  split_ifs <;> first | rfl | omega

theorem packSeg_tagged (room : (nonzeros (window src 0 8)).length + 1 ≤ sz)
    (few : (nonzeros (window src 0 8)).length < if n > 0 then 6 else 8) :
    window (packSeg src buffer pos sz n).1 pos ((nonzeros (window src 0 8)).length + 1) =
      (Segment.tagged (window src 0 8)).encode := by
  obtain ⟨header, count, -, stored⟩ := packByte_fold src 8 0 ⟨0, 0, pos + 1, sz - 1, buffer⟩
  rw [← range_eq_range'] at header count stored
  rw [Nat.zero_add] at count
  rw [UInt8.zero_or] at header
  have bytes := stored (by dsimp only; omega)
  have tagged : ¬ (if ((nonzeros (window src 0 8)).length = 7 ∨
      (nonzeros (window src 0 8)).length = 6) ∧ n > 0 then 8
      else (nonzeros (window src 0 8)).length) = 8 := by
    split_ifs at few ⊢ <;> omega
  unfold packSeg
  dsimp only
  rw [count, if_neg tagged, if_neg (by omega), header]
  dsimp only
  rw [window, update_self, window_update_outside (.inl (Nat.lt_succ_self pos)), bytes]
  rfl

end Seg

def padded (mem : Nat → UInt8) (srcsz : Nat) : Nat → UInt8 :=
  fun k => if k < srcsz then mem k else 0

def group (mem : Nat → UInt8) (srcsz j : Nat) : List UInt8 := window (padded mem srcsz) (8 * j) 8

section Loop
variable {mem : Nat → UInt8} {srcsz : Nat} {pos n j : Nat} {gs : List (List UInt8)}

theorem window_padded (inside : pos + n ≤ srcsz) :
    window (padded mem srcsz) pos n = window mem pos n :=
  window_congr fun k _ high => if_pos (by omega)

theorem window_padded_zero (outside : srcsz ≤ pos) :
    window (padded mem srcsz) pos n = replicate n 0 := by
  induction n generalizing pos with
  | zero => rfl
  | succ n ih =>
    have zero : padded mem srcsz pos = 0 := if_neg (by omega)
    rw [window, zero, ih (by omega), replicate_succ]

/- Either pointer shows the bytes of the group. -/
theorem packSource_window (j : Nat) :
    window (packSource mem srcsz (8 * j)).bytes 0 8 = group mem srcsz j := by
  unfold packSource
  split
  · exact window_shift (padded mem srcsz) (8 * j) 0 8
  next inside =>
    unfold group
    rw [window_padded (by omega)]
    exact window_shift mem (8 * j) 0 8

theorem packSource_extent (i : Nat) : ¬ (packSource mem srcsz i).extent < 8 := by
  unfold packSource
  split
  · exact Nat.lt_irrefl 8
  · simp only [source]
    omega

theorem group_length (j : Nat) : (group mem srcsz j).length = 8 := window_length ..

/- The last byte of a partial group is zero. -/
theorem nonzeros_partial (cut : srcsz < 8 * j + 8) :
    (nonzeros (group mem srcsz j)).length < 8 := by
  have last : padded mem srcsz (8 * j + 7) = 0 := if_neg (by omega)
  have few : ∀ b : UInt8, b = 0 → ∀ l : List UInt8, l.length = 7 →
      (nonzeros (l ++ [b])).length < 8 := by
    rintro b rfl l seven
    have most := nonzeros_length_le l
    simp only [nonzeros, filter_append] at most ⊢
    simpa using (by omega : (l.filter (· ≠ 0)).length < 8)
  have split := window_add (padded mem srcsz) (8 * j) 7 1
  unfold group
  rw [split]
  exact few _ last _ (window_length ..)

/-- The state of the loop after `j` groups, of which `p` is the packing. -/
structure Follows (mem : Nat → UInt8) (srcsz : Nat) (bufsz : Int) (s : PackState) (p : Packing)
    (j : Nat) : Prop where
  count : s.ffN = p.run.length
  room : s.bufsz = bufsz - s.size
  size : s.size = (encode p.done).length +
    if p.run = [] then 0 else 2 + 8 * p.run.length
  des : p.run ≠ [] → s.ffDesstart = (encode p.done).length
  src : p.run ≠ [] → ∃ start, s.ffSrcstart = source mem srcsz (8 * start) ∧
    start + p.run.length = j ∧ 8 * start + 8 ≤ srcsz ∧
    p.run.flatten = window (padded mem srcsz) (8 * start) (8 * p.run.length)
  written : 0 ≤ s.bufsz →
    window s.buffer 0 (encode p.done).length = encode p.done
  overread : s.overread = false

theorem follows_start (mem : Nat → UInt8) (srcsz : Nat) (buffer : Nat → UInt8) (bufsz : Int) :
    Follows mem srcsz bufsz ⟨source mem srcsz 0, 0, 0, 0, bufsz, buffer, false⟩ ⟨[], []⟩ 0 :=
  ⟨rfl, by simp, rfl, nofun, nofun, fun _ => rfl, rfl⟩

theorem writeFf_run {src : Pointer} (buffer : Nat → UInt8) (des : Nat) (low : 8 * gs.length < n + 8)
    (high : n ≤ 8 * gs.length)
    (bytes : window src.bytes 0 n ++ replicate (8 * gs.length - n) 0 = gs.flatten) :
    writeFf src buffer des n = store buffer des (Segment.run gs).encode := by
  have aligned : align8 n = 8 * gs.length := by
    unfold align8
    omega
  rw [writeFf, aligned, bytes, Nat.mul_div_cancel_left _ (by decide)]
  rfl

/- The same, where the bytes are those of the source; only at its end zeros are added. -/
theorem writeFf_source {start : Nat} (buffer : Nat → UInt8) (des : Nat)
    (run : gs.flatten = window (padded mem srcsz) (8 * start) (8 * gs.length))
    (low : 8 * gs.length < n + 8) (inside : 8 * start + n ≤ srcsz)
    (rest : n = 8 * gs.length ∨ n ≤ 8 * gs.length ∧ 8 * start + n = srcsz) :
    writeFf (source mem srcsz (8 * start)) buffer des n =
      store buffer des (Segment.run gs).encode := by
  have high : n ≤ 8 * gs.length := by omega
  apply writeFf_run buffer des low high
  have zeros : window (padded mem srcsz) (8 * start + n) (8 * gs.length - n) =
      replicate (8 * gs.length - n) 0 := by
    rcases rest with whole | ⟨-, ends⟩
    · rw [whole, Nat.sub_self]
      rfl
    · exact window_padded_zero (by omega)
  rw [run, ← Nat.add_sub_of_le high, window_add, window_padded inside, Nat.add_sub_cancel_left,
    zeros]
  exact congrArg (· ++ _) (window_shift mem (8 * start) 0 n)

theorem run_append {start : Nat}
    (run : gs.flatten = window (padded mem srcsz) (8 * start) (8 * gs.length))
    (after : start + gs.length = j) :
    (gs ++ [group mem srcsz j]).flatten =
      window (padded mem srcsz) (8 * start) (8 * (gs ++ [group mem srcsz j]).length) := by
  rw [flatten_append, run, length_append, Nat.mul_add, window_add]
  simp [group, ← after, Nat.mul_add]

theorem encode_run_length {start : Nat}
    (run : gs.flatten = window (padded mem srcsz) (8 * start) (8 * gs.length)) :
    (Segment.run gs).encode.length = 2 + 8 * gs.length := by
  rw [Segment.encode, run, length_cons, length_cons, window_length]
  omega

section WriteFf
variable (s : PackState) (n : Nat)

theorem writeFf_bufsz : (s.writeFf n).bufsz = s.bufsz := by
  unfold PackState.writeFf
  split <;> rfl

theorem writeFf_size : (s.writeFf n).size = s.size := by
  unfold PackState.writeFf
  split <;> rfl

theorem writeFf_buffer (enough : 0 ≤ s.bufsz) :
    (s.writeFf n).buffer = writeFf s.ffSrcstart s.buffer s.ffDesstart n := by
  unfold PackState.writeFf
  rw [if_pos enough]

theorem writeFf_overread (inside : ¬ s.ffSrcstart.extent < n) :
    (s.writeFf n).overread = s.overread := by
  unfold PackState.writeFf
  split
  · simp [inside]
  · rfl

end WriteFf

section Step
variable {bufsz : Int} {s : PackState} {p : Packing} {j : Nat}
  (follows : Follows mem srcsz bufsz s p j)
include follows

/- pack_seg leaves alone what is written. -/
theorem Follows.kept (n : Nat) (enough : 0 ≤ s.bufsz) :
    window (packSeg (packSource mem srcsz (8 * j)).bytes s.buffer s.size s.bufsz n).1 0
      (encode p.done).length = encode p.done := by
  have bound : (encode p.done).length ≤ s.size := by rw [follows.size]; omega
  have same : ∀ k, 0 ≤ k → k < 0 + (encode p.done).length →
      (packSeg (packSource mem srcsz (8 * j)).bytes s.buffer s.size s.bufsz n).1 k = s.buffer k :=
    fun k _ high => packSeg_before _ _ _ _ _ (by omega)
  exact (window_congr same).trans (follows.written enough)

theorem Follows.tagged (closed : p.run = []) (few : (nonzeros (group mem srcsz j)).length < 8) :
    Follows mem srcsz bufsz (packGroup mem srcsz s (8 * j))
      ⟨p.done ++ [.tagged (group mem srcsz j)], []⟩ (j + 1) := by
  have idle : s.ffN = 0 := by rw [follows.count, closed]; rfl
  have size : s.size = (encode p.done).length := by simpa [closed] using follows.size
  have answer := packSeg_size (packSource mem srcsz (8 * j)).bytes s.buffer s.size s.bufsz 0
  have tagged := packSeg_tagged (packSource mem srcsz (8 * j)).bytes s.buffer s.size s.bufsz 0
  rw [packSource_window] at answer tagged
  simp only [Nat.lt_irrefl, if_false, Nat.ne_of_lt few, gt_iff_lt] at answer tagged
  have ordinary : (nonzeros (group mem srcsz j)).length + 1 ≠ 10 := by omega
  have length : (encode (p.done ++ [.tagged (group mem srcsz j)])).length =
      s.size + ((nonzeros (group mem srcsz j)).length + 1) := by
    rw [encode_append, length_append, size]
    rfl
  have room := follows.room
  unfold packGroup
  simp only [idle, answer, ordinary, Nat.lt_irrefl, and_false, if_false, gt_iff_lt]
  refine ⟨rfl, ?_, ?_, nofun, nofun, ?_, ?_⟩
  · dsimp only
    omega
  · simp only [length, if_true, Nat.add_zero]
  · intro enough
    dsimp only at enough
    have kept := follows.kept 0 (by omega)
    rw [← size] at kept
    rw [length, window_add, Nat.zero_add, tagged (by omega) few, kept, encode_append]
  · simp [follows.overread, packSource_extent]

theorem Follows.start (closed : p.run = []) (all : (nonzeros (group mem srcsz j)).length = 8) :
    Follows mem srcsz bufsz (packGroup mem srcsz s (8 * j)) ⟨p.done, [group mem srcsz j]⟩
      (j + 1) := by
  have idle : s.ffN = 0 := by rw [follows.count, closed]; rfl
  have size : s.size = (encode p.done).length := by simpa [closed] using follows.size
  have full : 8 * j + 8 ≤ srcsz := by
    by_contra cut
    have few : (nonzeros (group mem srcsz j)).length < 8 := nonzeros_partial (Nat.lt_of_not_le cut)
    omega
  have pointer : packSource mem srcsz (8 * j) = source mem srcsz (8 * j) := if_neg (by omega)
  have answer := packSeg_size (packSource mem srcsz (8 * j)).bytes s.buffer s.size s.bufsz 0
  rw [packSource_window] at answer
  simp only [Nat.lt_irrefl, if_false, all, if_true, gt_iff_lt] at answer
  have room := follows.room
  unfold packGroup
  simp only [idle, answer, if_true]
  refine ⟨rfl, ?_, ?_, fun _ => size, fun _ => ?_, ?_, ?_⟩
  · dsimp only
    omega
  · simp [size]
  · exact ⟨j, pointer, rfl, full, by simp [group]⟩
  · intro enough
    dsimp only at enough
    exact follows.kept 0 (by omega)
  · simp [follows.overread, packSource_extent]

section
variable (open' : p.run ≠ [])
include open'

theorem Follows.busy : s.ffN > 0 := by
  rw [follows.count]
  exact length_pos_iff.mpr open'

section
variable (many : (nonzeros (group mem srcsz j)).length ≥ 6)
include many

theorem Follows.joins :
    s.ffN > 0 ∧ (packSeg (packSource mem srcsz (8 * j)).bytes s.buffer s.size s.bufsz s.ffN).2 =
      8 := by
  have busy := follows.busy open'
  have answer := packSeg_size (packSource mem srcsz (8 * j)).bytes s.buffer s.size s.bufsz s.ffN
  rw [packSource_window, if_pos busy, if_pos many] at answer
  exact ⟨busy, answer⟩

theorem Follows.join (short : p.run.length + 1 ≠ 256) :
    Follows mem srcsz bufsz (packGroup mem srcsz s (8 * j)) ⟨p.done, p.run ++ [group mem srcsz j]⟩
      (j + 1) := by
  obtain ⟨busy, answer⟩ := follows.joins open' many
  have room := follows.room
  have count := follows.count
  obtain ⟨start, pointer, after, full, bytes⟩ := follows.src open'
  have size := follows.size
  simp only [open', if_false] at size
  have notFull : s.ffN + 1 ≠ 256 := by rwa [count]
  unfold packGroup
  simp only [answer, busy, notFull, and_self, if_true, if_false, Nat.reduceEqDiff]
  refine ⟨by simp [count], ?_, ?_, fun _ => follows.des open', fun _ => ?_, ?_, ?_⟩
  · dsimp only
    omega
  · simp [size]
    omega
  · refine ⟨start, pointer, by simp; omega, full, ?_⟩
    exact run_append bytes after
  · intro enough
    dsimp only at enough
    exact follows.kept s.ffN (by omega)
  · simp [follows.overread, packSource_extent]

theorem Follows.full (last : p.run.length + 1 = 256) (inside : 8 * j + 8 ≤ srcsz) :
    Follows mem srcsz bufsz (packGroup mem srcsz s (8 * j))
      ⟨p.done ++ [.run (p.run ++ [group mem srcsz j])], []⟩ (j + 1) := by
  obtain ⟨busy, answer⟩ := follows.joins open' many
  have room := follows.room
  have size := follows.size
  simp only [open', if_false] at size
  have complete : s.ffN + 1 = 256 := by rwa [follows.count]
  obtain ⟨start, pointer, after, -, bytes⟩ := follows.src open'
  have run : (p.run ++ [group mem srcsz j]).flatten =
      window (padded mem srcsz) (8 * start) (8 * (p.run ++ [group mem srcsz j]).length) :=
    run_append bytes after
  have count : (p.run ++ [group mem srcsz j]).length = 256 := by simpa using last
  have length : (encode (p.done ++ [.run (p.run ++ [group mem srcsz j])])).length = s.size + 8 := by
    rw [encode_append, length_append, encode_run_length run, count]
    omega
  unfold packGroup
  simp only [answer, busy, complete, and_self, if_true, if_false, Nat.reduceEqDiff]
  refine ⟨rfl, ?_, ?_, nofun, nofun, ?_, ?_⟩
  · simp only [writeFf_bufsz, writeFf_size]
    omega
  · simp only [writeFf_size, length, if_true, Nat.add_zero]
  · intro enough
    simp only [writeFf_bufsz] at enough
    have kept := follows.kept s.ffN (by omega)
    rw [writeFf_buffer _ _ enough]
    rw [pointer, writeFf_source _ _ run (by omega) (by omega) (by omega), encode_append,
      length_append, follows.des open', window_store_append, kept]
  · rw [writeFf_overread]
    · simp [follows.overread, packSource_extent]
    · simp only [pointer, source]
      omega

end

theorem Follows.flush (few : (nonzeros (group mem srcsz j)).length < 6) (inside : 8 * j ≤ srcsz) :
    Follows mem srcsz bufsz (packGroup mem srcsz s (8 * j))
      ⟨p.done ++ [.run p.run, .tagged (group mem srcsz j)], []⟩ (j + 1) := by
  have busy := follows.busy open'
  have answer := packSeg_size (packSource mem srcsz (8 * j)).bytes s.buffer s.size s.bufsz s.ffN
  have tagged := packSeg_tagged (packSource mem srcsz (8 * j)).bytes s.buffer s.size s.bufsz s.ffN
  rw [packSource_window, if_pos busy, if_neg (Nat.not_le.mpr few)] at answer
  rw [packSource_window, if_pos busy] at tagged
  have ordinary : (nonzeros (group mem srcsz j)).length + 1 ≠ 10 := by omega
  have other : (nonzeros (group mem srcsz j)).length + 1 ≠ 8 := by omega
  have room := follows.room
  have count := follows.count
  have size := follows.size
  simp only [open', if_false] at size
  obtain ⟨start, pointer, after, -, run⟩ := follows.src open'
  have done : encode (p.done ++ [.run p.run, .tagged (group mem srcsz j)]) =
      encode p.done ++ (Segment.run p.run).encode ++
        (Segment.tagged (group mem srcsz j)).encode := by
    simp [encode]
  have length : (encode (p.done ++ [.run p.run, .tagged (group mem srcsz j)])).length =
      s.size + ((nonzeros (group mem srcsz j)).length + 1) := by
    rw [done, length_append, length_append, encode_run_length run, size]
    rfl
  unfold packGroup
  simp only [answer, busy, ordinary, other, false_and, if_true, if_false]
  refine ⟨rfl, ?_, ?_, by simp, by simp, ?_, ?_⟩
  · simp only [writeFf_bufsz, writeFf_size]
    omega
  · simp only [writeFf_size, length, if_true, Nat.add_zero]
  · intro enough
    simp only [writeFf_bufsz] at enough
    have kept := follows.kept s.ffN (by omega)
    have stored := window_store_append
      (packSeg (packSource mem srcsz (8 * j)).bytes s.buffer s.size s.bufsz s.ffN).1
      (encode p.done).length (Segment.run p.run).encode
    rw [encode_run_length run, ← size, kept] at stored
    rw [writeFf_buffer _ _ enough]
    rw [pointer, writeFf_source _ _ run (by omega) (by omega) (by omega), follows.des open', length,
      window_add, Nat.zero_add, stored, done,
      window_store_after (by rw [encode_run_length run, ← size]), tagged (by omega) few]
  · rw [writeFf_overread]
    · simp [follows.overread, packSource_extent]
    · simp only [pointer, source]
      omega

end

/- The 256th group closes the run; if it is cut, bytes after the source are read. -/
theorem Follows.overrun (many : (nonzeros (group mem srcsz j)).length ≥ 6)
    (last : p.run.length + 1 = 256) (cut : srcsz < 8 * j + 8) (room : s.size + 8 ≤ bufsz) :
    (packGroup mem srcsz s (8 * j)).overread = true ∧ (packGroup mem srcsz s (8 * j)).ffN = 0 := by
  have open' : p.run ≠ [] := fun closed => by simp [closed] at last
  obtain ⟨busy, answer⟩ := follows.joins open' many
  have complete : s.ffN + 1 = 256 := by rwa [follows.count]
  obtain ⟨start, pointer, after, -, -⟩ := follows.src open'
  have enough : s.bufsz - 8 ≥ 0 := by rw [follows.room]; omega
  have outside : srcsz - 8 * start < 256 * 8 := by omega
  unfold packGroup
  simp only [answer, busy, complete, and_self, and_true, if_true, if_false, Nat.reduceEqDiff]
  simp only [PackState.writeFf, Nat.cast_ofNat, enough, if_true, pointer, source, outside,
    decide_true, Bool.or_true]

/-- One group, unless it is the 256th of a run and does not lie in the source. -/
theorem Follows.next (inside : 8 * j ≤ srcsz)
    (whole : 8 * j + 8 ≤ srcsz ∨
      ¬ (p.run.length = 255 ∧ (nonzeros (group mem srcsz j)).length ≥ 6)) :
    Follows mem srcsz bufsz (packGroup mem srcsz s (8 * j)) (p.next (group mem srcsz j))
      (j + 1) := by
  have most := nonzeros_length_le (group mem srcsz j)
  rw [group_length] at most
  unfold Packing.next
  split
  next closed =>
    split
    next all => exact follows.start closed all
    next zero =>
      have tagged := follows.tagged closed (by omega)
      rwa [← closed] at tagged
  next open' =>
    split
    next many =>
      split
      next last => exact follows.full open' many last (by omega)
      next short => exact follows.join open' many short
    next few => exact follows.flush open' (by omega) inside

theorem Follows.idle (closed : p.run = []) : s.ffN = 0 := by
  rw [follows.count, closed]
  rfl

/- The run at the end of the message, written with the zeros it lacks. -/
theorem Follows.close {n : Nat} (open' : p.run ≠ [])
    (low : 8 * p.run.length < n + 8)
    (fits : ∀ start, start + p.run.length = j → 8 * start + 8 ≤ srcsz → 8 * start + n ≤ srcsz ∧
      (n = 8 * p.run.length ∨ n ≤ 8 * p.run.length ∧ 8 * start + n = srcsz)) :
    (s.writeFf n).overread = false ∧ (s.writeFf n).size = (encode p.finish).length ∧
      ((encode p.finish).length ≤ bufsz →
        window (s.writeFf n).buffer 0 (encode p.finish).length = encode p.finish) := by
  obtain ⟨start, pointer, after, first, run⟩ := follows.src open'
  obtain ⟨inside, rest⟩ := fits start after first
  have size := follows.size
  simp only [open', if_false] at size
  have done : p.finish = p.done ++ [.run p.run] := if_neg open'
  have length : (encode p.finish).length = s.size := by
    rw [done, encode_append, length_append, encode_run_length run, size]
  refine ⟨?_, ?_, ?_⟩
  · rw [writeFf_overread _ _ (by simp only [pointer, source]; omega), follows.overread]
  · rw [writeFf_size, length]
  · intro room
    have enough : 0 ≤ s.bufsz := by rw [follows.room]; omega
    rw [writeFf_buffer _ _ enough, pointer, writeFf_source _ _ run low inside rest,
      follows.des open', done, encode_append, length_append, window_store_append,
      follows.written enough]

end Step

theorem Follows.finish {bufsz : Int} {s : PackState} {p : Packing}
    (follows : Follows mem srcsz bufsz s p ((srcsz + 7) / 8)) :
    let r := if s.ffN = 1 then s.writeFf 8
      else if s.ffN > 1 then s.writeFf (srcsz - s.ffSrcstart.offset) else s
    r.overread = false ∧ r.size = (encode p.finish).length ∧
      ((encode p.finish).length ≤ bufsz →
        window r.buffer 0 (encode p.finish).length = encode p.finish) := by
  have count := follows.count
  by_cases closed : p.run = []
  · have idle := follows.idle closed
    have size := follows.size
    have done : p.finish = p.done := if_pos closed
    simp only [closed, if_true, Nat.add_zero] at size
    simp only [idle, Nat.zero_ne_one, Nat.not_lt_zero, gt_iff_lt, if_false, done]
    exact ⟨follows.overread, size, fun room => follows.written (by rw [follows.room]; omega)⟩
  · have busy := length_pos_iff.mpr closed
    by_cases one : s.ffN = 1
    · simp only [one, if_true]
      exact follows.close closed (by omega) fun start after first => by omega
    · have more : s.ffN > 1 := by omega
      obtain ⟨start, pointer, after, first, -⟩ := follows.src closed
      simp only [one, more, if_true, if_false, pointer]
      refine follows.close closed ?_ fun start' after' first' => ?_
      · simp only [source]
        omega
      · simp only [source]
        omega

end Loop

end Skynet.Sproto
