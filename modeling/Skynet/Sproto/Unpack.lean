import Skynet.Sproto.Packed

/-! Unpacking a sequence of valid segments gives back their bytes. -/
namespace Skynet.Sproto
open Base List Option

/- The tag depends only on which bytes are zero. -/
def tagBits : Nat → List Bool → UInt8
  | _, [] => 0
  | i, b :: l => (if b then 1 <<< i.toUInt8 else 0) ||| tagBits (i + 1) l

theorem tagFrom_eq (i : Nat) (g : List UInt8) :
    tagFrom i g = tagBits i (g.map fun b => decide (b ≠ 0)) := by
  induction g generalizing i with
  | nil => rfl
  | cons b g ih => simp only [tagFrom, map_cons, tagBits, ih, decide_eq_true_eq]

theorem tagBits_eight : ∀ a b c d e f g h : Bool, ∀ k : Fin 8,
    ((tagBits 0 [a, b, c, d, e, f, g, h] >>> k.val.toUInt8) &&& 1 ≠ 0 ↔
      [a, b, c, d, e, f, g, h].get k = true) ∧
    (tagBits 0 [a, b, c, d, e, f, g, h] = 0xff ↔
      [a, b, c, d, e, f, g, h].all id = true) := by
  decide +kernel

variable {bits : List Bool}

theorem tagBits_bit (eight : bits.length = 8) (k : Nat) (inside : k < bits.length) :
    (tagBits 0 bits >>> k.toUInt8) &&& 1 ≠ 0 ↔ bits[k] = true := by
  match bits, eight with
  | [a, b, c, d, e, f, g, h], _ => exact (tagBits_eight a b c d e f g h ⟨k, inside⟩).1

theorem tagBits_full (eight : bits.length = 8) :
    tagBits 0 bits = 0xff ↔ bits.all id = true := by
  match bits, eight with
  | [a, b, c, d, e, f, g, h], _ => exact (tagBits_eight a b c d e f g h 0).2

section Tag
variable {g : List UInt8} (eight : g.length = 8)
include eight

theorem tag_bit (k : Nat) (inside : k < g.length) :
    (tagFrom 0 g >>> k.toUInt8) &&& 1 ≠ 0 ↔ g[k] ≠ 0 := by
  have mapped : (g.map fun b => decide (b ≠ 0)).length = 8 := by simpa using eight
  have bit := tagBits_bit mapped k (by simpa using inside)
  rw [getElem_map, decide_eq_true_eq] at bit
  rw [tagFrom_eq]
  exact bit

/- A group with a zero byte does not look like a run. -/
theorem tag_ne_ff (zero : (nonzeros g).length < 8) : tagFrom 0 g ≠ 0xff := by
  intro full
  rw [tagFrom_eq, tagBits_full (by simpa using eight)] at full
  have all : nonzeros g = g := by
    refine filter_eq_self.mpr fun b member => ?_
    simpa using all_eq_true.mp full _ (mem_map_of_mem member)
  rw [all] at zero
  omega

end Tag

/-- From `s` to `s'` the loop uses some bytes of the source and puts out these bytes. -/
structure Emits (s s' : UnpackState) (used : Nat) (l : List UInt8) : Prop where
  src : s'.src = s.src + used
  srcsz : s'.srcsz = s.srcsz - used
  pos : s'.pos = s.pos + l.length
  bufsz : s'.bufsz = s.bufsz - l.length
  size : s'.size = s.size + l.length
  overread : s'.overread = s.overread
  buffer : window s'.buffer 0 (s.pos + l.length) = window s.buffer 0 s.pos ++ l

theorem Emits.refl (s : UnpackState) : Emits s s 0 [] :=
  ⟨rfl, by simp, rfl, by simp, rfl, rfl, by simp⟩

theorem Emits.trans {s₁ s₂ s₃ : UnpackState} {m n : Nat} {l l' : List UInt8}
    (first : Emits s₁ s₂ m l) (second : Emits s₂ s₃ n l') : Emits s₁ s₃ (m + n) (l ++ l') := by
  have length : (l ++ l').length = l.length + l'.length := length_append
  refine ⟨?_, ?_, ?_, ?_, ?_, ?_, ?_⟩
  · rw [second.src, first.src, Nat.add_assoc]
  · rw [second.srcsz, first.srcsz]
    omega
  · rw [second.pos, first.pos, length, Nat.add_assoc]
  · rw [second.bufsz, first.bufsz]
    omega
  · rw [second.size, first.size, length, Nat.add_assoc]
  · rw [second.overread, first.overread]
  · rw [length, ← Nat.add_assoc, ← first.pos, second.buffer, first.pos, first.buffer, append_assoc]

theorem emits_put (s : UnpackState) (b : UInt8) (room : 1 ≤ s.bufsz) :
    Emits s { s.put b with size := s.size + 1 } 0 [b] := by
  have positive : s.bufsz > 0 := by omega
  simp only [UnpackState.put, positive, if_true]
  refine ⟨rfl, by simp, rfl, rfl, rfl, rfl, ?_⟩
  rw [length_singleton, window_add, Nat.zero_add, window_update_outside (.inr (by omega))]
  simp [window]

section Source
variable {mem : Nat → UInt8} {srcsz : Nat} {header : UInt8} {s : UnpackState} {i : Nat}
  {gs : List (List UInt8)}

/- A bit of the tag tells whether its byte is stored. -/
theorem unpackByte_zero (room : 1 ≤ s.bufsz) (bit : (header >>> i.toUInt8) &&& 1 = 0) :
    ∃ s', unpackByte mem srcsz header s i = some s' ∧ Emits s s' 0 [0] := by
  refine ⟨_, ?_, emits_put s 0 room⟩
  have size : (s.put 0).size = s.size := by
    unfold UnpackState.put
    split <;> rfl
  simp only [unpackByte, bit, ne_eq, not_true, if_false, size]

theorem unpackByte_stored (room : 1 ≤ s.bufsz) (bit : (header >>> i.toUInt8) &&& 1 ≠ 0)
    (left : 0 ≤ s.srcsz) (inside : s.src < srcsz) :
    ∃ s', unpackByte mem srcsz header s i = some s' ∧ Emits s s' 1 [mem s.src] := by
  have put := emits_put s (mem s.src) room
  have positive : s.bufsz > 0 := by omega
  simp only [unpackByte, bit, ne_eq, not_false_eq_true, if_true, Int.not_lt.mpr left, if_false]
  refine ⟨_, rfl, ?_⟩
  simp only [UnpackState.put, positive, if_true] at put ⊢
  exact ⟨rfl, by simp, put.pos, put.bufsz, put.size, by simp [Nat.not_le.mpr inside], put.buffer⟩

theorem unpackBytes_spec (l : List UInt8) (i : Nat) (s : UnpackState)
    (bits : ∀ k (inside : k < l.length), (header >>> (i + k).toUInt8) &&& 1 ≠ 0 ↔ l[k] ≠ 0)
    (room : l.length ≤ s.bufsz) (held : window mem s.src (nonzeros l).length = nonzeros l)
    (left : (nonzeros l).length ≤ s.srcsz) (inside : s.src + (nonzeros l).length ≤ srcsz) :
    ∃ s', (range' i l.length).foldlM (unpackByte mem srcsz header) s = some s' ∧
      Emits s s' (nonzeros l).length l := by
  induction l generalizing i s with
  | nil => exact ⟨s, rfl, Emits.refl s⟩
  | cons b l ih =>
    have later : ∀ k (inside : k < l.length),
        (header >>> (i + 1 + k).toUInt8) &&& 1 ≠ 0 ↔ l[k] ≠ 0 := by
      intro k inside
      rw [Nat.add_right_comm i 1 k]
      exact bits (k + 1) (Nat.succ_lt_succ inside)
    have bit := bits 0 (Nat.zero_lt_succ _)
    rw [Nat.add_zero, getElem_cons_zero] at bit
    rw [length_cons] at room
    rw [length_cons, range'_succ]
    obtain ⟨s₁, k, taken, first, count, held⟩ : ∃ s₁ k,
        unpackByte mem srcsz header s i = some s₁ ∧ Emits s s₁ k [b] ∧
          (nonzeros (b :: l)).length = k + (nonzeros l).length ∧
          window mem (s.src + k) (nonzeros l).length = nonzeros l := by
      by_cases zero : b = 0
      · have same : nonzeros (b :: l) = nonzeros l := by simp [nonzeros, zero]
        rw [same] at held ⊢
        obtain ⟨s₁, taken, first⟩ :
            ∃ s', unpackByte mem srcsz header s i = some s' ∧ Emits s s' 0 [0] :=
          unpackByte_zero (by omega) (by simpa [zero] using bit)
        exact ⟨s₁, 0, taken, zero ▸ first, (Nat.zero_add _).symm, held⟩
      · have same : nonzeros (b :: l) = b :: nonzeros l := by simp [nonzeros, zero]
        rw [same, length_cons] at held left inside ⊢
        obtain ⟨now, held⟩ := cons.inj held
        obtain ⟨s₁, taken, first⟩ :
            ∃ s', unpackByte mem srcsz header s i = some s' ∧ Emits s s' 1 [mem s.src] :=
          unpackByte_stored (by omega) (bit.mpr zero) (by omega) (by omega)
        exact ⟨s₁, 1, taken, now ▸ first, Nat.add_comm .., held⟩
    have moved := first.src
    have sz := first.srcsz
    have buf := first.bufsz
    obtain ⟨s₂, rest, second⟩ := ih (i + 1) s₁ later
      (by simp only [length_singleton] at buf; omega) (by rwa [moved]) (by omega) (by omega)
    refine ⟨s₂, ?_, ?_⟩
    · simpa only [foldlM_cons, taken, bind_eq_bind, bind_some] using rest
    · rw [count]
      exact first.trans second

theorem flatten_eight (eight : ∀ g ∈ gs, g.length = 8) :
    gs.flatten.length = gs.length * 8 := by
  induction gs with
  | nil => rfl
  | cons g gs ih =>
    rw [flatten_cons, length_append, eight g (mem_cons_self ..),
      ih fun g' member => eight g' (mem_cons_of_mem g member), length_cons]
    omega

theorem unpackGroup_tagged {g : List UInt8} (valid : (Segment.tagged g).Valid) (s : UnpackState)
    (room : g.length ≤ s.bufsz)
    (held : window mem s.src ((nonzeros g).length + 1) = tagFrom 0 g :: nonzeros g)
    (left : ((nonzeros g).length + 1 : Nat) ≤ s.srcsz)
    (inside : s.src + ((nonzeros g).length + 1) ≤ srcsz) :
    ∃ s', unpackGroup mem srcsz s = some s' ∧ Emits s s' ((nonzeros g).length + 1) g := by
  obtain ⟨eight, zero⟩ := valid
  rw [window] at held
  obtain ⟨header, held⟩ := cons.inj held
  have ordinary : mem s.src ≠ 0xff := header ▸ tag_ne_ff eight zero
  have fine : (s.overread || decide (srcsz ≤ s.src)) = s.overread := by
    simp only [Bool.or_eq_left_iff_imp, decide_eq_true_eq]
    omega
  have bits : ∀ k (inside : k < g.length),
      (mem s.src >>> (0 + k).toUInt8) &&& 1 ≠ 0 ↔ g[k] ≠ 0 := by
    simpa only [Nat.zero_add, header] using tag_bit eight
  have after : s.src + 1 + (nonzeros g).length ≤ srcsz := by omega
  obtain ⟨s', taken, emits⟩ := unpackBytes_spec g 0
    { s with src := s.src + 1, srcsz := s.srcsz - 1 } bits room held (by dsimp only; omega) after
  rw [eight, ← range_eq_range'] at taken
  refine ⟨s', ?_, ?_⟩
  · simpa only [unpackGroup, ordinary, if_false, fine] using taken
  · have srcsz := emits.srcsz
    have src := emits.src
    dsimp only at src srcsz
    exact ⟨by omega, by omega, emits.pos, emits.bufsz, emits.size, emits.overread, emits.buffer⟩

theorem unpackGroup_run (valid : (Segment.run gs).Valid) (s : UnpackState)
    (room : gs.flatten.length ≤ s.bufsz)
    (held : window mem s.src (gs.flatten.length + 2) =
      0xff :: (gs.length - 1).toUInt8 :: gs.flatten)
    (left : (gs.flatten.length + 2 : Nat) ≤ s.srcsz)
    (inside : s.src + (gs.flatten.length + 2) ≤ srcsz) :
    ∃ s', unpackGroup mem srcsz s = some s' ∧ Emits s s' (gs.flatten.length + 2) gs.flatten := by
  obtain ⟨some', short, eight⟩ := valid
  have positive := length_pos_iff.mpr some'
  obtain ⟨header, held⟩ := cons.inj held
  obtain ⟨count, held⟩ := cons.inj held
  have length : ((mem (s.src + 1)).toNat + 1) * 8 = gs.flatten.length := by
    rw [count, flatten_eight eight, UInt8.toNat_ofNat', Nat.mod_eq_of_lt (by omega)]
    omega
  simp only [unpackGroup, header, length, if_true]
  rw [if_neg (by omega), if_neg (by omega), if_pos (by omega), held]
  refine ⟨_, rfl, ⟨?_, ?_, rfl, rfl, rfl, ?_, window_store_append ..⟩⟩
  · dsimp only
    omega
  · dsimp only
    omega
  · simp only [Bool.or_assoc, Bool.or_eq_left_iff_imp, Bool.or_eq_true, Bool.and_eq_true,
      decide_eq_true_eq]
    omega

theorem unpackGroup_spec {seg : Segment} (valid : seg.Valid) (s : UnpackState)
    (room : seg.raw.length ≤ s.bufsz) (held : window mem s.src seg.encode.length = seg.encode)
    (left : seg.encode.length ≤ s.srcsz) (inside : s.src + seg.encode.length ≤ srcsz) :
    ∃ s', unpackGroup mem srcsz s = some s' ∧ Emits s s' seg.encode.length seg.raw := by
  cases seg with
  | tagged g => exact unpackGroup_tagged valid s room held left inside
  | run gs => exact unpackGroup_run valid s room held left inside

theorem unpackLoop_spec (segs : List Segment) (valid : ∀ seg ∈ segs, seg.Valid) (rounds : Nat)
    (s : UnpackState) (enough : (encode segs).length ≤ rounds)
    (room : (segs.flatMap Segment.raw).length ≤ s.bufsz)
    (held : window mem s.src (encode segs).length = encode segs)
    (left : s.srcsz = (encode segs).length) (inside : s.src + (encode segs).length ≤ srcsz) :
    ∃ s', unpackLoop mem srcsz rounds s = some s' ∧
      Emits s s' (encode segs).length (segs.flatMap Segment.raw) := by
  induction segs generalizing rounds s with
  | nil =>
    have done : ¬ s.srcsz > 0 := by rw [left]; exact Int.lt_irrefl 0
    refine ⟨s, ?_, Emits.refl s⟩
    cases rounds with
    | zero => rfl
    | succ rounds => simp only [unpackLoop, done, if_false]
  | cons seg segs ih =>
    have split : encode (seg :: segs) = seg.encode ++ encode segs := rfl
    have raw : (seg :: segs).flatMap Segment.raw = seg.raw ++ segs.flatMap Segment.raw := rfl
    have positive : 0 < seg.encode.length := by cases seg <;> simp [Segment.encode]
    rw [split, length_append] at enough held left inside
    rw [raw, length_append] at room
    rw [window_add] at held
    obtain ⟨here, later⟩ := append_inj held (window_length ..)
    have fits : s.src + seg.encode.length ≤ srcsz := by omega
    obtain ⟨s₁, taken, first⟩ := unpackGroup_spec (valid seg (mem_cons_self ..)) s (by omega)
      here (by omega) fits
    have src := first.src
    have sz := first.srcsz
    have buf := first.bufsz
    cases rounds with
    | zero => omega
    | succ rounds =>
      obtain ⟨s₂, rest, second⟩ := ih (fun seg' member => valid seg' (mem_cons_of_mem seg member))
        rounds s₁ (by omega) (by omega) (by rwa [src]) (by omega) (by omega)
      refine ⟨s₂, ?_, ?_⟩
      · have more : s.srcsz > 0 := by omega
        simpa only [unpackLoop, more, if_true, taken, bind_eq_bind, bind_some] using rest
      · rw [split, raw, length_append]
        exact first.trans second

end Source

end Skynet.Sproto
