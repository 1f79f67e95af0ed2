import Skynet.Sproto.Pack

/-! The packed format: a message is cut into groups of eight bytes, a group is written with
a tag for its non-zero bytes, and runs of groups with few zeros are copied after 0xff. -/
namespace Skynet.Sproto
open Base List

def nonzeros (g : List UInt8) : List UInt8 := g.filter (· ≠ 0)

/- The tag of the bytes from the i-th on. -/
def tagFrom : Nat → List UInt8 → UInt8
  | _, [] => 0
  | i, b :: g => (if b ≠ 0 then 1 <<< i.toUInt8 else 0) ||| tagFrom (i + 1) g

inductive Segment where
  | tagged (g : List UInt8)
  | run (gs : List (List UInt8))
  deriving DecidableEq, Repr

def Segment.encode : Segment → List UInt8
  | .tagged g => tagFrom 0 g :: nonzeros g
  | .run gs => 0xff :: (gs.length - 1).toUInt8 :: gs.flatten

def Segment.raw : Segment → List UInt8
  | .tagged g => g
  | .run gs => gs.flatten

def encode (segs : List Segment) : List UInt8 := segs.flatMap Segment.encode

theorem encode_append (segs : List Segment) (seg : Segment) :
    encode (segs ++ [seg]) = encode segs ++ seg.encode := by
  simp [encode]

/-- What the format allows: a tagged group has a zero byte, a run at most 256 groups. -/
def Segment.Valid : Segment → Prop
  | .tagged g => g.length = 8 ∧ (nonzeros g).length < 8
  | .run gs => gs ≠ [] ∧ gs.length ≤ 256 ∧ ∀ g ∈ gs, g.length = 8

/-- The segments so far, and the groups of a run that is not closed. -/
structure Packing where
  done : List Segment
  run : List (List UInt8)
  deriving DecidableEq, Repr

def Packing.next (p : Packing) (g : List UInt8) : Packing :=
  if p.run = [] then
    if (nonzeros g).length = 8 then { p with run := [g] }
    else { p with done := p.done ++ [.tagged g] }
  else if (nonzeros g).length ≥ 6 then
    if p.run.length + 1 = 256 then ⟨p.done ++ [.run (p.run ++ [g])], []⟩
    else { p with run := p.run ++ [g] }
  else ⟨p.done ++ [.run p.run, .tagged g], []⟩

def Packing.finish (p : Packing) : List Segment :=
  if p.run = [] then p.done else p.done ++ [.run p.run]

/-- What holds of the segments of these groups. -/
structure Packing.Sound (p : Packing) (gs : List (List UInt8)) : Prop where
  raw : p.done.flatMap Segment.raw ++ p.run.flatten = gs.flatten
  valid : ∀ seg ∈ p.done, seg.Valid
  short : p.run.length < 256
  eight : ∀ g ∈ p.run, g.length = 8

theorem packing_empty : Packing.Sound ⟨[], []⟩ [] :=
  ⟨rfl, nofun, by decide, nofun⟩

theorem nonzeros_length_le (g : List UInt8) : (nonzeros g).length ≤ g.length :=
  length_filter_le ..

section Sound
variable {p : Packing} {gs : List (List UInt8)} {g : List UInt8}

section
variable (sound : p.Sound gs)
include sound

theorem Packing.Sound.close (open' : p.run ≠ []) :
    Packing.Sound ⟨p.done ++ [.run p.run], []⟩ gs := by
  refine ⟨?_, ?_, Nat.zero_lt_succ 255, nofun⟩
  · simpa [Segment.raw] using sound.raw
  · intro seg member
    rcases mem_append.mp member with old | new
    · exact sound.valid seg old
    · rw [mem_singleton.mp new]
      exact ⟨open', Nat.le_of_lt sound.short, sound.eight⟩

theorem Packing.Sound.tag (closed : p.run = []) (eight : g.length = 8)
    (zero : (nonzeros g).length < 8) :
    Packing.Sound ⟨p.done ++ [.tagged g], []⟩ (gs ++ [g]) := by
  have raw := sound.raw
  rw [closed] at raw
  refine ⟨?_, ?_, Nat.zero_lt_succ 255, nofun⟩
  · simpa [Segment.raw] using raw
  · intro seg member
    rcases mem_append.mp member with old | new
    · exact sound.valid seg old
    · rw [mem_singleton.mp new]
      exact ⟨eight, zero⟩

theorem Packing.Sound.extend (eight : g.length = 8) :
    (p.done.flatMap Segment.raw ++ (p.run ++ [g]).flatten = (gs ++ [g]).flatten) ∧
      ∀ g' ∈ p.run ++ [g], g'.length = 8 := by
  constructor
  · have raw := sound.raw
    simp only [flatten_append, ← append_assoc, raw]
  · intro g' member
    rcases mem_append.mp member with old | new
    · exact sound.eight g' old
    · rwa [mem_singleton.mp new]

theorem Packing.Sound.next (eight : g.length = 8) : (p.next g).Sound (gs ++ [g]) := by
  obtain ⟨raw, each⟩ := sound.extend eight
  have most := nonzeros_length_le g
  unfold Packing.next
  split
  next closed =>
    split
    · rw [closed] at raw each
      exact ⟨raw, sound.valid, by simp, each⟩
    · next zero =>
      have tagged := sound.tag closed eight (by omega)
      simpa only [closed] using tagged
  next open' =>
    split
    · split
      · next full =>
        refine ⟨by simpa [Segment.raw] using raw, ?_, Nat.zero_lt_succ 255, nofun⟩
        intro seg member
        rcases mem_append.mp member with old | new
        · exact sound.valid seg old
        · rw [mem_singleton.mp new]
          exact ⟨by simp, by simp [full], each⟩
      · next room =>
        have short := sound.short
        refine ⟨raw, sound.valid, ?_, each⟩
        simp only [length_append, length_singleton]
        omega
    · next zero =>
      have tagged := (sound.close open').tag rfl eight (by omega)
      simpa using tagged

end

theorem packing_sound {gs : List (List UInt8)} (eight : ∀ g ∈ gs, g.length = 8) :
    (gs.foldl Packing.next ⟨[], []⟩).Sound gs := by
  induction gs using List.reverseRecOn with
  | nil => exact packing_empty
  | append_singleton gs g ih =>
    rw [foldl_append]
    exact (ih fun g' member => eight g' (mem_append_left [g] member)).next
      (eight g (mem_append_right gs (mem_singleton_self g)))

theorem Packing.Sound.finish (sound : p.Sound gs) :
    p.finish.flatMap Segment.raw = gs.flatten ∧ ∀ seg ∈ p.finish, seg.Valid := by
  unfold Packing.finish
  split
  next closed =>
    have raw := sound.raw
    rw [closed] at raw
    exact ⟨by simpa using raw, sound.valid⟩
  next open' =>
    have closed := sound.close open'
    exact ⟨by simpa using closed.raw, closed.valid⟩

end Sound

end Skynet.Sproto
