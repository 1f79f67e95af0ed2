import Skynet.Base.Memory

/-! Packing and unpacking of zero bytes in sproto.c. Both buffers are memory given by
address; a read past the end of an object is recorded, and what is read there is whatever
the memory holds. Sizes are integers without a bound. -/
namespace Skynet.Sproto
open Base Function List

/-- A pointer into an object: its distance to the source, the bytes from it on, and how
many of them belong to the object. -/
structure Pointer where
  offset : Nat
  bytes : Nat → UInt8
  extent : Nat

/- What pack_seg has after some of the eight bytes. -/
structure Seg where
  header : UInt8
  notzero : Nat
  pos : Nat
  sz : Int
  buffer : Nat → UInt8

def packByte (src : Nat → UInt8) (s : Seg) (i : Nat) : Seg :=
  if src i ≠ 0 then
    let s : Seg := { s with notzero := s.notzero + 1, header := s.header ||| (1 <<< i.toUInt8) }
    if s.sz > 0 then
      { s with buffer := update s.buffer s.pos (src i), pos := s.pos + 1, sz := s.sz - 1 }
    else s
  else s

/-- The buffer at `pos` has `sz` bytes left. -/
def packSeg (src : Nat → UInt8) (buffer : Nat → UInt8) (pos : Nat) (sz : Int) (n : Nat) :
    (Nat → UInt8) × Nat :=
  let s := (range 8).foldl (packByte src) ⟨0, 0, pos + 1, sz - 1, buffer⟩
  let notzero := if (s.notzero = 7 ∨ s.notzero = 6) ∧ n > 0 then 8 else s.notzero
  if notzero = 8 then (s.buffer, if n > 0 then 8 else 10)
  else (if sz - 1 < 0 then s.buffer else update s.buffer pos s.header, notzero + 1)

def align8 (n : Nat) : Nat := (n + 7) / 8 * 8

def writeFf (src : Pointer) (buffer : Nat → UInt8) (des n : Nat) : Nat → UInt8 :=
  store buffer des
    (0xff :: (align8 n / 8 - 1).toUInt8 ::
      (window src.bytes 0 n ++ replicate (align8 n - n) 0))

/-- The variables of sproto_pack; `size` is also the distance of `buffer` to its start. -/
structure PackState where
  ffSrcstart : Pointer
  ffDesstart : Nat
  ffN : Nat
  size : Nat
  bufsz : Int
  buffer : Nat → UInt8
  overread : Bool

def PackState.writeFf (s : PackState) (n : Nat) : PackState :=
  if s.bufsz ≥ 0 then
    { s with
      buffer := Sproto.writeFf s.ffSrcstart s.buffer s.ffDesstart n
      overread := s.overread || decide (s.ffSrcstart.extent < n) }
  else s

section Source
variable (mem : Nat → UInt8) (srcsz : Nat)

def source (i : Nat) : Pointer := ⟨i, fun k => mem (i + k), srcsz - i⟩

/- The side buffer; its distance to the source means nothing. -/
def tmp (i : Nat) : Pointer := ⟨0, fun k => if i + k < srcsz then mem (i + k) else 0, 8⟩

/- The last group is padded in the side buffer. -/
def packSource (i : Nat) : Pointer :=
  if i + 8 > srcsz then tmp mem srcsz i else source mem srcsz i

def packGroup (s : PackState) (i : Nat) : PackState :=
  let src := packSource mem srcsz i
  let seg := packSeg src.bytes s.buffer s.size s.bufsz s.ffN
  let n := seg.2
  let s : PackState :=
    { s with buffer := seg.1, bufsz := s.bufsz - n, overread := s.overread || src.extent < 8 }
  let s : PackState :=
    if n = 10 then { s with ffSrcstart := src, ffDesstart := s.size, ffN := 1 }
    else if n = 8 ∧ s.ffN > 0 then
      if s.ffN + 1 = 256 then { s.writeFf (256 * 8) with ffN := 0 }
      else { s with ffN := s.ffN + 1 }
    else if s.ffN > 0 then { s.writeFf (s.ffN * 8) with ffN := 0 }
    else s
  { s with size := s.size + n }

def sprotoPack (buffer : Nat → UInt8) (bufsz : Int) : PackState :=
  let s := (range ((srcsz + 7) / 8)).foldl (fun s j => packGroup mem srcsz s (8 * j))
    ⟨source mem srcsz 0, 0, 0, 0, bufsz, buffer, false⟩
  if s.ffN = 1 then s.writeFf 8
  else if s.ffN > 1 then s.writeFf (srcsz - s.ffSrcstart.offset)
  else s

/-- The variables of sproto_unpack. -/
structure UnpackState where
  src : Nat
  srcsz : Int
  pos : Nat
  bufsz : Int
  buffer : Nat → UInt8
  size : Nat
  overread : Bool

def UnpackState.put (s : UnpackState) (b : UInt8) : UnpackState :=
  if s.bufsz > 0 then
    { s with buffer := update s.buffer s.pos b, pos := s.pos + 1, bufsz := s.bufsz - 1 }
  else s

/- One of the eight bytes of a group with a tag. -/
def unpackByte (header : UInt8) (s : UnpackState) (i : Nat) : Option UnpackState :=
  if (header >>> i.toUInt8) &&& 1 ≠ 0 then
    if s.srcsz < 0 then none
    else
      let overread := s.overread || (decide (s.bufsz > 0) && decide (srcsz ≤ s.src))
      let s := s.put (mem s.src)
      some { s with
        src := s.src + 1, srcsz := s.srcsz - 1, size := s.size + 1, overread := overread }
  else
    let s := s.put 0
    some { s with size := s.size + 1 }

def unpackGroup (s : UnpackState) : Option UnpackState :=
  let header := mem s.src
  let s : UnpackState :=
    { s with
      src := s.src + 1, srcsz := s.srcsz - 1, overread := s.overread || decide (srcsz ≤ s.src) }
  if header = 0xff then
    if s.srcsz < 0 then none
    else
      let n := ((mem s.src).toNat + 1) * 8
      let s : UnpackState := { s with overread := s.overread || decide (srcsz ≤ s.src) }
      if s.srcsz < n + 1 then none
      else
        some {
          src := s.src + 1 + n
          srcsz := s.srcsz - (n + 1)
          pos := s.pos + n
          bufsz := s.bufsz - n
          buffer :=
            if s.bufsz ≥ n then store s.buffer s.pos (window mem (s.src + 1) n) else s.buffer
          size := s.size + n
          overread := s.overread || (decide (s.bufsz ≥ n) && decide (srcsz < s.src + 1 + n)) }
  else (range 8).foldlM (unpackByte mem srcsz header) s

/- Every group takes at least its header, so as many rounds as bytes are enough. -/
def unpackLoop : Nat → UnpackState → Option UnpackState
  | 0, s => some s
  | rounds + 1, s =>
    if s.srcsz > 0 then unpackGroup mem srcsz s >>= unpackLoop rounds else some s

def sprotoUnpack (buffer : Nat → UInt8) (bufsz : Int) : Option UnpackState :=
  unpackLoop mem srcsz srcsz ⟨0, srcsz, 0, bufsz, buffer, 0, false⟩

end Source

end Skynet.Sproto
