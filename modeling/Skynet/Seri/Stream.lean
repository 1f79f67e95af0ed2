import Skynet.Seri.Unpack

/-! The chain of blocks holds the bytes pushed, whatever the borders of the blocks; and what
a read block has left to read. -/
namespace Skynet.Seri
open Base Lua List

structure Holds (b : WriteBlock) (l : List UInt8) : Prop where
  full : ∀ block ∈ b.full, block.length = blockSize
  room : b.current.length ≤ blockSize
  len : b.len = l.length
  bytes : b.full.flatten ++ b.current = l

theorem holds_init : Holds wbInit [] :=
  ⟨nofun, Nat.zero_le _, rfl, rfl⟩

variable {b : WriteBlock} {l buf bytes rest : List UInt8} {rb : ReadBlock} {sz : Int}

section
variable (holds : Holds b l)
include holds

theorem holds_copy (fits : b.ptr + buf.length ≤ blockSize) : Holds (b.copy buf) (l ++ buf) := by
  refine ⟨holds.full, ?_, ?_, ?_⟩
  · simpa [WriteBlock.copy, WriteBlock.ptr] using fits
  · simp [WriteBlock.copy, holds.len]
  · simp only [WriteBlock.copy, ← append_assoc, holds.bytes]

theorem holds_fresh (filled : b.current.length = blockSize) :
    Holds ⟨b.full ++ [b.current], [], b.len⟩ l := by
  refine ⟨?_, Nat.zero_le _, holds.len, ?_⟩
  · intro block member
    rcases mem_append.mp member with old | new
    · exact holds.full block old
    · rw [mem_singleton.mp new, filled]
  · simpa using holds.bytes

theorem holds_again (filled : b.current.length = blockSize) : Holds (wbAgain b buf) (l ++ buf) := by
  fun_induction wbAgain b buf generalizing l with
  | case1 b buf fresh =>
    rename_i fits
    have room : fresh.ptr + buf.length ≤ blockSize := by simpa [fresh, WriteBlock.ptr] using fits
    exact holds_copy (holds_fresh holds filled) room
  | case2 b buf fresh long =>
    rename_i ih
    have whole : (buf.take blockSize).length = blockSize := by
      rw [length_take]
      omega
    have room : fresh.ptr + (buf.take blockSize).length ≤ blockSize := by
      rw [whole, WriteBlock.ptr, length_nil, Nat.zero_add]
    have first := holds_copy (holds_fresh holds filled) room
    have rest := ih first (by simpa [WriteBlock.copy, fresh] using whole)
    rwa [append_assoc, take_append_drop] at rest

theorem holds_push (buf : List UInt8) : Holds (wbPush b buf) (l ++ buf) := by
  unfold wbPush
  split
  next filled => exact holds_again holds filled
  split
  next fits => exact holds_copy holds fits
  next cut =>
    have room : b.ptr ≤ blockSize := holds.room
    have part : (buf.take (blockSize - b.ptr)).length = blockSize - b.ptr := by
      rw [length_take]
      omega
    have fits : b.ptr + (buf.take (blockSize - b.ptr)).length = blockSize := by omega
    have first := holds_copy holds (Nat.le_of_eq fits)
    have filled : (b.copy (buf.take (blockSize - b.ptr))).current.length = blockSize := by
      rw [WriteBlock.copy, length_append]
      exact fits
    have rest : Holds _ (_ ++ buf.drop (blockSize - b.ptr)) := holds_again first filled
    rwa [append_assoc, take_append_drop] at rest

end

theorem seri_blocks {full : List (List UInt8)} {current : List UInt8}
    (whole : ∀ block ∈ full, block.length = blockSize) :
    seri (full ++ [current]) (full.flatten ++ current).length = full.flatten ++ current := by
  induction full with
  | nil =>
    simp only [nil_append, flatten_nil, seri]
    split
    · exact append_nil current
    · exact take_of_length_le (Nat.le_refl _)
  | cons block full ih =>
    have length := whole block (mem_cons_self ..)
    have rest := ih fun block' member => whole block' (mem_cons_of_mem block member)
    simp only [cons_append, flatten_cons, append_assoc, seri]
    rw [length_append, length, if_pos (Nat.le_add_right ..), Nat.add_sub_cancel_left, rest]

theorem seri_holds (holds : Holds b l) :
    seri (b.full ++ [b.current]) b.len = l := by
  have known : seri (b.full ++ [b.current]) _ = _ := seri_blocks holds.full
  rwa [holds.bytes, ← holds.len] at known

def At (rb : ReadBlock) (rest : List UInt8) : Prop :=
  ∃ read, rb.buffer = read ++ rest ∧ rb.ptr = (read.length : Int) ∧ rb.len = (rest.length : Int)

theorem at_init (buffer : List UInt8) : At (rballInit buffer) buffer :=
  ⟨[], rfl, rfl, rfl⟩

theorem rbRead_at (here : At rb (bytes ++ rest)) (length : (bytes.length : Int) = sz) :
    ∃ rb', rbRead rb sz = some (bytes, rb') ∧ At rb' rest := by
  obtain ⟨read, buffer, ptr, len⟩ := here
  have enough : ¬ rb.len < sz := by
    rw [len, ← length, length_append]
    omega
  refine ⟨{ rb with ptr := rb.ptr + sz, len := rb.len - sz }, ?_, read ++ bytes, ?_, ?_, ?_⟩
  · have found : (rb.buffer.drop rb.ptr.toNat).take sz.toNat = bytes := by
      rw [buffer, ptr, ← length, Int.toNat_natCast, Int.toNat_natCast, drop_left, take_left]
    rw [rbRead, if_neg enough, found]
  · rw [buffer, append_assoc]
  · rw [ptr, ← length, length_append]
    rfl
  · rw [length_append] at len
    dsimp only
    omega

theorem rbReadOr_at (line : Nat) (here : At rb (bytes ++ rest))
    (length : (bytes.length : Int) = sz) :
    ∃ rb', rbReadOr line rb sz = .ok (bytes, rb') ∧ At rb' rest := by
  obtain ⟨rb', found, after⟩ := rbRead_at here length
  exact ⟨rb', by rw [rbReadOr, found], after⟩

theorem rbRead_end (here : At rb []) : rbRead rb 1 = none := by
  obtain ⟨read, -, -, len⟩ := here
  rw [rbRead, if_pos (by rw [len]; decide)]

end Skynet.Seri
