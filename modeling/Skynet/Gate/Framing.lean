import Skynet.Gate.Model

/-! The stream of a client as frames of a length header and that many bytes, and the
data buffer as the bytes of the stream that are not cut off yet. -/
namespace Skynet.ServiceGate
open Base List

/-- The number that the bytes of a header stand for. -/
def lengthOf (bytes : List UInt8) : Nat := bytes.foldl (fun n b => n * 256 + b.toNat) 0

theorem header_size_pos (style : Header) : 1 < style.size := by
  cases style <;> decide

/-- The payloads of a stream and what is left. -/
def parse (style : Header) (stream : List UInt8) : List (List UInt8) × List UInt8 :=
  let n := lengthOf (stream.take style.size)
  if style.size + n ≤ stream.length then
    let later := parse style (stream.drop (style.size + n))
    ((stream.drop style.size).take n :: later.1, later.2)
  else ([], stream)
termination_by stream.length
decreasing_by
  have pos := header_size_pos style
  simp only [List.length_drop]
  omega

/-- Where the frames with these payloads end in the stream. -/
def boundaries (style : Header) : Nat → List (List UInt8) → List Nat
  | _, [] => []
  | start, frame :: later =>
    (start + style.size + frame.length) ::
      boundaries style (start + style.size + frame.length) later

/-- How much of the stream such frames take. -/
def spanned (style : Header) : List (List UInt8) → Nat
  | [] => 0
  | frame :: later => style.size + frame.length + spanned style later

section Parse
variable {style : Header} {stream : List UInt8}

theorem parse_whole (whole : style.size + lengthOf (stream.take style.size) ≤ stream.length) :
    parse style stream =
      ((stream.drop style.size).take (lengthOf (stream.take style.size)) ::
        (parse style (stream.drop (style.size + lengthOf (stream.take style.size)))).1,
      (parse style (stream.drop (style.size + lengthOf (stream.take style.size)))).2) := by
  rw [parse]
  exact if_pos whole

theorem parse_short (short : stream.length < style.size + lengthOf (stream.take style.size)) :
    parse style stream = ([], stream) := by
  rw [parse]
  exact if_neg (Nat.not_le.mpr short)

theorem parse_nil (style : Header) : parse style [] = ([], []) := by
  have pos := header_size_pos style
  apply parse_short
  rw [length_nil]
  omega

theorem parse_append (style : Header) (stream more : List UInt8) :
    parse style (stream ++ more) =
      ((parse style stream).1 ++ (parse style ((parse style stream).2 ++ more)).1,
        (parse style ((parse style stream).2 ++ more)).2) := by
  fun_induction parse style stream with
  | case1 stream n whole later ih =>
    have header : (stream ++ more).take style.size = stream.take style.size :=
      take_append_of_le_length (by omega)
    have longer : style.size + lengthOf ((stream ++ more).take style.size) ≤
        (stream ++ more).length := by
      rw [header, length_append]
      omega
    rw [parse_whole longer, header, drop_append_of_le_length whole,
      drop_append_of_le_length (Nat.le_of_add_right_le whole),
      take_append_of_le_length, ih]
    · rfl
    · rw [length_drop]
      omega
  | case2 stream n short => rfl

theorem parse_rest (style : Header) (stream : List UInt8) :
    parse style (parse style stream).2 = ([], (parse style stream).2) := by
  fun_induction parse style stream with
  | case1 stream n whole later ih => exact ih
  | case2 stream n short => exact parse_short (Nat.not_le.mp short)

theorem frame_length {n : Nat} (whole : style.size + n ≤ stream.length) :
    ((stream.drop style.size).take n).length = n := by
  rw [length_take_of_le]
  rw [length_drop]
  omega

theorem parse_length (style : Header) (stream : List UInt8) :
    spanned style (parse style stream).1 + (parse style stream).2.length = stream.length := by
  fun_induction parse style stream with
  | case1 stream n whole later ih =>
    have size := frame_length whole
    have left : spanned style later.1 + later.2.length = stream.length - (style.size + n) := by
      rw [← length_drop]
      exact ih
    change spanned style (_ :: later.1) + later.2.length = stream.length
    rw [spanned, size, Nat.add_assoc, left]
    exact Nat.add_sub_cancel' whole
  | case2 stream n short => simp [spanned]

theorem boundaries_append (start : Nat) (first second : List (List UInt8)) :
    boundaries style start (first ++ second) =
      boundaries style start first ++ boundaries style (start + spanned style first) second := by
  induction first generalizing start with
  | nil => rfl
  | cons frame first ih =>
    rw [cons_append, boundaries, boundaries, cons_append, ih, spanned]
    simp only [Nat.add_assoc]

end Parse

theorem lengthOf_lt (bytes : List UInt8) : lengthOf bytes < 256 ^ bytes.length := by
  induction bytes using List.reverseRecOn with
  | nil => decide
  | append_singleton bytes b ih =>
    have below := b.toNat_lt
    have last : lengthOf (bytes ++ [b]) = lengthOf bytes * 256 + b.toNat := by
      simp [lengthOf]
    rw [last, length_append, length_singleton, Nat.pow_succ]
    omega

variable {n sz : Nat} {style : Header} {bytes rest : List UInt8} {db : DataBuffer}

theorem bmod_small (small : n < 0x80000000) : (n : Int).bmod 0x100000000 = n := by
  apply Int.bmod_eq_of_le <;> omega

theorem bmod_large (large : 0x80000000 ≤ n) (below : n < 0x100000000) :
    (n : Int).bmod 0x100000000 < 0 := by
  rw [Int.bmod_def]
  omega

section
variable (long : bytes.length = style.size)
include long

theorem plen_eq : plen style bytes = (lengthOf bytes : Int).bmod 0x100000000 := by
  match style, bytes, long with
  | .S, [b₀, b₁], _ =>
    have value : b₀.toNat <<< 8 ||| b₁.toNat = lengthOf [b₀, b₁] := by
      rw [← Nat.shiftLeft_add_eq_or_of_lt b₁.toNat_lt, Nat.shiftLeft_eq]
      simp [lengthOf]
    have small : lengthOf [b₀, b₁] < 256 ^ 2 := lengthOf_lt [b₀, b₁]
    rw [bmod_small (Nat.lt_trans small (by decide)), ← value]
    rfl
  | .L, [b₀, b₁, b₂, b₃], _ =>
    have value : b₀.toNat <<< 24 ||| b₁.toNat <<< 16 ||| b₂.toNat <<< 8 ||| b₃.toNat =
        lengthOf [b₀, b₁, b₂, b₃] := by
      rw [join_four _ b₁.toNat_lt b₂.toNat_lt b₃.toNat_lt]
      simp only [lengthOf, foldl_cons, foldl_nil]
      omega
    rw [← value]
    rfl

theorem plen_small (small : lengthOf bytes < 0x80000000) : plen style bytes = lengthOf bytes := by
  rw [plen_eq long, bmod_small small]

/- A header of four bytes is a negative length from 0x80000000 on. -/
theorem plen_large (large : 0x80000000 ≤ lengthOf bytes) : plen style bytes < 0 := by
  have most : 256 ^ style.size ≤ 0x100000000 := by cases style <;> decide
  rw [plen_eq long]
  apply bmod_large large
  exact Nat.lt_of_lt_of_le (lengthOf_lt bytes) (long.symm ▸ most)

end

def DataBuffer.unread (db : DataBuffer) : List UInt8 := Base.unread db.messages db.offset

/-- The size counts the unread bytes. -/
structure DataBuffer.Sound (db : DataBuffer) : Prop where
  inside : InFirst db.messages db.offset
  size : db.size = db.unread.length

theorem cleared_sound : DataBuffer.cleared.Sound := ⟨Nat.le_refl 0, rfl⟩

theorem readLoop_unread {messages : List (List UInt8)} {offset : Nat}
    (inside : InFirst messages offset) (some' : 0 < sz)
    (enough : sz ≤ (Base.unread messages offset).length) :
    ∃ later offset', readLoop messages offset sz =
        some ((Base.unread messages offset).take sz, later, offset') ∧
      InFirst later offset' ∧
      Base.unread later offset' = (Base.unread messages offset).drop sz := by
  induction messages generalizing offset sz with
  | nil =>
    rw [unread_nil] at enough
    exact absurd enough (Nat.not_le.mpr some')
  | cons current next ih =>
    simp only [readLoop]
    by_cases within : sz < (current.drop offset).length
    · have room : offset + sz ≤ current.length := by
        rw [length_drop] at within
        omega
      obtain ⟨inside', taken, dropped⟩ := unread_advance next room
      rw [if_pos within, taken]
      exact ⟨_, _, rfl, inside', dropped⟩
    · rw [if_neg within]
      rw [unread_cons inside] at enough ⊢
      rw [unread_zero, length_append] at enough
      by_cases exactly : (current.drop offset).length = sz
      · rw [if_pos exactly, ← exactly, take_left, drop_left]
        exact ⟨_, _, rfl, inFirst_zero _, rfl⟩
      · rw [if_neg exactly]
        have short : (current.drop offset).length ≤ sz := Nat.not_lt.mp within
        have left : sz - (current.drop offset).length ≤ (Base.unread next 0).length := by
          rw [unread_zero]
          exact Nat.sub_le_iff_le_add'.mpr enough
        obtain ⟨later, offset', read, inside', dropped⟩ :=
          ih (inFirst_zero next) (Nat.sub_pos_of_lt (Nat.lt_of_le_of_ne short exactly)) left
        rw [read, take_append, drop_append, take_of_length_le short,
          drop_eq_nil_of_le short, nil_append]
        exact ⟨later, offset', rfl, inside', dropped⟩

theorem DataBuffer.Sound.read (sound : db.Sound) (some' : 0 < sz) (enough : sz ≤ db.unread.length) :
    ∃ db', databufferRead db sz = some (db.unread.take sz, db') ∧ db'.Sound ∧
      db'.unread = db.unread.drop sz ∧ db'.header = db.header := by
  obtain ⟨later, offset', read, inside, dropped⟩ := readLoop_unread sound.inside some' enough
  refine ⟨{ db with size := db.size - sz, messages := later, offset := offset' }, ?_,
    ⟨inside, ?_⟩, dropped, rfl⟩
  · rw [databufferRead, if_pos (sound.size ▸ enough), read]
    rfl
  · change db.size - sz = (Base.unread later offset').length
    rw [dropped, length_drop, sound.size]
    rfl

theorem DataBuffer.Sound.push (sound : db.Sound) (data : List UInt8) :
    (databufferPush db data).Sound ∧ (databufferPush db data).unread = db.unread ++ data := by
  have longer : (databufferPush db data).unread = db.unread ++ data := unread_snoc sound.inside data
  refine ⟨⟨inFirst_snoc sound.inside data, ?_⟩, longer⟩
  rw [longer, length_append, ← sound.size]
  rfl

/-- The buffer keeps these bytes of the stream. Of a frame that is begun, the header
may be read already. -/
structure Keeps (style : Header) (db : DataBuffer) (rest : List UInt8) : Prop where
  sound : db.Sound
  kept : db.header = 0 ∧ db.unread = rest ∨
    db.header ≠ 0 ∧ style.size ≤ rest.length ∧ db.header = plen style (rest.take style.size) ∧
      db.unread = rest.drop style.size

section
variable (keeps : Keeps style db rest)
include keeps

theorem Keeps.push (data : List UInt8) : Keeps style (databufferPush db data) (rest ++ data) := by
  obtain ⟨sound, longer⟩ := keeps.sound.push data
  refine ⟨sound, ?_⟩
  rw [longer]
  rcases keeps.kept with ⟨start, bytes⟩ | ⟨begun, whole, header, bytes⟩
  · exact .inl ⟨start, congrArg (· ++ data) bytes⟩
  · refine .inr ⟨begun, by rw [length_append]; omega, ?_, ?_⟩
    · rw [take_append_of_le_length whole]
      exact header
    · rw [drop_append_of_le_length whole, bytes]

theorem Keeps.length_le : rest.length ≤ db.size + style.size := by
  rw [keeps.sound.size]
  rcases keeps.kept with ⟨-, bytes⟩ | ⟨-, whole, -, bytes⟩
  · rw [bytes]
    omega
  · rw [bytes, length_drop]
    omega

theorem Keeps.readheader_short (short : rest.length < style.size) :
    databufferReadheader db style = some (-1, db) := by
  rcases keeps.kept with ⟨start, bytes⟩ | ⟨-, whole, -, -⟩
  · have size : db.size < style.size := by rw [keeps.sound.size, bytes]; exact short
    rw [databufferReadheader, if_pos start, if_pos size]
  · exact absurd whole (Nat.not_le.mpr short)

theorem Keeps.readheader (whole : style.size ≤ rest.length) : ∃ db', databufferReadheader db style =
        some (if ((rest.drop style.size).length : Int) < plen style (rest.take style.size) then -1
          else plen style (rest.take style.size), db') ∧
      db'.Sound ∧ db'.unread = rest.drop style.size ∧
      db'.header = plen style (rest.take style.size) := by
  rcases keeps.kept with ⟨start, bytes⟩ | ⟨begun, -, header, bytes⟩
  · subst bytes
    obtain ⟨db', read, sound, unread, -⟩ := keeps.sound.read
      (Nat.lt_trans Nat.zero_lt_one (header_size_pos style)) whole
    refine ⟨{ db' with header := plen style (db.unread.take style.size) }, ?_,
      ⟨sound.inside, sound.size⟩, unread, rfl⟩
    have size : ¬ db.size < style.size := by rw [keeps.sound.size]; exact Nat.not_lt.mpr whole
    rw [databufferReadheader, if_pos start, if_neg size, read, ← unread, ← sound.size]
    rfl
  · refine ⟨db, ?_, keeps.sound, bytes, header⟩
    rw [databufferReadheader, if_neg begun, ← bytes, ← keeps.sound.size, ← header]

end

end Skynet.ServiceGate
