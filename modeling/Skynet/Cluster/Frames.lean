import Skynet.Cluster.Wire

/-! The frames that the packing functions leave in their buffer. -/
namespace Skynet.Cluster
open Base List

/-- A frame: its length in two bytes, high byte first, and that many bytes. -/
def frame (body : List UInt8) : List UInt8 := header body.length ++ body

def strip (f : List UInt8) : List UInt8 := f.drop 2

def frameLength : List UInt8 → Nat
  | hi :: lo :: _ => hi.toNat * 256 + lo.toNat
  | _ => 0

/-- The length is right, and the frame fits the buffer it is made in. -/
def Framed (f : List UInt8) : Prop := f.length = frameLength f + 2 ∧ f.length ≤ tempLength

theorem strip_frame (body : List UInt8) : strip (frame body) = body := rfl

variable {n : Nat} {body : List UInt8}

theorem frameLength_header (small : n < 0x10000) (body : List UInt8) :
    frameLength (header n ++ body) = n := by
  have mask : ∀ m, m &&& 0xff = m % 256 := fun m => Nat.and_two_pow_sub_one_eq_mod m 8
  have hi : (n >>> 8 &&& 0xff).toUInt8.toNat = n / 256 := by
    rw [Nat.toUInt8, UInt8.toNat_ofNat', mask, Nat.shiftRight_eq_div_pow]
    omega
  have lo : (n &&& 0xff).toUInt8.toNat = n % 256 := by
    rw [Nat.toUInt8, UInt8.toNat_ofNat', mask]
    omega
  change (n >>> 8 &&& 0xff).toUInt8.toNat * 256 + (n &&& 0xff).toUInt8.toNat = n
  rw [hi, lo]
  omega

theorem framed_frame (short : body.length ≤ 0x81fe) : Framed (frame body) := by
  have length : (frame body).length = body.length + 2 := by
    rw [frame, length_append, Nat.add_comm]
    rfl
  refine ⟨?_, ?_⟩
  · rw [length, frame, frameLength_header (by omega)]
  · rw [length, tempLength]
    omega

section Filling
variable {buf : Buffer}

def Filled (buf : Buffer) (n : Nat) (l : List UInt8) : Prop := window buf 0 n = l

/- A step writes these bytes at `n`, and nothing after them. -/
def Puts (step : Except Error Buffer) (buf : Buffer) (n : Nat) (bytes : List UInt8) : Prop :=
  ∃ buf', step = .ok buf' ∧ (∀ l, Filled buf n l → Filled buf' (n + bytes.length) (l ++ bytes)) ∧
    ∀ k, n + bytes.length ≤ k → buf' k = buf k

variable {n sz : Nat} {bytes l : List UInt8} {b : UInt8}

theorem puts_put (fits : n + bytes.length ≤ 0x8200) :
    Puts (put buf n bytes) buf n bytes := by
  refine ⟨store buf n bytes, if_pos fits, ?_, fun k after => store_after after⟩
  intro l filled
  rw [Filled, window_store_append, filled]

theorem puts_byte (fits : n + 1 ≤ 0x8200) :
    Puts (setByte buf n b) buf n [b] :=
  puts_put fits

theorem puts_uint32 {value : Nat} (fits : n + 4 ≤ 0x8200) :
    Puts (fillUint32 buf n value) buf n (leBytes 4 value) :=
  puts_put (by rwa [leBytes_length])

theorem puts_header (small : sz < 0x10000) :
    Puts (fillHeader buf sz) buf 0 (header sz) := by
  rw [fillHeader, if_pos small]
  exact puts_put (show 2 ≤ 0x8200 by decide)

theorem puts_memcpy {ptr : Nat} {msg : List UInt8} (inside : ptr + sz ≤ msg.length)
    (fits : n + sz ≤ 0x8200) :
    Puts (memcpy buf n msg ptr sz) buf n ((msg.drop ptr).take sz) := by
  rw [memcpy, if_pos inside]
  refine puts_put (Nat.le_trans ?_ fits)
  exact Nat.add_le_add_left (length_take_le ..) n

/-- A step of a packing function, and the rest of it. -/
theorem Puts.then {α : Type} {step : Except Error Buffer} {m : Nat} {rest : Buffer → Except Error α}
    {r : Except Error α} (puts : Puts step buf n bytes) (filled : Filled buf n l)
    (sum : n + bytes.length = m) (next : ∀ buf', Filled buf' m (l ++ bytes) → rest buf' = r) :
    (step >>= rest) = r := by
  obtain ⟨buf', ran, fill, -⟩ := puts
  rw [ran]
  exact next buf' (sum ▸ fill l filled)

theorem filled_none : Filled buf 0 [] := rfl

/- A byte that was written before what stands in front of it. -/
theorem Filled.byte (filled : Filled buf n l) (here : buf n = b) :
    Filled buf (n + 1) (l ++ [b]) := by
  rw [Filled, window_add, filled, Nat.zero_add, window, window, here]

theorem setByte_here (b : UInt8) (fits : n < 0x8200) :
    ∃ buf', setByte buf n b = .ok buf' ∧ buf' n = b :=
  ⟨store buf n [b], if_pos fits, by simp [store]⟩

end Filling

theorem add_leBytes (n : Nat) {k value : Nat} : n + k + (leBytes 4 value).length = n + 4 + k := by
  rw [leBytes_length]
  omega

theorem header_frame (length : body.length = n) :
    header n ++ body = frame body := by
  rw [frame, length]

section Bodies

/- What the frames of a request hold. -/
def numberBody (t : UInt8) (addr session : Nat) (rest : List UInt8) : List UInt8 :=
  t :: (leBytes 4 addr ++ (leBytes 4 session ++ rest))

def nameBody (t : UInt8) (name : List UInt8) (session : Nat) (rest : List UInt8) : List UInt8 :=
  t :: name.length.toUInt8 :: (name ++ (leBytes 4 session ++ rest))

def partBody (t : UInt8) (session : Nat) (rest : List UInt8) : List UInt8 :=
  t :: (leBytes 4 session ++ rest)

/- In a response the type comes after the session. -/
def answerBody (t : UInt8) (session : Nat) (rest : List UInt8) : List UInt8 :=
  leBytes 4 session ++ t :: rest

theorem numberBody_length (t : UInt8) (addr session : Nat) (rest : List UInt8) :
    (numberBody t addr session rest).length = rest.length + 9 := by
  simp only [numberBody, length_cons, length_append, leBytes_length]
  omega

theorem nameBody_length (t : UInt8) (name : List UInt8) (session : Nat) (rest : List UInt8) :
    (nameBody t name session rest).length = rest.length + 6 + name.length := by
  simp only [nameBody, length_cons, length_append, leBytes_length]
  omega

theorem partBody_length (t : UInt8) (session : Nat) (rest : List UInt8) :
    (partBody t session rest).length = rest.length + 5 := by
  simp only [partBody, length_cons, length_append, leBytes_length]
  omega

theorem answerBody_length (t : UInt8) (session : Nat) (rest : List UInt8) :
    (answerBody t session rest).length = rest.length + 5 := by
  simp only [answerBody, length_cons, length_append, leBytes_length]
  omega

end Bodies

section Requests
variable (stack : Buffer) {n : Int} {session : Nat} {msg name : List UInt8}

theorem packreqNumber_small (small : msg.length < multiPart) :
    packreqNumber stack n session msg msg.length =
      .ok (frame (numberBody 0 (n % 2 ^ 32).toNat session msg), 0) := by
  have bound : msg.length < 0x8000 := small
  rw [packreqNumber, if_pos small]
  refine (puts_header (by omega)).then filled_none rfl fun _ head => ?_
  refine (puts_byte (by decide)).then head rfl fun _ type => ?_
  refine (puts_uint32 (by decide)).then type rfl fun _ target => ?_
  refine (puts_uint32 (by decide)).then target rfl fun _ number => ?_
  refine (puts_memcpy (by omega) (by omega)).then number rfl fun _ copied => ?_
  rw [drop_zero, take_length, Filled] at copied
  simp only [pure, Except.pure, copied, ← header_frame (numberBody_length 0 _ session msg)]
  simp only [numberBody, nil_append, append_assoc, cons_append]

theorem packreqNumber_large (large : ¬ msg.length < multiPart) :
    packreqNumber stack n session msg msg.length =
      .ok (frame (numberBody 1 (n % 2 ^ 32).toNat session (leBytes 4 msg.length)),
        (msg.length - 1) / multiPart + 1) := by
  rw [packreqNumber, if_neg large]
  refine (puts_header (by decide)).then filled_none rfl fun _ head => ?_
  refine (puts_byte (by decide)).then head rfl fun _ type => ?_
  refine (puts_uint32 (by decide)).then type rfl fun _ target => ?_
  refine (puts_uint32 (by decide)).then target rfl fun _ number => ?_
  refine (puts_uint32 (by decide)).then number rfl fun b₅ (filled : window b₅ 0 15 = _) => ?_
  simp only [pure, Except.pure, filled,
    ← header_frame (numberBody_length 1 _ session (leBytes 4 msg.length))]
  simp only [numberBody, nil_append, append_assoc, cons_append, leBytes_length]

theorem packreqString_small (short : name.length ≤ 255) (nonempty : 1 ≤ name.length)
    (small : msg.length < multiPart) :
    packreqString stack name session msg msg.length =
      .ok (frame (nameBody 0x80 name session msg), 0) := by
  have bound : msg.length < 0x8000 := small
  rw [packreqString, if_neg (by omega), if_pos small]
  refine (puts_header (by omega)).then filled_none rfl fun _ head => ?_
  refine (puts_byte (by decide)).then head rfl fun _ type => ?_
  refine (puts_byte (by decide)).then type rfl fun _ length => ?_
  refine (puts_put (by omega)).then length rfl fun _ target => ?_
  refine (puts_uint32 (by omega)).then target (add_leBytes 4) fun _ number => ?_
  refine (puts_memcpy (by omega) (by omega)).then number rfl fun _ copied => ?_
  rw [drop_zero, take_length, Filled] at copied
  simp only [pure, Except.pure, copied, ← header_frame (nameBody_length 0x80 name session msg)]
  simp only [nameBody, nil_append, append_assoc, cons_append]

theorem packreqString_large (short : name.length ≤ 255) (nonempty : 1 ≤ name.length)
    (large : ¬ msg.length < multiPart) :
    packreqString stack name session msg msg.length =
      .ok (frame (nameBody 0x81 name session (leBytes 4 msg.length)),
        (msg.length - 1) / multiPart + 1) := by
  rw [packreqString, if_neg (by omega), if_neg large]
  refine (puts_header (by omega)).then filled_none rfl fun _ head => ?_
  refine (puts_byte (by decide)).then head rfl fun _ type => ?_
  refine (puts_byte (by decide)).then type rfl fun _ length => ?_
  refine (puts_put (by omega)).then length rfl fun _ target => ?_
  refine (puts_uint32 (by omega)).then target (add_leBytes 4) fun _ number => ?_
  refine (puts_uint32 (by omega)).then number (add_leBytes 8) fun _ size => ?_
  rw [Filled] at size
  simp only [pure, Except.pure, size,
    ← header_frame (nameBody_length 0x81 name session (leBytes 4 msg.length))]
  simp only [nameBody, nil_append, append_assoc, cons_append, leBytes_length]

end Requests

section Parts

variable {ptr s : Nat} {msg : List UInt8}

/- One part of a message. The type is written first; it stands before the session in a request and
after it in a response. -/
theorem part_frame {k p : Nat} {body : UInt8 → Nat → List UInt8 → List UInt8} (buf : Buffer)
    (session : Nat) (t : UInt8)
    (place : k = 2 ∧ p = 3 ∧ body = partBody ∨ k = 6 ∧ p = 2 ∧ body = answerBody)
    (inside : ptr + s ≤ msg.length) (small : s ≤ multiPart) :
    ∃ b₁ b₂ b₃ b₄, setByte buf k t = .ok b₁ ∧ fillHeader b₁ (s + 5) = .ok b₂ ∧
      fillUint32 b₂ p session = .ok b₃ ∧ memcpy b₃ 7 msg ptr s = .ok b₄ ∧
      window b₄ 0 (7 + s) = frame (body t session ((msg.drop ptr).take s)) := by
  have bound : s ≤ 0x8000 := small
  have length : ((msg.drop ptr).take s).length = s := by
    rw [length_take, length_drop]
    omega
  have low : k < 0x8200 ∧ p + 4 ≤ 0x8200 := by
    rcases place with ⟨rfl, rfl, -⟩ | ⟨rfl, rfl, -⟩ <;> decide
  obtain ⟨b₁, type, here⟩ := @setByte_here buf k t low.1
  obtain ⟨b₂, head, fill₂, keeps₂⟩ : Puts (fillHeader b₁ (s + 5)) b₁ 0 _ := puts_header (by omega)
  obtain ⟨b₃, number, fill₃, keeps₃⟩ : Puts (fillUint32 b₂ p session) b₂ p _ := puts_uint32 low.2
  obtain ⟨b₄, copied, fill₄, -⟩ : Puts (memcpy b₃ 7 msg ptr s) b₃ 7 _ :=
    puts_memcpy inside (by omega)
  refine ⟨b₁, b₂, b₃, b₄, type, head, number, copied, ?_⟩
  rw [length] at fill₄
  rcases place with ⟨rfl, rfl, rfl⟩ | ⟨rfl, rfl, rfl⟩
  · have kept : b₂ 2 = t := (keeps₂ 2 (Nat.le_refl 2)).trans here
    have filled := fill₄ _ (fill₃ _ (Filled.byte (fill₂ [] filled_none) kept))
    rw [Filled] at filled
    rw [filled, ← header_frame (partBody_length t session _), length]
    simp only [partBody, nil_append, append_assoc, cons_append]
  · have kept : b₃ 6 = t :=
      (keeps₃ 6 (show 2 + 4 ≤ 6 by decide)).trans ((keeps₂ 6 (show 2 ≤ 6 by decide)).trans here)
    have filled := fill₄ _ (Filled.byte (fill₃ _ (fill₂ [] filled_none)) kept)
    rw [Filled] at filled
    rw [filled, ← header_frame (answerBody_length t session _), length]
    simp only [answerBody, nil_append, append_assoc, cons_append]

end Parts

section Responses
variable (stack : Buffer)

theorem packSmall_eq {session sz : Nat} {ok : Bool} {msg : List UInt8} (inside : sz ≤ msg.length)
    (small : sz ≤ multiPart) :
    packSmall stack session ok msg sz =
      .ok (frame (answerBody (if ok then 1 else 0) session (msg.take sz))) := by
  have bound : sz ≤ 0x8000 := small
  have length : (msg.take sz).length = sz := by
    rw [length_take]
    omega
  rw [packSmall]
  refine (puts_header (by omega)).then filled_none rfl fun _ head => ?_
  refine (puts_uint32 (by decide)).then head rfl fun _ number => ?_
  refine (puts_byte (by decide)).then number rfl fun _ type => ?_
  refine (puts_memcpy (by omega) (by omega)).then type rfl fun _ copied => ?_
  rw [drop_zero, length, Filled] at copied
  simp only [pure, Except.pure, copied, ← header_frame (answerBody_length _ session (msg.take sz))]
  simp only [answerBody, nil_append, append_assoc, cons_append, length]

end Responses

end Skynet.Cluster
