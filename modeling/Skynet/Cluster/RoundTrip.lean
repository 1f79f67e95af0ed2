import Skynet.Cluster.Frames

/-! Requests and responses come back from their frames. -/
namespace Skynet.Cluster
open Base List

section Decode

theorem unpackUint32_at {front rest buf : List UInt8} {n pos : Nat} (small : n < 2 ^ 32)
    (split : buf = front ++ (leBytes 4 n ++ rest)) (here : front.length = pos) :
    unpackUint32 buf pos = n := by
  have four : ∀ l : List UInt8, (leBytes 4 n ++ l).take 4 = leBytes 4 n := fun _ => rfl
  rw [unpackUint32, split, ← here, drop_left, four, leValue_leBytes_of_lt small]

variable {addr session : Nat} {name rest : List UInt8}

theorem numberBody_addr (t : UInt8) (small : addr < 2 ^ 32) :
    unpackUint32 (numberBody t addr session rest) 1 = addr :=
  unpackUint32_at small (show _ = [t] ++ _ from rfl) rfl

theorem numberBody_session (t : UInt8) (small : session < 2 ^ 32) :
    unpackUint32 (numberBody t addr session rest) 5 = session :=
  unpackUint32_at small (show _ = (t :: leBytes 4 addr) ++ _ from rfl) rfl

theorem unpack_number (addrSmall : addr < 2 ^ 32) (small : session < 2 ^ 32) :
    lunpackrequest (numberBody 0 addr session rest) =
      .ok ⟨some (.number addr), session, .bytes rest, false⟩ := by
  have length := numberBody_length 0 addr session rest
  have message : (numberBody 0 addr session rest).drop 9 = rest := rfl
  change unpackreqNumber _ _ = _
  rw [unpackreqNumber, if_neg (by omega), numberBody_addr 0 addrSmall, numberBody_session 0 small,
    message, length, Nat.add_sub_cancel, take_length]

variable {sz : Nat}

theorem unpack_numberLarge (addrSmall : addr < 2 ^ 32) (small : session < 2 ^ 32)
    (sizeSmall : sz < 2 ^ 32) :
    lunpackrequest (numberBody 1 addr session (leBytes 4 sz)) =
      .ok ⟨some (.number addr), session, .size sz, true⟩ := by
  have length := numberBody_length 1 addr session (leBytes 4 sz)
  have size : unpackUint32 (numberBody 1 addr session (leBytes 4 sz)) 9 = sz :=
    unpackUint32_at sizeSmall
      (show _ = (1 :: (leBytes 4 addr ++ leBytes 4 session)) ++ (leBytes 4 sz ++ []) from rfl) rfl
  rw [leBytes_length] at length
  change unpackmreqNumber _ _ = _
  rw [unpackmreqNumber, if_neg (by omega), numberBody_addr 1 addrSmall,
    numberBody_session 1 small, size]

theorem nameBody_size (t : UInt8) (short : name.length ≤ 255) :
    ((nameBody t name session rest).getD 1 0).toNat = name.length := by
  change name.length.toUInt8.toNat = name.length
  rw [Nat.toUInt8, UInt8.toNat_ofNat']
  omega

theorem nameBody_name (t : UInt8) : ((nameBody t name session rest).drop 2).take name.length =
    name := take_left

theorem nameBody_session (t : UInt8) (small : session < 2 ^ 32) :
    unpackUint32 (nameBody t name session rest) (name.length + 2) = session :=
  unpackUint32_at small (show _ = (t :: name.length.toUInt8 :: name) ++ _ from rfl) rfl

theorem unpack_name (short : name.length ≤ 255) (small : session < 2 ^ 32) :
    lunpackrequest (nameBody 0x80 name session rest) =
      .ok ⟨some (.name name), session, .bytes rest, false⟩ := by
  have length := nameBody_length 0x80 name session rest
  have message : (nameBody 0x80 name session rest).drop (2 + name.length + 4) = rest := by
    have split : nameBody 0x80 name session rest =
        (0x80 :: name.length.toUInt8 :: (name ++ leBytes 4 session)) ++ rest := by
      simp only [nameBody, cons_append, append_assoc]
    rw [split]
    refine drop_left' ?_
    simp only [length_cons, length_append, leBytes_length]
    omega
  have dispatch : ∀ l, lunpackrequest (0x80 :: l) = unpackreqString (0x80 :: l) (l.length + 1) :=
    fun l => by simp [lunpackrequest]
  refine (dispatch _).trans ?_
  change unpackreqString (nameBody 0x80 name session rest) (nameBody 0x80 name session rest).length =
    _
  simp only [unpackreqString, nameBody_size 0x80 short]
  rw [if_neg (by omega), if_neg (by omega), nameBody_name, nameBody_session 0x80 small, message,
    take_of_length_le (by omega)]

theorem unpack_nameLarge (short : name.length ≤ 255) (small : session < 2 ^ 32)
    (sizeSmall : sz < 2 ^ 32) :
    lunpackrequest (nameBody 0x81 name session (leBytes 4 sz)) =
      .ok ⟨some (.name name), session, .size sz, true⟩ := by
  have length := nameBody_length 0x81 name session (leBytes 4 sz)
  have size : unpackUint32 (nameBody 0x81 name session (leBytes 4 sz)) (name.length + 6) = sz := by
    have split : nameBody 0x81 name session (leBytes 4 sz) =
        (0x81 :: name.length.toUInt8 :: (name ++ leBytes 4 session)) ++ (leBytes 4 sz ++ []) := by
      simp only [nameBody, cons_append, append_assoc, append_nil]
    refine unpackUint32_at sizeSmall split ?_
    simp only [length_cons, length_append, leBytes_length]
  rw [leBytes_length] at length
  have dispatch : ∀ l, lunpackrequest (0x81 :: l) = unpackmreqString (0x81 :: l) (l.length + 1) :=
    fun l => by simp [lunpackrequest]
  refine (dispatch _).trans ?_
  change unpackmreqString (nameBody 0x81 name session (leBytes 4 sz))
    (nameBody 0x81 name session (leBytes 4 sz)).length = _
  simp only [unpackmreqString, nameBody_size 0x81 short]
  rw [if_neg (by omega), if_neg (by omega), nameBody_name, nameBody_session 0x81 small, size]

theorem unpack_part (last : Bool) (small : session < 2 ^ 32) :
    lunpackrequest (partBody (if last then 3 else 2) session rest) =
      .ok ⟨none, session, .bytes rest, !last⟩ := by
  have number : unpackUint32 (partBody (if last then 3 else 2) session rest) 1 = session :=
    unpackUint32_at small (show _ = [_] ++ _ from rfl) rfl
  have message : (partBody (if last then 3 else 2) session rest).drop 5 = rest := rfl
  have part : lunpackrequest (partBody (if last then 3 else 2) session rest) =
      unpackmreqPart (partBody (if last then 3 else 2) session rest) (rest.length + 5) := by
    cases last <;> rfl
  rw [part, unpackmreqPart, if_neg (by omega), number, message, Nat.add_sub_cancel, take_length]
  cases last <;> rfl

theorem unpack_answer {t : UInt8} (small : session < 2 ^ 32) :
    (t = 0 → lunpackresponse (answerBody t session rest) =
      some ⟨session, false, .bytes rest, false⟩) ∧
    (t = 1 ∨ t = 4 → lunpackresponse (answerBody t session rest) =
      some ⟨session, true, .bytes rest, false⟩) ∧
    (t = 3 → lunpackresponse (answerBody t session rest) =
      some ⟨session, true, .bytes rest, true⟩) ∧
    (t = 2 → ∀ sz < 2 ^ 32, rest = leBytes 4 sz →
      lunpackresponse (answerBody t session rest) = some ⟨session, true, .size sz, true⟩) := by
  have length := answerBody_length t session rest
  have number : unpackUint32 (answerBody t session rest) 0 = session :=
    unpackUint32_at small (show _ = [] ++ _ from rfl) rfl
  have type : (answerBody t session rest).getD 4 0 = t := rfl
  have message : (answerBody t session rest).drop 5 = rest := rfl
  rw [lunpackresponse]
  simp only [length, number, type, message]
  refine ⟨?_, ?_, ?_, ?_⟩
  · rintro rfl
    rfl
  · rintro (rfl | rfl) <;> rfl
  · rintro rfl
    rfl
  · rintro rfl sz sizeSmall rfl
    have size : unpackUint32 (answerBody 2 session (leBytes 4 sz)) 5 = sz :=
      unpackUint32_at sizeSmall (show _ = (leBytes 4 session ++ [2]) ++ (leBytes 4 sz ++ []) from rfl)
        rfl
    simp only [leBytes_length, size]
    rfl

end Decode

section Parts

/- The parts of a message, each with whether it is the last. -/
def cuts (msg : List UInt8) : Nat → Nat → Nat → List (List UInt8 × Bool)
  | 0, _, _ => []
  | parts + 1, sz, ptr =>
    let s := if sz > multiPart then multiPart else sz
    ((msg.drop ptr).take s, !decide (sz > multiPart)) :: cuts msg parts (sz - s) (ptr + s)

variable {session parts sz ptr : Nat} {msg : List UInt8}

theorem cut_size (total : ptr + sz = msg.length) :
    ∃ s, s = (if sz > multiPart then multiPart else sz) ∧ s ≤ multiPart ∧ ptr + s ≤ msg.length ∧
      ptr + s + (sz - s) = msg.length :=
  ⟨_, rfl, by split <;> omega, by split <;> omega, by split <;> omega⟩

theorem cut_type (sz : Nat) (inner last : UInt8) : (if sz > multiPart then inner else last) =
    if !decide (sz > multiPart) then last else inner := by
  by_cases more : sz > multiPart <;> simp [more]

theorem packreqParts_eq (buf : Buffer) (total : ptr + sz = msg.length) :
    packreqParts session msg parts buf sz ptr = .ok ((cuts msg parts sz ptr).map fun c =>
      frame (partBody (if c.2 then 3 else 2) session c.1)) := by
  induction parts generalizing buf sz ptr with
  | zero => rfl
  | succ parts ih =>
    obtain ⟨s, size, fits, inside, left⟩ := cut_size total
    obtain ⟨b₁, b₂, b₃, b₄, tagged, head, number, copied, shown⟩ :=
      part_frame buf session (if !decide (sz > multiPart) then 3 else 2) (.inl ⟨rfl, rfl, rfl⟩)
        inside fits
    have rest := ih b₄ left
    rw [packreqParts, cuts]
    simp only [← size, cut_type, tagged, head, number, copied, rest, bind, Except.bind, pure,
      Except.pure, map_cons, shown]

theorem packParts_eq (buf : Buffer) (total : ptr + sz = msg.length) :
    packParts session msg parts buf sz ptr = .ok ((cuts msg parts sz ptr).map fun c =>
      frame (answerBody (if c.2 then 4 else 3) session c.1)) := by
  induction parts generalizing buf sz ptr with
  | zero => rfl
  | succ parts ih =>
    obtain ⟨s, size, fits, inside, left⟩ := cut_size total
    obtain ⟨b₁, b₂, b₃, b₄, tagged, head, number, copied, shown⟩ :=
      part_frame buf session (if !decide (sz > multiPart) then 4 else 3) (.inr ⟨rfl, rfl, rfl⟩)
        inside fits
    have rest := ih b₄ left
    rw [packParts, cuts]
    simp only [← size, cut_type, tagged, head, number, copied, rest, bind, Except.bind, pure,
      Except.pure, map_cons, shown]

/-- As many parts as the packing functions count hold the whole message, and the last of them
is known by its type. -/
theorem cuts_spec (total : ptr + sz = msg.length) (more : parts * multiPart < sz)
    (enough : sz ≤ (parts + 1) * multiPart) :
    ((cuts msg (parts + 1) sz ptr).map (·.1)).flatten = msg.drop ptr ∧
      (cuts msg (parts + 1) sz ptr).map (·.2) = replicate parts false ++ [true] ∧
      ∀ c ∈ cuts msg (parts + 1) sz ptr, c.1.length ≤ multiPart := by
  have whole : (msg.drop ptr).length = sz := by
    rw [length_drop]
    omega
  induction parts generalizing sz ptr with
  | zero =>
    have last : ¬ sz > multiPart := by omega
    have all : (msg.drop ptr).take sz = msg.drop ptr := take_of_length_le (by omega)
    simp only [cuts, last, if_false, all, decide_false, Bool.not_false, map_cons,
      map_nil, flatten_cons, flatten_nil, append_nil, replicate_zero,
      nil_append, mem_singleton, forall_eq, true_and]
    omega
  | succ parts ih =>
    rw [Nat.succ_mul] at more enough
    have inner : sz > multiPart := by
      omega
    have rest := @ih (sz - multiPart) (ptr + multiPart) (by omega) (by omega) (by omega)
      (by rw [length_drop]; omega)
    obtain ⟨flat, flags, sizes⟩ := rest
    rw [cuts]
    simp only [inner, if_true, decide_true, Bool.not_true, map_cons, flatten_cons, flat,
      flags, replicate_succ, cons_append, mem_cons, forall_eq_or_imp, true_and]
    refine ⟨?_, ?_, sizes⟩
    · rw [← drop_drop, take_append_drop]
    · exact length_take_le ..

theorem concatParts_spec {parts : List (List UInt8)} {buff : List UInt8}
    (total : buff.length + parts.flatten.length = sz) :
    concatParts sz (parts.map .bytes) buff = some (buff ++ parts.flatten) := by
  induction parts generalizing buff with
  | nil =>
    rw [flatten_nil, length_nil, Nat.add_zero] at total
    rw [map_nil, concatParts, if_neg (by omega), flatten_nil, append_nil]
    nofun
  | cons part parts ih =>
    rw [flatten_cons, length_append] at total
    have rest := @ih (buff ++ part) (by rw [length_append]; omega)
    rw [map_cons, concatParts, if_neg (by omega), rest, flatten_cons, append_assoc]

theorem lconcat_spec {parts : List (List UInt8)} (small : parts.flatten.length < 2 ^ 31) :
    lconcat (.size parts.flatten.length :: parts.map .bytes) = .ok (some parts.flatten) := by
  have size : signed 32 parts.flatten.length = parts.flatten.length :=
    signed_of_range (by decide) (by omega) (by omega)
  have whole := @concatParts_spec parts.flatten.length parts [] (Nat.zero_add _)
  rw [lconcat, size, if_neg (by omega), Int.toNat_natCast, whole, nil_append]

end Parts

/-- The pieces are a message: each but the last announces another one, and a message of more
than one piece is joined by concat. -/
structure Joined (pieces : List (Piece × Bool)) (msg : List UInt8) : Prop where
  padded : pieces.map (·.2) = replicate (pieces.length - 1) true ++ [false]
  message : pieces.map (·.1) = [.bytes msg] ∨ lconcat (pieces.map (·.1)) = .ok (some msg)

theorem joined_single (msg : List UInt8) : Joined [(.bytes msg, false)] msg :=
  ⟨rfl, .inl rfl⟩

theorem parts_below {sz : Nat} (large : 0 < sz) : (sz - 1) / multiPart * multiPart < sz := by
  have := Nat.div_mul_le_self (sz - 1) multiPart
  omega

theorem parts_above (sz : Nat) : sz ≤ ((sz - 1) / multiPart + 1) * multiPart := by
  have positive : 0 < multiPart := by decide
  have := Nat.lt_div_mul_add positive (a := sz - 1)
  rw [Nat.succ_mul]
  omega

theorem joined_cuts {msg : List UInt8} (small : msg.length < 2 ^ 31) (large : 0 < msg.length) :
    Joined ((.size msg.length, true) ::
      (cuts msg ((msg.length - 1) / multiPart + 1) msg.length 0).map fun c => (.bytes c.1, !c.2))
      msg := by
  obtain ⟨flat, flags, -⟩ :=
    cuts_spec (Nat.zero_add msg.length) (parts_below large) (parts_above msg.length)
  generalize cuts msg ((msg.length - 1) / multiPart + 1) msg.length 0 = parts at flat flags
  have length : parts.length = (msg.length - 1) / multiPart + 1 := by
    rw [← length_map (·.2), flags, length_append, length_replicate]
    rfl
  refine ⟨?_, .inr ?_⟩
  · have turned := congrArg (map (!·)) flags
    simp only [map_map, map_append, map_replicate, map_cons, map_nil,
      Bool.not_false, Bool.not_true] at turned
    simp only [map_cons, map_map, length_cons, length_map, length,
      Nat.add_sub_cancel, replicate_succ, cons_append]
    exact congrArg _ turned
  · have joined := @lconcat_spec (parts.map (·.1)) (by rw [flat]; exact small)
    rw [flat, map_map] at joined
    rw [map_cons, map_map]
    exact joined

section Requests

def Address.Valid : Address → Prop
  | .number n => 0 ≤ n ∧ n < 2 ^ 32
  | .name s => 1 ≤ s.length ∧ s.length ≤ 255
  | .other => False

/- The first frame of a request, for both kinds of addresses. -/
def packreq (stack : Buffer) (addr : Address) (session : Nat) (msg : List UInt8) (sz : Nat) :
    Except Error (List UInt8 × Nat) :=
  match addr with
  | .number n => packreqNumber stack n session msg sz
  | .name s => packreqString stack s session msg sz
  | .other => .error (.nameTooLong none)

variable (stack : Buffer) {addr : Address} {session : Nat} {msg : List UInt8}

theorem packreq_small (valid : addr.Valid) (number : session < 2 ^ 32)
    (small : msg.length < multiPart) :
    ∃ body, packreq stack addr session msg msg.length = .ok (frame body, 0) ∧
      body.length ≤ 0x81fe ∧
      lunpackrequest body = .ok ⟨some addr, session, .bytes msg, false⟩ := by
  have bound : msg.length < 0x8000 := small
  cases addr with
  | number n =>
    have value : ((n % 2 ^ 32).toNat : Int) = n := by
      rw [Int.emod_eq_of_lt valid.1 valid.2, Int.toNat_of_nonneg valid.1]
    refine ⟨_, packreqNumber_small stack small, ?_, ?_⟩
    · rw [numberBody_length]
      omega
    · rw [unpack_number (by omega) number, value]
  | name s =>
    refine ⟨_, packreqString_small stack valid.2 valid.1 small, ?_, unpack_name valid.2 number⟩
    have short := valid.2
    rw [nameBody_length]
    omega
  | other => exact valid.elim

theorem packreq_large (valid : addr.Valid) (number : session < 2 ^ 32)
    (large : ¬ msg.length < multiPart) (size : msg.length < 2 ^ 32) :
    ∃ body, packreq stack addr session msg msg.length =
        .ok (frame body, (msg.length - 1) / multiPart + 1) ∧ body.length ≤ 0x81fe ∧
      lunpackrequest body = .ok ⟨some addr, session, .size msg.length, true⟩ := by
  cases addr with
  | number n =>
    have value : ((n % 2 ^ 32).toNat : Int) = n := by
      rw [Int.emod_eq_of_lt valid.1 valid.2, Int.toNat_of_nonneg valid.1]
    refine ⟨_, packreqNumber_large stack large, ?_, ?_⟩
    · rw [numberBody_length, leBytes_length]
      omega
    · rw [unpack_numberLarge (by omega) number size, value]
  | name s =>
    refine ⟨_, packreqString_large stack valid.2 valid.1 large, ?_,
      unpack_nameLarge valid.2 number size⟩
    have short := valid.2
    rw [nameBody_length, leBytes_length]
    omega
  | other => exact valid.elim

/- What the receiver has of a request, frame by frame. -/
structure Received (decoded : List Unpacked) (addr : Address) (session : Nat)
    (msg : List UInt8) : Prop where
  address : decoded.head?.bind (·.addr) = some addr
  sessions : ∀ u ∈ decoded, u.session = session
  joined : Joined (decoded.map fun u => (u.msg, u.padding)) msg

theorem mapM_map_ok {α β γ : Type} {m : Type → Type} [Monad m] [LawfulMonad m] {f : β → m γ}
    {h : α → β} {g : α → γ} {l : List α} (each : ∀ x ∈ l, f (h x) = pure (g x)) :
    (l.map h).mapM f = pure (l.map g) := by
  induction l with
  | nil => rfl
  | cons x l ih =>
    rw [map_cons, mapM_cons, each x (mem_cons_self ..), pure_bind,
      ih fun y member => each y (mem_cons_of_mem x member), pure_bind, map_cons]

theorem lpackrequest_eq (positive : 1 ≤ session) (number : session < 2 ^ 31)
    (size : msg.length < 2 ^ 31) :
    lpackrequest stack addr session (some msg) msg.length =
      (packreq stack addr session msg msg.length).bind fun r =>
        if r.2 ≠ 0 then (packreqMulti stack session msg msg.length).bind fun padding =>
          .ok ⟨r.1, nextSession session, some padding⟩
        else .ok ⟨r.1, nextSession session, none⟩ := by
  have sz : ((msg.length : Int) % 2 ^ 32).toNat = msg.length := by omega
  have value : signed 32 (session : Int) = session :=
    signed_of_range (by decide) (by omega) (by omega)
  have accepted : ¬ (session : Int) ≤ 0 := by omega
  rw [lpackrequest]
  simp only [sz, value, accepted, if_false]
  cases addr <;> rfl

/- The parts that the packing functions count, for a message that is not empty. -/
theorem cuts_short (large : 0 < msg.length) :
    ∀ c ∈ cuts msg ((msg.length - 1) / multiPart + 1) msg.length 0, c.1.length ≤ multiPart :=
  (cuts_spec (Nat.zero_add _) (parts_below large) (parts_above msg.length)).2.2

theorem request_received (valid : addr.Valid) (positive : 1 ≤ session)
    (number : session < 2 ^ 31) (size : msg.length < 2 ^ 31) :
    ∃ r decoded, lpackrequest stack addr session (some msg) msg.length = .ok r ∧
      (∀ f ∈ r.request :: r.padding.getD [], Framed f) ∧
      (r.request :: r.padding.getD []).mapM (fun f => lunpackrequest (strip f)) = .ok decoded ∧
      Received decoded addr session msg := by
  have word : session < 2 ^ 32 := by omega
  rw [lpackrequest_eq stack positive number size]
  by_cases small : msg.length < multiPart
  · obtain ⟨body, packed, short, unpacked⟩ := packreq_small stack valid word small
    rw [packed]
    refine ⟨⟨frame body, nextSession session, none⟩, [⟨some addr, session, .bytes msg, false⟩],
      rfl, ?_, ?_, rfl, ?_, joined_single msg⟩
    · intro f member
      rw [mem_singleton.mp member]
      exact framed_frame short
    · rw [Option.getD_none, mapM_cons, strip_frame, unpacked]
      rfl
    · intro u member
      rw [mem_singleton.mp member]
  · have nonempty : 0 < msg.length := Nat.lt_of_lt_of_le (by decide) (Nat.le_of_not_lt small)
    obtain ⟨body, packed, short, unpacked⟩ := packreq_large stack valid word small (by omega)
    rw [packed, Except.bind, if_pos (Nat.succ_ne_zero _), packreqMulti,
      packreqParts_eq stack (Nat.zero_add msg.length)]
    refine ⟨⟨frame body, nextSession session, some _⟩, ⟨some addr, session, .size msg.length,
      true⟩ ::
      (cuts msg ((msg.length - 1) / multiPart + 1) msg.length 0).map fun c =>
        ⟨none, session, .bytes c.1, !c.2⟩, rfl, ?_, ?_, rfl, ?_, ?_⟩
    · intro f member
      rcases mem_cons.mp member with rfl | member
      · exact framed_frame short
      · obtain ⟨c, inside, rfl⟩ := mem_map.mp member
        have part : c.1.length ≤ 0x8000 := cuts_short nonempty c inside
        refine framed_frame ?_
        rw [partBody_length]
        omega
    · rw [Option.getD_some, mapM_cons, strip_frame, unpacked, mapM_map_ok]
      · rfl
      · intro c _
        rw [strip_frame, unpack_part c.2 word]
        rfl
    · intro u member
      rcases mem_cons.mp member with rfl | member
      · rfl
      · obtain ⟨c, -, rfl⟩ := mem_map.mp member
        rfl
    · rw [map_cons, map_map]
      exact joined_cuts size nonempty

end Requests

section Responses

/- What the caller has of a response, frame by frame. -/
structure Answered (answers : List Answer) (session : Nat) (ok : Bool) (msg : List UInt8) : Prop
  where
  sessions : ∀ a ∈ answers, a.session = session ∧ a.ok = ok
  joined : Joined (answers.map fun a => (a.msg, a.padding)) msg

variable (stack : Buffer) {session : Nat} {msg : List UInt8}

theorem packLarge_eq (session : Nat) (msg : List UInt8) :
    packLarge stack session msg msg.length =
      .ok (frame (answerBody 2 session (leBytes 4 msg.length)) ::
        (cuts msg ((msg.length - 1) / multiPart + 1) msg.length 0).map fun c =>
          frame (answerBody (if c.2 then 4 else 3) session c.1)) := by
  refine (puts_header (by decide)).then filled_none rfl fun _ head => ?_
  refine (puts_uint32 (by decide)).then head rfl fun _ number => ?_
  refine (puts_byte (by decide)).then number rfl fun _ type => ?_
  refine (puts_uint32 (by decide)).then type rfl fun b₄ (filled : window b₄ 0 11 = _) => ?_
  simp only [packParts_eq b₄ (Nat.zero_add msg.length), bind, Except.bind, pure, Except.pure,
    filled, ← header_frame (answerBody_length 2 session (leBytes 4 msg.length))]
  simp only [answerBody, nil_append, append_assoc, cons_append, leBytes_length]

variable {ok : Bool}

theorem response_small {sz : Nat} (number : session < 2 ^ 32) (inside : sz ≤ msg.length)
    (small : sz ≤ multiPart) :
    ∃ f answers, packSmall stack session ok msg sz = .ok f ∧ Framed f ∧
      [f].mapM (fun f => lunpackresponse (strip f)) = some answers ∧
      Answered answers session ok (msg.take sz) := by
  have bound : sz ≤ 0x8000 := small
  refine ⟨_, [⟨session, ok, .bytes (msg.take sz), false⟩], packSmall_eq stack inside small, ?_, ?_,
    ?_, joined_single _⟩
  · refine framed_frame ?_
    rw [answerBody_length, length_take]
    omega
  · have unpacked : lunpackresponse (answerBody (if ok then 1 else 0) session (msg.take sz)) =
        some ⟨session, ok, .bytes (msg.take sz), false⟩ := by
      cases ok
      · exact (unpack_answer number).1 rfl
      · exact (unpack_answer number).2.1 (.inl rfl)
    rw [mapM_cons, strip_frame, unpacked]
    rfl
  · intro a member
    rw [mem_singleton.mp member]
    exact ⟨rfl, rfl⟩

theorem response_large (number : session < 2 ^ 32) (large : multiPart < msg.length)
    (size : msg.length < 2 ^ 31) :
    ∃ fs answers, packLarge stack session msg msg.length = .ok fs ∧ (∀ f ∈ fs, Framed f) ∧
      fs.mapM (fun f => lunpackresponse (strip f)) = some answers ∧
      Answered answers session true msg := by
  have nonempty : 0 < msg.length := Nat.lt_of_le_of_lt (Nat.zero_le _) large
  refine ⟨_, ⟨session, true, .size msg.length, true⟩ ::
    (cuts msg ((msg.length - 1) / multiPart + 1) msg.length 0).map fun c =>
      ⟨session, true, .bytes c.1, !c.2⟩, packLarge_eq stack session msg, ?_, ?_, ?_, ?_⟩
  · intro f member
    rcases mem_cons.mp member with rfl | member
    · refine framed_frame ?_
      rw [answerBody_length, leBytes_length]
      decide
    · obtain ⟨c, inside, rfl⟩ := mem_map.mp member
      have part : c.1.length ≤ 0x8000 := cuts_short nonempty c inside
      refine framed_frame ?_
      rw [answerBody_length]
      omega
  · have first : lunpackresponse (answerBody 2 session (leBytes 4 msg.length)) = _ :=
      (unpack_answer number).2.2.2 rfl msg.length (by omega) rfl
    rw [mapM_cons, strip_frame, first, mapM_map_ok]
    · rfl
    · intro c _
      cases c.2
      · exact (unpack_answer number).2.2.1 rfl
      · exact (unpack_answer number).2.1 (.inr rfl)
  · intro a member
    rcases mem_cons.mp member with rfl | member
    · exact ⟨rfl, rfl⟩
    · obtain ⟨c, -, rfl⟩ := mem_map.mp member
      exact ⟨rfl, rfl⟩
  · rw [map_cons, map_map]
    exact joined_cuts size nonempty

theorem response_answered (number : session < 2 ^ 32) (size : msg.length < 2 ^ 31) :
    ∃ r answers, lpackresponse stack session ok msg = .ok r ∧ (∀ f ∈ r.frames, Framed f) ∧
      r.frames.mapM (fun f => lunpackresponse (strip f)) = some answers ∧
      Answered answers session ok (if ok then msg else msg.take multiPart) := by
  have value : ((session : Int) % 2 ^ 32).toNat = session := by omega
  unfold lpackresponse
  simp only [value]
  cases ok with
  | true =>
    by_cases large : msg.length > multiPart
    · obtain ⟨fs, answers, packed, framed, unpacked, answered⟩ :=
        response_large stack number large size
      refine ⟨.table fs, answers, ?_, framed, unpacked, answered⟩
      rw [if_pos rfl, if_pos large, packed]
      rfl
    · obtain ⟨f, answers, packed, framed, unpacked, answered⟩ :=
        @response_small stack session msg true msg.length number (Nat.le_refl _)
          (Nat.le_of_not_lt large)
      rw [take_length] at answered
      refine ⟨.string f, answers, ?_, ?_, unpacked, answered⟩
      · rw [if_pos rfl, if_neg large, packed]
        rfl
      · intro g member
        rwa [mem_singleton.mp member]
  | false =>
    have cut : msg.take (if msg.length > multiPart then multiPart else msg.length) =
        msg.take multiPart := by
      split
      · rfl
      next short =>
        rw [take_length, take_of_length_le (Nat.le_of_not_lt short)]
    obtain ⟨f, answers, packed, framed, unpacked, answered⟩ :=
      @response_small stack session msg false
        (if msg.length > multiPart then multiPart else msg.length) number
        (by split <;> omega) (by split <;> omega)
    rw [cut] at answered
    refine ⟨.string f, answers, ?_, ?_, unpacked, answered⟩
    · rw [if_neg Bool.false_ne_true, packed]
      rfl
    · intro g member
      rwa [mem_singleton.mp member]

end Responses

theorem cluster_wire_format (stack : Buffer) (session : Nat) (msg : List UInt8)
    (positive : 1 ≤ session) (number : session < 2 ^ 31) (size : msg.length < 2 ^ 31) :
    (∀ addr : Address, addr.Valid →
      ∃ r decoded, lpackrequest stack addr session (some msg) msg.length = .ok r ∧
        (∀ f ∈ r.request :: r.padding.getD [], Framed f) ∧
        (r.request :: r.padding.getD []).mapM (fun f => lunpackrequest (strip f)) = .ok decoded ∧
        Received decoded addr session msg) ∧
    (∀ ok, ∃ r answers, lpackresponse stack session ok msg = .ok r ∧ (∀ f ∈ r.frames, Framed f) ∧
      r.frames.mapM (fun f => lunpackresponse (strip f)) = some answers ∧
      Answered answers session ok (if ok then msg else msg.take multiPart)) :=
  ⟨fun _ valid => request_received stack valid positive number size,
    fun _ => response_answered stack (by omega) size⟩

/- At the border where a request has a part and a response has none yet. -/
theorem cluster_wire_format_border :
    (∃ r decoded, lpackrequest (fun _ => 0) (.name [97]) (1 : Nat)
        (some (replicate multiPart 7)) (replicate multiPart (7 : UInt8)).length = .ok r ∧
      (∀ f ∈ r.request :: r.padding.getD [], Framed f) ∧
      (r.request :: r.padding.getD []).mapM (fun f => lunpackrequest (strip f)) = .ok decoded ∧
      Received decoded (.name [97]) 1 (replicate multiPart 7)) ∧
    (∀ ok, ∃ r answers, lpackresponse (fun _ => 0) (1 : Nat) ok (replicate multiPart 7) =
        .ok r ∧ (∀ f ∈ r.frames, Framed f) ∧
      r.frames.mapM (fun f => lunpackresponse (strip f)) = some answers ∧
      Answered answers 1 ok (if ok then replicate multiPart 7
        else (replicate multiPart 7).take multiPart)) := by
  have size : (replicate multiPart (7 : UInt8)).length < 2 ^ 31 := by
    rw [length_replicate]
    decide
  obtain ⟨requests, responses⟩ :=
    cluster_wire_format (fun _ => 0) 1 (replicate multiPart 7) (by decide) (by decide) size
  exact ⟨requests (.name [97]) (show 1 ≤ 1 ∧ 1 ≤ 255 by decide), responses⟩

end Skynet.Cluster
