import Skynet.Gate.Framing

/-! What a round of the dispatch loop does with the frame that the kept bytes begin with. -/
namespace Skynet.ServiceGate
open Base List

def receive (g : Gate) : Connection → List (List UInt8) → Option Connection
  | c, [] => some c
  | c, data :: later => (dispatchMessage g c data).bind fun c => receive g c later

/-- Some service takes the messages of the connection. -/
def Destined (g : Gate) (c : Connection) : Prop := g.broker ≠ 0 ∨ c.agent ≠ 0 ∨ g.watchdog ≠ 0

instance (g : Gate) (c : Connection) : Decidable (Destined g c) :=
  inferInstanceAs (Decidable (_ ∨ _ ∨ _))

def envelope (g : Gate) (c : Connection) (payload : List UInt8) : Send :=
  if g.broker ≠ 0 then ⟨0, g.broker, g.clientTag ||| ptypeTagDontcopy, payload⟩
  else if c.agent ≠ 0 then ⟨c.client, c.agent, g.clientTag ||| ptypeTagDontcopy, payload⟩
  else ⟨0, g.watchdog, ptypeText ||| ptypeTagDontcopy, dataText c.id ++ payload⟩

/-- One message for every frame that is not empty. -/
def deliveries (g : Gate) (c : Connection) (frames : List (List UInt8)) : List Send :=
  if Destined g c then (frames.filter fun frame => !frame.isEmpty).map (envelope g c) else []

theorem deliveries_append (g : Gate) (c : Connection) (first second : List (List UInt8)) :
    deliveries g c (first ++ second) = deliveries g c first ++ deliveries g c second := by
  unfold deliveries
  split
  · rw [filter_append, map_append]
  · rfl

theorem forward_destined {g : Gate} {c : Connection} {n : Nat} (destined : Destined g c)
    (sound : c.buffer.Sound) (some' : 0 < n) (enough : n ≤ c.buffer.unread.length) :
    ∃ buffer, forward g c n =
        some { c with
          buffer := buffer
          sent := c.sent ++ [envelope g c (c.buffer.unread.take n)] } ∧
      buffer.Sound ∧ buffer.unread = c.buffer.unread.drop n := by
  obtain ⟨buffer, read, sound', unread, -⟩ := sound.read some' enough
  refine ⟨buffer, ?_, sound', unread⟩
  simp only [forward, envelope, handOver, read]
  split_ifs with broker agent watchdog
  · rfl
  · rfl
  · rfl
  · exact absurd destined (by simp only [Destined]; tauto)

theorem forward_nowhere {g : Gate} {c : Connection} (nowhere : ¬ Destined g c) (n : Nat) :
    forward g c n = some c := by
  simp only [Destined, not_or, not_not] at nowhere
  simp only [forward, nowhere.1, nowhere.2.1, nowhere.2.2, ne_eq, not_true, if_false]

section Round
variable {g : Gate} {c : Connection} {start n : Nat} {rest : List UInt8}

/-- The connection keeps this rest of the stream, which begins there. -/
structure At (g : Gate) (c : Connection) (start : Nat) (rest : List UInt8) : Prop where
  keeps : Keeps g.headerSize c.buffer rest
  placed : c.pushed = start + rest.length

theorem At.push (here : At g c start rest) (data : List UInt8) : At g { c with
    buffer := databufferPush c.buffer data
    pushed := c.pushed + data.length } start (rest ++ data) := by
  refine ⟨here.keeps.push data, ?_⟩
  change c.pushed + data.length = start + (rest ++ data).length
  rw [here.placed, length_append, Nat.add_assoc]

/-- A round reads so much of the stream and cuts it there. -/
def Turns (g : Gate) (rounds : Nat) (c : Connection) (start : Nat) (rest : List UInt8)
    (read : Nat) (sent : List Send) : Prop :=
  ∃ buffer c', c' = { c with buffer := buffer, sent := sent, cuts := c.cuts ++ [start + read] } ∧
    dispatchLoop g (rounds + 1) c = dispatchLoop g rounds c' ∧
    At g c' (start + read) (rest.drop read)

/- The loop has a round for every header in what is kept. -/
theorem At.enough (here : At g c start rest) :
    rest.length < g.headerSize.size * (c.buffer.size + 2) := by
  have most := here.keeps.length_le
  have two := header_size_pos g.headerSize
  have more : c.buffer.size * 1 ≤ c.buffer.size * g.headerSize.size := Nat.mul_le_mul_left _ two.le
  rw [Nat.mul_add, Nat.mul_comm]
  omega

/- The loop waits for more bytes of a frame that is not whole, and whatever has come of one
with a negative header. -/
theorem round_wait (here : At g c start rest) (rounds : Nat)
    (waits : rest.length < g.headerSize.size + lengthOf (rest.take g.headerSize.size) ∨
      0x80000000 ≤ lengthOf (rest.take g.headerSize.size)) :
    ∃ buffer, dispatchLoop g (rounds + 1) c = some { c with buffer := buffer } ∧
      Keeps g.headerSize buffer rest ∧ (g.headerSize.size ≤ rest.length →
        buffer.header = plen g.headerSize (rest.take g.headerSize.size) ∧
          buffer.unread = rest.drop g.headerSize.size) := by
  by_cases whole : g.headerSize.size ≤ rest.length
  · obtain ⟨buffer, read, sound, unread, header⟩ := here.keeps.readheader whole
    have taken : (rest.take g.headerSize.size).length = g.headerSize.size := length_take_of_le whole
    have some' : plen g.headerSize (rest.take g.headerSize.size) ≠ 0 ∧
        (if ((rest.drop g.headerSize.size).length : Int) <
            plen g.headerSize (rest.take g.headerSize.size) then -1
          else plen g.headerSize (rest.take g.headerSize.size)) < 0 := by
      rw [length_drop]
      by_cases small : lengthOf (rest.take g.headerSize.size) < 0x80000000
      · rw [plen_small taken small, if_pos (by omega)]
        omega
      · have negative := plen_large taken (Nat.not_lt.mp small)
        refine ⟨ne_of_lt negative, ?_⟩
        split
        · decide
        · exact negative
    refine ⟨buffer, ?_, ⟨sound, .inr ⟨header ▸ some'.1, whole, header, unread⟩⟩,
      fun _ => ⟨header, unread⟩⟩
    rw [dispatchLoop, read]
    exact if_pos some'.2
  · refine ⟨c.buffer, ?_, here.keeps, fun long => absurd long whole⟩
    rw [dispatchLoop, here.keeps.readheader_short (Nat.not_le.mp whole)]
    rfl

theorem Keeps.readheader_whole {style : Header} {db : DataBuffer} (keeps : Keeps style db rest)
    (length : lengthOf (rest.take style.size) = n) (whole : style.size + n ≤ rest.length)
    (small : n < 0x80000000) :
    ∃ db', databufferReadheader db style = some ((n : Int), db') ∧ db'.Sound ∧
      db'.unread = rest.drop style.size ∧ db'.header = n := by
  have long : style.size ≤ rest.length := Nat.le_of_add_right_le whole
  have value : plen style (rest.take style.size) = n := by
    rw [plen_small (length_take_of_le long) (length ▸ small), length]
  obtain ⟨db', read, sound, unread, header⟩ := keeps.readheader long
  rw [value] at read header
  refine ⟨db', ?_, sound, unread, header⟩
  rw [read, if_neg]
  rw [length_drop]
  omega

section
variable (here : At g c start rest)
include here

theorem cut_at {buffer : DataBuffer} (sound : buffer.Sound) (read : buffer.unread = rest.drop n)
    (inside : n ≤ rest.length) :
    c.pushed - buffer.size = start + n := by
  rw [sound.size, read, length_drop, here.placed]
  omega

theorem at_next {buffer : DataBuffer} (sound : buffer.Sound) (started : buffer.header = 0)
    (read : buffer.unread = rest.drop n) (inside : n ≤ rest.length) (sent : List Send)
    (cuts : List Nat) :
    At g { c with buffer := buffer, sent := sent, cuts := cuts } (start + n) (rest.drop n) := by
  refine ⟨⟨sound, .inl ⟨started, read⟩⟩, ?_⟩
  change c.pushed = start + n + (rest.drop n).length
  rw [length_drop, here.placed]
  omega

theorem round_empty (rounds : Nat) (empty : lengthOf (rest.take g.headerSize.size) = 0)
    (whole : g.headerSize.size ≤ rest.length) :
    Turns g rounds c start rest g.headerSize.size c.sent := by
  obtain ⟨buffer, read, sound, unread, header⟩ :=
    here.keeps.readheader_whole empty whole (by decide)
  refine ⟨buffer, _, rfl, ?_, at_next here sound header unread whole _ _⟩
  rw [dispatchLoop, read, ← cut_at here sound unread whole]
  rfl

theorem round_forward (rounds : Nat) (destined : Destined g c)
    (length : lengthOf (rest.take g.headerSize.size) = n) (some' : 0 < n) (fits : n < 0x1000000)
    (whole : g.headerSize.size + n ≤ rest.length) :
    Turns g rounds c start rest (g.headerSize.size + n)
      (c.sent ++ [envelope g c ((rest.drop g.headerSize.size).take n)]) := by
  obtain ⟨buffer, read, sound, unread, -⟩ :=
    here.keeps.readheader_whole length whole (Nat.lt_trans fits (by decide))
  have enough : n ≤ buffer.unread.length := by
    rw [unread, length_drop]
    omega
  have destined' : Destined g { c with buffer := buffer } := destined
  obtain ⟨body, forwarded, sound', unread'⟩ := forward_destined destined' sound some' enough
  rw [unread] at forwarded
  have left : (databufferReset body).unread = rest.drop (g.headerSize.size + n) := by
    rw [← drop_drop, ← unread]
    exact unread'
  have sound'' : (databufferReset body).Sound := ⟨sound'.inside, sound'.size⟩
  refine ⟨databufferReset body, _, rfl, ?_, at_next here sound'' rfl left whole _ _⟩
  rw [dispatchLoop, read, ← cut_at here sound'' left whole]
  have positive : (0 : Int) < n := by omega
  have below : ¬ (0x1000000 : Int) ≤ n := by omega
  simp only [if_neg (not_lt.mpr positive.le), if_pos positive, if_neg below, Int.toNat_natCast,
    forwarded]
  rfl

/- Without a destination the body stays, and the next header is read from it. -/
theorem round_nowhere (rounds : Nat) (nowhere : ¬ Destined g c)
    (length : lengthOf (rest.take g.headerSize.size) = n) (some' : 0 < n) (fits : n < 0x1000000)
    (whole : g.headerSize.size + n ≤ rest.length) :
    Turns g rounds c start rest g.headerSize.size c.sent := by
  have long : g.headerSize.size ≤ rest.length := Nat.le_of_add_right_le whole
  obtain ⟨buffer, read, sound, unread, -⟩ :=
    here.keeps.readheader_whole length whole (Nat.lt_trans fits (by decide))
  have sound' : (databufferReset buffer).Sound := ⟨sound.inside, sound.size⟩
  have nowhere' : ¬ Destined g { c with buffer := buffer } := nowhere
  have positive : (0 : Int) < n := by omega
  have below : ¬ (0x1000000 : Int) ≤ n := by omega
  refine ⟨databufferReset buffer, _, rfl, ?_, at_next here sound' rfl unread long _ _⟩
  rw [dispatchLoop, read, ← cut_at here sound' unread long]
  simp only [if_neg (not_lt.mpr positive.le), if_pos positive, if_neg below,
    forward_nowhere nowhere']
  rfl

theorem round_large (rounds : Nat) (length : lengthOf (rest.take g.headerSize.size) = n)
    (large : 0x1000000 ≤ n) (small : n < 0x80000000) (whole : g.headerSize.size + n ≤ rest.length) :
    dispatchLoop g (rounds + 1) c = some { c with buffer := .cleared, closed := true } := by
  obtain ⟨buffer, read, -⟩ := here.keeps.readheader_whole length whole small
  have positive : (0 : Int) < n := by omega
  have above : (0x1000000 : Int) ≤ n := by omega
  rw [dispatchLoop, read]
  simp only [if_neg (not_lt.mpr positive.le), if_pos positive, if_pos above]

end

end Round

end Skynet.ServiceGate
