import Skynet.Gate.Astray

/-! The gate cuts a stream where the frames of the stream end, as long as it has somewhere
to forward them to and none of them is too long. Otherwise it gets out of step at the
first frame that is not forwarded, and no later byte brings it back. -/
namespace Skynet.ServiceGate
open Base List

/-- A frame that the gate takes off the stream as a whole. -/
def Taken (g : Gate) (c : Connection) (frame : List UInt8) : Prop :=
  frame.length < 0x1000000 ∧ (Destined g c ∨ frame = [])

section Frame
variable {g : Gate} {c c' : Connection} {start n : Nat} {rest : List UInt8}

theorem round_taken (here : At g c start rest) (rounds : Nat)
    (length : lengthOf (rest.take g.headerSize.size) = n)
    (whole : g.headerSize.size + n ≤ rest.length)
    (taken : Taken g c ((rest.drop g.headerSize.size).take n)) :
    Turns g rounds c start rest (g.headerSize.size + n)
      (c.sent ++ deliveries g c [(rest.drop g.headerSize.size).take n]) := by
  have size := frame_length whole
  obtain ⟨fits, way⟩ := taken
  rw [size] at fits
  rcases Nat.eq_zero_or_pos n with rfl | some'
  · have silent : deliveries g c [(rest.drop g.headerSize.size).take 0] = [] := by
      simp [deliveries]
    rw [silent, append_nil]
    exact round_empty here rounds length whole
  · have destined : Destined g c := by
      refine way.resolve_right fun empty => ?_
      rw [empty] at size
      exact absurd size (Nat.ne_of_lt some')
    have one : deliveries g c [(rest.drop g.headerSize.size).take n] =
        [envelope g c ((rest.drop g.headerSize.size).take n)] := by
      have nonempty : ((rest.drop g.headerSize.size).take n).isEmpty = false := by
        rw [isEmpty_eq_false_iff, ← length_pos_iff, size]
        exact some'
      rw [deliveries, if_pos destined, filter_cons_of_pos (by rw [nonempty]; rfl)]
      rfl
    rw [one]
    exact round_forward here rounds destined length some' fits whole

/- A frame that is not taken puts the gate out of step. -/
theorem round_refused (here : At g c start rest) {rounds : Nat}
    (length : lengthOf (rest.take g.headerSize.size) = n)
    (whole : g.headerSize.size + n ≤ rest.length)
    (refused : ¬ Taken g c ((rest.drop g.headerSize.size).take n))
    (dispatched : dispatchLoop g (rounds + 1) c = some c') (later : List Nat) :
    Astray (c.cuts ++ (start + (g.headerSize.size + n)) :: later) c' := by
  have size := frame_length whole
  have long : g.headerSize.size ≤ rest.length := Nat.le_of_add_right_le whole
  rw [Taken, size, not_and_or, not_or, Nat.not_lt] at refused
  by_cases small : n < 0x80000000
  · by_cases large : 0x1000000 ≤ n
    · rw [round_large here rounds length large small whole] at dispatched
      cases dispatched
      refine .passed later _ rfl (Nat.zero_le _) (.inr ⟨rfl, ?_⟩)
      change start + (g.headerSize.size + n) ≤ c.pushed - 0
      rw [here.placed]
      omega
    · obtain ⟨nowhere, nonempty⟩ := refused.resolve_left large
      have some' : 0 < n := by
        apply Nat.pos_of_ne_zero
        rintro rfl
        exact nonempty (take_zero)
      obtain ⟨buffer, -, rfl, loop, -⟩ :=
        round_nowhere here rounds nowhere length some' (Nat.not_le.mp large) whole
      rw [loop] at dispatched
      refine astray_loop ?_ dispatched
      exact .other c.cuts later [] (start + (g.headerSize.size + n)) (start + g.headerSize.size)
        rfl rfl (by omega)
  · have far : 0x80000000 ≤ lengthOf (rest.take g.headerSize.size) := by omega
    obtain ⟨buffer, loop, -, header⟩ := round_wait here rounds (.inr far)
    rw [loop] at dispatched
    cases dispatched
    refine .stuck later _ rfl ?_
    rw [(header long).1]
    exact plen_large (length_take_of_le long) far

end Frame

section Stream
variable {g : Gate} {c : Connection} {start rounds : Nat} {rest : List UInt8}

theorem loop_taken (here : At g c start rest) (enough : rest.length < g.headerSize.size * rounds)
    (taken : ∀ frame ∈ (parse g.headerSize rest).1, Taken g c frame) :
    ∃ buffer, dispatchLoop g rounds c = some { c with
        buffer := buffer
        cuts := c.cuts ++ boundaries g.headerSize start (parse g.headerSize rest).1
        sent := c.sent ++ deliveries g c (parse g.headerSize rest).1 } ∧
      Keeps g.headerSize buffer (parse g.headerSize rest).2 := by
  induction rounds generalizing c start rest with
  | zero => exact absurd enough (Nat.not_lt_zero _)
  | succ rounds ih =>
    by_cases whole : g.headerSize.size + lengthOf (rest.take g.headerSize.size) ≤ rest.length
    · rw [parse_whole whole] at taken ⊢
      obtain ⟨first, others⟩ := forall_mem_cons.mp taken
      obtain ⟨buffer, next, rfl, loop, there⟩ := round_taken here rounds rfl whole first
      have fewer : (rest.drop (g.headerSize.size +
          lengthOf (rest.take g.headerSize.size))).length < g.headerSize.size * rounds := by
        rw [length_drop]
        rw [Nat.mul_succ] at enough
        omega
      obtain ⟨buffer', done, kept⟩ := ih there fewer others
      refine ⟨buffer', ?_, kept⟩
      rw [loop, done, append_assoc, append_assoc, boundaries, frame_length whole, ← Nat.add_assoc]
      rw [← singleton_append (l := (parse g.headerSize _).1), deliveries_append]
      rfl
    · have short := Nat.not_le.mp whole
      obtain ⟨buffer, loop, kept, -⟩ := round_wait here rounds (.inl short)
      rw [parse_short short]
      refine ⟨buffer, ?_, kept⟩
      have silent : deliveries g c [] = [] := by simp [deliveries]
      rw [loop, silent, boundaries, append_nil, append_nil]

theorem loop_refused {c' : Connection} (here : At g c start rest)
    (refused : ¬ ∀ frame ∈ (parse g.headerSize rest).1, Taken g c frame)
    (dispatched : dispatchLoop g rounds c = some c') (later : List Nat) :
    Astray (c.cuts ++ boundaries g.headerSize start (parse g.headerSize rest).1 ++ later) c' := by
  induction rounds generalizing c start rest with
  | zero => cases dispatched
  | succ rounds ih =>
    by_cases whole : g.headerSize.size + lengthOf (rest.take g.headerSize.size) ≤ rest.length
    · rw [parse_whole whole] at refused ⊢
      rw [boundaries, frame_length whole, Nat.add_assoc, append_assoc, cons_append]
      by_cases first : Taken g c ((rest.drop g.headerSize.size).take
          (lengthOf (rest.take g.headerSize.size)))
      · obtain ⟨buffer, next, rfl, loop, there⟩ := round_taken here rounds rfl whole first
        rw [loop] at dispatched
        have others := fun rest => refused (forall_mem_cons.mpr ⟨first, rest⟩)
        have astray := ih there others dispatched
        simp only [append_assoc, singleton_append] at astray
        exact astray
      · exact round_refused here rfl whole first dispatched _
    · rw [parse_short (Nat.not_le.mp whole)] at refused
      exact absurd (fun frame member => absurd member not_mem_nil) refused

/-- The gate goes through these chunks in step with the frames. -/
def InSync (g : Gate) (c : Connection) (chunks : List (List UInt8)) : Prop :=
  ∃ c', receive g c chunks = some c' ∧
    c'.cuts = boundaries g.headerSize 0 (parse g.headerSize chunks.flatten).1 ∧
    c'.sent = deliveries g c (parse g.headerSize chunks.flatten).1

theorem receive_sync (here : At g c start rest) (unfinished : parse g.headerSize rest = ([], rest))
    (chunks : List (List UInt8)) :
    (∃ c', receive g c chunks = some c' ∧
      c'.cuts = c.cuts ++
        boundaries g.headerSize start (parse g.headerSize (rest ++ chunks.flatten)).1 ∧
      c'.sent = c.sent ++ deliveries g c (parse g.headerSize (rest ++ chunks.flatten)).1) ↔
    ∀ frame ∈ (parse g.headerSize (rest ++ chunks.flatten)).1, Taken g c frame := by
  induction chunks generalizing c start rest with
  | nil =>
    rw [flatten_nil, append_nil, unfinished]
    refine ⟨fun _ frame member => absurd member not_mem_nil, fun _ => ⟨c, rfl, ?_, ?_⟩⟩
    · rw [boundaries, append_nil]
    · simp [deliveries]
  | cons data later ih =>
    have joined : rest ++ (data :: later).flatten = rest ++ data ++ later.flatten := by
      rw [flatten_cons, append_assoc]
    rw [joined, parse_append g.headerSize (rest ++ data), boundaries_append, deliveries_append]
    have pushed := here.push data
    by_cases first : ∀ frame ∈ (parse g.headerSize (rest ++ data)).1, Taken g c frame
    · obtain ⟨buffer, loop, kept⟩ := loop_taken pushed pushed.enough first
      have there : At g { c with
          buffer := buffer
          pushed := c.pushed + data.length
          cuts := c.cuts ++ boundaries g.headerSize start (parse g.headerSize (rest ++ data)).1
          sent := c.sent ++ deliveries g c (parse g.headerSize (rest ++ data)).1 }
          (start + spanned g.headerSize (parse g.headerSize (rest ++ data)).1)
          (parse g.headerSize (rest ++ data)).2 := by
        refine ⟨kept, ?_⟩
        rw [Nat.add_assoc, parse_length]
        exact pushed.placed
      have dispatched : dispatchMessage g c data = some { c with
          buffer := buffer
          pushed := c.pushed + data.length
          cuts := c.cuts ++ boundaries g.headerSize start (parse g.headerSize (rest ++ data)).1
          sent := c.sent ++ deliveries g c (parse g.headerSize (rest ++ data)).1 } := loop
      have further := ih there (parse_rest _ _)
      rw [receive, dispatched, Option.bind_some, ← append_assoc, ← append_assoc]
      apply further.trans
      rw [forall_mem_append]
      exact ⟨fun others => ⟨first, others⟩, fun all => all.2⟩
    · constructor
      · rintro ⟨c', received, cuts, -⟩
        obtain ⟨next, dispatched, received⟩ := Option.bind_eq_some_iff.mp received
        have astray := loop_refused pushed first dispatched (boundaries g.headerSize
            (start + spanned g.headerSize (parse g.headerSize (rest ++ data)).1)
            (parse g.headerSize ((parse g.headerSize (rest ++ data)).2 ++ later.flatten)).1)
        rw [append_assoc] at astray
        exact absurd cuts (astray_receive astray received).cuts_ne
      · intro all
        exact absurd (fun frame member => all frame (mem_append_left _ member)) first

theorem accepted_at (id : Int) (agent client : Nat) : At g (accepted id agent client) 0 [] :=
  ⟨⟨cleared_sound, .inl ⟨rfl, rfl⟩⟩, rfl⟩

theorem gate_frame_sync (g : Gate) (id : Int) (agent client : Nat) (chunks : List (List UInt8)) :
    InSync g (accepted id agent client) chunks ↔
      (∀ frame ∈ (parse g.headerSize chunks.flatten).1, frame.length < 0x1000000) ∧
      ((g.broker ≠ 0 ∨ agent ≠ 0 ∨ g.watchdog ≠ 0) ∨
        ∀ frame ∈ (parse g.headerSize chunks.flatten).1, frame = []) := by
  have sync := receive_sync (accepted_at (g := g) id agent client) (parse_nil _) chunks
  refine sync.trans ⟨fun taken => ⟨fun frame member => (taken frame member).1, ?_⟩, ?_⟩
  · by_cases destined : Destined g (accepted id agent client)
    · exact .inl destined
    · exact .inr fun frame member => (taken frame member).2.resolve_left destined
  · rintro ⟨fits, destined | empty⟩ frame member
    · exact ⟨fits frame member, .inl destined⟩
    · exact ⟨fits frame member, .inr (empty frame member)⟩

/- The body of the first frame is left in the buffer, and its byte is read as a header. -/
theorem gate_frame_sync_nowhere :
    ¬ InSync ⟨0, 0, 3, .S⟩ (accepted 7 0 0) [[0, 1, 0, 0, 0]] := by
  have stream : (parse .S [0, 1, 0, 0, 0]).1 = [[0], []] := by
    rw [parse_whole (by decide)]
    change _ :: (parse .S [0, 0]).1 = _
    rw [parse_whole (by decide)]
    change _ :: _ :: (parse .S []).1 = _
    rw [parse_nil]
    rfl
  rintro ⟨c', received, cuts, -⟩
  cases received
  change [2, 4] = boundaries .S 0 (parse .S [0, 1, 0, 0, 0]).1 at cuts
  rw [stream] at cuts
  exact absurd cuts (by decide)

end Stream

end Skynet.ServiceGate
