import Skynet.Gate.Rounds

/-! A gate that is out of step with the frames of a stream. Whatever the code does next,
the cuts that it made stay and it never goes back in the stream. -/
namespace Skynet.ServiceGate
open Base List Option

/-- The cuts have left these boundaries for good: another cut is made in the place of one
of them, or the next of them lies behind, or the header that is waited for is negative. -/
inductive Astray (full : List Nat) (c : Connection) : Prop
  | other (common later tail : List Nat) (x y : Nat) (bounds : full = common ++ x :: later)
      (cuts : c.cuts = common ++ y :: tail) (apart : x ≠ y)
  | passed (later : List Nat) (x : Nat) (bounds : full = c.cuts ++ x :: later)
      (within : c.buffer.size ≤ c.pushed)
      (behind : x < c.pushed - c.buffer.size ∨
        c.buffer.header = 0 ∧ x ≤ c.pushed - c.buffer.size)
  | stuck (later : List Nat) (x : Nat) (bounds : full = c.cuts ++ x :: later)
      (negative : c.buffer.header < 0)

theorem Astray.cuts_ne {full : List Nat} {c : Connection} (astray : Astray full c) :
    c.cuts ≠ full := by
  intro same
  cases astray with
  | other common later tail x y bounds cuts apart =>
    rw [cuts, bounds] at same
    have heads := append_cancel_left same
    exact apart (List.cons.inj heads).1.symm
  | passed _ _ bounds _ _ | stuck _ _ bounds _ => exact absurd (bounds ▸ same) (by simp)

section Code
variable {g : Gate} {c c' : Connection} {db db' : DataBuffer} {size : Int} {full : List Nat}

theorem databufferRead_cases {sz : Nat} {bytes : List UInt8}
    (read : databufferRead db sz = some (bytes, db')) :
    sz ≤ db.size ∧ db'.size = db.size - sz := by
  unfold databufferRead at read
  split at read
  · next enough =>
    obtain ⟨loop, -, pair⟩ := map_eq_some_iff.mp read
    cases pair
    exact ⟨enough, rfl⟩
  · cases read

theorem readheader_cases {style : Header}
    (read : databufferReadheader db style = some (size, db')) :
    size = -1 ∧ db' = db ∨
      (size < 0 ∨ size = db'.header) ∧
        (db.header ≠ 0 ∧ db' = db ∨
          db.header = 0 ∧ style.size ≤ db.size ∧ db'.size = db.size - style.size) := by
  have answer : ∀ buffer : DataBuffer,
      (if (buffer.size : Int) < buffer.header then -1 else buffer.header) < 0 ∨
        (if (buffer.size : Int) < buffer.header then -1 else buffer.header) = buffer.header := by
    intro buffer
    split
    · exact .inl (by decide)
    · exact .inr rfl
  unfold databufferReadheader at read
  split_ifs at read with start short
  · cases read
    exact .inl ⟨rfl, rfl⟩
  · obtain ⟨⟨bytes, buffer⟩, taken, pair⟩ := map_eq_some_iff.mp read
    obtain ⟨enough, left⟩ := databufferRead_cases taken
    cases pair
    exact .inr ⟨answer _, .inr ⟨start, enough, left⟩⟩
  · cases read
    exact .inr ⟨answer _, .inl ⟨start, rfl⟩⟩

theorem handOver_cases {n : Nat} {message : List UInt8 → Send}
    (sent : handOver c n message = some c') :
    c'.cuts = c.cuts ∧ c'.pushed = c.pushed ∧ c'.buffer.size ≤ c.buffer.size := by
  obtain ⟨read, taken, rfl⟩ := map_eq_some_iff.mp sent
  exact ⟨rfl, rfl, (databufferRead_cases taken).2 ▸ Nat.sub_le _ _⟩

theorem forward_cases {n : Nat} (forwarded : forward g c n = some c') :
    c'.cuts = c.cuts ∧ c'.pushed = c.pushed ∧ c'.buffer.size ≤ c.buffer.size := by
  unfold forward at forwarded
  split_ifs at forwarded with broker agent watchdog
  · exact handOver_cases forwarded
  · exact handOver_cases forwarded
  · exact handOver_cases forwarded
  · cases forwarded
    exact ⟨rfl, rfl, Nat.le_refl _⟩

/- A cut beyond the next boundary. -/
theorem astray_cut (later : List Nat) (x : Nat) (bounds : full = c.cuts ++ x :: later)
    (behind : x < c.pushed - c.buffer.size) : Astray full c.cut :=
  .other c.cuts later [] x (c.pushed - c.buffer.size) bounds rfl (Nat.ne_of_lt behind)

theorem loop_cases {rounds : Nat} (dispatched : dispatchLoop g (rounds + 1) c = some c') :
    ∃ size buffer, databufferReadheader c.buffer g.headerSize = some (size, buffer) ∧
      (size < 0 ∧ c' = { c with buffer := buffer } ∨
        0 < size ∧ c' = { c with buffer := .cleared, closed := true } ∨
        0 ≤ size ∧ ∃ next : Connection, next.cuts = c.cuts ∧ next.pushed = c.pushed ∧
          next.buffer.size ≤ buffer.size ∧ dispatchLoop g rounds next.cut = some c') := by
  rw [dispatchLoop] at dispatched
  rcases read : databufferReadheader c.buffer g.headerSize with _ | ⟨size, buffer⟩
  · rw [read] at dispatched
    cases dispatched
  · simp only [read] at dispatched
    refine ⟨size, buffer, rfl, ?_⟩
    split_ifs at dispatched with negative positive large
    · cases dispatched
      exact .inl ⟨negative, rfl⟩
    · cases dispatched
      exact .inr (.inl ⟨positive, rfl⟩)
    · split at dispatched
      · cases dispatched
      · next next forwarded =>
        obtain ⟨cuts, pushed, less⟩ := forward_cases forwarded
        exact .inr (.inr ⟨positive.le, { next with buffer := databufferReset next.buffer }, cuts,
          pushed, less, dispatched⟩)
    · exact .inr (.inr ⟨not_lt.mp negative, { c with buffer := buffer }, rfl, rfl,
        Nat.le_refl _, dispatched⟩)

/- The cuts that are made stay, and nothing goes back in the stream. -/
theorem astray_loop {rounds : Nat} (astray : Astray full c)
    (dispatched : dispatchLoop g rounds c = some c') : Astray full c' := by
  induction rounds generalizing c with
  | zero => cases dispatched
  | succ rounds ih =>
    have pos := header_size_pos g.headerSize
    obtain ⟨size, buffer, read, result⟩ := loop_cases dispatched
    cases astray with
    | other common later tail x y bounds cuts apart =>
      rcases result with ⟨-, rfl⟩ | ⟨-, rfl⟩ | ⟨-, next, same, -, -, further⟩
      · exact .other common later tail x y bounds cuts apart
      · exact .other common later tail x y bounds cuts apart
      · refine ih (.other common later (tail ++ [next.pushed - next.buffer.size]) x y bounds ?_
          apart) further
        change next.cuts ++ _ = _
        rw [same, cuts, append_assoc, cons_append]
    | passed later x bounds within behind =>
      have beyond : size = -1 ∧ buffer = c.buffer ∨
          buffer.size ≤ c.buffer.size ∧ x < c.pushed - buffer.size := by
        rcases readheader_cases read with answer | ⟨-, ⟨begun, rfl⟩ | ⟨-, enough, left⟩⟩
        · exact .inl answer
        · exact .inr ⟨Nat.le_refl _, behind.resolve_right fun start => begun start.1⟩
        · refine .inr ⟨left ▸ Nat.sub_le _ _, ?_⟩
          rcases behind with behind | ⟨-, behind⟩ <;> omega
      rcases result with ⟨-, rfl⟩ | ⟨-, rfl⟩ | ⟨nonneg, next, cuts, pushed, less, further⟩
      · rcases beyond with ⟨-, rfl⟩ | ⟨less, behind⟩
        · exact .passed later x bounds within behind
        · exact .passed later x bounds (Nat.le_trans less within) (.inl behind)
      · refine .passed later x bounds (Nat.zero_le _) (.inr ⟨rfl, ?_⟩)
        change x ≤ c.pushed - 0
        rcases behind with behind | ⟨-, behind⟩ <;> omega
      · rcases beyond with ⟨minus, -⟩ | ⟨-, behind⟩
        · omega
        · refine ih (astray_cut later x (cuts ▸ bounds) ?_) further
          rw [pushed]
          omega
    | stuck later x bounds negative =>
      have waits : size < 0 ∧ buffer = c.buffer := by
        rcases readheader_cases read with ⟨minus, same⟩ | ⟨value, ⟨-, same⟩ | ⟨start, -⟩⟩
        · exact ⟨by omega, same⟩
        · refine ⟨value.elim id fun header => ?_, same⟩
          rw [header, same]
          exact negative
        · omega
      obtain ⟨below, rfl⟩ := waits
      rcases result with ⟨-, rfl⟩ | ⟨positive, -⟩ | ⟨nonneg, -⟩
      · exact .stuck later x bounds negative
      · omega
      · omega

theorem astray_message {data : List UInt8} (astray : Astray full c)
    (dispatched : dispatchMessage g c data = some c') : Astray full c' := by
  refine astray_loop ?_ dispatched
  cases astray with
  | other common later tail x y bounds cuts apart =>
    exact .other common later tail x y bounds cuts apart
  | passed later x bounds within behind =>
    have place : c.pushed + data.length - (c.buffer.size + data.length) =
        c.pushed - c.buffer.size := by omega
    refine .passed later x bounds (Nat.add_le_add_right within _) ?_
    change x < c.pushed + data.length - (c.buffer.size + data.length) ∨
      c.buffer.header = 0 ∧ x ≤ c.pushed + data.length - (c.buffer.size + data.length)
    rw [place]
    exact behind
  | stuck later x bounds negative => exact .stuck later x bounds negative

theorem astray_receive {chunks : List (List UInt8)} (astray : Astray full c)
    (received : receive g c chunks = some c') : Astray full c' := by
  induction chunks generalizing c with
  | nil =>
    cases received
    exact astray
  | cons data later ih =>
    obtain ⟨next, dispatched, received⟩ := bind_eq_some_iff.mp received
    exact ih (astray_message astray dispatched) received

end Code

end Skynet.ServiceGate
