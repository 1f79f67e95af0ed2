import Skynet.Seri.Safety

/-! luaseri_unpack with a C stack of a given depth against the run that the stack does not
stop, and when it is safe. -/
namespace Skynet.Seri.Untrusted
open Base

variable {α β : Type} {limit : Nat}

/-- The run `x` with the limited stack does what the run `y` without a limit does if that one
stays within the limit, and overflows the stack if it does not. -/
structure Limited (limit : Nat) (x y : Reading α) : Prop where
  deeper : ∀ t, t.deepest ≤ recorded Tape.deepest (y t)
  same : ∀ t, recorded Tape.deepest (y t) ≤ limit → x t = y t
  overflow : ∀ t, t.deepest ≤ limit → limit < recorded Tape.deepest (y t) →
    ∃ t', x t = .error .cStack t'

theorem deepest_bind (y : Reading α) (g : α → Reading β) (t : Tape) :
    recorded Tape.deepest ((y >>= g) t) = match y t with
      | .ok a t' => recorded Tape.deepest (g a t')
      | .error _ t' => t'.deepest := by
  rw [bind_run]
  cases y t <;> rfl

variable {x y : Reading α}

theorem Limited.bind {f g : α → Reading β} (first : Limited limit x y)
    (rest : ∀ a, Limited limit (f a) (g a)) : Limited limit (x >>= f) (y >>= g) := by
  have longer : ∀ t, recorded Tape.deepest (y t) ≤ recorded Tape.deepest ((y >>= g) t) := by
    intro t
    rw [deepest_bind]
    cases y t with
    | error e t' => exact Nat.le_refl _
    | ok a t' => exact (rest a).deeper t'
  refine ⟨fun t => (first.deeper t).trans (longer t), ?_, ?_⟩
  · intro t within
    have before := first.same t ((longer t).trans within)
    rw [deepest_bind] at within
    rw [bind_run, bind_run, before]
    cases ran : y t with
    | error e t' => rfl
    | ok a t' =>
      rw [ran] at within
      exact (rest a).same t' within
  · intro t shallow beyond
    by_cases within : recorded Tape.deepest (y t) ≤ limit
    · have before := first.same t within
      rw [deepest_bind] at beyond
      rw [bind_run, before]
      cases ran : y t with
      | error e t' =>
        rw [ran] at beyond within
        exact absurd within (Nat.not_le_of_lt beyond)
      | ok a t' =>
        rw [ran] at beyond within
        exact (rest a).overflow t' within beyond
    · obtain ⟨t', stopped⟩ := first.overflow t shallow (Nat.lt_of_not_le within)
      rw [bind_run, stopped]
      exact ⟨t', rfl⟩

theorem Limited.ite {c : Prop} [Decidable c] {x' y' : Reading α} (yes : Limited limit x y)
    (no : Limited limit x' y') : Limited limit (if c then x else x') (if c then y else y') := by
  split
  · exact yes
  · exact no

theorem Limited.level (level : ∀ t, recorded Tape.deepest (x t) = t.deepest) :
    Limited limit x x := by
  refine ⟨fun t => (level t).ge, fun _ _ => rfl, fun t shallow beyond => ?_⟩
  rw [level t] at beyond
  omega

theorem limited_pure (a : α) : Limited limit (pure a) (pure a) := .level fun _ => rfl

theorem limited_throw (e : Stop) : Limited limit (throw e : Reading α) (throw e) :=
  .level fun _ => rfl

theorem limited_invalidStream (line : Nat) :
    Limited limit (invalidStream line : Reading α) (invalidStream line) := .level fun _ => rfl

theorem limited_rbReadOr (line : Nat) (sz : Int) :
    Limited limit (rbReadOr line sz) (rbReadOr line sz) := by
  refine .level fun t => ?_
  by_cases few : t.len < sz
  · rw [rbReadOr_short line few]
    rfl
  · rw [rbReadOr_read line few]
    rfl

theorem limited_enter : Limited limit (enter (some limit)) (enter none) := by
  have free : ∀ t, enter none t =
      .ok () { t with depth := t.depth + 1, deepest := max t.deepest (t.depth + 1) } :=
    fun t => if_neg (by simp)
  refine ⟨fun t => ?_, fun t within => ?_, fun t shallow beyond => ?_⟩
  · rw [free]
    exact Nat.le_max_left _ _
  · rw [free] at within ⊢
    have held : t.depth + 1 ≤ limit := (Nat.le_max_right _ _).trans within
    exact if_neg (by simp; omega)
  · rw [free] at beyond
    have full : limit ≤ t.depth := by
      simp only [recorded] at beyond
      omega
    exact ⟨t, if_pos ⟨limit, rfl, full⟩⟩

theorem limited_getInteger (cookie : Nat) :
    Limited limit (getInteger cookie) (getInteger cookie) := by
  have read : ∀ (line : Nat) (sz : Int) (g : List UInt8 → Int64),
      Limited limit (rbReadOr line sz >>= fun bytes => pure (g bytes))
        (rbReadOr line sz >>= fun bytes => pure (g bytes)) :=
    fun line sz g => (limited_rbReadOr line sz).bind fun bytes => limited_pure (g bytes)
  unfold getInteger
  exact .ite (limited_pure 0) (.ite (read ..) (.ite (read ..) (.ite (read ..) (.ite (read ..)
    (limited_invalidStream 395)))))

theorem limited_getBuffer (len : Int) : Limited limit (getBuffer len) (getBuffer len) :=
  (limited_rbReadOr 425 len).bind fun _ => .ite (limited_throw _) (limited_pure _)

theorem limited_noted (n : Nat) (sz : Int) :
    Limited limit (note n >>= fun _ => getBuffer sz) (note n >>= fun _ => getBuffer sz) := by
  have noted : Limited limit (note n) (note n) := .level fun _ => rfl
  exact noted.bind fun _ => limited_getBuffer sz

theorem limited_grow : Limited limit grow grow := .level fun _ => rfl

theorem limited_pop (slots : Nat) : Limited limit (pop slots) (pop slots) := .level fun _ => rfl

theorem limited_checkStack : Limited limit checkStack checkStack := by
  refine .level fun t => ?_
  unfold checkStack
  split <;> rfl

theorem limited_pushed {x y : Reading Item} (value : Limited limit x y) :
    Limited limit (pushed x) (pushed y) :=
  value.bind fun v => limited_grow.bind fun _ => limited_pure v

theorem limited_arraySize (cookie : Nat) :
    Limited limit (arraySize cookie) (arraySize cookie) := by
  refine .ite ((limited_rbReadOr 438 1).bind fun _ => ?_) (limited_pure _)
  exact .ite (limited_invalidStream 443) ((limited_getInteger _).bind fun n => limited_pure _)

section Values
variable {x y : Reading Item} (one : Limited limit x y)
include one

theorem limited_unpackArray (size : Nat) :
    Limited limit (unpackArray x size) (unpackArray y size) := by
  induction size with
  | zero => exact limited_pure []
  | succ size ih =>
    refine one.bind fun v => (limited_pop 1).bind fun _ => ?_
    exact ih.bind fun vs => limited_pure (v :: vs)

theorem limited_unpackFields (rounds : Nat) :
    Limited limit (unpackFields x rounds) (unpackFields y rounds) := by
  induction rounds with
  | zero => exact limited_throw .exhausted
  | succ rounds ih =>
    refine one.bind fun k => .ite ((limited_pop 1).bind fun _ => limited_pure []) ?_
    refine one.bind fun v => .ite (limited_throw _) ((limited_pop 2).bind fun _ => ?_)
    exact ih.bind fun rest => limited_pure ((k, v) :: rest)

theorem limited_unpackHash : Limited limit (unpackHash x) (unpackHash y) :=
  ⟨fun t => (limited_unpackFields one _).deeper t, fun t => (limited_unpackFields one _).same t,
    fun t => (limited_unpackFields one _).overflow t⟩

theorem limited_unpackTable (cookie : Nat) :
    Limited limit (unpackTable x (some limit) cookie) (unpackTable y none cookie) := by
  have left : Limited limit leave leave := .level fun _ => rfl
  refine limited_enter.bind fun _ => (limited_arraySize cookie).bind fun size => ?_
  refine limited_checkStack.bind fun _ => limited_grow.bind fun _ => ?_
  refine (limited_unpackArray one size.toNat).bind fun array => ?_
  exact (limited_unpackHash one).bind fun fields => left.bind fun _ => limited_pure _

theorem limited_pushValue (type cookie : Nat) :
    Limited limit (pushValue x (some limit) type cookie) (pushValue y none type cookie) := by
  have eight : ∀ line, Limited limit
      (rbReadOr line 8 >>= fun bytes => pure (UInt64.ofNat (leValue bytes)))
      (rbReadOr line 8 >>= fun bytes => pure (UInt64.ofNat (leValue bytes))) :=
    fun line => (limited_rbReadOr line 8).bind fun bytes => limited_pure _
  unfold pushValue
  refine .ite (limited_pushed (limited_pure _)) (.ite (limited_pushed (limited_pure _)) ?_)
  refine .ite (.ite (limited_pushed ?_) (limited_pushed ?_)) (.ite (limited_pushed ?_) ?_)
  · exact (eight 405).bind fun bits => limited_pure _
  · exact (limited_getInteger cookie).bind fun n => limited_pure _
  · exact (eight 415).bind fun p => limited_pure _
  · refine .ite (limited_pushed (limited_getBuffer _)) (.ite (.ite ?_ (.ite ?_ ?_)) (.ite ?_ ?_))
    · exact limited_pushed ((limited_rbReadOr 491 2).bind fun bytes => limited_getBuffer _)
    · exact limited_invalidStream 498
    · exact limited_pushed ((limited_rbReadOr 502 4).bind fun bytes => limited_noted _ _)
    · exact limited_unpackTable one cookie
    · exact limited_invalidStream 515

end Values

theorem limited_unpackOne (rounds : Nat) :
    Limited limit (unpackOne (some limit) rounds) (unpackOne none rounds) := by
  induction rounds with
  | zero => exact limited_throw .exhausted
  | succ rounds ih => exact (limited_rbReadOr 526 1).bind fun bytes => limited_pushValue ih _ _

theorem limited_unpackValues (fuel rounds i : Nat) :
    Limited limit (unpackValues (some limit) fuel rounds i) (unpackValues none fuel rounds i) := by
  induction rounds generalizing i with
  | zero => exact limited_throw .exhausted
  | succ rounds ih =>
    have read : Limited limit (rbRead 1) (rbRead 1) := by
      refine .level fun t => ?_
      unfold rbRead
      split <;> rfl
    have checked : Limited limit (checkEighth i) (checkEighth i) :=
      .ite limited_checkStack (limited_pure ())
    refine checked.bind fun _ => read.bind fun byte => ?_
    cases byte with
    | none => exact limited_pure []
    | some bytes =>
      refine (limited_pushValue (limited_unpackOne fuel) _ _).bind fun v => ?_
      exact (ih (i + 1)).bind fun vs => limited_pure (v :: vs)

theorem signed_le (n : Nat) : signed 32 n ≤ n := by
  unfold signed
  split_ifs <;> omega

section Block
variable (used : Nat) {block : List UInt8} {len : Int}

theorem fine_rballInit (left : 0 ≤ len) (inside : len ≤ block.length) :
    Fine (rballInit used block len) := by
  refine ⟨left, Int.le_refl 0, ?_, ?_, ?_⟩
  · simpa [rballInit] using inside
  · simp [rballInit]
  · simp [rballInit]

/- A block whose length is negative as an int is taken to be at its end. -/
theorem unpackBlock_negative (negative : len < 0) :
    unpackBlock none used block len = .ok [] (rballInit used block len) := by
  have short : rbRead 1 (rballInit used block len) = .ok none (rballInit used block len) :=
    if_pos (by simp only [rballInit]; omega)
  unfold unpackBlock unpackValues
  rw [if_neg (by omega), bind_run]
  show (rbRead 1 >>= _) (rballInit used block len) = _
  rw [bind_run, short]
  rfl

theorem unpackBlock_settled (left : 0 ≤ len) (inside : len ≤ block.length) :
    Settled 0 (rballInit used block len) (unpackBlock none used block len) := by
  have fine := fine_rballInit used left inside
  unfold unpackBlock
  split_ifs
  · exact ⟨fine, by omega, rfl⟩
  · have reads : Reads (len + 1) 0 (unpackValues none (block.length + 1) (block.length + 1) 0) :=
      reads_unpackValues _ _ 0 (by omega) (by omega)
    exact reads.run _ fine (Int.lt_succ len)

theorem unpackBlock_record (inside : len ≤ block.length) :
    Ends (unpackBlock none used block len) ∧
      (((∀ m ∈ recorded Tape.moves (unpackBlock none used block len), m.Forward block.length) ∧
        ∀ n ∈ recorded Tape.lengths (unpackBlock none used block len), n < 2 ^ 31) ∨
      ((∃ m ∈ recorded Tape.moves (unpackBlock none used block len), m.stop < m.start) ∧
        ∃ n ∈ recorded Tape.lengths (unpackBlock none used block len), 2 ^ 31 ≤ n)) := by
  by_cases negative : len < 0
  · rw [unpackBlock_negative used negative]
    exact ⟨trivial, .inl ⟨by simp [recorded, rballInit], by simp [recorded, rballInit]⟩⟩
  · have settled := unpackBlock_settled used (Int.not_lt.mp negative) inside
    cases ran : unpackBlock none used block len with
    | ok vs t =>
      rw [ran] at settled
      obtain ⟨fine, _, same⟩ := settled
      have forward := fine.moves
      rw [same] at forward
      exact ⟨trivial, .inl ⟨forward, fine.lengths⟩⟩
    | error e t =>
      rw [ran] at settled
      obtain ⟨fine | spoiled, raised, same⟩ := settled
      · have forward := fine.moves
        rw [same] at forward
        exact ⟨raised, .inl ⟨forward, fine.lengths⟩⟩
      · exact ⟨raised, .inr ⟨spoiled.back, spoiled.length⟩⟩

variable {frames : Nat}

theorem unpackBlock_same (within : recorded Tape.deepest (unpackBlock none used block len) ≤ frames) :
    unpackBlock (some frames) used block len = unpackBlock none used block len := by
  unfold unpackBlock at within ⊢
  split_ifs at within ⊢
  · rfl
  · exact (limited_unpackValues _ _ 0).same _ within

theorem unpackBlock_overflow
    (beyond : frames < recorded Tape.deepest (unpackBlock none used block len)) :
    ∃ t, unpackBlock (some frames) used block len = .error .cStack t := by
  unfold unpackBlock at beyond ⊢
  split_ifs at beyond ⊢
  · exact absurd beyond (Nat.not_lt_zero _)
  · exact (limited_unpackValues _ _ 0).overflow _ (Nat.zero_le frames) beyond

theorem unpackBlock_safe_iff (inside : len ≤ block.length) :
    (Ends (unpackBlock (some frames) used block len) ∧
      ∀ m ∈ recorded Tape.moves (unpackBlock (some frames) used block len), m.Forward block.length) ↔
    (∀ n ∈ recorded Tape.lengths (unpackBlock none used block len), n < 2 ^ 31) ∧
      recorded Tape.deepest (unpackBlock none used block len) ≤ frames := by
  obtain ⟨ends, record⟩ := unpackBlock_record used inside
  constructor
  · rintro ⟨ended, forward⟩
    have within : recorded Tape.deepest (unpackBlock none used block len) ≤ frames := by
      by_contra beyond
      obtain ⟨t, overflow⟩ := unpackBlock_overflow used (Nat.lt_of_not_le beyond)
      rw [overflow] at ended
      exact ended
    rw [unpackBlock_same used within] at forward
    rcases record with ⟨_, small⟩ | ⟨⟨m, member, back⟩, _⟩
    · exact ⟨small, within⟩
    · have ahead := (forward m member).2.1
      omega
  · rintro ⟨small, within⟩
    rw [unpackBlock_same used within]
    rcases record with ⟨forward, _⟩ | ⟨_, n, member, large⟩
    · exact ⟨ends, forward⟩
    · exact absurd (small n member) (Nat.not_lt_of_le large)

end Block

/- A string of 0xffffffff bytes, and three tables, one in the other, on a small C stack. -/
end Skynet.Seri.Untrusted
