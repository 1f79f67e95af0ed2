import Skynet.Seri.Untrusted

/-! What luaseri_unpack does to the read block: as long as no announced length is negative as
an int, the position only moves forward inside the block. -/
namespace Skynet.Seri.Untrusted
open Base List

variable {α β : Type}

theorem bind_run (x : Reading α) (f : α → Reading β) (t : Tape) :
    (x >>= f) t = match x t with
      | .ok a t' => f a t'
      | .error e t' => .error e t' := by
  show EStateM.bind x f t = _
  unfold EStateM.bind
  cases x t <;> rfl

theorem note_run (n : Nat) (x : Reading α) (t : Tape) :
    (note n >>= fun _ => x) t = x { t with lengths := n :: t.lengths } := rfl

structure Fine (t : Tape) : Prop where
  left : 0 ≤ t.len
  start : 0 ≤ t.ptr
  inside : t.ptr + t.len ≤ t.buffer.length
  moves : ∀ m ∈ t.moves, m.Forward t.buffer.length
  lengths : ∀ n ∈ t.lengths, n < 2 ^ 31

/-- Some announced length was negative, and the position has gone back. -/
structure Spoiled (t : Tape) : Prop where
  back : ∃ m ∈ t.moves, m.stop < m.start
  length : ∃ n ∈ t.lengths, 2 ^ 31 ≤ n

/-- What became of a program that was started on `t`: one that returned has read `k` bytes or
more, and one that failed has done so with an error of Lua. -/
def Settled (k : Int) (t : Tape) : EStateM.Result Stop Tape α → Prop
  | .ok _ t' => Fine t' ∧ t'.len + k ≤ t.len ∧ t'.buffer = t.buffer
  | .error e t' => (Fine t' ∨ Spoiled t') ∧ e.Raised ∧ t'.buffer = t.buffer

/-- The program settles from every good block with fewer than `n` bytes left. -/
structure Reads (n k : Int) (x : Reading α) : Prop where
  run : ∀ t, Fine t → t.len < n → Settled k t (x t)

variable {k j sz n : Int} {t t' : Tape} {length : Nat}

theorem Settled.after {i : Int} {r : EStateM.Result Stop Tape α} (settled : Settled j t' r)
    (read : t'.len + k ≤ t.len) (same : t'.buffer = t.buffer) (sum : i ≤ k + j) :
    Settled i t r := by
  cases r with
  | error e u =>
    obtain ⟨ends, raised, buffer⟩ := settled
    exact ⟨ends, raised, buffer.trans same⟩
  | ok a u =>
    obtain ⟨fine, less, buffer⟩ := settled
    exact ⟨fine, by omega, buffer.trans same⟩

section Rules
variable {n k j : Int} {x : Reading α} {f : α → Reading β}

theorem Reads.bind (first : Reads n k x) (rest : ∀ a, Reads (n - k) j (f a)) :
    Reads n (k + j) (x >>= f) := by
  constructor
  intro t fine short
  have one := first.run t fine short
  rw [bind_run]
  cases ran : x t with
  | error e t' =>
    rw [ran] at one
    exact one
  | ok a t' =>
    rw [ran] at one
    obtain ⟨fine', less, same⟩ := one
    exact ((rest a).run t' fine' (by omega)).after less same (Int.le_refl _)

theorem Reads.weaken {n' k' : Int} (reads : Reads n k x) (fewer : n' ≤ n) (less : k' ≤ k) :
    Reads n' k' x := by
  constructor
  intro t fine short
  have settled := reads.run t fine (by omega)
  exact settled.after (Int.add_zero t.len).le rfl (by omega)

theorem Reads.ite {c : Prop} [Decidable c] {y : Reading α} (yes : c → Reads n k x)
    (no : ¬ c → Reads n k y) : Reads n k (if c then x else y) := by
  split
  · exact yes (by assumption)
  · exact no (by assumption)

theorem reads_never {x : Reading α} (empty : n ≤ 0) : Reads n k x := by
  constructor
  intro t fine short
  have left := fine.left
  omega

theorem reads_pure (a : α) : Reads n 0 (pure a) := by
  constructor
  intro t fine _
  exact ⟨fine, by omega, rfl⟩

theorem reads_throw (cause : Error) : Reads n k (throw (.lua cause) : Reading α) := by
  constructor
  intro t fine _
  exact ⟨.inl fine, trivial, rfl⟩

theorem reads_invalidStream (line : Nat) : Reads n k (invalidStream line : Reading α) := by
  constructor
  intro t fine _
  exact ⟨.inl fine, trivial, rfl⟩

/- The rules for a program that goes on with a result and for one that only changes it. -/
theorem Reads.andThen (first : Reads n k x) (forward : 0 ≤ k) (rest : ∀ a, Reads n 0 (f a)) :
    Reads n k (x >>= f) := by
  have both := first.bind fun a => (rest a).weaken (by omega) (Int.le_refl 0)
  rwa [Int.add_zero] at both

end Rules

def Tape.moved (t : Tape) (sz : Int) : Tape :=
  { t with ptr := t.ptr + sz, len := t.len - sz, moves := ⟨t.ptr, t.ptr + sz⟩ :: t.moves }

theorem Tape.moved_len (t : Tape) (sz : Int) : (t.moved sz).len + sz = t.len :=
  Int.sub_add_cancel t.len sz

theorem fine_moved (fine : Fine t) (forward : 0 ≤ sz) (enough : ¬ t.len < sz) :
    Fine (t.moved sz) := by
  have start := fine.start
  have inside := fine.inside
  unfold Tape.moved
  refine ⟨by dsimp only; omega, by dsimp only; omega, by dsimp only; omega, ?_, fine.lengths⟩
  intro m member
  rcases mem_cons.mp member with rfl | old
  · exact ⟨start, by dsimp only; omega, by dsimp only; omega⟩
  · exact fine.moves m old

theorem rbReadOr_short (line : Nat) (short : t.len < sz) :
    rbReadOr line sz t = .error (.lua (.invalidStream t.len line)) t := by
  simp [rbReadOr, bind_run, rbRead, short, invalidStream]

theorem rbReadOr_read (line : Nat) (enough : ¬ t.len < sz) :
    rbReadOr line sz t = .ok ((t.buffer.drop t.ptr.toNat).take sz.toNat) (t.moved sz) := by
  simp only [rbReadOr, bind_run, rbRead, if_neg enough]
  rfl

theorem Reads.afterRead {line : Nat} {f : List UInt8 → Reading α} (forward : 0 ≤ sz)
    (rest : ∀ bytes, bytes.length ≤ sz.toNat → Reads (n - sz) k (f bytes)) (sum : j ≤ sz + k) :
    Reads n j (rbReadOr line sz >>= f) := by
  constructor
  intro t fine short
  rw [bind_run]
  by_cases few : t.len < sz
  · rw [rbReadOr_short line few]
    exact ⟨.inl fine, trivial, rfl⟩
  · rw [rbReadOr_read line few]
    have less := t.moved_len sz
    have next := rest _ (length_take_le sz.toNat (t.buffer.drop t.ptr.toNat))
    exact (next.run _ (fine_moved fine forward few) (by omega)).after less.le rfl sum

theorem reads_getInteger (cookie : Nat) : Reads n 0 (getInteger cookie) := by
  unfold getInteger
  refine Reads.ite (fun _ => reads_pure 0) fun _ => ?_
  refine Reads.ite (fun _ => .afterRead (by decide) (fun _ _ => reads_pure _) (by decide)) fun _ =>
    ?_
  refine Reads.ite (fun _ => .afterRead (by decide) (fun _ _ => reads_pure _) (by decide)) fun _ =>
    ?_
  refine Reads.ite (fun _ => .afterRead (by decide) (fun _ _ => reads_pure _) (by decide)) fun _ =>
    ?_
  exact Reads.ite (fun _ => .afterRead (by decide) (fun _ _ => reads_pure _) (by decide))
    fun _ => reads_invalidStream 395

theorem reads_getReal : Reads n 0 getReal :=
  .afterRead (by decide) (fun _ _ => reads_pure _) (by decide)

theorem reads_getPointer : Reads n 0 getPointer :=
  .afterRead (by decide) (fun _ _ => reads_pure _) (by decide)

theorem reads_getBuffer {len : Int} (forward : 0 ≤ len) : Reads n 0 (getBuffer len) := by
  refine .afterRead forward (k := 0) (fun bytes _ => ?_) (by omega)
  rw [if_neg (Int.not_lt.mpr forward)]
  exact reads_pure _

theorem signed_small {n : Nat} (small : n < 2 ^ 31) : signed 32 n = n := by
  apply signed_of_range (by decide)
  · omega
  · omega

theorem signed_large {n : Nat} (large : 2 ^ 31 ≤ n) (word : n < 2 ^ 32) :
    signed 32 n < 0 := by
  have mod : (n : Int) % 2 ^ 32 = n := Int.emod_eq_of_lt (by omega) (by omega)
  unfold signed
  rw [mod]
  split_ifs <;> omega

/- A length that is negative as an int moves the position back, and the string is refused. -/
theorem reads_noted (narrowed : (length < 2 ^ 31 ∧ 0 ≤ sz) ∨ (2 ^ 31 ≤ length ∧ sz < 0)) :
    Reads n 0 (note length >>= fun _ => getBuffer sz) := by
  constructor
  intro t fine short
  rw [note_run]
  rcases narrowed with ⟨small, forward⟩ | ⟨large, negative⟩
  · have noted : Fine { t with lengths := length :: t.lengths } := by
      refine ⟨fine.left, fine.start, fine.inside, fine.moves, ?_⟩
      intro m member
      rcases mem_cons.mp member with rfl | old
      · exact small
      · exact fine.lengths m old
    exact (reads_getBuffer forward).run _ noted short
  · have left := fine.left
    have enough : ¬ Tape.len { t with lengths := length :: t.lengths } < sz := by
      dsimp only
      omega
    simp only [getBuffer, bind_run, rbReadOr_read 425 enough, if_pos negative]
    refine ⟨.inr ⟨⟨⟨t.ptr, t.ptr + sz⟩, ?_, ?_⟩, length, ?_, large⟩, trivial, rfl⟩
    · exact mem_cons_self ..
    · dsimp only
      omega
    · exact mem_cons_self ..

theorem reads_getLongBuffer (word : length < 2 ^ 32) :
    Reads n 0 (getLongBuffer length) := by
  have narrowed : (length < 2 ^ 31 ∧ 0 ≤ signed 32 length) ∨
      (2 ^ 31 ≤ length ∧ signed 32 length < 0) := by
    by_cases small : length < 2 ^ 31
    · left
      refine ⟨small, ?_⟩
      rw [signed_small small]
      omega
    · right
      exact ⟨Nat.le_of_not_lt small, signed_large (Nat.le_of_not_lt small) word⟩
  exact reads_noted narrowed

theorem leValue_word {bytes : List UInt8} (four : bytes.length ≤ 4) : leValue bytes < 2 ^ 32 :=
  calc leValue bytes < 256 ^ bytes.length := leValue_lt bytes
    _ ≤ 256 ^ 4 := Nat.pow_le_pow_right (by decide) four
    _ = 2 ^ 32 := by decide

theorem reads_arraySize (cookie : Nat) : Reads n 0 (arraySize cookie) := by
  refine Reads.ite (fun _ => ?_) fun _ => reads_pure _
  refine .afterRead (by decide) (k := 0) (fun bytes _ => ?_) (by decide)
  refine Reads.ite (fun _ => reads_invalidStream 443) fun _ => ?_
  exact (reads_getInteger _).andThen (Int.le_refl 0) fun _ => reads_pure _

theorem Fine.congr (fine : Fine t) (buffer : t'.buffer = t.buffer) (len : t'.len = t.len)
    (ptr : t'.ptr = t.ptr) (moves : t'.moves = t.moves) (lengths : t'.lengths = t.lengths) :
    Fine t' := by
  obtain ⟨left, start, inside, forward, small⟩ := fine
  rw [← len, ← ptr, ← moves, ← lengths, ← buffer] at *
  exact ⟨left, start, inside, forward, small⟩

theorem reads_enter : Reads n 0 (enter none) := by
  constructor
  intro t fine _
  have free : enter none t =
      .ok () { t with depth := t.depth + 1, deepest := max t.deepest (t.depth + 1) } :=
    if_neg (by simp)
  rw [free]
  exact ⟨fine.congr rfl rfl rfl rfl rfl, (Int.add_zero t.len).le, rfl⟩

theorem reads_leave : Reads n 0 leave :=
  ⟨fun t fine _ => ⟨fine.congr rfl rfl rfl rfl rfl, (Int.add_zero t.len).le, rfl⟩⟩

theorem reads_grow : Reads n 0 grow :=
  ⟨fun t fine _ => ⟨fine.congr rfl rfl rfl rfl rfl, (Int.add_zero t.len).le, rfl⟩⟩

theorem reads_pop (slots : Nat) : Reads n 0 (pop slots) :=
  ⟨fun t fine _ => ⟨fine.congr rfl rfl rfl rfl rfl, (Int.add_zero t.len).le, rfl⟩⟩

theorem reads_checkStack : Reads n 0 checkStack := by
  constructor
  intro t fine _
  unfold checkStack
  split
  · exact ⟨.inl fine, trivial, rfl⟩
  · exact ⟨fine, (Int.add_zero t.len).le, rfl⟩

theorem reads_checkEighth (i : Nat) : Reads n 0 (checkEighth i) :=
  .ite (fun _ => reads_checkStack) fun _ => reads_pure ()

theorem reads_pushed {value : Reading Item} (reads : Reads n 0 value) :
    Reads n 0 (pushed value) :=
  reads.andThen (Int.le_refl 0) fun _ =>
    reads_grow.andThen (Int.le_refl 0) fun _ => reads_pure _

section Values
variable {n : Int} {unpackOne : Reading Item} (one : Reads n 1 unpackOne)
include one

theorem reads_unpackArray (size : Nat) : Reads n 0 (unpackArray unpackOne size) := by
  induction size with
  | zero => exact reads_pure []
  | succ size ih =>
    refine (one.andThen (by decide) fun v => ?_).weaken (Int.le_refl n) (by decide)
    refine (reads_pop 1).andThen (Int.le_refl 0) fun _ => ?_
    exact ih.andThen (Int.le_refl 0) fun vs => reads_pure (v :: vs)

/- Every round reads a key, so that the rounds last as long as the bytes. -/
theorem reads_unpackFields (rounds : Nat) {m : Int} (fewer : m ≤ n) (last : m ≤ rounds) :
    Reads m 0 (unpackFields unpackOne rounds) := by
  induction rounds generalizing m with
  | zero => exact reads_never (by omega)
  | succ rounds ih =>
    have key := one.weaken fewer (Int.le_refl 1)
    have value : Reads (m - 1) 0 unpackOne := one.weaken (by omega) (by decide)
    have rest : Reads (m - 1) 0 (unpackFields unpackOne rounds) := ih (by omega) (by omega)
    refine (key.bind (j := 0) fun k => ?_).weaken (Int.le_refl m) (by decide)
    refine Reads.ite (fun _ => (reads_pop 1).andThen (Int.le_refl 0) fun _ => reads_pure [])
      fun _ => ?_
    refine value.andThen (Int.le_refl 0) fun v => ?_
    refine Reads.ite (fun _ => reads_throw .keyIsNaN) fun _ => ?_
    refine (reads_pop 2).andThen (Int.le_refl 0) fun _ => ?_
    exact rest.andThen (Int.le_refl 0) fun fields => reads_pure ((k, v) :: fields)

theorem reads_unpackHash : Reads n 0 (unpackHash unpackOne) := by
  constructor
  intro t fine short
  have rounds : Reads (t.len + 1) 0 (unpackFields unpackOne (t.len.toNat + 1)) :=
    reads_unpackFields one _ (by omega) (by omega)
  exact rounds.run t fine (by omega)

theorem reads_unpackTable (cookie : Nat) : Reads n 0 (unpackTable unpackOne none cookie) := by
  refine reads_enter.andThen (Int.le_refl 0) fun _ => ?_
  refine (reads_arraySize cookie).andThen (Int.le_refl 0) fun size => ?_
  refine reads_checkStack.andThen (Int.le_refl 0) fun _ => ?_
  refine reads_grow.andThen (Int.le_refl 0) fun _ => ?_
  refine (reads_unpackArray one size.toNat).andThen (Int.le_refl 0) fun array => ?_
  refine (reads_unpackHash one).andThen (Int.le_refl 0) fun fields => ?_
  exact reads_leave.andThen (Int.le_refl 0) fun _ => reads_pure _

theorem reads_pushValue (type cookie : Nat) :
    Reads n 0 (pushValue unpackOne none type cookie) := by
  have keep : ∀ {α : Type} {x : Reading α} {g : α → Item}, Reads n 0 x →
      Reads n 0 (pushed (x >>= fun v => pure (g v))) :=
    fun reads => reads_pushed (reads.andThen (Int.le_refl 0) fun _ => reads_pure _)
  unfold pushValue
  refine Reads.ite (fun _ => reads_pushed (reads_pure _)) fun _ => ?_
  refine Reads.ite (fun _ => reads_pushed (reads_pure _)) fun _ => ?_
  refine Reads.ite (fun _ => Reads.ite (fun _ => keep reads_getReal)
    fun _ => keep (reads_getInteger cookie)) fun _ => ?_
  refine Reads.ite (fun _ => keep reads_getPointer) fun _ => ?_
  refine Reads.ite (fun _ => reads_pushed (reads_getBuffer (by omega))) fun _ => ?_
  refine Reads.ite (fun _ => ?_) fun _ => ?_
  · refine Reads.ite (fun _ => reads_pushed ?_) fun _ => ?_
    · exact .afterRead (by decide) (fun _ _ => reads_getBuffer (by omega)) (by decide)
    · refine Reads.ite (fun _ => reads_invalidStream 498) fun _ => reads_pushed ?_
      exact .afterRead (by decide) (fun _ four => reads_getLongBuffer (leValue_word four))
        (by decide)
  · exact Reads.ite (fun _ => reads_unpackTable one cookie) fun _ => reads_invalidStream 515

end Values

theorem reads_unpackOne (rounds : Nat) : Reads rounds 1 (unpackOne none rounds) := by
  induction rounds with
  | zero => exact reads_never (by omega)
  | succ rounds ih =>
    refine .afterRead (by decide) (k := 0) (fun bytes _ => ?_) (by decide)
    exact (reads_pushValue ih _ _).weaken (by omega) (Int.le_refl 0)

theorem reads_unpackValues (fuel rounds i : Nat) {m : Int} (enough : m ≤ fuel)
    (last : m ≤ rounds) : Reads m 0 (unpackValues none fuel rounds i) := by
  induction rounds generalizing m i with
  | zero => exact reads_never (by omega)
  | succ rounds ih =>
    have rest : Reads (m - 1) 0 (unpackValues none fuel rounds (i + 1)) :=
      ih (i + 1) (by omega) (by omega)
    have goOn : ∀ type cookie, Reads (m - 1) 0
        (pushValue (unpackOne none fuel) none type cookie >>= fun v =>
          unpackValues none fuel rounds (i + 1) >>= fun vs => pure (v :: vs)) := by
      intro type cookie
      have value := (reads_pushValue (reads_unpackOne fuel) type cookie).weaken
        (show m - 1 ≤ fuel by omega) (Int.le_refl 0)
      exact value.andThen (Int.le_refl 0) fun v =>
        rest.andThen (Int.le_refl 0) fun vs => reads_pure (v :: vs)
    refine (reads_checkEighth i).andThen (Int.le_refl 0) fun _ => ?_
    constructor
    intro t fine short
    rw [bind_run]
    by_cases few : t.len < 1
    · rw [show rbRead 1 t = .ok none t from if_pos few]
      exact ⟨fine, by omega, rfl⟩
    · rw [show rbRead 1 t = .ok (some _) (t.moved 1) from if_neg few]
      have less := t.moved_len 1
      exact ((goOn _ _).run _ (fine_moved fine (by decide) few) (by omega)).after less.le rfl
        (by decide)

end Skynet.Seri.Untrusted
