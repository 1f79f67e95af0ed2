import Skynet.Base.Outcome
import Skynet.Sproto.Pack

/-! sproto_unpack on any input. The reads are followed also into the runs that end with -1,
so the state is kept there. -/
namespace Skynet.Sproto
open Base List

section Source
variable (mem : Nat → UInt8) (srcsz : Nat)

/- A byte that fails has read nothing. -/
def tracedByte (header : UInt8) (s : UnpackState) (i : Nat) : Except UnpackState UnpackState :=
  match unpackByte mem srcsz header s i with
  | some s' => .ok s'
  | none => .error s

def tracedGroup (s : UnpackState) : Except UnpackState UnpackState :=
  let header := mem s.src
  let s : UnpackState :=
    { s with
      src := s.src + 1, srcsz := s.srcsz - 1, overread := s.overread || decide (srcsz ≤ s.src) }
  if header = 0xff then
    if s.srcsz < 0 then .error s
    else
      let n := ((mem s.src).toNat + 1) * 8
      let s : UnpackState := { s with overread := s.overread || decide (srcsz ≤ s.src) }
      if s.srcsz < n + 1 then .error s
      else
        .ok {
          src := s.src + 1 + n
          srcsz := s.srcsz - (n + 1)
          pos := s.pos + n
          bufsz := s.bufsz - n
          buffer :=
            if s.bufsz ≥ n then store s.buffer s.pos (window mem (s.src + 1) n) else s.buffer
          size := s.size + n
          overread := s.overread || (decide (s.bufsz ≥ n) && decide (srcsz < s.src + 1 + n)) }
  else (range 8).foldlM (tracedByte mem srcsz header) s

def tracedLoop : Nat → UnpackState → Except UnpackState UnpackState
  | 0, s => .ok s
  | rounds + 1, s =>
    if s.srcsz > 0 then tracedGroup mem srcsz s >>= tracedLoop rounds else .ok s

def tracedUnpack (buffer : Nat → UInt8) (bufsz : Int) : Except UnpackState UnpackState :=
  tracedLoop mem srcsz srcsz ⟨0, srcsz, 0, bufsz, buffer, 0, false⟩

/-- What the caller sees: the size or -1, and the buffer. -/
def unpackResult (buffer : Nat → UInt8) (bufsz : Int) : Option Nat × (Nat → UInt8) :=
  match tracedUnpack mem srcsz buffer bufsz with
  | .ok s => (some s.size, s.buffer)
  | .error s => (none, s.buffer)

end Source

def flag : Except UnpackState UnpackState → Bool
  | .ok s => s.overread
  | .error s => s.overread

/-! The groups of a packed stream. -/

def isStored (header : UInt8) (i : Nat) : Bool := (header >>> i.toUInt8) &&& 1 ≠ 0

/-- How many bytes a header other than 0xff announces. -/
def announced (header : UInt8) : Nat := ((range 8).filter (isStored header)).length

/-- How a stream ends: after a whole group, after a 0xff without its count, inside the data of
a run, or inside a group. -/
inductive Ending where
  | complete
  | missingCount
  | shortRun
  | shortGroup
  deriving DecidableEq, Repr

def endingFrom : Nat → List UInt8 → Ending
  | 0, _ => .complete
  | _, [] => .complete
  | rounds + 1, header :: rest =>
    if header = 0xff then
      match rest with
      | [] => .missingCount
      | count :: data =>
        let n := (count.toNat + 1) * 8
        if data.length < n then .shortRun else endingFrom rounds (data.drop n)
    else if rest.length < announced header then .shortGroup
    else endingFrom rounds (rest.drop (announced header))

def ending (src : List UInt8) : Ending := endingFrom src.length src

/-- Unpacking this source, with any bytes behind it and any buffer, reads nothing behind it,
answers -1 if it is truncated, and does not depend on what is behind it. -/
def SafeOn (src : List UInt8) : Prop :=
  ∀ mem buffer bufsz, window mem 0 src.length = src →
    flag (tracedUnpack mem src.length buffer bufsz) = false ∧
    (ending src ≠ .complete → (unpackResult mem src.length buffer bufsz).1 = none) ∧
    ∀ mem', window mem' 0 src.length = src →
      unpackResult mem' src.length buffer bufsz = unpackResult mem src.length buffer bufsz

/-! The traced functions compute what the others do. -/

section Traced
variable {mem : Nat → UInt8} {srcsz : Nat} {x : Except UnpackState UnpackState}
  {f : UnpackState → Except UnpackState UnpackState} {header : UInt8}

@[simp] theorem tracedByte_toOption (header : UInt8) (s : UnpackState) (i : Nat) :
    (tracedByte mem srcsz header s i).toOption = unpackByte mem srcsz header s i := by
  unfold tracedByte
  split <;> simp_all [Except.toOption]

theorem bind_toOption {o : Option UnpackState} {g : UnpackState → Option UnpackState}
    (first : x.toOption = o) (rest : ∀ s, (f s).toOption = g s) :
    (x >>= f).toOption = o >>= g := by
  subst first
  cases x with
  | error s => rfl
  | ok s => exact rest s

theorem tracedBytes_toOption (header : UInt8) (is : List Nat) (s : UnpackState) :
    (is.foldlM (tracedByte mem srcsz header) s).toOption =
      is.foldlM (unpackByte mem srcsz header) s := by
  induction is generalizing s with
  | nil => rfl
  | cons i is ih =>
    rw [foldlM_cons, foldlM_cons]
    exact bind_toOption (tracedByte_toOption header s i) ih

theorem tracedGroup_toOption (s : UnpackState) :
    (tracedGroup mem srcsz s).toOption = unpackGroup mem srcsz s := by
  unfold tracedGroup unpackGroup
  dsimp only
  split
  · split
    · rfl
    · split <;> rfl
  · exact tracedBytes_toOption ..

theorem tracedLoop_toOption (rounds : Nat) (s : UnpackState) :
    (tracedLoop mem srcsz rounds s).toOption = unpackLoop mem srcsz rounds s := by
  induction rounds generalizing s with
  | zero => rfl
  | succ rounds ih =>
    unfold tracedLoop unpackLoop
    split
    · exact bind_toOption (tracedGroup_toOption s) ih
    · rfl

theorem tracedUnpack_toOption (buffer : Nat → UInt8) (bufsz : Int) :
    (tracedUnpack mem srcsz buffer bufsz).toOption = sprotoUnpack mem srcsz buffer bufsz :=
  tracedLoop_toOption ..

/-! A read outside the source stays on record. -/

@[simp] theorem put_overread (s : UnpackState) (b : UInt8) :
    (s.put b).overread = s.overread := by
  unfold UnpackState.put
  split <;> rfl

@[simp] theorem put_src (s : UnpackState) (b : UInt8) : (s.put b).src = s.src := by
  unfold UnpackState.put
  split <;> rfl

@[simp] theorem put_srcsz (s : UnpackState) (b : UInt8) : (s.put b).srcsz = s.srcsz := by
  unfold UnpackState.put
  split <;> rfl

theorem put_bufsz (s : UnpackState) (b : UInt8) : s.bufsz - 1 ≤ (s.put b).bufsz := by
  unfold UnpackState.put
  split
  · exact Int.le_refl _
  · omega

theorem byte_sticky {s : UnpackState} {i : Nat} (beyond : s.overread = true) :
    flag (tracedByte mem srcsz header s i) = true := by
  unfold tracedByte unpackByte
  split_ifs <;> simp [flag, beyond]

theorem bind_sticky (sticky : ∀ s, s.overread = true → flag (f s) = true) (beyond : flag x = true) :
    flag (x >>= f) = true := by
  cases x with
  | error s => exact beyond
  | ok s => exact sticky s beyond

theorem bytes_sticky (is : List Nat) (s : UnpackState) (beyond : s.overread = true) :
    flag (is.foldlM (tracedByte mem srcsz header) s) = true := by
  induction is generalizing s with
  | nil => exact beyond
  | cons i is ih =>
    rw [foldlM_cons]
    exact bind_sticky ih (byte_sticky beyond)

theorem group_sticky (s : UnpackState) (beyond : s.overread = true ∨ srcsz ≤ s.src) :
    flag (tracedGroup mem srcsz s) = true := by
  have marked : (s.overread || decide (srcsz ≤ s.src)) = true := by simpa using beyond
  unfold tracedGroup
  dsimp only
  rw [marked]
  split
  · split_ifs <;> simp [flag]
  · exact bytes_sticky _ _ rfl

theorem loop_sticky (rounds : Nat) (s : UnpackState) (beyond : s.overread = true) :
    flag (tracedLoop mem srcsz rounds s) = true := by
  induction rounds generalizing s with
  | zero => exact beyond
  | succ rounds ih =>
    unfold tracedLoop
    split
    · exact bind_sticky ih (group_sticky s (.inl beyond))
    · exact beyond

end Traced

/-! Without such a read the bytes behind the source do not matter. -/

section Agree
variable {mem mem' : Nat → UInt8} {srcsz : Nat} (agree : ∀ k < srcsz, mem' k = mem k)

theorem bind_agree {x x' : Except UnpackState UnpackState}
    {f f' : UnpackState → Except UnpackState UnpackState}
    (sticky : ∀ s, s.overread = true → flag (f s) = true) (inside : flag (x >>= f) = false)
    (first : flag x = false → x' = x) (rest : ∀ s, flag (f s) = false → f' s = f s) :
    x' >>= f' = x >>= f := by
  cases x with
  | error s =>
    rw [first inside]
    rfl
  | ok s =>
    have clean : s.overread = false := by
      cases beyond : s.overread with
      | false => rfl
      | true => exact absurd (sticky s beyond) (by rw [show flag (f s) = false from inside]; decide)
    rw [first clean]
    exact rest s inside

include agree

variable {header : UInt8}

theorem byte_agree {s : UnpackState} {i : Nat}
    (inside : flag (tracedByte mem srcsz header s i) = false) :
    tracedByte mem' srcsz header s i = tracedByte mem srcsz header s i := by
  unfold tracedByte unpackByte at inside ⊢
  by_cases bit : (header >>> i.toUInt8) &&& 1 ≠ 0
  · by_cases empty : s.srcsz < 0
    · simp [bit, empty]
    · by_cases room : s.bufsz > 0
      · simp only [if_pos bit, if_neg empty, flag, room, decide_true, Bool.true_and,
          Bool.or_eq_false_iff, decide_eq_false_iff_not] at inside
        rw [agree s.src (by omega)]
      · simp [bit, empty, UnpackState.put, room]
  · simp [bit]

theorem bytes_agree (is : List Nat) (s : UnpackState)
    (inside : flag (is.foldlM (tracedByte mem srcsz header) s) = false) :
    is.foldlM (tracedByte mem' srcsz header) s = is.foldlM (tracedByte mem srcsz header) s := by
  induction is generalizing s with
  | nil => rfl
  | cons i is ih =>
    rw [foldlM_cons] at inside ⊢
    rw [foldlM_cons]
    exact bind_agree (bytes_sticky is) inside (byte_agree agree) ih

theorem group_agree (s : UnpackState) (inside : flag (tracedGroup mem srcsz s) = false) :
    tracedGroup mem' srcsz s = tracedGroup mem srcsz s := by
  have here : s.src < srcsz := by
    by_contra outside
    have beyond : flag (tracedGroup mem srcsz s) = true :=
      group_sticky s (.inr (Nat.le_of_not_lt outside))
    rw [inside] at beyond
    cases beyond
  unfold tracedGroup at inside ⊢
  rw [agree s.src here]
  by_cases run : mem s.src = 0xff
  · by_cases empty : s.srcsz - 1 < 0
    · simp only [run, empty, if_true]
    · simp only [run, empty, if_true, if_false] at inside ⊢
      have next : s.src + 1 < srcsz := by
        by_contra outside
        have marked : decide (srcsz ≤ s.src + 1) = true := by simpa using outside
        rw [marked] at inside
        split_ifs at inside <;> simp [flag] at inside
      rw [agree (s.src + 1) next]
      generalize ((mem (s.src + 1)).toNat + 1) * 8 = n at inside ⊢
      split_ifs at inside ⊢ with short room
      · rfl
      · have fits : s.src + 1 + 1 + n ≤ srcsz := by
          simp only [flag, room, decide_true, Bool.true_and, Bool.or_eq_false_iff,
            decide_eq_false_iff_not] at inside
          omega
        have same : window mem' (s.src + 1 + 1) n = window mem (s.src + 1 + 1) n :=
          window_congr fun k _ high => agree k (by omega)
        rw [same]
      · rfl
  · simp only [run, if_false] at inside ⊢
    exact bytes_agree agree _ _ inside

theorem loop_agree (rounds : Nat) (s : UnpackState)
    (inside : flag (tracedLoop mem srcsz rounds s) = false) :
    tracedLoop mem' srcsz rounds s = tracedLoop mem srcsz rounds s := by
  induction rounds generalizing s with
  | zero => rfl
  | succ rounds ih =>
    unfold tracedLoop at inside ⊢
    split
    · rename_i more
      rw [if_pos more] at inside
      exact bind_agree (loop_sticky rounds) inside (group_agree agree s) ih
    · rfl

end Agree

/-! A run against the list of the bytes that are left. -/

structure At (mem : Nat → UInt8) (srcsz : Nat) (s : UnpackState) (rest : List UInt8) : Prop where
  left : s.srcsz = rest.length
  total : s.src + rest.length = srcsz
  held : window mem s.src rest.length = rest

section Position
variable {mem : Nat → UInt8} {srcsz : Nat} {header : UInt8} {s : UnpackState} {rest : List UInt8}
  {b count : UInt8} {i : Nat} {data : List UInt8}

theorem At.cons (pos : At mem srcsz s (b :: rest)) :
    mem s.src = b ∧ window mem (s.src + 1) rest.length = rest := by
  have held := pos.held
  rw [length_cons, window] at held
  exact cons.inj held

theorem At.advance {s' : UnpackState} {n : Nat} (pos : At mem srcsz s rest) (most : n ≤ rest.length)
    (src : s'.src = s.src + n) (left : s'.srcsz = s.srcsz - n) : At mem srcsz s' (rest.drop n) := by
  have length : (rest.drop n).length = rest.length - n := length_drop
  have before := pos.left
  have total := pos.total
  refine ⟨by omega, by omega, ?_⟩
  have held := pos.held
  rw [show rest.length = n + (rest.length - n) by omega, window_add] at held
  have dropped := congrArg (drop n) held
  rw [drop_left' (window_length ..)] at dropped
  rw [length, src]
  exact dropped

theorem byte_stored (pos : At mem srcsz s (b :: rest)) (stored : isStored header i = true) :
    ∃ s', tracedByte mem srcsz header s i = .ok s' ∧ At mem srcsz s' rest ∧
      s'.overread = s.overread ∧ s.bufsz - 1 ≤ s'.bufsz := by
  have bit : (header >>> i.toUInt8) &&& 1 ≠ 0 := of_decide_eq_true stored
  have left := pos.left
  have total := pos.total
  rw [length_cons] at left total
  have more : ¬ s.srcsz < 0 := by omega
  have inside : ¬ srcsz ≤ s.src := by omega
  simp only [tracedByte, unpackByte, if_pos bit, if_neg more]
  refine ⟨_, rfl, ?_, ?_, put_bufsz s _⟩
  · exact pos.advance (n := 1) (by simp) (by simp) (by simp)
  · simp [inside]

theorem byte_skipped (pos : At mem srcsz s rest) (skipped : isStored header i = false) :
    ∃ s', tracedByte mem srcsz header s i = .ok s' ∧ At mem srcsz s' rest ∧
      s'.overread = s.overread ∧ s.bufsz - 1 ≤ s'.bufsz := by
  have bit : ¬ (header >>> i.toUInt8) &&& 1 ≠ 0 := of_decide_eq_false skipped
  simp only [tracedByte, unpackByte, if_neg bit]
  refine ⟨_, rfl, ?_, by simp, put_bufsz s _⟩
  exact pos.advance (n := 0) (by simp) (by simp) (by simp)

/- Behind the last byte the next byte is still read. -/
theorem byte_beyond (pos : At mem srcsz s []) (stored : isStored header i = true)
    (room : 0 < s.bufsz) : flag (tracedByte mem srcsz header s i) = true := by
  have bit : (header >>> i.toUInt8) &&& 1 ≠ 0 := of_decide_eq_true stored
  have more : ¬ s.srcsz < 0 := by rw [pos.left]; simp
  have outside : srcsz ≤ s.src := by rw [← pos.total]; simp
  simp [tracedByte, unpackByte, bit, more, flag, room, outside]

theorem bytes_inside (is : List Nat) (pos : At mem srcsz s rest)
    (enough : (is.filter (isStored header)).length ≤ rest.length) :
    ∃ s', is.foldlM (tracedByte mem srcsz header) s = .ok s' ∧
      At mem srcsz s' (rest.drop (is.filter (isStored header)).length) ∧
      s'.overread = s.overread ∧ s.bufsz - is.length ≤ s'.bufsz := by
  induction is generalizing s rest with
  | nil => exact ⟨s, rfl, by simpa using pos, rfl, by simp⟩
  | cons i is ih =>
    rw [foldlM_cons]
    cases stored : isStored header i with
    | true =>
      rw [filter_cons_of_pos stored, length_cons] at enough ⊢
      cases rest with
      | nil => simp at enough
      | cons b rest =>
        obtain ⟨s₁, taken, pos₁, clean, buf⟩ := byte_stored pos stored
        obtain ⟨s₂, folded, pos₂, clean₂, buf₂⟩ := ih pos₁ (by simpa using enough)
        rw [taken, ok_bind]
        refine ⟨s₂, folded, pos₂, clean₂.trans clean, ?_⟩
        rw [length_cons]
        omega
    | false =>
      rw [filter_cons_of_neg (by simp [stored])] at enough ⊢
      obtain ⟨s₁, taken, pos₁, clean, buf⟩ := byte_skipped pos stored
      obtain ⟨s₂, folded, pos₂, clean₂, buf₂⟩ := ih pos₁ enough
      rw [taken, ok_bind]
      refine ⟨s₂, folded, pos₂, clean₂.trans clean, ?_⟩
      rw [length_cons]
      omega

theorem bytes_beyond (is : List Nat) (pos : At mem srcsz s rest)
    (short : rest.length < (is.filter (isStored header)).length) (room : is.length ≤ s.bufsz) :
    flag (is.foldlM (tracedByte mem srcsz header) s) = true := by
  induction is generalizing s rest with
  | nil => simp at short
  | cons i is ih =>
    rw [length_cons] at room
    rw [foldlM_cons]
    cases stored : isStored header i with
    | true =>
      rw [filter_cons_of_pos stored, length_cons] at short
      cases rest with
      | nil => exact bind_sticky (bytes_sticky is) (byte_beyond pos stored (by omega))
      | cons b rest =>
        obtain ⟨s₁, taken, pos₁, -, buf⟩ := byte_stored pos stored
        rw [taken, ok_bind]
        exact ih pos₁ (by simpa using short) (by omega)
    | false =>
      rw [filter_cons_of_neg (by simp [stored])] at short
      obtain ⟨s₁, taken, pos₁, -, buf⟩ := byte_skipped pos stored
      rw [taken, ok_bind]
      exact ih pos₁ short (by omega)

def UnpackState.afterHeader (s : UnpackState) : UnpackState :=
  { s with src := s.src + 1, srcsz := s.srcsz - 1 }

theorem At.inside (pos : At mem srcsz s (b :: rest)) : ¬ srcsz ≤ s.src := by
  have total := pos.total
  rw [length_cons] at total
  omega

theorem At.afterHeader (pos : At mem srcsz s (b :: rest)) :
    At mem srcsz s.afterHeader rest :=
  pos.advance (n := 1) (by simp) rfl rfl

theorem group_tagged (pos : At mem srcsz s (header :: rest)) (tagged : header ≠ 0xff) :
    tracedGroup mem srcsz s =
      (range 8).foldlM (tracedByte mem srcsz header) s.afterHeader := by
  unfold tracedGroup
  simp [pos.cons.1, tagged, pos.inside, UnpackState.afterHeader]

theorem group_missingCount (pos : At mem srcsz s [0xff]) :
    flag (tracedGroup mem srcsz s) = true := by
  have after := pos.afterHeader
  have left : s.srcsz - 1 = 0 := after.left
  have total : s.src + 1 = srcsz := after.total
  unfold tracedGroup
  simp only [pos.cons.1, if_true, left, total, Int.lt_irrefl, if_false, Nat.le_refl, decide_true,
    Bool.or_true]
  split <;> rfl

theorem group_shortRun (pos : At mem srcsz s (0xff :: count :: data))
    (short : data.length < (count.toNat + 1) * 8) :
    ∃ s', tracedGroup mem srcsz s = .error s' ∧ s'.overread = s.overread := by
  have after := pos.afterHeader
  have left : s.srcsz - 1 = (data.length + 1 : Nat) := after.left
  have here : mem (s.src + 1) = count := after.cons.1
  have next : ¬ srcsz ≤ s.src + 1 := after.inside
  unfold tracedGroup
  simp only [pos.cons.1, if_true, left, here]
  rw [if_neg (by omega), if_pos (by omega)]
  exact ⟨_, rfl, by simp [pos.inside, next]⟩

theorem group_run (pos : At mem srcsz s (0xff :: count :: data))
    (whole : (count.toNat + 1) * 8 ≤ data.length) :
    ∃ s', tracedGroup mem srcsz s = .ok s' ∧ At mem srcsz s' (data.drop ((count.toNat + 1) * 8)) ∧
      s'.overread = s.overread ∧ s'.bufsz = s.bufsz - ((count.toNat + 1) * 8 : Nat) := by
  have after := pos.afterHeader
  have left : s.srcsz - 1 = (data.length + 1 : Nat) := after.left
  have total : s.src + 1 + (data.length + 1) = srcsz := after.total
  have here : mem (s.src + 1) = count := after.cons.1
  have next : ¬ srcsz ≤ s.src + 1 := after.inside
  have counted := after.afterHeader
  generalize size : (count.toNat + 1) * 8 = n at whole
  unfold tracedGroup
  simp only [pos.cons.1, if_true, left, here, size]
  rw [if_neg (by omega), if_neg (by omega)]
  refine ⟨_, rfl, counted.advance whole ?_ ?_, ?_, rfl⟩
  · simp [UnpackState.afterHeader]
  · simp only [UnpackState.afterHeader]
    omega
  · have fits : ¬ srcsz < s.src + 1 + 1 + n := by omega
    simp [pos.inside, next, fits]

/-- What the loop does with the bytes that are left, by how they end. -/
def Unrolls (rounds : Nat) (s : UnpackState) (r : Except UnpackState UnpackState)
    (rest : List UInt8) : Prop :=
  match endingFrom rounds rest with
  | .complete => ∃ s', r = .ok s' ∧ s'.overread = s.overread
  | .shortRun => ∃ s', r = .error s' ∧ s'.overread = s.overread
  | .missingCount => 8 * (rest.length + 1) ≤ s.bufsz → flag r = true
  | .shortGroup => 8 * (rest.length + 1) ≤ s.bufsz → flag r = true

/- After a whole group the rest of the run follows the rest of the bytes. -/
theorem Unrolls.before {rounds : Nat} {s₁ : UnpackState} {r : Except UnpackState UnpackState}
    {later : List UInt8} (after : Unrolls rounds s₁ r later)
    (ends : endingFrom (rounds + 1) rest = endingFrom rounds later)
    (clean : s₁.overread = s.overread)
    (room : 8 * (rest.length + 1) ≤ s.bufsz → 8 * (later.length + 1) ≤ s₁.bufsz) :
    Unrolls (rounds + 1) s r rest := by
  unfold Unrolls at after ⊢
  rw [ends]
  cases ending : endingFrom rounds later <;> simp only [ending] at after ⊢
  · rwa [clean] at after
  · exact fun enough => after (room enough)
  · rwa [clean] at after
  · exact fun enough => after (room enough)

theorem loop_follows (rounds : Nat) (enough : rest.length ≤ rounds) (pos : At mem srcsz s rest) :
    Unrolls rounds s (tracedLoop mem srcsz rounds s) rest := by
  induction rounds generalizing s rest with
  | zero =>
    obtain rfl := eq_nil_of_length_eq_zero (Nat.le_zero.mp enough)
    exact ⟨s, rfl, rfl⟩
  | succ rounds ih =>
    cases rest with
    | nil =>
      have done : ¬ s.srcsz > 0 := by rw [pos.left]; simp
      exact ⟨s, by rw [tracedLoop, if_neg done], rfl⟩
    | cons header rest =>
      have more : s.srcsz > 0 := by
        rw [pos.left, length_cons]
        omega
      rw [tracedLoop, if_pos more]
      rw [length_cons] at enough
      by_cases run : header = 0xff
      · subst run
        cases rest with
        | nil =>
          have ends : endingFrom (rounds + 1) [0xff] = .missingCount := by simp [endingFrom]
          intro
          exact bind_sticky (loop_sticky rounds) (group_missingCount pos)
        | cons count data =>
          rw [length_cons] at enough
          rcases Nat.lt_or_ge data.length ((count.toNat + 1) * 8) with short | whole
          · have ends : endingFrom (rounds + 1) (0xff :: count :: data) = .shortRun := by
              simp [endingFrom, short]
            obtain ⟨s', failed, clean⟩ := group_shortRun pos short
            simp only [Unrolls, ends, failed]
            exact ⟨s', rfl, clean⟩
          · have ends : endingFrom (rounds + 1) (0xff :: count :: data) =
                endingFrom rounds (data.drop ((count.toNat + 1) * 8)) := by
              simp [endingFrom, Nat.not_lt.mpr whole]
            obtain ⟨s₁, taken, pos₁, clean, buf⟩ := group_run pos whole
            have length : (data.drop ((count.toNat + 1) * 8)).length =
                data.length - (count.toNat + 1) * 8 := length_drop
            rw [taken, ok_bind]
            refine (ih (by omega) pos₁).before ends clean ?_
            intro room
            rw [length_cons, length_cons] at room
            omega
      · rcases Nat.lt_or_ge rest.length (announced header) with short | whole
        · have ends : endingFrom (rounds + 1) (header :: rest) = .shortGroup := by
            simp [endingFrom, run, short]
          simp only [Unrolls, ends]
          intro room
          rw [group_tagged pos run]
          apply bind_sticky (loop_sticky rounds)
          apply bytes_beyond (range 8) pos.afterHeader short
          simp only [UnpackState.afterHeader, length_range]
          omega
        · have ends : endingFrom (rounds + 1) (header :: rest) =
              endingFrom rounds (rest.drop (announced header)) := by
            simp [endingFrom, run, Nat.not_lt.mpr whole]
          obtain ⟨s₁, taken, pos₁, clean, buf⟩ := bytes_inside (range 8) pos.afterHeader whole
          change At mem srcsz s₁ (rest.drop (announced header)) at pos₁
          have length : (rest.drop (announced header)).length = rest.length - announced header :=
            length_drop
          rw [group_tagged pos run, taken, ok_bind]
          refine (ih (by omega) pos₁).before ends clean ?_
          intro room
          simp only [UnpackState.afterHeader, length_range] at buf
          rw [length_cons] at room
          omega

end Position

theorem unpack_follows (src : List UInt8) {mem : Nat → UInt8} (held : window mem 0 src.length = src)
    (buffer : Nat → UInt8) (bufsz : Int) :
    Unrolls src.length ⟨0, src.length, 0, bufsz, buffer, 0, false⟩
      (tracedUnpack mem src.length buffer bufsz) src :=
  loop_follows src.length (Nat.le_refl _) ⟨rfl, Nat.zero_add _, held⟩

theorem safeOn_of_flag {src : List UInt8}
    (clean : ∀ mem buffer bufsz, window mem 0 src.length = src →
      flag (tracedUnpack mem src.length buffer bufsz) = false ∧
      (ending src ≠ .complete → ∃ s, tracedUnpack mem src.length buffer bufsz = .error s)) :
    SafeOn src := by
  intro mem buffer bufsz held
  obtain ⟨inside, fails⟩ := clean mem buffer bufsz held
  refine ⟨inside, ?_, ?_⟩
  · intro truncated
    obtain ⟨s, failed⟩ := fails truncated
    simp [unpackResult, failed]
  · intro mem' held'
    have agree : ∀ k < src.length, mem' k = mem k := by
      intro k less
      have here := window_eq_iff.mp held k less
      have there := window_eq_iff.mp held' k less
      rw [Nat.zero_add] at here there
      rw [here, there]
    have same : tracedUnpack mem' src.length buffer bufsz =
        tracedUnpack mem src.length buffer bufsz := loop_agree agree _ _ inside
    rw [unpackResult, same, unpackResult]

/-- A source is unpacked safely unless it ends right after a 0xff or inside a group with a
tag. -/
theorem unpack_safe_iff (src : List UInt8) :
    SafeOn src ↔ ending src ≠ .missingCount ∧ ending src ≠ .shortGroup := by
  constructor
  · intro safe
    have held := window_getD src 0
    have reads := (safe _ (fun _ => 0) (8 * (src.length + 1)) held).1
    have follows := unpack_follows src held (fun _ => 0) (8 * (src.length + 1))
    unfold Unrolls at follows
    constructor
    · intro ends
      rw [show endingFrom src.length src = .missingCount from ends] at follows
      rw [follows (Int.le_refl _)] at reads
      cases reads
    · intro ends
      rw [show endingFrom src.length src = .shortGroup from ends] at follows
      rw [follows (Int.le_refl _)] at reads
      cases reads
  · rintro ⟨counted, whole⟩
    apply safeOn_of_flag
    intro mem buffer bufsz held
    have follows := unpack_follows src held buffer bufsz
    unfold Unrolls at follows
    cases ends : endingFrom src.length src with
    | complete =>
      rw [ends] at follows
      obtain ⟨s, done, clean⟩ := follows
      exact ⟨by rw [done]; exact clean, fun truncated => absurd ends truncated⟩
    | shortRun =>
      rw [ends] at follows
      obtain ⟨s, failed, clean⟩ := follows
      exact ⟨by rw [failed]; exact clean, fun _ => ⟨s, failed⟩⟩
    | missingCount => exact absurd ends counted
    | shortGroup => exact absurd ends whole

/-- A header that announces two bytes, with one behind it: the size 8 is answered, and the second
byte is the one behind the source. A single 0xff: the byte behind it is taken for the count. -/
theorem unpack_unsafe :
    ending [3, 7] = .shortGroup ∧ ¬ SafeOn [3, 7] ∧ ¬ SafeOn [0xff] ∧
      (unpackResult (fun k => [3, 7].getD k 0) 2 (fun _ => 0) 8).1 = some 8 ∧
      (unpackResult (fun k => [3, 7].getD k 0) 2 (fun _ => 0) 8).2 1 = 0 ∧
      (unpackResult (fun k => [3, 7].getD k 9) 2 (fun _ => 0) 8).2 1 = 9 := by
  refine ⟨rfl, ?_, ?_, rfl, by decide, by decide⟩
  · intro safe
    have reads := (safe (fun k => [3, 7].getD k 0) (fun _ => 0) 8 rfl).1
    cases reads
  · intro safe
    have reads := (safe (fun k => [0xff].getD k 0) (fun _ => 0) 8 rfl).1
    cases reads

end Skynet.Sproto
