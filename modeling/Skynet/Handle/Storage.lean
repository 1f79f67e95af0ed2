import Skynet.Base.Bits

/-! The handle storage of skynet_handle.c. A context is named by its address, and the
handle stored in a context is read through `handleOf`, because skynet_handle_register
returns the handle and its caller stores it after the lock is released. -/
namespace Skynet.Handle
open List Function Option

def defaultSlotSize : Nat := 4
def handleMask : Nat := 0xffffff
def handleRemoteShift : Nat := 24

structure HandleName where
  name : List UInt8
  handle : Nat
  deriving DecidableEq, Repr

structure HandleStorage where
  harbor : Nat
  handleIndex : Nat
  slotSize : Nat
  slot : Nat → Option Nat
  name : List HandleName

/-- Ways in which registering stops the process: the two assertions of the function,
a null context read while rehashing, and a loop that would not end. -/
inductive Fault where
  | tableFull | slotTaken | nullContext | endless
  deriving DecidableEq, Repr

def handleInit (harbor : Nat) : HandleStorage where
  harbor := (harbor &&& 0xff) <<< handleRemoteShift
  handleIndex := 1
  slotSize := defaultSlotSize
  slot := fun _ => none
  name := []

/- The inner loop of skynet_handle_register: the first handle, counted from
handle_index, whose slot is free. -/
def HandleStorage.scan (s : HandleStorage) : Option Nat :=
  (range s.slotSize).findSome? fun i =>
    let handle := (i + s.handleIndex) % 2 ^ 32 &&& handleMask
    if s.slot (handle &&& (s.slotSize - 1)) = none then some handle else none

def rehashOne (handleOf : Nat → Nat) (s : HandleStorage) (new : Nat → Option Nat) (i : Nat) :
    Except Fault (Nat → Option Nat) :=
  match s.slot i with
  | none => .error .nullContext
  | some ctx =>
    let hash := handleOf ctx &&& (s.slotSize * 2 - 1)
    if new hash = none then .ok (update new hash (some ctx)) else .error .slotTaken

def rehash (handleOf : Nat → Nat) (s : HandleStorage) : Except Fault HandleStorage := do
  let new ← (range s.slotSize).foldlM (rehashOne handleOf s) (fun _ => none)
  return { s with slot := new, slotSize := s.slotSize * 2 }

/- The outer loop. Each round that does not return doubles the table, and the table
cannot grow past the mask, so the bound on the rounds is never what stops it. -/
def registerLoop (handleOf : Nat → Nat) (ctx : Nat) :
    Nat → HandleStorage → Except Fault (HandleStorage × Nat)
  | 0, _ => .error .endless
  | rounds + 1, s =>
    match s.scan with
    | some handle =>
      .ok ({ s with
        slot := update s.slot (handle &&& (s.slotSize - 1)) (some ctx)
        handleIndex := handle + 1 }, handle ||| s.harbor)
    | none =>
      if s.slotSize * 2 - 1 ≤ handleMask then
        match rehash handleOf s with
        | .ok s' => registerLoop handleOf ctx rounds s'
        | .error e => .error e
      else .error .tableFull

def handleRegister (handleOf : Nat → Nat) (s : HandleStorage) (ctx : Nat) :
    Except Fault (HandleStorage × Nat) :=
  registerLoop handleOf ctx 32 s

/- The context to release is answered with the storage; none is the return value 0. -/
def handleRetire (handleOf : Nat → Nat) (s : HandleStorage) (handle : Nat) :
    Option (HandleStorage × Nat) :=
  let hash := handle &&& (s.slotSize - 1)
  match s.slot hash with
  | some ctx =>
    if handleOf ctx = handle then
      some ({ s with
        slot := update s.slot hash none
        name := s.name.filter (fun n => n.handle ≠ handle) }, ctx)
    else none
  | none => none

def handleGrab (handleOf : Nat → Nat) (s : HandleStorage) (handle : Nat) : Option Nat :=
  match s.slot (handle &&& (s.slotSize - 1)) with
  | some ctx => if handleOf ctx = handle then some ctx else none
  | none => none

/-! What holds of the table whatever the contexts' handle fields contain. -/

def HandleStorage.Holds (s : HandleStorage) (ctx : Nat) : Prop := ∃ i, s.slot i = some ctx

/-- No slot outside the table is used and no context is in two slots. -/
structure HandleStorage.Tidy (s : HandleStorage) : Prop where
  inside : ∀ i ctx, s.slot i = some ctx → i < s.slotSize
  once : ∀ i j ctx, s.slot i = some ctx → s.slot j = some ctx → i = j

theorem tidy_init (harbor : Nat) : (handleInit harbor).Tidy := by
  constructor <;> simp [handleInit]

variable {handleOf : Nat → Nat} {s s' : HandleStorage} {handle ctx : Nat}

theorem grab_some (grabbed : handleGrab handleOf s handle = some ctx) :
    s.slot (handle &&& (s.slotSize - 1)) = some ctx ∧ handleOf ctx = handle := by
  unfold handleGrab at grabbed
  split at grabbed
  · rename_i c here
    split at grabbed
    · rename_i same
      cases some.inj grabbed
      exact ⟨here, same⟩
    · cases grabbed
  · cases grabbed

theorem retire_some (retired : handleRetire handleOf s handle = some (s', ctx)) :
    s.slot (handle &&& (s.slotSize - 1)) = some ctx ∧ handleOf ctx = handle ∧
      s' = { s with
        slot := update s.slot (handle &&& (s.slotSize - 1)) none
        name := s.name.filter (fun n => n.handle ≠ handle) } := by
  unfold handleRetire at retired
  dsimp only at retired
  split at retired
  · rename_i c here
    split at retired
    · rename_i same
      obtain ⟨rfl, rfl⟩ := Prod.mk.inj (some.inj retired)
      exact ⟨here, same, rfl⟩
    · cases retired
  · cases retired

theorem retire_tidy (tidy : s.Tidy) (retired : handleRetire handleOf s handle = some (s', ctx)) :
    s'.Tidy := by
  obtain ⟨-, -, rfl⟩ := retire_some retired
  constructor
  · intro i c here
    by_cases eq : i = handle &&& (s.slotSize - 1)
    · simp [eq] at here
    · exact tidy.inside i c (by simpa [eq] using here)
  · intro i j c hi hj
    by_cases ei : i = handle &&& (s.slotSize - 1)
    · simp [ei] at hi
    · by_cases ej : j = handle &&& (s.slotSize - 1)
      · simp [ej] at hj
      · exact tidy.once i j c (by simpa [ei] using hi) (by simpa [ej] using hj)

theorem retire_holds (tidy : s.Tidy) (retired : handleRetire handleOf s handle = some (s', ctx))
    (c : Nat) :
    s'.Holds c ↔ s.Holds c ∧ c ≠ ctx := by
  obtain ⟨here, -, rfl⟩ := retire_some retired
  constructor
  · rintro ⟨i, hi⟩
    by_cases eq : i = handle &&& (s.slotSize - 1)
    · simp [eq] at hi
    · have old : s.slot i = some c := by simpa [eq] using hi
      refine ⟨⟨i, old⟩, ?_⟩
      rintro rfl
      exact eq (tidy.once _ _ _ old here)
  · rintro ⟨⟨i, hi⟩, other⟩
    refine ⟨i, ?_⟩
    have eq : i ≠ handle &&& (s.slotSize - 1) := by
      rintro rfl
      exact other (some.inj (hi.symm.trans here))
    simpa [eq] using hi

/- Each context moves from its old slot into a free new one, so nothing is lost. -/
theorem rehash_fold (is : List Nat) {new new' : Nat → Option Nat}
    (moved : is.foldlM (rehashOne handleOf s) new = .ok new') (j ctx : Nat) :
    new' j = some ctx ↔ new j = some ctx ∨
      ∃ i ∈ is, s.slot i = some ctx ∧ handleOf ctx &&& (s.slotSize * 2 - 1) = j := by
  induction is generalizing new with
  | nil =>
    cases Except.ok.inj moved
    simp
  | cons i is ih =>
    rw [foldlM_cons] at moved
    cases first : rehashOne handleOf s new i with
    | error e => rw [first] at moved; cases moved
    | ok next =>
      rw [first] at moved
      rw [ih moved]
      unfold rehashOne at first
      split at first
      · cases first
      · rename_i c here
        dsimp only at first
        split at first
        · rename_i free
          cases Except.ok.inj first
          by_cases eq : j = handleOf c &&& (s.slotSize * 2 - 1)
          · subst eq
            simp only [update_self, free, reduceCtorEq, false_or, mem_cons,
              exists_eq_or_imp, here, Option.some.injEq]
            constructor
            · rintro (rfl | rest)
              · exact .inl ⟨rfl, rfl⟩
              · exact .inr rest
            · rintro (⟨rfl, -⟩ | rest)
              · exact .inl rfl
              · exact .inr rest
          · simp only [update_of_ne eq, mem_cons, exists_eq_or_imp, here, Option.some.injEq]
            constructor
            · rintro (old | rest)
              · exact .inl old
              · exact .inr (.inr rest)
            · rintro (old | ⟨rfl, hash⟩ | rest)
              · exact .inl old
              · exact absurd hash.symm eq
              · exact .inr rest
        · cases first

theorem rehash_ok (moved : rehash handleOf s = .ok s') :
    ∃ new, s' = { s with slot := new, slotSize := s.slotSize * 2 } ∧
      ∀ j ctx, new j = some ctx ↔
        ∃ i < s.slotSize, s.slot i = some ctx ∧ handleOf ctx &&& (s.slotSize * 2 - 1) = j := by
  unfold rehash at moved
  cases fold : (range s.slotSize).foldlM (rehashOne handleOf s) (fun _ => none) with
  | error e => rw [fold] at moved; cases moved
  | ok new =>
    rw [fold] at moved
    cases Except.ok.inj moved
    refine ⟨new, rfl, fun j ctx => ?_⟩
    simpa using rehash_fold _ fold j ctx

theorem rehash_tidy (tidy : s.Tidy) (size : ∃ k, s.slotSize = 2 ^ k)
    (moved : rehash handleOf s = .ok s') :
    s'.Tidy ∧ ∀ c, s'.Holds c ↔ s.Holds c := by
  obtain ⟨new, rfl, contents⟩ := rehash_ok moved
  obtain ⟨k, size⟩ := size
  refine ⟨⟨?_, ?_⟩, ?_⟩
  · intro j c here
    obtain ⟨i, -, -, rfl⟩ := (contents j c).mp here
    show handleOf c &&& (s.slotSize * 2 - 1) < s.slotSize * 2
    rw [size, ← Nat.pow_succ, Nat.and_two_pow_sub_one_eq_mod]
    exact Nat.mod_lt _ (Nat.two_pow_pos _)
  · intro i j c hi hj
    obtain ⟨-, -, -, rfl⟩ := (contents i c).mp hi
    obtain ⟨-, -, -, rfl⟩ := (contents j c).mp hj
    rfl
  · intro c
    constructor
    · rintro ⟨j, here⟩
      obtain ⟨i, -, old, -⟩ := (contents j c).mp here
      exact ⟨i, old⟩
    · rintro ⟨i, old⟩
      exact ⟨_, (contents _ c).mpr ⟨i, tidy.inside i c old, old, rfl⟩⟩

theorem scan_some (found : s.scan = some handle) :
    s.slot (handle &&& (s.slotSize - 1)) = none ∧
      ∃ i < s.slotSize, handle = (i + s.handleIndex) % 2 ^ 32 &&& handleMask := by
  unfold HandleStorage.scan at found
  obtain ⟨i, member, free⟩ := exists_of_findSome?_eq_some found
  dsimp only at free
  split at free
  · rename_i empty
    cases some.inj free
    exact ⟨empty, i, mem_range.mp member, rfl⟩
  · cases free

theorem registerLoop_tidy (rounds : Nat) (tidy : s.Tidy) (size : ∃ k, s.slotSize = 2 ^ k)
    (fresh : ¬ s.Holds ctx) (registered : registerLoop handleOf ctx rounds s = .ok (s', handle)) :
    s'.Tidy ∧ (∃ k, s'.slotSize = 2 ^ k) ∧ (∀ c, s'.Holds c ↔ s.Holds c ∨ c = ctx) ∧
      s'.harbor = s.harbor := by
  induction rounds generalizing s with
  | zero => cases registered
  | succ rounds ih =>
    unfold registerLoop at registered
    split at registered
    · rename_i raw found
      obtain ⟨rfl, rfl⟩ := Prod.mk.inj (Except.ok.inj registered)
      obtain ⟨free, -⟩ := scan_some found
      obtain ⟨k, hk⟩ := size
      have inside : raw &&& (s.slotSize - 1) < s.slotSize := by
        rw [hk, Nat.and_two_pow_sub_one_eq_mod]
        exact Nat.mod_lt _ (Nat.two_pow_pos _)
      have contents : ∀ i c, update s.slot (raw &&& (s.slotSize - 1)) (some ctx) i = some c ↔
          (i = raw &&& (s.slotSize - 1) ∧ c = ctx) ∨ s.slot i = some c := by
        intro i c
        by_cases eq : i = raw &&& (s.slotSize - 1)
        · subst eq; simp [free, eq_comm]
        · simp [eq]
      refine ⟨⟨?_, ?_⟩, ⟨k, hk⟩, ?_, rfl⟩
      · intro i c here
        rcases (contents i c).mp here with ⟨rfl, -⟩ | old
        · exact inside
        · exact tidy.inside i c old
      · intro i j c hi hj
        rcases (contents i c).mp hi with ⟨rfl, rfl⟩ | oldi
        · rcases (contents j _).mp hj with ⟨rfl, -⟩ | oldj
          · rfl
          · exact absurd ⟨j, oldj⟩ fresh
        · rcases (contents j c).mp hj with ⟨rfl, rfl⟩ | oldj
          · exact absurd ⟨i, oldi⟩ fresh
          · exact tidy.once i j c oldi oldj
      · intro c
        constructor
        · rintro ⟨i, here⟩
          rcases (contents i c).mp here with ⟨-, rfl⟩ | old
          · exact .inr rfl
          · exact .inl ⟨i, old⟩
        · rintro (⟨i, old⟩ | rfl)
          · exact ⟨i, (contents i c).mpr (.inr old)⟩
          · exact ⟨_, (contents _ _).mpr (.inl ⟨rfl, rfl⟩)⟩
    · split at registered
      · split at registered
        · rename_i larger moved
          obtain ⟨tidy', holds⟩ := rehash_tidy tidy size moved
          obtain ⟨new, rfl, -⟩ := rehash_ok moved
          obtain ⟨k, hk⟩ := size
          have result := ih tidy' ⟨k + 1, by simp [hk, Nat.pow_succ]⟩
            (fun held => fresh ((holds ctx).mp held)) registered
          exact ⟨result.1, result.2.1, fun c => by rw [result.2.2.1 c, holds c], result.2.2.2⟩
        · cases registered
      · cases registered

end Skynet.Handle
