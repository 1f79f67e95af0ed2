import Skynet.Base.Decimal
import Skynet.Base.SortedArray
import Skynet.Handle.Sequential

/-! The name table of skynet_handle.c: an array of names sorted by strcmp, with binary search,
insertion that moves or copies the upper part, and compaction when a handle is retired. -/
namespace Skynet.Handle
open Base List Function

def maxSlotSize : Nat := 0x40000000
def intMax : Nat := 2 ^ 31 - 1

/-- A string of C: the bytes before the terminating NUL. -/
structure CString where
  bytes : List UInt8
  noNul : 0 ∉ bytes
  deriving DecidableEq

def isText (b : UInt8) : Bool := !isSpace b

def CString.after (c : CString) : CString :=
  ⟨c.bytes.tail, fun zero => c.noNul (mem_of_mem_tail zero)⟩

/- What the first %s of sscanf reads, and what it leaves. -/
def CString.word (c : CString) : CString :=
  ⟨(c.bytes.dropWhile isSpace).takeWhile isText, fun zero =>
    c.noNul ((dropWhile_sublist _).subset ((takeWhile_sublist _).subset zero))⟩

def CString.afterWord (c : CString) : CString :=
  ⟨(c.bytes.dropWhile isSpace).dropWhile isText, fun zero =>
    c.noNul ((dropWhile_sublist _).subset ((dropWhile_sublist _).subset zero))⟩

/- The bytes are compared as unsigned char, and the end of a string counts as 0. -/
def compareBytes : List UInt8 → List UInt8 → Int
  | [], [] => 0
  | [], b :: _ => -b.toNat
  | a :: _, [] => a.toNat
  | a :: as, b :: bs => if a = b then compareBytes as bs else (a.toNat : Int) - b.toNat

def strcmp (a b : CString) : Int := compareBytes a.bytes b.bytes

structure NameEntry where
  name : CString
  handle : Nat
  deriving DecidableEq

/-- Cells of the array that were never written hold nothing. -/
structure NameTable where
  nameCap : Nat
  nameCount : Nat
  name : Nat → Option NameEntry

/-- A cell read before it was written, the doubled capacity out of the range of int, and the
assertion on the capacity. -/
inductive NameFault where
  | unset
  | capOverflow
  | tooMany
  deriving DecidableEq, Repr

def NameTable.initial : NameTable := ⟨2, 0, fun _ => none⟩

/- The loop that skynet_handle_findname and _insert_name share. -/
def NameTable.search (t : NameTable) (name : CString) : Except NameFault (Bisected NameEntry) :=
  match bisect t.name (fun n => strcmp n.name name) (t.nameCount + 1) 0 (t.nameCount - 1) with
  | some result => .ok result
  | none => .error .unset

def handleFindname (t : NameTable) (name : CString) : Except NameFault Nat :=
  match t.search name with
  | .ok (.hit n) => .ok n.handle
  | .ok (.miss _) => .ok 0
  | .error e => .error e

def insertNameBefore (t : NameTable) (entry : NameEntry) (before : Nat) :
    Except NameFault NameTable :=
  if t.nameCount ≥ t.nameCap then
    if intMax < t.nameCap * 2 then .error .capOverflow
    else if ¬ t.nameCap * 2 ≤ maxSlotSize then .error .tooMany
    else
      let n := copyCells t.name 0 0 before (fun _ => none)
      let n := copyCells t.name 1 before (t.nameCount - before) n
      .ok {
        nameCap := t.nameCap * 2
        nameCount := t.nameCount + 1
        name := update n before (some entry) }
  else
    let n := shiftUp before (t.nameCount - before) t.name
    .ok { t with nameCount := t.nameCount + 1, name := update n before (some entry) }

/- The result none is the NULL of a name that is present already. -/
def insertName (t : NameTable) (name : CString) (handle : Nat) :
    Except NameFault (Option NameTable) :=
  match t.search name with
  | .ok (.hit _) => .ok none
  | .ok (.miss first) => (insertNameBefore t ⟨name, handle⟩ first.toNat).map some
  | .error e => .error e

def handleNamehandle (t : NameTable) (handle : Nat) (name : CString) :
    Except NameFault (Option NameTable) :=
  insertName t name handle

/- The loop of skynet_handle_retire over the names. -/
def NameTable.retireNames (t : NameTable) (handle : Nat) : Except NameFault NameTable :=
  match compact (fun n : NameEntry => decide (n.handle = handle)) t.nameCount t.name with
  | some (name, j) => .ok { t with name := name, nameCount := j }
  | none => .error .unset

/-! strcmp is the sign of a strict linear order. -/

theorem compareBytes_swap (a b : List UInt8) : compareBytes b a = -compareBytes a b := by
  induction a generalizing b with
  | nil => cases b <;> simp [compareBytes]
  | cons x as ih =>
    cases b with
    | nil => simp [compareBytes]
    | cons y bs =>
      by_cases same : x = y
      · simp [compareBytes, same, ih]
      · simp [compareBytes, same, Ne.symm same]

theorem toNat_pos {x : UInt8} (nonzero : x ≠ 0) : 0 < x.toNat :=
  Nat.pos_of_ne_zero fun zero => nonzero (UInt8.toNat_inj.mp zero)

theorem compareBytes_neg {a b : List UInt8} (ha : 0 ∉ a) (hb : 0 ∉ b) :
    compareBytes a b < 0 ↔ a < b := by
  induction a generalizing b with
  | nil =>
    cases b with
    | nil => simp [compareBytes]
    | cons y bs => simpa [compareBytes] using toNat_pos (ne_of_not_mem_cons hb).symm
  | cons x as ih =>
    cases b with
    | nil => simp [compareBytes]
    | cons y bs =>
      rw [compareBytes, cons_lt_cons_iff]
      by_cases same : x = y
      · simp [same, ih (not_mem_of_not_mem_cons ha) (not_mem_of_not_mem_cons hb)]
      · simp [same, UInt8.lt_iff_toNat_lt]

theorem strcmp_swap (a b : CString) : strcmp b a = -strcmp a b := compareBytes_swap a.bytes b.bytes

theorem strcmp_neg {a b : CString} : strcmp a b < 0 ↔ a.bytes < b.bytes :=
  compareBytes_neg a.noNul b.noNul

theorem strcmp_zero {a b : CString} : strcmp a b = 0 ↔ a = b := by
  have swapped := strcmp_swap a b
  constructor
  · intro zero
    have up : ¬ a.bytes < b.bytes := fun less => (strcmp_neg.mpr less).ne zero
    have down : ¬ b.bytes < a.bytes := fun less => (strcmp_neg.mpr less).ne (by omega)
    have same := List.le_antisymm down up
    cases a
    cases b
    simpa using same
  · rintro rfl
    omega

theorem strcmp_trans {a b c : CString} (first : strcmp a b < 0) (second : strcmp b c < 0) :
    strcmp a c < 0 :=
  strcmp_neg.mpr (List.lt_trans (strcmp_neg.mp first) (strcmp_neg.mp second))

/-! The array holds a list sorted by strcmp. -/

structure NameTable.Holds (t : NameTable) (l : List NameEntry) : Prop where
  count : t.nameCount = l.length
  cells : Represents t.name l
  sorted : l.Pairwise fun a b => strcmp a.name b.name < 0
  room : l.length ≤ t.nameCap
  outside : ∀ i, t.nameCap ≤ i → t.name i = none
  cap : ∃ k ≤ 29, t.nameCap = 2 ^ (k + 1)

theorem initial_holds : NameTable.initial.Holds [] where
  count := rfl
  cells := fun i less => absurd less (Nat.not_lt_zero i)
  sorted := List.Pairwise.nil
  room := Nat.zero_le 2
  outside := fun _ _ => rfl
  cap := ⟨0, by decide, rfl⟩

section Table

variable {t : NameTable} {l : List NameEntry}

theorem probe_rising (sorted : l.Pairwise fun a b => strcmp a.name b.name < 0) (name : CString) :
    Rising (fun n : NameEntry => strcmp n.name name) l := by
  apply sorted.imp
  intro a b less
  rcases Int.lt_trichotomy (strcmp b.name name) 0 with negative | zero | positive
  · exact .inl (strcmp_trans less negative)
  · exact .inl (strcmp_zero.mp zero ▸ less)
  · exact .inr positive

theorem search_right (holds : t.Holds l) (name : CString) :
    ∃ result, t.search name = .ok result ∧
      result.Right (fun n : NameEntry => strcmp n.name name) l := by
  obtain ⟨result, found, right⟩ := bisect_right holds.cells (probe_rising holds.sorted name)
  refine ⟨result, ?_, right⟩
  unfold NameTable.search
  rw [holds.count, found]

theorem insert_sorted {n : Nat} {entry : NameEntry}
    (sorted : l.Pairwise fun a b => strcmp a.name b.name < 0)
    (below : ∀ x ∈ l.take n, strcmp x.name entry.name < 0)
    (above : ∀ x ∈ l.drop n, 0 < strcmp x.name entry.name) :
    (l.take n ++ entry :: l.drop n).Pairwise fun a b => strcmp a.name b.name < 0 := by
  have halves := sorted
  rw [← take_append_drop n l, pairwise_append] at halves
  obtain ⟨lower, upper, across⟩ := halves
  refine pairwise_append.mpr ⟨lower, pairwise_cons.mpr ⟨?_, upper⟩, ?_⟩
  · intro x member
    have positive := above x member
    rw [strcmp_swap]
    omega
  · intro x hx y hy
    rcases mem_cons.mp hy with rfl | later
    · exact below x hx
    · exact across x hx y later

/- Both ways of making room leave the lower part, the entry and the upper part one cell up. -/
theorem insertNameBefore_holds (holds : t.Holds l) {n : Nat} (bound : n ≤ l.length)
    (entry : NameEntry) (below : ∀ x ∈ l.take n, strcmp x.name entry.name < 0)
    (above : ∀ x ∈ l.drop n, 0 < strcmp x.name entry.name) :
    (insertNameBefore t entry n = .error .capOverflow ∧ 2 ^ 30 ≤ l.length) ∨
    ∃ t', insertNameBefore t entry n = .ok t' ∧ t'.Holds (l.take n ++ entry :: l.drop n) := by
  have length : (l.take n ++ entry :: l.drop n).length = l.length + 1 := by
    simp
    omega
  have sorted := insert_sorted holds.sorted below above
  have room := holds.room
  obtain ⟨k, small, cap⟩ := holds.cap
  unfold insertNameBefore
  rw [holds.count]
  split
  · have exact : l.length = 2 ^ (k + 1) := by omega
    split
    · rename_i overflow
      left
      refine ⟨rfl, ?_⟩
      simp only [intMax] at overflow
      omega
    · rename_i fits
      right
      have power : k + 1 ≤ 29 := by
        by_contra large
        obtain rfl : k = 29 := by omega
        exact fits (by rw [cap]; decide)
      have double : t.nameCap * 2 = 2 ^ (k + 1 + 1) := by rw [cap, Nat.pow_succ 2 (k + 1)]
      have limit : t.nameCap * 2 ≤ maxSlotSize := by
        rw [double]
        exact Nat.pow_le_pow_right (by decide) (by omega : k + 1 + 1 ≤ 30)
      rw [if_neg (not_not.mpr limit)]
      refine ⟨_, rfl, by rw [length], ?_, sorted, ?_, ?_, ⟨k + 1, power, double⟩⟩
      · apply represents_insert holds.cells bound
        · intro i less
          simp only [update_apply, copyCells_apply]
          rw [if_neg (by omega), if_neg (by omega), if_pos (by omega)]
          rfl
        · exact update_self ..
        · intro i less most
          simp only [update_apply, copyCells_apply]
          rw [if_neg (by omega), if_pos (by omega)]
      · rw [length]
        show l.length + 1 ≤ t.nameCap * 2
        have positive := Nat.two_pow_pos (k + 1)
        omega
      · intro i (beyond : t.nameCap * 2 ≤ i)
        have positive := Nat.two_pow_pos (k + 1)
        simp only [update_apply, copyCells_apply]
        rw [if_neg (by omega), if_neg (by omega), if_neg (by omega)]
  · right
    refine ⟨_, rfl, by rw [length], ?_, sorted, ?_, ?_, ⟨k, small, cap⟩⟩
    · apply represents_insert holds.cells bound
      · intro i less
        simp only [update_apply, shiftUp_apply]
        rw [if_neg (by omega), if_neg (by omega)]
      · exact update_self ..
      · intro i less most
        simp only [update_apply, shiftUp_apply]
        rw [if_neg (by omega), if_pos (by omega)]
    · rw [length]
      show l.length + 1 ≤ t.nameCap
      omega
    · intro i (beyond : t.nameCap ≤ i)
      simp only [update_apply, shiftUp_apply]
      rw [if_neg (by omega), if_neg (by omega)]
      exact holds.outside i beyond

theorem retireNames_holds (holds : t.Holds l) (handle : Nat) :
    ∃ t', t.retireNames handle = .ok t' ∧
      t'.Holds (l.filter fun n => !decide (n.handle = handle)) := by
  obtain ⟨cells, compacted, front, rest⟩ :=
    compact_represents (fun n : NameEntry => decide (n.handle = handle)) holds.cells
  have shorter := length_filter_le (fun n : NameEntry => !decide (n.handle = handle)) l
  have room := holds.room
  refine ⟨{ t with name := cells, nameCount := _ }, ?_, rfl, front, holds.sorted.filter _, ?_, ?_,
    holds.cap⟩
  · simp only [NameTable.retireNames, holds.count, compacted]
  · exact Nat.le_trans shorter room
  · intro i beyond
    exact (rest i (Nat.le_trans room beyond)).trans (holds.outside i beyond)

end Table

abbrev Bindings : Type := CString → Option Nat

def Bindings.add (b : Bindings) (name : CString) (handle : Nat) : Bindings :=
  if b name = none then update b name (some handle) else b

def Bindings.remove (b : Bindings) (handle : Nat) : Bindings :=
  fun name => if b name = some handle then none else b name

def Bindings.Listed (b : Bindings) (l : List NameEntry) : Prop :=
  ∀ name handle, ⟨name, handle⟩ ∈ l ↔ b name = some handle

section Map

variable {t : NameTable} {l : List NameEntry} {b : Bindings}

theorem add_listed (listed : b.Listed l) {name : CString} (free : b name = none) (n handle : Nat) :
    (b.add name handle).Listed (l.take n ++ ⟨name, handle⟩ :: l.drop n) := by
  intro other handle'
  have old : ⟨other, handle'⟩ ∈ l.take n ∨ ⟨other, handle'⟩ ∈ l.drop n ↔
      b other = some handle' := by
    rw [← mem_append, take_append_drop]
    exact listed other handle'
  rw [mem_append, mem_cons, or_left_comm, old, Bindings.add, if_pos free]
  by_cases same : other = name
  · subst same
    simp [free, eq_comm]
  · simp [same]

theorem remove_listed (listed : b.Listed l) (handle : Nat) :
    (b.remove handle).Listed (l.filter fun n => !decide (n.handle = handle)) := by
  intro name handle'
  rw [mem_filter, listed name handle', Bindings.remove]
  by_cases same : b name = some handle
  · simp [same]
    exact Eq.symm
  · simp only [same, if_false, and_iff_left_iff_imp]
    intro bound
    have apart : handle' ≠ handle := fun eq => same (eq ▸ bound)
    simp [apart]

theorem search_bindings (holds : t.Holds l) (listed : b.Listed l) (name : CString) :
    (∃ n, t.search name = .ok (.hit n) ∧ b name = some n.handle) ∨
    ∃ n : Nat, t.search name = .ok (.miss n) ∧ b name = none ∧ n ≤ l.length ∧
      (∀ x ∈ l.take n, strcmp x.name name < 0) ∧ ∀ x ∈ l.drop n, 0 < strcmp x.name name := by
  obtain ⟨result, found, right⟩ := search_right holds name
  cases result with
  | hit n =>
    obtain ⟨member, zero⟩ := right
    have same := strcmp_zero.mp zero
    exact .inl ⟨n, found, by rw [← same]; exact (listed n.name n.handle).mp member⟩
  | miss position =>
    obtain ⟨n, rfl, bound, below, above⟩ := right
    refine .inr ⟨n, found, ?_, bound, below, above⟩
    cases bound' : b name with
    | none => rfl
    | some handle =>
      have member := (listed name handle).mpr bound'
      have self : strcmp name name = 0 := strcmp_zero.mpr rfl
      rw [← take_append_drop n l] at member
      rcases mem_append.mp member with lower | upper
      · have less := below _ lower
        simp only at less
        omega
      · have more := above _ upper
        simp only at more
        omega

theorem findname_bindings (holds : t.Holds l) (listed : b.Listed l) (name : CString) :
    handleFindname t name = .ok ((b name).getD 0) := by
  unfold handleFindname
  rcases search_bindings holds listed name with ⟨n, found, bound⟩ | ⟨n, found, free, -⟩
  · simp [found, bound]
  · simp [found, free]

theorem namehandle_bindings (holds : t.Holds l) (listed : b.Listed l) (handle : Nat)
    (name : CString) :
    (b name ≠ none ∧ handleNamehandle t handle name = .ok none) ∨
    (b name = none ∧ handleNamehandle t handle name = .error .capOverflow ∧ 2 ^ 30 ≤ l.length) ∨
    (b name = none ∧ ∃ t' l', handleNamehandle t handle name = .ok (some t') ∧ t'.Holds l' ∧
      (b.add name handle).Listed l') := by
  unfold handleNamehandle insertName
  rcases search_bindings holds listed name with ⟨n, found, bound⟩ |
    ⟨n, found, free, most, below, above⟩
  · left
    simp [found, bound]
  · right
    rcases insertNameBefore_holds holds most ⟨name, handle⟩ below above with
      ⟨overflow, large⟩ | ⟨t', inserted, holds'⟩
    · left
      refine ⟨free, ?_, large⟩
      simp [found, overflow, Except.map]
    · right
      refine ⟨free, t', _, ?_, holds', ?_⟩
      · simp [found, inserted, Except.map]
      · exact add_listed listed free n handle

end Map

end Skynet.Handle
