import Skynet.Handle.Names

/-! The handle storage as a whole, used by one thread: the slot table with the contexts and the
name table, and beside it the finite map that the names stand for. -/
namespace Skynet.Handle
open Base List Option

structure Directory where
  registry : Registry
  table : NameTable
  bound : Bindings

def Directory.initial (harbor : Nat) : Directory :=
  ⟨Registry.initial harbor, NameTable.initial, fun _ => none⟩

inductive DirectoryOp where
  | register
  | retire (handle : Nat)
  | namehandle (handle : Nat) (name : CString)
  | findname (name : CString)
  deriving DecidableEq

def Registry.isLive (r : Registry) (handle : Nat) : Bool :=
  r.live.any fun ctx => decide (r.handleOf ctx = handle)

/- skynet_handle_retire runs over the names only when it found the context. -/
def Directory.retire (d : Directory) (handle : Nat) : Except NameFault NameTable :=
  match handleRetire d.registry.handleOf d.registry.storage handle with
  | some _ => d.table.retireNames handle
  | none => .ok d.table

/- The map moves by its own rules: a name that is absent is added, and the names of a live
handle are removed with it. -/
def Directory.step (d : Directory) : DirectoryOp → Option Directory
  | .register => (d.registry.step .register).map fun r => { d with registry := r }
  | .retire handle =>
    match d.registry.step (.retire handle), d.retire handle with
    | some registry, .ok table =>
      let bound := if d.registry.isLive handle then d.bound.remove handle else d.bound
      some ⟨registry, table, bound⟩
    | _, _ => none
  | .namehandle handle name =>
    match handleNamehandle d.table handle name with
    | .ok table =>
      some { d with table := table.getD d.table, bound := d.bound.add name handle }
    | .error _ => none
  | .findname name =>
    match handleFindname d.table name with
    | .ok _ => some d
    | .error _ => none

/-- The array is sorted and holds the map. -/
structure Directory.Maps (d : Directory) (l : List NameEntry) : Prop where
  registry : d.registry.Good
  table : d.table.Holds l
  listed : d.bound.Listed l

theorem retire_iff_live {r : Registry} (good : r.Good) (handle : Nat) :
    (handleRetire r.handleOf r.storage handle).isSome = r.isLive handle := by
  have same : (handleRetire r.handleOf r.storage handle).isSome =
      (handleGrab r.handleOf r.storage handle).isSome := by
    unfold handleRetire handleGrab
    dsimp only
    split
    · split <;> rfl
    · rfl
  rw [same, Bool.eq_iff_iff, isSome_iff_exists]
  simp only [grab_iff_live good, Registry.isLive, List.any_eq_true, decide_eq_true_eq]

theorem initial_maps (harbor : Nat) : (Directory.initial harbor).Maps [] where
  registry := good_initial harbor
  table := initial_holds
  listed := fun name handle => by simp [Directory.initial]

variable {d : Directory} {l : List NameEntry}

theorem retire_maps (maps : d.Maps l) (handle : Nat) :
    ∃ d' l', d.step (.retire handle) = some d' ∧ d'.Maps l' := by
  obtain ⟨registry, taken⟩ : ∃ r, d.registry.step (.retire handle) = some r := by
    simp only [Registry.step]
    split <;> exact ⟨_, rfl⟩
  have good := step_retire_good maps.registry handle taken
  have live := retire_iff_live maps.registry handle
  simp only [Directory.step, taken, Directory.retire]
  cases retired : handleRetire d.registry.handleOf d.registry.storage handle with
  | none =>
    simp only [retired, isSome_none] at live
    exact ⟨_, l, rfl, good, maps.table, by simpa [← live] using maps.listed⟩
  | some result =>
    simp only [retired, isSome_some] at live
    obtain ⟨table, compacted, holds⟩ := retireNames_holds maps.table handle
    simp only [compacted]
    exact ⟨_, _, rfl, good, holds, by simpa [← live] using remove_listed maps.listed handle⟩

theorem namehandle_maps (maps : d.Maps l) (handle : Nat) (name : CString) :
    (d.step (.namehandle handle name) = none ∧ d.bound name = none ∧ 2 ^ 30 ≤ l.length) ∨
    ∃ d' l', d.step (.namehandle handle name) = some d' ∧ d'.Maps l' := by
  simp only [Directory.step]
  rcases namehandle_bindings maps.table maps.listed handle name with
    ⟨present, failed⟩ | ⟨free, overflow, large⟩ | ⟨free, t, l', added, holds, listed⟩
  · right
    simp only [failed]
    refine ⟨_, l, rfl, maps.registry, maps.table, ?_⟩
    simpa [Bindings.add, present] using maps.listed
  · left
    simp only [overflow]
    exact ⟨trivial, free, large⟩
  · right
    simp only [added]
    exact ⟨_, l', rfl, maps.registry, holds, listed⟩

theorem step_maps {d' : Directory} (maps : d.Maps l) (op : DirectoryOp)
    (taken : d.step op = some d') : ∃ l', d'.Maps l' := by
  cases op with
  | register =>
    obtain ⟨r, registered, rfl⟩ := map_eq_some_iff.mp taken
    exact ⟨l, step_register_good maps.registry registered, maps.table, maps.listed⟩
  | retire handle =>
    obtain ⟨d₁, l', result, maps'⟩ := retire_maps maps handle
    rw [result] at taken
    cases taken
    exact ⟨l', maps'⟩
  | namehandle handle name =>
    rcases namehandle_maps maps handle name with ⟨failed, -⟩ | ⟨d₁, l', result, maps'⟩
    · rw [failed] at taken
      cases taken
    · rw [result] at taken
      cases taken
      exact ⟨l', maps'⟩
  | findname name =>
    simp only [Directory.step, findname_bindings maps.table maps.listed name] at taken
    cases taken
    exact ⟨l, maps⟩

theorem maps_run {harbor : Nat} {guard : Directory → DirectoryOp → Prop}
    (reached : Reaches Directory.step guard (Directory.initial harbor) d) : ∃ l, d.Maps l := by
  refine reached.invariant (fun d => ∃ l, d.Maps l) ⟨[], initial_maps harbor⟩ ?_
  intro d op d' ⟨l, maps⟩ _ taken
  exact step_maps maps op taken

/-- The array can still double when it is full: fewer than 2 ^ 30 names are in it. -/
def RoomForName (d : Directory) : DirectoryOp → Prop
  | .namehandle _ _ => d.table.nameCount < 2 ^ 30
  | _ => True

instance (d : Directory) (op : DirectoryOp) : Decidable (RoomForName d op) :=
  match op with
  | .namehandle _ _ => inferInstanceAs (Decidable (d.table.nameCount < 2 ^ 30))
  | .register => inferInstanceAs (Decidable True)
  | .retire _ => inferInstanceAs (Decidable True)
  | .findname _ => inferInstanceAs (Decidable True)

/-- The name table is the finite map: its array is strictly sorted and holds the pairs of the
map, findname reads the map, namehandle fails when the name is present, and no operation
reads or writes a cell it should not. -/
theorem name_table_finite_map (harbor : Nat) (d : Directory)
    (reached : Reaches Directory.step RoomForName (Directory.initial harbor) d) :
    (∀ i j, i < j → j < d.table.nameCount → ∃ a b, d.table.name i = some a ∧
      d.table.name j = some b ∧ strcmp a.name b.name < 0) ∧
    (∀ name handle, (∃ i < d.table.nameCount, d.table.name i = some ⟨name, handle⟩) ↔
      d.bound name = some handle) ∧
    (∀ name, handleFindname d.table name = .ok ((d.bound name).getD 0)) ∧
    (∀ handle name, RoomForName d (.namehandle handle name) →
      ∃ table, handleNamehandle d.table handle name = .ok table ∧
        (table = none ↔ d.bound name ≠ none)) ∧
    (∀ op, op ≠ .register → RoomForName d op → (d.step op).isSome) ∧
    d.table.nameCount ≤ d.table.nameCap ∧ ∀ i, d.table.nameCap ≤ i → d.table.name i = none := by
  obtain ⟨l, maps⟩ := maps_run reached
  have count := maps.table.count
  have cells := maps.table.cells
  refine ⟨?_, ?_, findname_bindings maps.table maps.listed, ?_, ?_, ?_, maps.table.outside⟩
  · intro i j less inside
    rw [count] at inside
    refine ⟨l[i], l[j], ?_, ?_, pairwise_iff_getElem.mp maps.table.sorted i j _ _ less⟩
    · rw [cells i (by omega), getElem?_eq_getElem]
    · rw [cells j inside, getElem?_eq_getElem]
  · intro name handle
    rw [← maps.listed, mem_iff_getElem?, count]
    constructor
    · rintro ⟨i, inside, here⟩
      exact ⟨i, by rw [← cells i inside, here]⟩
    · rintro ⟨i, here⟩
      obtain ⟨inside, -⟩ := List.getElem?_eq_some_iff.mp here
      exact ⟨i, inside, by rw [cells i inside, here]⟩
  · intro handle name room
    simp only [RoomForName, count] at room
    rcases namehandle_bindings maps.table maps.listed handle name with
      ⟨present, failed⟩ | ⟨-, -, large⟩ | ⟨free, t, -, added, -⟩
    · exact ⟨none, failed, by simp [present]⟩
    · omega
    · exact ⟨some t, added, by simp [free]⟩
  · intro op other room
    cases op with
    | register => exact absurd rfl other
    | retire handle =>
      obtain ⟨d', -, taken, -⟩ := retire_maps maps handle
      simp [taken]
    | namehandle handle name =>
      simp only [RoomForName, count] at room
      rcases namehandle_maps maps handle name with ⟨-, -, large⟩ | ⟨d', -, taken, -⟩
      · omega
      · simp [taken]
    | findname name => simp [Directory.step, findname_bindings maps.table maps.listed name]
  · rw [count]
    exact maps.table.room

/- Three names for two services, so that the array grows; then the first service retires. -/
def namedServices : List DirectoryOp :=
  [.register, .register, .namehandle 1 ⟨[98], by decide⟩, .namehandle 1 ⟨[97], by decide⟩,
    .namehandle 2 ⟨[97, 98], by decide⟩, .retire 1]

theorem name_table_finite_map_grown :
    ∃ d, Reaches Directory.step RoomForName (Directory.initial 0) d ∧ d.table.nameCap = 4 ∧
      handleFindname d.table ⟨[97, 98], by decide⟩ = .ok 2 ∧
      handleFindname d.table ⟨[97], by decide⟩ = .ok 0 ∧
      ∃ table, handleNamehandle d.table 2 ⟨[98], by decide⟩ = .ok (some table) := by
  obtain ⟨d, taken, cap, count, kept, gone, free⟩ :
      ∃ d, namedServices.foldlM (fun d op => if decide (RoomForName d op) then d.step op else none)
        (Directory.initial 0) = some d ∧ d.table.nameCap = 4 ∧ d.table.nameCount = 1 ∧
        d.bound ⟨[97, 98], by decide⟩ = some 2 ∧ d.bound ⟨[97], by decide⟩ = none ∧
        d.bound ⟨[98], by decide⟩ = none := ⟨_, rfl, rfl, rfl, rfl, rfl, rfl⟩
  have reached := reaches_of_checked (fun d op => decide (RoomForName d op))
    (fun _ _ => of_decide_eq_true) namedServices taken
  obtain ⟨-, -, finds, names, -⟩ := name_table_finite_map 0 d reached
  obtain ⟨table, added, failed⟩ := names 2 ⟨[98], by decide⟩ (by simp [RoomForName, count])
  refine ⟨d, reached, cap, ?_, ?_, ?_⟩
  · rw [finds, kept]
    rfl
  · rw [finds, gone]
    rfl
  · cases table with
    | none => exact absurd free (failed.mp rfl)
    | some table => exact ⟨table, added⟩

/-! Names without end: the capacity doubles until it no longer fits an int. -/

def unary (n : Nat) : CString := ⟨List.replicate n 1, by simp⟩

theorem unary_injective {m n : Nat} (same : unary m = unary n) : m = n := by
  have lengths := congrArg (fun c => c.bytes.length) same
  simpa [unary] using lengths

theorem namehandle_count {t t' : NameTable} {handle : Nat} {name : CString}
    (added : handleNamehandle t handle name = .ok (some t')) : t'.nameCount = t.nameCount + 1 := by
  unfold handleNamehandle insertName at added
  split at added
  · cases added
  · rename_i first found
    cases inserted : insertNameBefore t ⟨name, handle⟩ first.toNat with
    | error e =>
      rw [inserted] at added
      cases added
    | ok t'' =>
      rw [inserted] at added
      cases added
      unfold insertNameBefore at inserted
      split_ifs at inserted <;> cases inserted <;> rfl
  · cases added

theorem unary_named (n : Nat) (small : n ≤ 2 ^ 30) :
    ∃ d l, Run Directory.step (Directory.initial 0) d ∧ d.Maps l ∧ l.length = n ∧
      ∀ m, n ≤ m → d.bound (unary m) = none := by
  induction n with
  | zero => exact ⟨_, [], .start, initial_maps 0, rfl, fun m _ => rfl⟩
  | succ n ih =>
    obtain ⟨d, l, run, maps, length, free⟩ := ih (by omega)
    rcases namehandle_bindings maps.table maps.listed 1 (unary n) with
      ⟨present, -⟩ | ⟨-, -, large⟩ | ⟨-, t, l', added, holds, listed⟩
    · exact absurd (free n (Nat.le_refl n)) present
    · omega
    · have taken : d.step (.namehandle 1 (unary n)) =
          some ⟨d.registry, t, d.bound.add (unary n) 1⟩ := by
        simp [Directory.step, added]
      refine ⟨_, l', .next run trivial taken, ⟨maps.registry, holds, listed⟩, ?_, ?_⟩
      · have count := namehandle_count added
        rw [← holds.count, count, maps.table.count, length]
      · intro m later
        have apart : unary m ≠ unary n := fun same => by
          have eq := unary_injective same
          omega
        simp [Bindings.add, free n (Nat.le_refl n), apart, free m (by omega)]

/-- With 2 ^ 30 names in the array one more name is not added: the capacity overflows. -/
theorem name_table_overflow :
    ∃ d name, Run Directory.step (Directory.initial 0) d ∧ d.bound name = none ∧
      handleNamehandle d.table 1 name = .error .capOverflow := by
  obtain ⟨d, l, run, maps, length, free⟩ := unary_named (2 ^ 30) (Nat.le_refl _)
  refine ⟨d, unary (2 ^ 30), run, free _ (Nat.le_refl _), ?_⟩
  rcases namehandle_bindings maps.table maps.listed 1 (unary (2 ^ 30)) with
    ⟨present, -⟩ | ⟨-, overflow, -⟩ | ⟨-, t, l', added, holds, -⟩
  · exact absurd (free _ (Nat.le_refl _)) present
  · exact overflow
  · have count := namehandle_count added
    rw [holds.count, maps.table.count, length] at count
    obtain ⟨k, small, cap⟩ := holds.cap
    have most : 2 ^ (k + 1) ≤ 2 ^ 30 := Nat.pow_le_pow_right (by decide) (by omega)
    have room := holds.room
    omega

end Skynet.Handle
