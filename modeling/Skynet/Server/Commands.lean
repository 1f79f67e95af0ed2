import Skynet.Handle.Directory

/-! The commands of skynet_server.c that work on handles and local names. A context that was
retired can still give commands: its callback runs to the end. -/
namespace Skynet.Server
open Base Skynet.Handle List Function

def colon : UInt8 := 58
def dot : UInt8 := 46

/-- The commands, with the context that gives them. LAUNCH registers the new context; if its
init function fails, which is after any commands it gives there, the handle is retired. -/
inductive Command where
  | launch
  | failLaunch (ctx : Nat)
  | reg (ctx : Nat) (param : Option CString)
  | query (ctx : Nat) (param : CString)
  | name (ctx : Nat) (param : CString)
  | exit (ctx : Nat)
  | kill (ctx : Nat) (param : CString)
  deriving DecidableEq

def tohandle (d : Directory) (param : CString) : Except NameFault Nat :=
  if param.bytes.head? = some colon then .ok (strtoulHex param.after.bytes % 2 ^ 32)
  else if param.bytes.head? = some dot then handleFindname d.table param.after
  else .ok 0

/- What a command asks of the handle storage: nothing at all, or one operation. The answer
none stands for a parameter with which cmd_name reads a text that sscanf did not set, and for
a fault in the name table. -/
def cmdReg (d : Directory) (ctx : Nat) (param : Option CString) : Option (Option DirectoryOp) :=
  match param with
  | none => some none
  | some param =>
    if param.bytes.head? = some dot then
      some (some (.namehandle (d.registry.handleOf ctx) param.after))
    else some none

def cmdQuery (param : CString) : Option (Option DirectoryOp) :=
  if param.bytes.head? = some dot then some (some (.findname param.after))
  else some none

def cmdName (param : CString) : Option (Option DirectoryOp) :=
  let name := param.word
  let handle := param.afterWord.word
  if handle.bytes = [] then none
  else if handle.bytes.head? ≠ some colon then some none
  else
    let handleId := strtoulHex handle.after.bytes % 2 ^ 32
    if handleId = 0 then some none
    else if name.bytes.head? = some dot then
      some (some (.namehandle handleId name.after))
    else some none

def cmdKill (d : Directory) (param : CString) : Option (Option DirectoryOp) :=
  match tohandle d param with
  | .ok handle => if handle ≠ 0 then some (some (.retire handle)) else some none
  | .error _ => none

def operation (d : Directory) : Command → Option (Option DirectoryOp)
  | .launch => some (some .register)
  | .failLaunch ctx => some (some (.retire (d.registry.handleOf ctx)))
  | .reg ctx param => cmdReg d ctx param
  | .query _ param => cmdQuery param
  | .name _ param => cmdName param
  | .exit ctx => some (some (.retire (d.registry.handleOf ctx)))
  | .kill _ param => cmdKill d param

def command (d : Directory) (c : Command) : Option Directory :=
  match operation d c with
  | none => none
  | some none => some d
  | some (some op) => d.step op

/-- A command that binds a name binds it to a handle that is registered. -/
def BindsLive (d : Directory) (c : Command) : Prop :=
  ∀ handle name, operation d c = some (some (.namehandle handle name)) →
    d.registry.isLive handle = true

variable {r r' : Registry} {handle : Nat} {d d' : Directory}

theorem isLive_iff :
    r.isLive handle = true ↔ ∃ ctx ∈ r.live, r.handleOf ctx = handle := by
  simp [Registry.isLive]

def NamesLive (d : Directory) : Prop :=
  ∀ name handle, d.bound name = some handle → d.registry.isLive handle = true

theorem register_live (good : r.Good) (taken : r.step .register = some r')
    (live : r.isLive handle = true) : r'.isLive handle = true := by
  obtain ⟨ctx, member, same⟩ := isLive_iff.mp live
  have known := good.known ctx member
  simp only [Registry.step] at taken
  split at taken
  · cases taken
    refine isLive_iff.mpr ⟨ctx, mem_append_left _ member, ?_⟩
    simpa [Registry.handleOf, getElem?_append_left known] using same
  · cases taken

theorem retire_live (handle : Nat) (taken : r.step (.retire handle) = some r') {other : Nat}
    (apart : other ≠ handle) (live : r.isLive other = true) :
    r'.isLive other = true := by
  simp only [Registry.step] at taken
  split at taken
  · rename_i storage gone retired
    obtain ⟨-, owner, -⟩ := retire_some retired
    cases taken
    obtain ⟨ctx, member, same⟩ := isLive_iff.mp live
    refine isLive_iff.mpr ⟨ctx, mem_filter.mpr ⟨member, ?_⟩, same⟩
    simp only [ne_eq, decide_eq_true_eq]
    rintro rfl
    exact apart (same.symm.trans owner)
  · cases taken
    exact live

theorem step_namesLive {l : List NameEntry} (maps : d.Maps l) (live : NamesLive d)
    (op : DirectoryOp)
    (binds : ∀ handle name, op = .namehandle handle name → d.registry.isLive handle = true)
    (taken : d.step op = some d') : NamesLive d' := by
  intro name handle bound
  cases op with
  | register =>
    obtain ⟨r, registered, rfl⟩ := Option.map_eq_some_iff.mp taken
    exact register_live maps.registry registered (live name handle bound)
  | retire gone =>
    simp only [Directory.step] at taken
    split at taken
    · rename_i registry table retired _
      cases taken
      have old : d.bound name = some handle ∧ (d.registry.isLive gone = true → handle ≠ gone) := by
        split at bound
        · simp only [Bindings.remove] at bound
          split at bound
          · cases bound
          · rename_i other
            exact ⟨bound, fun _ same => other (same ▸ bound)⟩
        · rename_i away
          exact ⟨bound, fun here => absurd here away⟩
      have before := live name handle old.1
      have apart : handle ≠ gone := fun same => old.2 (same ▸ before) same
      exact retire_live gone retired apart before
    · cases taken
  | namehandle given new =>
    simp only [Directory.step] at taken
    split at taken
    · cases taken
      simp only [Bindings.add] at bound
      split at bound
      · by_cases same : name = new
        · subst same
          rw [update_self] at bound
          cases bound
          exact binds _ name rfl
        · rw [update_of_ne same] at bound
          exact live name handle bound
      · exact live name handle bound
    · cases taken
  | findname asked =>
    simp only [Directory.step] at taken
    split at taken
    · cases taken
      exact live name handle bound
    · cases taken

theorem command_namesLive (c : Command) (maps : ∃ l, d.Maps l) (live : NamesLive d)
    (binds : BindsLive d c) (taken : command d c = some d') :
    (∃ l, d'.Maps l) ∧ NamesLive d' := by
  obtain ⟨l, maps⟩ := maps
  unfold command at taken
  split at taken
  · cases taken
  · cases taken
    exact ⟨⟨l, maps⟩, live⟩
  · rename_i op asked
    refine ⟨step_maps maps op taken, step_namesLive maps live op ?_ taken⟩
    rintro handle name rfl
    exact binds handle name asked

/-- In every run of commands that bind names only to registered handles, each name in the array
belongs to a context in the slot table. -/
theorem local_names_live (harbor : Nat) (d : Directory)
    (reached : Reaches command BindsLive (Directory.initial harbor) d) :
    ∀ i < d.table.nameCount, ∃ n, d.table.name i = some n ∧
      ∃ slot ctx, d.registry.storage.slot slot = some ctx ∧ d.registry.handleOf ctx = n.handle := by
  have inv : (∃ l, d.Maps l) ∧ NamesLive d := by
    refine reached.invariant (fun d => (∃ l, d.Maps l) ∧ NamesLive d)
      ⟨⟨[], initial_maps harbor⟩, fun name handle bound => ?_⟩ ?_
    · simp [Directory.initial] at bound
    · rintro d c d' ⟨maps, live⟩ binds taken
      exact command_namesLive c maps live binds taken
  obtain ⟨⟨l, maps⟩, live⟩ := inv
  intro i inside
  rw [maps.table.count] at inside
  refine ⟨l[i], ?_, ?_⟩
  · rw [maps.table.cells i inside, getElem?_eq_getElem]
  · have bound := (maps.listed l[i].name l[i].handle).mp (getElem_mem inside)
    obtain ⟨ctx, member, same⟩ := isLive_iff.mp (live _ _ bound)
    obtain ⟨slot, here⟩ := (maps.registry.live ctx).mp member
    exact ⟨slot, ctx, here, same⟩

def dotA : CString := ⟨[46, 97], by decide⟩

theorem local_names_live_registered :
    ∃ d, Reaches command BindsLive (Directory.initial 0) d ∧ d.table.nameCount = 1 ∧
      ∃ n, d.table.name 0 = some n ∧
        ∃ slot ctx, d.registry.storage.slot slot = some ctx ∧ d.registry.handleOf ctx = n.handle :=
          by
  obtain ⟨d, first⟩ : ∃ d, command (Directory.initial 0) .launch = some d := ⟨_, rfl⟩
  obtain ⟨d', second, count⟩ : ∃ d', command d (.reg 0 (some dotA)) = some d' ∧
      d'.table.nameCount = 1 := by
    cases first
    exact ⟨_, rfl, rfl⟩
  have launches : BindsLive (Directory.initial 0) .launch := fun handle name asked => by cases asked
  have registers : BindsLive d (.reg 0 (some dotA)) := by
    cases first
    intro handle name asked
    cases asked
    rfl
  have reached : Reaches command BindsLive (Directory.initial 0) d' :=
    .next (.next .start launches first) registers second
  exact ⟨d', reached, count, local_names_live 0 d' reached 0 (by rw [count]; decide)⟩

/-- A NAME command binds a handle that was never registered, and a REG command after EXIT one
that was retired. -/
theorem local_name_dead :
    ∃ d d', Run command (Directory.initial 0) d ∧ Run command (Directory.initial 0) d' ∧
      (∃ n, d.table.name 0 = some n ∧ d.table.nameCount = 1 ∧ ∀ slot ctx,
        d.registry.storage.slot slot = some ctx → d.registry.handleOf ctx ≠ n.handle) ∧
      ∃ n, d'.table.name 0 = some n ∧ d'.table.nameCount = 1 ∧
        ∀ slot ctx, d'.registry.storage.slot slot ≠ some ctx := by
  obtain ⟨d, taken, slots, handles, entry, count⟩ :
      ∃ d, [Command.launch, .name 0 ⟨[46, 97, 32, 58, 55], by decide⟩].foldlM
        command (Directory.initial 0) = some d ∧
        d.registry.storage.slot = update (fun _ => none) 1 (some 0) ∧
        d.registry.handles = [1] ∧ d.table.name 0 = some ⟨⟨[97], by decide⟩, 7⟩ ∧
        d.table.nameCount = 1 := ⟨_, rfl, rfl, rfl, rfl, rfl⟩
  obtain ⟨d', taken', slots', entry', count'⟩ :
      ∃ d, [Command.launch, .exit 0, .reg 0 (some dotA)].foldlM
        command (Directory.initial 0) = some d ∧
        d.registry.storage.slot = update (update (fun _ => none) 1 (some 0)) 1 none ∧
        d.table.name 0 = some ⟨⟨[97], by decide⟩, 1⟩ ∧ d.table.nameCount = 1 :=
    ⟨_, rfl, rfl, rfl, rfl⟩
  refine ⟨d, d', run_of_list _ taken, run_of_list _ taken',
    ⟨_, entry, count, ?_⟩, ⟨_, entry', count', ?_⟩⟩
  · intro slot ctx here
    rw [slots, update_apply] at here
    split at here
    · cases here
      simp [Registry.handleOf, handles]
    · cases here
  · intro slot ctx here
    rw [slots', update_idem, update_apply] at here
    split at here <;> cases here

end Skynet.Server
