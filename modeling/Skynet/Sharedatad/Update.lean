import Mathlib.Logic.Function.Basic

/-! CMD.new, CMD.query and CMD.update of sharedatad.lua, and what an update that fails leaves. -/
namespace Skynet.Sharedatad

variable {Table : Type}

/-- What an object is made from. Of a string only what loading and running it gives is known: an
error, or the environment it has filled and the table it may have returned. -/
inductive Data (Table : Type) where
  | table (t : Table)
  | string (ran : Option (Table × Option Table))
  | nil
  | other

/- `watch` has the responses of CMD.monitor. -/
structure Shared (Table : Type) where
  value : Table
  obj : Nat
  watch : List Nat

/- The objects of the host are numbered as they are made. `objmap` tells whether an object is left
to collectobj, `responses` who was sent which object. -/
structure Service (Table : Type) where
  pool : String → Option (Shared Table)
  poolCount : String → Option (Nat × Nat)
  objmap : Nat → Option Bool
  ref : Nat → Int
  dirty : Nat → Bool
  made : Nat
  responses : List (Nat × Nat)

/- `accepts` are the tables that host.new makes an object of, `empty` is a table without keys. -/
variable (accepts : Table → Bool) (empty : Table)

def Service.newobj (s : Service Table) (name : String) (tbl : Table) : Option (Service Table) :=
  if (s.pool name).isNone ∧ accepts tbl then
    some { s with
      made := s.made + 1
      ref := Function.update s.ref s.made 1
      objmap := Function.update s.objmap s.made (some false)
      pool := Function.update s.pool name (some ⟨tbl, s.made, []⟩)
      poolCount := Function.update s.poolCount name (some (0, 16)) }
  else none

/- Nothing has changed when there is an error. -/
def Service.new (s : Service Table) (name : String) : Data Table → Option (Service Table)
  | .table t => s.newobj accepts name t
  | .string ran => ran.bind fun (value, ret) => s.newobj accepts name (ret.getD value)
  | .nil => s.newobj accepts name empty
  | .other => none

def Service.query (s : Service Table) (name : String) : Option (Service Table × Nat) :=
  (s.pool name).map fun v => ({ s with ref := Function.update s.ref v.obj (s.ref v.obj + 1) }, v.obj)

/- CMD.update up to CMD.new. -/
def Service.takeApart (s : Service Table) (name : String) : Service Table :=
  match s.pool name with
  | none => s
  | some v => { s with
      objmap := Function.update s.objmap v.obj (some true)
      ref := Function.update s.ref v.obj (s.ref v.obj - 1)
      pool := Function.update s.pool name none
      poolCount := Function.update s.poolCount name none }

/- With an error the service stays as it is then. -/
def Service.update (s : Service Table) (name : String) (data : Data Table) :
    Service Table × Bool :=
  match (s.takeApart name).new accepts empty name data with
  | none => (s.takeApart name, false)
  | some s' =>
    match s.pool name with
    | none => (s', true)
    | some v => ({ s' with
        dirty := Function.update s'.dirty v.obj true
        responses := s'.responses ++ v.watch.map fun response => (response, s.made) }, true)

/-- The object is still found and referred to as before, and the next update that succeeds is
told to all who watch it. -/
structure Survives (s s' : Service Table) (name : String) (v : Shared Table) : Prop where
  query : (s'.query name).map Prod.snd = some v.obj
  ref : s'.ref v.obj = s.ref v.obj
  watch : ∀ data, (s'.update accepts empty name data).2 = true → ∀ response ∈ v.watch,
    (response, s'.made) ∈ (s'.update accepts empty name data).1.responses

theorem update_fails {s : Service Table} {name : String} {data : Data Table}
    (failed : (s.update accepts empty name data).2 = false) :
    (s.update accepts empty name data).1 = s.takeApart name := by
  dsimp only [Service.update] at failed ⊢
  split at failed
  · rfl
  · split at failed <;> cases failed

theorem takeApart_query {s : Service Table} {name : String} {v : Shared Table}
    (found : s.pool name = some v) : (s.takeApart name).query name = none := by
  simp [Service.takeApart, Service.query, found]

/-- After an update that fails, the object of the name survives exactly when there was none; then
nothing has changed. -/
theorem failed_update (s : Service Table) (name : String) (data : Data Table)
    (failed : (s.update accepts empty name data).2 = false) :
    ((∀ v, s.pool name = some v →
      Survives accepts empty s (s.update accepts empty name data).1 name v) ↔
      s.pool name = none) ∧
    (s.pool name = none → (s.update accepts empty name data).1 = s) := by
  rw [update_fails accepts empty failed]
  refine ⟨⟨?_, ?_⟩, ?_⟩
  · intro survives
    cases found : s.pool name with
    | none => rfl
    | some v =>
      have query := (survives v found).query
      rw [takeApart_query found] at query
      cases query
  · intro missing v found
    cases missing.symm.trans found
  · intro missing
    simp only [Service.takeApart, missing]

def noObjects : Service Unit :=
  ⟨fun _ => none, fun _ => none, fun _ => none, fun _ => 0, fun _ => false, 0, []⟩

theorem failed_update_fresh : (noObjects.update (fun _ => true) () "a" .other).2 = false ∧
    (noObjects.update (fun _ => true) () "a" .other).1 = noObjects :=
  ⟨rfl, (failed_update (fun _ => true) () noObjects "a" .other rfl).2 rfl⟩

/- One service watches the object when it is updated with a number. -/
def watched : Service Unit :=
  { noObjects with
    pool := fun name => if name = "a" then some ⟨(), 0, [7]⟩ else none
    objmap := fun obj => if obj = 0 then some false else none
    ref := fun obj => if obj = 0 then 1 else 0
    made := 1 }

theorem failed_update_loses : (watched.update (fun _ => true) () "a" .other).2 = false ∧
    (watched.query "a").map Prod.snd = some 0 ∧
    ∃ s, (watched.update (fun _ => true) () "a" .other).1 = s ∧ s.query "a" = none ∧
      s.ref 0 = 0 ∧ (s.update (fun _ => true) () "a" .nil).2 = true ∧
      (s.update (fun _ => true) () "a" .nil).1.responses = [] :=
  ⟨rfl, rfl, _, rfl, rfl, rfl, rfl, rfl⟩

end Skynet.Sharedatad
