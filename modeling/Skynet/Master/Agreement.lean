import Skynet.Master.Model

/-! Slaves and master agree on the global names when a name is registered with one address only.
The addresses in the maps and on the links are then all taken from the accepted registrations. -/
namespace Skynet.Master
open Function

open Base List Function Option

variable {Node Name Addr : Type}

section
variable [DecidableEq Name]

theorem responseName_globalname (slave : Slave Name Addr) (name : Name) :
    (responseName slave name).1.globalname = slave.globalname := by
  unfold responseName
  split <;> rfl

theorem responseName_answers (slave : Slave Name Addr) (name : Name) :
    ∀ r ∈ (responseName slave name).2, r.2 = slave.globalname name := by
  intro r member
  unfold responseName at member
  split at member
  · cases member
  · obtain ⟨session, _, rfl⟩ := mem_map.mp member
    rfl

end

def Within (registered : List (Name × Addr)) (map : Name → Option Addr) : Prop :=
  ∀ name a, map name = some a → (name, a) ∈ registered

theorem Within.update [DecidableEq Name] {registered : List (Name × Addr)}
    {map : Name → Option Addr} {name : Name} {a : Addr} (within : Within registered map)
    (member : (name, a) ∈ registered) :
    Within registered (update map name (some a)) := by
  refine (forall_update_iff map
    fun name found => ∀ a, found = some a → (name, a) ∈ registered).mpr ⟨?_, ?_⟩
  · intro b same
    exact some.inj same ▸ member
  · intro other _
    exact within other

def Requested (registered : List (Name × Addr)) : ToMaster Name Addr → Prop
  | .register name a => (name, a) ∈ registered
  | _ => True

def Answered (registered : List (Name × Addr)) (r : Answer Node Name Addr) : Prop :=
  ∃ a, r.address = some a ∧ (r.name, a) ∈ registered

structure Inv (w : World Node Name Addr) : Prop where
  one : ∀ name a b, (name, a) ∈ w.registered → (name, b) ∈ w.registered → a = b
  master : Within w.registered w.globalName
  slaves : ∀ n, Within w.registered (w.slave n).globalname
  up : ∀ n, ∀ m ∈ w.up n, Requested w.registered m
  down : ∀ n, ∀ m ∈ w.down n, (m.name, m.address) ∈ w.registered
  answered : ∀ r ∈ w.answered, Answered w.registered r

theorem inv_start : Inv (World.start : World Node Name Addr) where
  one _ _ _ member := nomatch member
  master _ _ found := nomatch found
  slaves _ _ _ found := nomatch found
  up _ _ member := nomatch member
  down _ _ member := nomatch member
  answered _ member := nomatch member

variable {w w' : World Node Name Addr} {n : Node} {name : Name} {a : Addr}

theorem Inv.agree (inv : Inv w) : Agree w := by
  intro n name a b known kept
  exact inv.one name a b (inv.slaves n name a known) (inv.master name b kept)

theorem Inv.accept (inv : Inv w) (agrees : ∀ b, (name, b) ∈ w.registered → b = a) :
    Inv { w with registered := (name, a) :: w.registered } := by
  have grows : ∀ entry ∈ w.registered, entry ∈ (name, a) :: w.registered :=
    fun _ => mem_cons_of_mem _
  constructor
  · intro other b c first second
    rcases mem_cons.mp first with same | old
    · cases same
      rcases mem_cons.mp second with same' | old'
      · cases same'
        rfl
      · exact (agrees c old').symm
    · rcases mem_cons.mp second with same' | old'
      · cases same'
        exact agrees b old
      · exact inv.one other b c old old'
  · intro other b found
    exact grows _ (inv.master other b found)
  · intro n other b found
    exact grows _ (inv.slaves n other b found)
  · intro n m member
    have requested := inv.up n m member
    cases m with
    | register other b => exact grows _ requested
    | handshake => trivial
    | query other => trivial
  · intro n m member
    exact grows _ (inv.down n m member)
  · intro r member
    obtain ⟨b, found, there⟩ := inv.answered r member
    exact ⟨b, found, grows _ there⟩

theorem Inv.broadcast (inv : Inv w) {m : NameIs Name Addr}
    (member : (m.name, m.address) ∈ w.registered) : Inv (broadcast w m) := by
  refine { inv with down := ?_ }
  intro n m' queued
  change m' ∈ (if w.slaveNode n then w.down n ++ [m] else w.down n) at queued
  split at queued
  · rcases mem_append.mp queued with old | new
    · exact inv.down n m' old
    · exact mem_singleton.mp new ▸ member
  · exact inv.down n m' queued

theorem Inv.dispatchRegister [DecidableEq Name] (inv : Inv w)
    (member : (name, a) ∈ w.registered) :
    Inv (dispatchRegister w name a) := by
  unfold Master.dispatchRegister
  split
  · exact inv.broadcast member
  · have kept : Inv { w with globalName := update w.globalName name (some a) } :=
      { inv with master := inv.master.update member }
    exact kept.broadcast member

section
variable [DecidableEq Node] {m : ToMaster Name Addr} {p : Packing Name Addr}

theorem Inv.toMaster (inv : Inv w) (requested : Requested w.registered m) :
    Inv (toMaster w n m) := by
  refine { inv with up := ?_ }
  refine (forall_update_iff w.up
    fun _ queue => ∀ m ∈ queue, Requested w.registered m).mpr ⟨?_, fun other _ => inv.up other⟩
  intro m' member
  rcases mem_append.mp member with old | new
  · exact inv.up n m' old
  · exact mem_singleton.mp new ▸ requested

theorem Inv.monitorHarbor (inv : Inv w) (p : Packing Name Addr) :
    Inv (monitorHarbor p w n name) := by
  unfold Master.monitorHarbor
  split
  · exact inv
  · split
    · exact inv.toMaster trivial
    · exact inv

theorem Inv.upRest (inv : Inv w) {rest : List (ToMaster Name Addr)} (next : w.up n = m :: rest) :
    Inv { w with up := update w.up n rest } := by
  refine { inv with up := ?_ }
  refine (forall_update_iff w.up
    fun _ queue => ∀ m ∈ queue, Requested w.registered m).mpr ⟨?_, fun other _ => inv.up other⟩
  intro m' member
  exact inv.up n m' (next ▸ mem_cons_of_mem m member)

theorem Inv.downRest (inv : Inv w) {m : NameIs Name Addr} {rest : List (NameIs Name Addr)}
    (next : w.down n = m :: rest) : Inv { w with down := update w.down n rest } := by
  refine { inv with down := ?_ }
  refine (forall_update_iff w.down fun _ queue =>
    ∀ m ∈ queue, (m.name, m.address) ∈ w.registered).mpr ⟨?_, fun other _ => inv.down other⟩
  intro m' member
  exact inv.down n m' (next ▸ mem_cons_of_mem m member)

variable [DecidableEq Name]

section
variable (inv : Inv w)
include inv

theorem Inv.learn (member : (name, a) ∈ w.registered) : Inv (learn w n name a) := by
  refine { inv with slaves := ?_, answered := ?_ }
  · refine (forall_update_iff w.slave
      fun _ slave => Within w.registered slave.globalname).mpr ⟨?_, fun other _ => inv.slaves other⟩
    have kept := responseName_globalname { w.slave n with
      globalname := update (w.slave n).globalname name (some a) } name
    exact (congrArg (Within w.registered) kept).mpr ((inv.slaves n).update member)
  · intro r given
    rcases mem_append.mp given with old | new
    · exact inv.answered r old
    · obtain ⟨answer, there, rfl⟩ := mem_map.mp new
      refine ⟨a, ?_, member⟩
      exact (responseName_answers _ name answer there).trans (update_self ..)

theorem Inv.waitFor (queue : List Nat) : Inv (waitFor w n name queue) := by
  refine { inv with slaves := ?_ }
  exact (forall_update_iff w.slave fun _ slave => Within w.registered slave.globalname).mpr
      ⟨inv.slaves n, fun other _ => inv.slaves other⟩

theorem Inv.register (p : Packing Name Addr)
    (agrees : (w.slave n).globalname name = none → ∀ b, (name, b) ∈ w.registered → b = a) :
    Inv (register p w n name a) := by
  unfold Master.register
  split
  · exact inv
  · rename_i unknown
    have stored := (inv.accept (agrees unknown)).learn (n := n) (mem_cons_self ..)
    split
    · exact stored.toMaster (mem_cons_self ..)
    · exact stored

theorem Inv.queryname (p : Packing Name Addr) (session : Nat) :
    Inv (queryname p w n name session) := by
  unfold Master.queryname
  split
  · rename_i result known
    refine { inv with answered := ?_ }
    intro r given
    rcases mem_append.mp given with old | new
    · exact inv.answered r old
    · cases mem_singleton.mp new
      exact ⟨result, rfl, inv.slaves n name result known⟩
  · split
    · exact inv.waitFor _
    · split
      · exact (inv.toMaster (m := .query name) trivial).waitFor _
      · exact inv

theorem Inv.dispatchSlave (requested : Requested w.registered m) : Inv (dispatchSlave w n m) := by
  cases m with
  | handshake => exact { inv with }
  | register name a => exact inv.dispatchRegister requested
  | query name =>
    unfold Master.dispatchSlave
    dsimp only
    split
    · rename_i address kept
      refine { inv with down := ?_ }
      refine (forall_update_iff w.down fun _ queue =>
        ∀ m ∈ queue, (m.name, m.address) ∈ w.registered).mpr ⟨?_, fun other _ => inv.down other⟩
      intro m queued
      rcases mem_append.mp queued with old | new
      · exact inv.down n m old
      · exact mem_singleton.mp new ▸ inv.master name address kept
    · exact inv

end

/-- A registration that a slave accepts has the address of those accepted before for the name. -/
def OneAddress (w : World Node Name Addr) : Action Node Name Addr → Prop
  | .register n name handle => (w.slave n).globalname name = none →
      ∀ b, (name, b) ∈ w.registered → b = handle
  | _ => True

theorem step_inv {action : Action Node Name Addr} (inv : Inv w) (allowed : OneAddress w action)
    (taken : step p w action = some w') : Inv w' := by
  cases action with
  | connect n =>
    obtain ⟨_, done⟩ := ite_none_left_eq_some.mp taken
    cases done
    have joined : Inv { w with connected := update w.connected n true } := { inv with }
    exact joined.toMaster trivial
  | register n name handle =>
    obtain ⟨_, done⟩ := ite_none_right_eq_some.mp taken
    cases done
    exact inv.register p allowed
  | queryname n name session =>
    obtain ⟨_, done⟩ := ite_none_right_eq_some.mp taken
    cases done
    exact inv.queryname p session
  | monitorHarbor n name =>
    obtain ⟨_, done⟩ := ite_none_right_eq_some.mp taken
    cases done
    exact inv.monitorHarbor p
  | dispatchSlave n =>
    dsimp only [step] at taken
    split at taken
    · contradiction
    · rename_i m rest next
      cases taken
      have requested := inv.up n m (next ▸ mem_cons_self ..)
      exact (inv.upRest next).dispatchSlave requested
  | monitorMaster n =>
    dsimp only [step] at taken
    split at taken
    · contradiction
    · rename_i m rest next
      cases taken
      have member := inv.down n m (next ▸ mem_cons_self ..)
      exact (inv.downRest next).learn member

theorem reached_inv (reached : Reaches (step p) OneAddress (World.start : World Node Name Addr) w) :
    Inv w :=
  reached.invariant Inv inv_start fun _ _ _ inv allowed taken => step_inv inv allowed taken

theorem answers_agree (reached : Reaches (step p) OneAddress (World.start : World Node Name Addr) w)
    (r r' : Answer Node Name Addr) (given : r ∈ w.answered) (given' : r' ∈ w.answered)
    (same : r.name = r'.name) : r.address = r'.address := by
  have inv := reached_inv reached
  obtain ⟨a, found, member⟩ := inv.answered r given
  obtain ⟨b, found', member'⟩ := inv.answered r' given'
  rw [found, found', inv.one r.name a b member (same ▸ member')]

theorem global_names_agree {p : Packing Name Addr}
    (reached : Reaches (step p) OneAddress (World.start : World Node Name Addr) w) : Agree w :=
  (reached_inv reached).agree

end

/- Two slaves, names of any kind and addresses, and packages that all fit. -/
def small : Packing Nat Nat := ⟨fun _ _ => true, fun _ => true⟩

def checkedOneAddress (w : World Bool Nat Nat) : Action Bool Nat Nat → Bool
  | .register n name handle =>
    ((w.slave n).globalname name).isSome ||
      w.registered.all fun entry => entry.1 != name || entry.2 == handle
  | _ => true

theorem oneAddress_of_checked (w : World Bool Nat Nat) (action : Action Bool Nat Nat)
    (passed : checkedOneAddress w action = true) : OneAddress w action := by
  cases action with
  | register n name handle =>
    intro unknown b member
    rcases Bool.or_eq_true _ _ |>.mp passed with known | same
    · rw [unknown] at known
      contradiction
    · have entry := all_eq_true.mp same (name, b) member
      simpa using entry
  | connect n => trivial
  | queryname n name session => trivial
  | monitorHarbor n name => trivial
  | dispatchSlave n => trivial
  | monitorMaster n => trivial

/-- Both slaves register the name with one address, neither having heard of the other's. -/
theorem global_names_agree_two :
    ∃ w : World Bool Nat Nat, Reaches (step small) OneAddress World.start w ∧ Delivered w ∧
      (∀ n, (w.slave n).globalname 7 = some 70) ∧ w.globalName 7 = some 70 ∧ Agree w := by
  have run : Reaches (step small) OneAddress World.start _ :=
    reaches_of_checked checkedOneAddress oneAddress_of_checked
      [.connect false, .connect true, .dispatchSlave false, .dispatchSlave true,
        .register false 7 70, .register true 7 70, .dispatchSlave true, .dispatchSlave false,
        .monitorMaster false, .monitorMaster false, .monitorMaster true, .monitorMaster true] rfl
  have agree := global_names_agree run
  refine ⟨_, run, ?_, ?_, rfl, agree⟩
  · intro n
    cases n <;> exact ⟨rfl, rfl⟩
  · intro n
    cases n <;> rfl

theorem answers_agree_twice :
    ∃ w : World Bool Nat Nat, Reaches (step small) OneAddress World.start w ∧
      ∃ r ∈ w.answered, ∃ r' ∈ w.answered, r.session ≠ r'.session ∧ r.address = r'.address := by
  have run : Reaches (step small) OneAddress World.start _ :=
    reaches_of_checked checkedOneAddress oneAddress_of_checked
      [.connect false, .register false 7 70, .queryname false 7 1, .queryname false 7 2] rfl
  refine ⟨_, run, ⟨false, 7, 1, some 70⟩, .head _, ⟨false, 7, 2, some 70⟩, .tail _ (.head _),
    by decide, ?_⟩
  exact answers_agree run _ _ (.head _) (.tail _ (.head _)) rfl

/-- Two slaves register one name with different addresses: the master keeps the first, and both
slaves end with the second. -/
theorem global_names_differ :
    ∃ w : World Bool Nat Nat, Run (step small) World.start w ∧ Delivered w ∧
      (∀ n, (w.slave n).globalname 7 = some 71) ∧ w.globalName 7 = some 70 ∧ ¬ Agree w := by
  have run : Run (step small) World.start _ := run_of_list
    [.connect false, .connect true, .dispatchSlave false, .dispatchSlave true,
      .register false 7 70, .register true 7 71, .dispatchSlave false, .dispatchSlave true,
      .monitorMaster false, .monitorMaster false, .monitorMaster true, .monitorMaster true] rfl
  refine ⟨_, run, ?_, ?_, rfl, ?_⟩
  · intro n
    cases n <;> exact ⟨rfl, rfl⟩
  · intro n
    cases n <;> rfl
  · intro agree
    exact absurd (agree false 7 71 70 rfl rfl) (by decide)

end Skynet.Master
