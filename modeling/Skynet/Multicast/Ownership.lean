import Skynet.Multicast.Packages
import Skynet.Multicast.Tables

/-! Every package that is published on a channel of its own node is freed once, and is bound to as
many references as it has receivers. -/
namespace Skynet.Multicast

open Base Function Option

/-- A package whose publication is over: its cell is freed, its count is that of the services that
still hold it, and package and data are freed when there is none left. -/
structure Settled (k : Package) : Prop where
  cell : k.cell = 1
  handed : ∀ ref group, k.handed = some (ref, group) → ref = (group.card : Int)
  reference : k.reference = (k.holding.card : Int)
  held : k.holding ≠ ∅ → k.package = 0 ∧ k.data = 0
  freed : k.holding = ∅ → k.package = 1 ∧ k.data = 1

/- A package with the command that has it. -/
def Kept : Option Waiting → Package → Prop
  | some (.publish _ _ _), k => k = pack
  | some (.forward _ _), _ => False
  | none, k => Settled k

structure Inv (w : System) : Prop where
  sane : Sane w.tables
  kept : ∀ p, p < w.made → Kept (w.waiting p) (w.packages p)
  unmade : ∀ p, w.made ≤ p → w.waiting p = none ∧ w.packages p = pack

theorem inv_start : Inv System.start :=
  ⟨sane_start, fun _ none => absurd none (Nat.not_lt_zero _), fun _ _ => ⟨rfl, rfl⟩⟩

section Tables
variable {w : World}

theorem sane_locate (sane : Sane w) (n node : Node) : Sane (locate w n node) := by
  have grows := grows_known (w.daemon n).nodeAddress node
  refine sane.set ⟨(sane.fits n).looks, (sane.fits n).counts, (sane.fits n).peopled, ?_⟩ grows
  intro c away here
  exact grows _ ((sane.fits n).addressed c away here)

theorem sane_delr (sane : Sane w) (n : Node) (c : Chan) : Sane (delr w n c) :=
  sane.set ((sane.fits n).remove c) fun _ here => here

theorem sane_del (sane : Sane w) (n : Node) (c : Chan) : Sane (del w n c) := by
  unfold del
  split
  · exact sane
  · have fits := (sane.fits n).remove c
    exact sane.set ⟨fits.looks, fits.counts, fits.peopled, fits.addressed⟩ fun _ here => here

end Tables

section Blocks

theorem settled_dead : Yields (fun _ => False) Settled (mcBind pack 1 >>= mcClose) :=
  ⟨rfl, nofun, rfl, fun held => absurd rfl held, fun _ => ⟨rfl, rfl⟩⟩

theorem settled_handed {group : Finset Service} (peopled : group ≠ ∅) :
    Settled { pack with
      reference := group.card
      cell := 1
      handed := some ((group.card : Int), group)
      holding := group } := by
  refine ⟨rfl, ?_, rfl, fun _ => ⟨rfl, rfl⟩, fun none => absurd none peopled⟩
  intro ref group' same
  cases same
  rfl

theorem settled_close {k : Package} {service : Service} (settled : Settled k)
    (member : service ∈ k.holding) :
    Yields (fun _ => False) (fun k => Settled { k with holding := k.holding.erase service })
      (mcClose k) := by
  obtain ⟨package, data⟩ := settled.held (Finset.ne_empty_of_mem member)
  have card := Finset.card_erase_of_mem member
  have some : 0 < k.holding.card := Finset.card_pos.mpr ⟨service, member⟩
  have count := settled.reference
  unfold mcClose
  rw [if_neg (not_not_intro package)]
  by_cases more : 0 < k.reference - 1
  · have left : k.holding.erase service ≠ ∅ := by
      refine Finset.nonempty_iff_ne_empty.mp (Finset.card_pos.mp ?_)
      omega
    rw [if_pos more]
    refine ⟨settled.cell, settled.handed, ?_, fun _ => ⟨package, data⟩, fun none => ?_⟩
    · change k.reference - 1 = ((k.holding.erase service).card : Int)
      omega
    · exact absurd none left
  · have last : k.holding.erase service = ∅ := by
      refine Finset.card_eq_zero.mp ?_
      omega
    rw [if_neg more, if_neg (not_not_intro data), if_neg (by omega)]
    refine ⟨settled.cell, settled.handed, ?_, fun held => absurd last held, fun _ => ?_⟩
    · change k.reference - 1 = ((k.holding.erase service).card : Int)
      omega
    · change k.package + 1 = 1 ∧ k.data + 1 = 1
      omega

end Blocks

section Publish
variable {w w' : System} {n : Node} {c : Chan} {p : Nat} {nodes : List Node}

theorem Inv.setTables (inv : Inv w) {tables : World} (sane : Sane tables) :
    Inv (w.setTables tables) :=
  ⟨sane, inv.kept, inv.unmade⟩

/-- All packages but this one are as they should be. -/
structure Others (w : System) (p : Nat) : Prop where
  sane : Sane w.tables
  kept : ∀ q, q ≠ p → q < w.made → Kept (w.waiting q) (w.packages q)
  unmade : ∀ q, w.made ≤ q → w.waiting q = none ∧ w.packages q = pack
  made : p < w.made

theorem Inv.others (inv : Inv w) (made : p < w.made) : Others w p :=
  ⟨inv.sane, fun q _ => inv.kept q, inv.unmade, made⟩

section
variable (others : Others w p)
include others

theorem Others.wait (waiting : Option Waiting) :
    Others (w.wait p waiting) p := by
  refine ⟨others.sane, ?_, ?_, others.made⟩
  · intro q other below
    change Kept (update w.waiting p waiting q) _
    rw [update_of_ne other]
    exact others.kept q other below
  · intro q beyond
    have other : q ≠ p := fun same => absurd (same ▸ others.made) (Nat.not_lt.mpr beyond)
    change update w.waiting p waiting q = _ ∧ _
    rw [update_of_ne other]
    exact others.unmade q beyond

theorem Others.setPackage (k : Package) : Others (w.setPackage p k) p := by
  refine ⟨others.sane, ?_, ?_, others.made⟩
  · intro q other below
    change Kept _ (update w.packages p k q)
    rw [update_of_ne other]
    exact others.kept q other below
  · intro q beyond
    have other : q ≠ p := fun same => absurd (same ▸ others.made) (Nat.not_lt.mpr beyond)
    change _ ∧ update w.packages p k q = _
    rw [update_of_ne other]
    exact others.unmade q beyond

theorem Others.inv (kept : Kept (w.waiting p) (w.packages p)) : Inv w := by
  refine ⟨others.sane, ?_, others.unmade⟩
  intro q below
  by_cases same : q = p
  · exact same ▸ kept
  · exact others.kept q same below

theorem Others.settle (waiting : w.waiting p = none) {k : Package} (settled : Settled k) :
    Inv (w.setPackage p k) := by
  refine (others.setPackage k).inv ?_
  change Kept (w.waiting p) (update w.packages p k p)
  rw [waiting, update_self]
  exact settled

theorem publishLocal_inv (waiting : w.waiting p = none) (packed : w.packages p = pack) :
    Yields (fun _ => False) Inv (publishLocal w n c p) := by
  have dead : Yields (fun _ => False) Inv (do
      let k ← mcBind pack 1
      let k ← mcClose k
      return w.setPackage p k) := others.settle waiting settled_dead
  unfold publishLocal
  rw [packed]
  rcases eq_none_or_eq_some ((w.tables.daemon n).channel c) with absent | ⟨group, present⟩
  · rw [absent]
    exact dead
  · rw [present]
    refine Yields.ite (fun _ => dead) fun peopled => ?_
    rw [(others.sane.fits n).counts c group present]
    exact others.settle waiting (settled_handed peopled)

theorem publishRemote_inv (packed : w.packages p = pack) :
    Yields (fun _ => False) Inv (publishRemote w n c p nodes) := by
  unfold publishRemote
  split
  · exact publishLocal_inv (others.wait none) (update_self ..) packed
  · refine (others.wait _).inv ?_
    change Kept (update w.waiting p _ p) _
    rw [update_self]
    exact packed

theorem publish_inv (waiting : w.waiting p = none) (packed : w.packages p = pack) :
    Yields (fun _ => False) Inv (publish w n c p nodes) := by
  unfold publish
  split
  · exact publishLocal_inv others waiting packed
  · rw [packed]
    exact publishRemote_inv others packed

end

theorem closeBy_inv (inv : Inv w) {service : Service}
    (member : service ∈ (w.packages p).holding) :
    Yields (fun _ => False) Inv (closeBy w p service) := by
  have made : p < w.made := by
    by_contra beyond
    rw [(inv.unmade p (Nat.not_lt.mp beyond)).2] at member
    cases member
  have kept := inv.kept p made
  rcases eq_none_or_eq_some (w.waiting p) with none | ⟨waiting, some⟩
  · rw [none] at kept
    exact Yields.bind (settled_close kept member) fun k settled =>
      (inv.others made).settle none settled
  · rw [some] at kept
    cases waiting with
    | publish n c asked =>
      have packed : w.packages p = pack := kept
      rw [packed] at member
      cases member
    | forward n asked => exact kept.elim

theorem Inv.make (inv : Inv w) : Others { w with made := w.made + 1 } w.made := by
  refine ⟨inv.sane, ?_, ?_, Nat.lt_succ_self _⟩
  · intro q other below
    exact inv.kept q (Nat.lt_of_le_of_ne (Nat.le_of_lt_succ below) other)
  · intro q beyond
    exact inv.unmade q (Nat.le_of_succ_le beyond)

end Publish

theorem perform_inv {w : System} (inv : Inv w) {a : Command} (owned : Owned ⟨w, none⟩ a)
    {result : Except Fault System} (taken : perform w a = some result) :
    Yields (fun _ => False) Inv result := by
  cases a with
  | table a =>
    obtain ⟨tables, stepped, rfl⟩ := map_eq_some_iff.mp taken
    exact inv.setTables (step_sane inv.sane stepped)
  | del n c =>
    cases taken
    exact inv.setTables (sane_del inv.sane n c)
  | delr n c =>
    cases taken
    exact inv.setTables (sane_delr inv.sane n c)
  | locate n node =>
    cases taken
    exact inv.setTables (sane_locate inv.sane n node)
  | pub n c nodes =>
    obtain ⟨_, done⟩ := ite_none_right_eq_some.mp taken
    cases done
    obtain ⟨waiting, packed⟩ := inv.unmade w.made (Nat.le_refl _)
    have own : owner c = n := owned
    rw [pub, if_neg (not_not_intro own)]
    exact publish_inv inv.make waiting packed
  | receive n c nodes =>
    obtain ⟨_, done⟩ := ite_none_right_eq_some.mp taken
    cases done
    obtain ⟨waiting, packed⟩ := inv.unmade w.made (Nat.le_refl _)
    exact publish_inv inv.make waiting packed
  | found p nodes =>
    obtain ⟨waiting, waits, rfl⟩ := map_eq_some_iff.mp taken
    have made : p < w.made := by
      by_contra beyond
      rw [(inv.unmade p (Nat.not_lt.mp beyond)).1] at waits
      cases waits
    have kept := inv.kept p made
    rw [waits] at kept
    cases waiting with
    | publish n c asked =>
      have located := inv.setTables (sane_locate inv.sane n asked)
      exact publishRemote_inv (located.others made) kept
    | forward n asked => exact kept.elim
  | failed p => exact owned.elim
  | close p service =>
    obtain ⟨member, done⟩ := ite_none_right_eq_some.mp taken
    cases done
    exact closeBy_inv inv member

theorem publishStep_inv {st st' : Published} {a : Command}
    (sound : st.fault = none ∧ Inv st.system) (owned : Owned st a)
    (taken : publishStep st a = some st') : st'.fault = none ∧ Inv st'.system := by
  obtain ⟨fault, inv⟩ := sound
  rw [publishStep, if_neg (not_not_intro fault)] at taken
  obtain ⟨result, performed, rfl⟩ := map_eq_some_iff.mp taken
  have owned' : Owned ⟨st.system, none⟩ a := by
    cases a <;> exact owned
  have yields := perform_inv inv owned' performed
  cases result with
  | error fault => exact yields.elim
  | ok w' => exact ⟨rfl, yields⟩

theorem Settled.once {k : Package} (settled : Settled k) :
    k.cell ≤ 1 ∧ k.package ≤ 1 ∧ k.data ≤ 1 := by
  refine ⟨settled.cell.le, ?_⟩
  by_cases none : k.holding = ∅
  · obtain ⟨package, data⟩ := settled.freed none
    omega
  · obtain ⟨package, data⟩ := settled.held none
    omega

/- Nothing of a package is freed while a command has it. -/
theorem Inv.package {w : System} (inv : Inv w) (p : Nat) :
    w.packages p = pack ∨ (p < w.made ∧ w.waiting p = none ∧ Settled (w.packages p)) := by
  by_cases made : p < w.made
  · have kept := inv.kept p made
    rcases eq_none_or_eq_some (w.waiting p) with none | ⟨waiting, some⟩
    · rw [none] at kept
      exact .inr ⟨made, none, kept⟩
    · rw [some] at kept
      cases waiting with
      | publish n c asked => exact .inl kept
      | forward n asked => exact kept.elim
  · exact .inl (inv.unmade p (Nat.not_lt.mp made)).2

theorem package_ownership {st : Published}
    (reached : Reaches publishStep Owned Published.start st) :
    st.fault = none ∧
      (∀ n c group, (st.system.tables.daemon n).channel c = some group →
        (st.system.tables.daemon n).channelN c = some (group.card : Int)) ∧
      (∀ p ref services, (st.system.packages p).handed = some (ref, services) →
        ref = (services.card : Int)) ∧
      (∀ p, (st.system.packages p).cell ≤ 1 ∧ (st.system.packages p).package ≤ 1 ∧
        (st.system.packages p).data ≤ 1) ∧
      ∀ p, Closed st.system p → (st.system.packages p).cell = 1 ∧
        (st.system.packages p).package = 1 ∧ (st.system.packages p).data = 1 := by
  obtain ⟨fault, inv⟩ := reached.invariant (fun st => st.fault = none ∧ Inv st.system)
    ⟨rfl, inv_start⟩ fun _ _ _ sound owned taken => publishStep_inv sound owned taken
  refine ⟨fault, fun n => (inv.sane.fits n).counts, ?_, ?_, ?_⟩
  · intro p ref services handed
    rcases inv.package p with packed | ⟨_, _, settled⟩
    · rw [packed] at handed
      cases handed
    · exact settled.handed ref services handed
  · intro p
    rcases inv.package p with packed | ⟨_, _, settled⟩
    · rw [packed]
      exact ⟨Nat.zero_le _, Nat.zero_le _, Nat.zero_le _⟩
    · exact settled.once
  · rintro p ⟨made, waiting, empty⟩
    have kept := inv.kept p made
    rw [waiting] at kept
    exact ⟨kept.cell, kept.freed empty⟩

def checkedOwned (_ : Published) : Command → Bool
  | .pub n c _ => owner c == n
  | .failed _ => false
  | _ => true

theorem owned_of_checked (st : Published) (a : Command) (passed : checkedOwned st a = true) :
    Owned st a := by
  cases a with
  | pub n c nodes => exact eq_of_beq passed
  | failed p => contradiction
  | _ => trivial

/- A channel of node 1 with two subscribers there and one of node 2. The address of node 2 is looked
up while the package waits; then both local subscribers close it. -/
def shared : List Command :=
  [.table (.new 1 1), .table (.sub 1 ⟨10, 1⟩), .table (.sub 1 ⟨11, 1⟩), .table (.sub 2 ⟨20, 1⟩),
    .table (.found 2 0), .table (.deliver 2 1), .pub 1 1 [2], .found 0 [], .close 0 10,
    .close 0 11]

theorem package_ownership_two :
    ∃ st : Published, Reaches publishStep Owned Published.start st ∧ Closed st.system 0 ∧
      (st.system.packages 0).handed = some (2, {10, 11}) ∧ (st.system.packages 0).cell = 1 ∧
      (st.system.packages 0).package = 1 ∧ (st.system.packages 0).data = 1 := by
  obtain ⟨st, taken, closed, handed⟩ : ∃ st : Published,
      shared.foldlM (fun st a => if checkedOwned st a then publishStep st a else none)
        Published.start = some st ∧ Closed st.system 0 ∧
      (st.system.packages 0).handed = some (2, {10, 11}) :=
    ⟨_, rfl, ⟨by decide, rfl, by decide⟩, by decide⟩
  have run := reaches_of_checked checkedOwned owned_of_checked _ taken
  exact ⟨st, run, closed, handed, (package_ownership run).2.2.2.2 0 closed⟩

/-- PUB for a channel of node 2 at node 1: package and data are gone, the cell is never freed. -/
theorem package_cell_lost :
    ∃ st : Published, Run publishStep Published.start st ∧ Closed st.system 0 ∧
      (st.system.packages 0).cell = 0 ∧ (st.system.packages 0).package = 1 ∧
      (st.system.packages 0).data = 1 := by
  obtain ⟨st, taken, rest⟩ : ∃ st : Published,
      [Command.pub 1 2 [], .found 0 []].foldlM publishStep Published.start = some st ∧
      Closed st.system 0 ∧ (st.system.packages 0).cell = 0 ∧
      (st.system.packages 0).package = 1 ∧ (st.system.packages 0).data = 1 :=
    ⟨_, rfl, ⟨by decide, rfl, rfl⟩, rfl, rfl, rfl⟩
  exact ⟨st, run_of_list _ taken, rest⟩

end Skynet.Multicast
