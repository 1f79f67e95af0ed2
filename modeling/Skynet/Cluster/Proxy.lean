import Skynet.Base.Run

/-! The proxies of clusterd.lua. A command looks its proxy up under a joined name and stores it
after skynet.newservice, in which other commands are taken. -/
namespace Skynet.Cluster
open Base List

structure Remote where
  node : String
  name : String
  deriving DecidableEq

def Remote.fullname (r : Remote) : String := r.node ++ "." ++ r.name

/- A clusterproxy is known by its place among those launched. `launching` has the commands inside
skynet.newservice, `replies` the commands with the proxies they returned. -/
structure Proxies where
  proxy : String → Option Nat
  launched : List Remote
  launching : List Remote
  replies : List (Remote × Nat)

def noProxies : Proxies := ⟨fun _ => none, [], [], []⟩

/- The commands in newservice may be answered, or fail, in any order. -/
inductive ProxyAction where
  | command (r : Remote)
  | launched (r : Remote)
  | failed (r : Remote)

def Proxies.command (s : Proxies) (r : Remote) : Proxies :=
  match s.proxy r.fullname with
  | some addr => { s with replies := s.replies ++ [(r, addr)] }
  | none => { s with launching := r :: s.launching }

def Proxies.store (s : Proxies) (r : Remote) : Proxies where
  proxy := Function.update s.proxy r.fullname (some s.launched.length)
  launched := s.launched ++ [r]
  launching := s.launching.erase r
  replies := s.replies ++ [(r, s.launched.length)]

def Proxies.step (s : Proxies) : ProxyAction → Option Proxies
  | .command r => some (s.command r)
  | .launched r => if r ∈ s.launching then some (s.store r) else none
  | .failed r =>
    if r ∈ s.launching then some { s with launching := s.launching.erase r } else none

/-- No command comes while a proxy of the same full name is being launched, and none after a
proxy of this full name was launched for another node or name. -/
def Separate (s : Proxies) : ProxyAction → Prop
  | .command r => (∀ other ∈ s.launching, other.fullname ≠ r.fullname) ∧
      ∀ other ∈ s.launched, other.fullname = r.fullname → other = r
  | .launched _ | .failed _ => True

instance (s : Proxies) : (a : ProxyAction) → Decidable (Separate s a)
  | .command _ => instDecidableAnd
  | .launched _ | .failed _ => .isTrue trivial

structure Proxies.Sound (s : Proxies) : Prop where
  cached : ∀ {full addr}, s.proxy full = some addr →
    ∃ r, s.launched[addr]? = some r ∧ r.fullname = full
  known : ∀ r ∈ s.launched, s.proxy r.fullname ≠ none
  missing : ∀ r ∈ s.launching, s.proxy r.fullname = none
  apart : (s.launching.map Remote.fullname).Nodup
  replied : ∀ p ∈ s.replies, s.launched[p.2]? = some p.1
  once : s.launched.Nodup

variable {s : Proxies} {r : Remote}

theorem Proxies.Sound.command (sound : s.Sound) (separate : Separate s (.command r)) :
    (s.command r).Sound := by
  obtain ⟨alone, same⟩ := separate
  dsimp only [Proxies.command]
  split
  next addr found =>
    obtain ⟨other, there, named⟩ := sound.cached found
    cases same other (mem_of_getElem? there) named
    refine { sound with replied := ?_ }
    intro p member
    rcases mem_append.mp member with old | new
    · exact sound.replied p old
    · cases mem_singleton.mp new
      exact there
  next found =>
    refine { sound with missing := forall_mem_cons.mpr ⟨found, sound.missing⟩, apart := ?_ }
    refine nodup_cons.mpr ⟨?_, sound.apart⟩
    intro member
    obtain ⟨other, there, named⟩ := mem_map.mp member
    exact alone other there named

/- The full name of the proxy stored was free, so the name was launched for nobody. -/
theorem Proxies.Sound.store (sound : s.Sound) (member : r ∈ s.launching) : (s.store r).Sound := by
  have free := sound.missing r member
  have kept : ∀ {addr : Nat} {other}, s.launched[addr]? = some other →
      (s.launched ++ [r])[addr]? = some other := by
    intro addr other there
    rw [List.getElem?_append_left (List.getElem?_eq_some_iff.mp there).1, there]
  have fresh : r ∉ s.launched := fun there => sound.known r there free
  dsimp only [Proxies.store]
  refine ⟨?_, ?_, ?_, sound.apart.sublist (erase_sublist.map _), ?_, ?_⟩
  · intro full addr found
    grind [sound.cached]
  · intro other there
    grind [sound.known]
  · intro other there
    obtain ⟨different, old⟩ := (sound.apart.of_map _).mem_erase_iff.mp there
    have away : other.fullname ≠ r.fullname :=
      fun same => different (inj_on_of_nodup_map sound.apart old member same)
    exact (Function.update_of_ne away ..).trans (sound.missing other old)
  · intro p there
    grind [sound.replied]
  · simpa using sound.once.concat fresh

theorem Proxies.Sound.step {a : ProxyAction} {s' : Proxies} (sound : s.Sound)
    (separate : Separate s a) (taken : s.step a = some s') : s'.Sound := by
  cases a with
  | command r =>
    cases taken
    exact sound.command separate
  | launched r =>
    obtain ⟨member, made⟩ := Option.ite_none_right_eq_some.mp taken
    cases made
    exact sound.store member
  | failed r =>
    obtain ⟨-, made⟩ := Option.ite_none_right_eq_some.mp taken
    cases made
    refine { sound with missing := ?_, apart := ?_ }
    · exact fun other there => sound.missing other (mem_of_mem_erase there)
    · exact sound.apart.sublist (erase_sublist.map _)

/- Two commands of one node and name that overlap, and two pairs with one joined name. -/
end Skynet.Cluster
