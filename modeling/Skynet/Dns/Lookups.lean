import Skynet.Base.Run

/-! The lookups of dns.lua, their transaction ids and the cache. -/
namespace Skynet.Dns
open Base Function Option

inductive QType where
  | A
  | AAAA
  deriving DecidableEq

abbrev Name := List UInt8
abbrev Cache := QType → Name → Option (List (List UInt8) × Nat)

structure Req where
  name : Name
  qtype : QType
  answers : Option (List (List UInt8))

structure Answer where
  atype : Option QType
  ttl : Nat
  ip : List UInt8

/-- A packet as the unpack functions read it. One that they cannot read changes nothing. -/
structure Packet where
  tid : Nat
  qdcount : Nat
  name : Name
  answers : List Answer

/-- `sent` has the headers of the queries, `woken` the ids of those that were woken. What the
collector drops from the weak cache is not modelled, nor that the counter wraps at 2^63. -/
structure State where
  cache : Cache
  nextTid : Nat
  requestPool : Nat → Option Req
  sent : List (List UInt8)
  woken : List Nat

def State.start : State := ⟨fun _ _ => none, 1, fun _ => none, [], []⟩

/- string.pack raises an error when the id does not fit. -/
def packHeader (tid : Nat) : Option (List UInt8) :=
  if tid < 2 ^ 16 then
    some [(tid / 256).toUInt8, tid.toUInt8, 1, 0, 0, 1, 0, 0, 0, 0, 0, 0]
  else none

def Packet.ofType (p : Packet) (t : QType) : List Answer := p.answers.filter (·.atype = some t)

def Packet.ttl (p : Packet) : Nat :=
  ((p.answers.filter (·.atype ≠ none)).map Answer.ttl).min?.getD 0

def Packet.store (p : Packet) (now : Nat) (cache : Cache) (t : QType) : Cache :=
  if p.ofType t = [] then cache
  else update cache t (update (cache t) p.name
    (some ((p.ofType t).map Answer.ip, now + p.ttl * 100)))

def State.resolve (s : State) (p : Packet) (now : Nat) : State :=
  if p.qdcount ≠ 1 then s
  else
    let cache := p.store now (p.store now s.cache .A) .AAAA
    match s.requestPool p.tid with
    | none => { s with cache }
    | some resp =>
      let answers := ((cache resp.qtype resp.name).map Prod.fst).or resp.answers
      { s with
        cache
        requestPool := update s.requestPool p.tid (some { resp with answers })
        woken := s.woken ++ [p.tid] }

inductive Action where
  | lookup (name : Name) (qtype : QType) (now : Nat) (served : Bool)
  | timeout (tid : Nat)
  | resume (tid : Nat)
  | packet (p : Packet) (now : Nat)

/-- A lookup is one of a name that verify_domain_name accepts; `served` tells whether
dns.server was called. A query leaves the pool at its timeout or when it goes on. -/
def step (s : State) : Action → Option State
  | .lookup name qtype now served =>
    if (s.cache qtype name).any (now < ·.2) then some s
    else
      match packHeader s.nextTid with
      | none => some { s with nextTid := s.nextTid + 1 }
      | some header =>
        if served then some { s with
          nextTid := s.nextTid + 1
          sent := s.sent ++ [header]
          requestPool := update s.requestPool s.nextTid (some ⟨name, qtype, none⟩) }
        else some { s with nextTid := s.nextTid + 1 }
  | .timeout tid => (s.requestPool tid).map fun _ =>
      { s with requestPool := update s.requestPool tid none, woken := s.woken ++ [tid] }
  | .resume tid =>
    if tid ∈ s.woken then some { s with requestPool := update s.requestPool tid none } else none
  | .packet p now => some (s.resolve p now)

variable {s s' : State} {a : Action}

theorem step_keeps (taken : step s a = some s') : s.nextTid ≤ s'.nextTid ∧
      ∀ tid, s'.requestPool tid ≠ none → s.requestPool tid ≠ none ∨ tid < s'.nextTid := by
  cases a with
  | lookup name qtype now served =>
    simp only [step] at taken
    split at taken
    · cases taken
      exact ⟨le_rfl, fun _ => .inl⟩
    · split at taken
      · cases taken
        exact ⟨Nat.le_succ _, fun _ => .inl⟩
      · split at taken
        · cases taken
          refine ⟨Nat.le_succ _, fun tid outstanding => ?_⟩
          by_cases same : tid = s.nextTid
          · exact .inr (same ▸ Nat.lt_succ_self tid)
          · exact .inl (by simpa [same] using outstanding)
        · cases taken
          exact ⟨Nat.le_succ _, fun _ => .inl⟩
  | timeout tid =>
    obtain ⟨_, -, rfl⟩ := map_eq_some_iff.mp taken
    refine ⟨le_rfl, fun other outstanding => .inl ?_⟩
    exact fun absent => outstanding (by simp [update_apply, absent])
  | resume tid =>
    obtain ⟨-, same⟩ := ite_none_right_eq_some.mp taken
    cases some.inj same
    refine ⟨le_rfl, fun other outstanding => .inl ?_⟩
    exact fun absent => outstanding (by simp [update_apply, absent])
  | packet p now =>
    cases some.inj taken
    rw [State.resolve]
    split
    · exact ⟨le_rfl, fun _ => .inl⟩
    · split
      · exact ⟨le_rfl, fun _ => .inl⟩
      · rename_i resp found
        refine ⟨le_rfl, fun other outstanding => .inl ?_⟩
        by_cases same : other = p.tid
        · simp [same, found]
        · simpa [same] using outstanding

theorem outstanding_given (reached : Run step .start s) (tid : Nat)
    (outstanding : s.requestPool tid ≠ none) : tid < s.nextTid := by
  induction reached with
  | start => exact absurd rfl outstanding
  | next _ _ taken ih =>
    obtain ⟨grows, kept⟩ := step_keeps taken
    rcases kept tid outstanding with old | new
    · exact (ih old).trans_le grows
    · exact new

/-- While the ids fit, a lookup that the cache does not answer sends its query, with an id of
16 bits that no outstanding query has. -/
theorem lookup_sends (reached : Run step .start s) (fits : s.nextTid < 2 ^ 16) (name : Name)
    (t : QType) (now : Nat) (stale : (s.cache t name).any (now < ·.2) = false) :
    ∃ header, packHeader s.nextTid = some header ∧ s.requestPool s.nextTid = none ∧
      step s (.lookup name t now true) = some { s with
        nextTid := s.nextTid + 1
        sent := s.sent ++ [header]
        requestPool := update s.requestPool s.nextTid (some ⟨name, t, none⟩) } := by
  have unused : s.requestPool s.nextTid = none := by
    by_contra outstanding
    exact (outstanding_given reached _ outstanding).false
  exact ⟨_, if_pos fits, unused, by simp only [step, stale, packHeader, if_pos fits]; rfl⟩

/-- The second of two lookups of one name, before the first is answered. -/
theorem lookup_sends_second : ∃ s header, Run step .start s ∧ s.nextTid = 2 ∧
    packHeader 2 = some header ∧ s.requestPool 2 = none := by
  have reached : Run step .start _ := run_of_list [.lookup [97] .A 0 true] rfl
  obtain ⟨header, packed, unused, -⟩ := lookup_sends reached (by decide) [97] .A 0 rfl
  exact ⟨_, header, reached, rfl, packed, unused⟩

theorem counts (n : Nat) : ∃ s, Run step .start s ∧ s.nextTid = n + 1 ∧
    s.cache = State.start.cache := by
  induction n with
  | zero => exact ⟨_, .start, rfl, rfl⟩
  | succ n ih =>
    obtain ⟨s, reached, count, empty⟩ := ih
    have taken : ∃ s', step s (.lookup [97] .A 0 true) = some s' ∧
        s'.nextTid = s.nextTid + 1 ∧ s'.cache = s.cache := by
      have stale : s.cache .A [97] = none := by rw [empty]; rfl
      simp only [step, stale]
      cases packHeader s.nextTid with
      | none => exact ⟨_, rfl, rfl, rfl⟩
      | some header => exact ⟨_, rfl, rfl, rfl⟩
    obtain ⟨s', taken, next, same⟩ := taken
    exact ⟨s', .next reached trivial taken, count ▸ next, same.trans empty⟩

/-- After 65535 lookups no name is asked for any more. -/
theorem lookup_unsent : ∃ s, Run step .start s ∧ s.nextTid = 2 ^ 16 ∧
    ∀ name qtype now, step s (.lookup name qtype now true) =
      some { s with nextTid := s.nextTid + 1 } := by
  obtain ⟨s, reached, count, empty⟩ := counts 65535
  refine ⟨s, reached, count, fun name qtype now => ?_⟩
  simp [step, empty, State.start, packHeader, count]

end Skynet.Dns
