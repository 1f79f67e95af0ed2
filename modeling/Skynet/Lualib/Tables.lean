import Mathlib.Data.List.Nodup
import Skynet.Base.Table
import Skynet.Lualib.Service

/-! How the tables that are kept about coroutines agree with where the coroutines stand: the
sessions that are waited for, the calls that are watched, and those that sleep. -/
namespace Skynet.Lualib
open Base List Function Option

/-- A session is filed under the coroutine that waits for it, but for one that is loose. -/
structure Entries (table : Session → Option Entry) (place : Coroutine → Place)
    (loose : Option Coroutine) : Prop where
  filed : ∀ session co, table session = some (.co co) ↔
    some co ≠ loose ∧ (place co).session = some session
  unique : ∀ co co' session, (place co).session = some session →
    (place co').session = some session → co = co'

namespace Entries
variable {table : Session → Option Entry} {place : Coroutine → Place} {co : Coroutine}
  {session : Session} {entry : Option Entry} {p : Place}

theorem loosen (h : Entries table place none) (waits : (place co).session = some session)
    (other : ∀ c, entry ≠ some (.co c)) :
    Entries (update table session entry) place (some co) := by
  refine ⟨fun key c => ?_, h.unique⟩
  rw [update_iff, h.filed key c]
  constructor
  · rintro (⟨-, same⟩ | ⟨elsewhere, -, same⟩)
    · exact absurd same (other c)
    · refine ⟨?_, same⟩
      intro equal
      cases equal
      exact elsewhere (some.inj (same.symm.trans waits))
  · rintro ⟨different, same⟩
    refine .inr ⟨?_, nofun, same⟩
    rintro rfl
    exact different (congrArg some (h.unique c co key same waits))

theorem unkeyed (h : Entries table place none) (free : (place co).session = none) :
    Entries table place (some co) := by
  refine ⟨fun key c => ?_, h.unique⟩
  rw [h.filed key c]
  constructor
  · rintro ⟨-, same⟩
    refine ⟨?_, same⟩
    intro equal
    cases equal
    rw [free] at same
    cases same
  · rintro ⟨-, same⟩
    exact ⟨nofun, same⟩

section
variable (h : Entries table place (some co))
include h

theorem clear (waits : (place co).session = some session) :
    Entries (update table session none) place (some co) := by
  refine ⟨fun key c => ?_, h.unique⟩
  rw [update_ne_iff (by nofun), h.filed key c, and_iff_right_iff_imp]
  rintro ⟨different, same⟩ rfl
  exact different (congrArg some (h.unique c co key same waits))

theorem move (free : p.session = none) : Entries table (update place co p) none := by
  have moved : ∀ {c key}, (update place co p c).session = some key ↔
      c ≠ co ∧ (place c).session = some key := by
    simp [field_update_iff Place.session, free]
  constructor
  · intro key c
    rw [h.filed key c, moved]
    simp
  · intro c c' key first second
    exact h.unique c c' key (moved.mp first).2 (moved.mp second).2

theorem file (fresh : table session = none) (waits : p.session = some session) :
    Entries (update table session (some (.co co))) (update place co p) none := by
  have others : ∀ c, c ≠ co → (place c).session ≠ some session := by
    intro c different same
    have filed := (h.filed session c).mpr ⟨fun equal => different (some.inj equal), same⟩
    rw [fresh] at filed
    cases filed
  have moved : ∀ {c key}, (update place co p c).session = some key ↔
      c = co ∧ session = key ∨ c ≠ co ∧ (place c).session = some key := by
    simp [field_update_iff Place.session, waits]
  constructor
  · intro key c
    rw [update_iff, h.filed key c, moved]
    constructor
    · rintro (⟨rfl, same⟩ | ⟨-, away, old⟩)
      · cases same
        exact ⟨nofun, .inl ⟨rfl, rfl⟩⟩
      · exact ⟨nofun, .inr ⟨fun same => away (same ▸ rfl), old⟩⟩
    · rintro ⟨-, ⟨rfl, rfl⟩ | ⟨away, old⟩⟩
      · exact .inl ⟨rfl, rfl⟩
      · refine .inr ⟨?_, fun same => away (some.inj same), old⟩
        rintro rfl
        exact others c away old
  · intro c c' key first second
    rcases moved.mp first with ⟨rfl, rfl⟩ | ⟨away, old⟩
    · rcases moved.mp second with ⟨rfl, -⟩ | ⟨away, old⟩
      · rfl
      · exact absurd old (others c' away)
    · rcases moved.mp second with ⟨rfl, rfl⟩ | ⟨-, old'⟩
      · exact absurd old (others c away)
      · exact h.unique c c' key old old'

end

end Entries

variable {p : Place} {session : Session} {sleeping : Coroutine → Option Session}
  {place : Coroutine → Place}

theorem Place.calls_eq_none (free : p.session = none) : p.calls = none := by
  cases p with
  | timeout _ | call _ | sleep _ | wait _ => cases free
  | pooled | spoiled | created | running | parked | dead => rfl

theorem Place.sleeps_eq_none (free : p.session = none) : p.sleeps = none := by
  cases p with
  | timeout _ | call _ | sleep _ | wait _ => cases free
  | pooled | spoiled | created | running | parked | dead => rfl

theorem Place.session_of_calls (calls : p.calls = some session) :
    p.session = some session := by
  cases p with
  | call _ => exact calls
  | timeout _ | sleep _ | wait _ | pooled | spoiled | created | running | parked | dead =>
    cases calls

theorem Place.session_of_sleeps (sleeps : p.sleeps = some session) : p.session = some session := by
  cases p with
  | sleep _ | wait _ => exact sleeps
  | timeout _ | call _ | pooled | spoiled | created | running | parked | dead => cases sleeps

theorem Place.sleeps_of_calls (calls : p.calls = some session) :
    p.sleeps = none := by
  cases p with
  | call _ => rfl
  | timeout _ | sleep _ | wait _ | pooled | spoiled | created | running | parked | dead =>
    cases calls

theorem Place.calls_of_sleeps (sleeps : p.sleeps = some session) : p.calls = none := by
  cases p with
  | sleep _ | wait _ => rfl
  | timeout _ | call _ | pooled | spoiled | created | running | parked | dead => cases sleeps

section Watched
variable {watching : List (Session × Target)} {place : Coroutine → Place} {co : Coroutine}
  {session : Session} {p : Place}

/-- A session is watched while a coroutine is in the call that it belongs to. -/
structure Watched (watching : List (Session × Target)) (place : Coroutine → Place) : Prop where
  watched : ∀ session, session ∈ watching.map Prod.fst ↔ ∃ co, (place co).calls = some session
  distinct : (watching.map Prod.fst).Nodup

theorem mem_filter_keys {other : Session} :
    other ∈ (watching.filter (·.1 ≠ session)).map Prod.fst ↔
      other ≠ session ∧ other ∈ watching.map Prod.fst := by
  simp only [List.mem_map, mem_filter, decide_eq_true_eq]
  constructor
  · rintro ⟨entry, ⟨member, different⟩, rfl⟩
    exact ⟨different, entry, member, rfl⟩
  · rintro ⟨different, entry, member, rfl⟩
    exact ⟨entry, ⟨member, different⟩, rfl⟩

theorem filter_keys_nodup (distinct : (watching.map Prod.fst).Nodup) :
    ((watching.filter (·.1 ≠ session)).map Prod.fst).Nodup :=
  distinct.sublist (filter_sublist.map Prod.fst)

section
variable (h : Watched watching place)
include h

theorem Watched.still (same : (place co).calls = p.calls) :
    Watched watching (update place co p) := by
  refine ⟨fun session => ?_, h.distinct⟩
  rw [h.watched session]
  apply exists_congr
  intro c
  rw [update_same Place.calls same.symm]

theorem Watched.answer (called : (place co).calls = some session) (free : p.calls = none)
    (unique : ∀ c, (place c).calls = some session → c = co) :
    Watched (watching.filter (·.1 ≠ session)) (update place co p) := by
  refine ⟨fun other => ?_, filter_keys_nodup h.distinct⟩
  have moved : ∀ c, (update place co p c).calls = some other ↔
      c ≠ co ∧ (place c).calls = some other := by
    simp [field_update_iff Place.calls, free]
  rw [mem_filter_keys, h.watched other]
  constructor
  · rintro ⟨different, c, calls⟩
    refine ⟨c, (moved c).mpr ⟨?_, calls⟩⟩
    rintro rfl
    exact different (some.inj (calls.symm.trans called))
  · rintro ⟨c, calls⟩
    obtain ⟨elsewhere, calls⟩ := (moved c).mp calls
    refine ⟨?_, c, calls⟩
    rintro rfl
    exact elsewhere (unique c calls)

theorem Watched.call (free : (place co).calls = none) (target : Target) :
    Watched (watching.filter (·.1 ≠ session) ++ [(session, target)])
      (update place co (.call session)) := by
  constructor
  · intro other
    rw [map_append, mem_append, mem_filter_keys, h.watched other]
    constructor
    · rintro (⟨different, c, calls⟩ | here)
      · refine ⟨c, (field_update_iff Place.calls).mpr (.inr ⟨?_, calls⟩)⟩
        rintro rfl
        rw [free] at calls
        cases calls
      · cases mem_singleton.mp here
        exact ⟨co, by rw [update_self]; rfl⟩
    · rintro ⟨c, calls⟩
      rcases (field_update_iff Place.calls).mp calls with ⟨-, same⟩ | ⟨-, calls⟩
      · exact .inr (mem_singleton.mpr (some.inj same).symm)
      · by_cases same : other = session
        · exact .inr (mem_singleton.mpr same)
        · exact .inl ⟨same, c, calls⟩
  · rw [map_append]
    refine (filter_keys_nodup h.distinct).append (nodup_singleton session) ?_
    intro other member single
    cases mem_singleton.mp single
    exact (mem_filter_keys.mp member).1 rfl

end

end Watched

theorem asleep_update (asleep : ∀ co, sleeping co = (place co).sleeps) (co : Coroutine) (p : Place)
    (c : Coroutine) :
    update sleeping co p.sleeps c = (update place co p c).sleeps := by
  by_cases here : c = co
  · subst here
    rw [update_self, update_self]
  · rw [update_of_ne here, update_of_ne here, asleep]

theorem asleep_still (asleep : ∀ co, sleeping co = (place co).sleeps) {co : Coroutine}
    (same : (place co).sleeps = p.sleeps) (c : Coroutine) :
    sleeping c = (update place co p c).sleeps := by
  rw [update_same Place.sleeps same.symm]
  exact asleep c

end Skynet.Lualib
