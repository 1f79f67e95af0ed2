import Skynet.Harbor.Addressing

/-! Runs of the harbor. Each message that is sent gets a tag of its own, and the messages are
kept as they become addressable. -/
namespace Skynet.HarborService
open Base List

structure World where
  harbor : Harbor
  count : Nat
  known : List Addressed

def stamp (tag : Nat) : Incoming → Incoming
  | .toHandle source destination type session msg =>
    .toHandle source destination type session { msg with tag := tag }
  | .toName source name type session msg => .toName source name type session { msg with tag := tag }
  | .data fd buffer => .data fd buffer
  | .closed fd => .closed fd
  | .connect accept fd id => .connect accept fd id
  | .named name handle => .named name handle

def World.start (number : Nat) (slave : UInt32) : World := ⟨harborCreate number slave, 0, []⟩

def World.after (alive : Nat → UInt32 → Bool) (heap : Nat → UInt8) (w : World) (e : Incoming) :
    World where
  harbor := mainloop alive heap w.harbor (stamp w.count e)
  count := w.count + 1
  known := w.known ++ addresses w.harbor (stamp w.count e)

/-- No message is refused. -/
def World.step (alive : Nat → UInt32 → Bool) (heap : Nat → UInt8) (w : World) (e : Incoming) :
    Option World :=
  some (w.after alive heap e)

/-- What is on a link is known, and what waits for a name is not; a tag belongs to one message. -/
structure Tracked (w : World) : Prop where
  links : Links w.harbor
  plain : Plain w.harbor
  placed : ∀ i m, m ∈ written i w.harbor.log ++ queued w.harbor i →
    ∃ a ∈ w.known, a.tag = m.buffer.tag
  bound : ∀ a ∈ w.known, a.tag < w.count
  waits : ∀ name, ∀ m ∈ waiting w.harbor name,
    m.buffer.tag < w.count ∧ ∀ a ∈ w.known, a.tag ≠ m.buffer.tag
  single : ∀ name name' m m', m ∈ waiting w.harbor name → m' ∈ waiting w.harbor name' →
    m.buffer.tag = m'.buffer.tag → name = name' ∧ m = m'

theorem tracked_start (number : Nat) (slave : UInt32) : Tracked (World.start number slave) :=
  ⟨harborCreate_links number slave, nofun, nofun, nofun, nofun, nofun⟩

variable {overtakes : Prop} {fresh : List HarborMsg} {m : HarborMsg} {id : Nat}

theorem LinkStep.mem {W Q W' Q' : List HarborMsg} (step : LinkStep overtakes fresh W Q W' Q')
    (member : m ∈ W' ++ Q') :
    m ∈ W ++ Q ∨ m ∈ fresh := by
  rw [mem_append] at member ⊢
  cases step with
  | lost => exact .inl member
  | dropped => exact .inl (.inl (member.resolve_right not_mem_nil))
  | flushed none =>
    rcases mem_append.mp (member.resolve_right not_mem_nil) with old | flushed
    · exact .inl (.inl old)
    · exact .inl (.inr (mem_of_mem_filter flushed))
  | queued =>
    rcases member with old | new
    · exact .inl (.inl old)
    · exact (mem_append.mp new).imp .inr id
  | direct order =>
    rcases member with new | old
    · exact (mem_append.mp new).imp .inl mem_of_mem_filter
    · exact .inl (.inr old)

theorem Touched.mem {h h' : Harbor} {i : Nat} (touched : Touched h h' overtakes id fresh)
    (member : m ∈ written i h'.log ++ queued h' i) :
    m ∈ written i h.log ++ queued h i ∨ m ∈ fresh := by
  by_cases here : i = id
  · rw [here] at member ⊢
    exact touched.link.mem member
  · rw [(touched.others i here).1, (touched.others i here).2] at member
    exact .inl member

theorem Carries.tags {news : List Addressed} (carries : Carries news id fresh) (member : m ∈ fresh) :
    ∃ a ∈ news, a.tag = m.buffer.tag := by
  have pair : (m.buffer.tag, m.header.source) ∈ news.map fun a => (a.tag, a.source) := by
    rw [← carries.same]
    exact mem_map_of_mem member
  obtain ⟨a, new, same⟩ := mem_map.mp pair
  exact ⟨a, new, (Prod.mk.inj same).1⟩

section Step
variable {w : World} {e : Incoming} {h : Harbor} {name : Name} {a : Addressed} {count : Nat}

theorem addresses_named {handle : UInt32} (new : a ∈ addresses h (.named name handle)) :
    ∃ m ∈ waiting h name, a = ⟨m.buffer.tag, m.header.source, handle⟩ := by
  rw [addresses] at new
  split at new
  · cases new
  · obtain ⟨m, waits, rfl⟩ := mem_map.mp new
    exact ⟨m, waits, rfl⟩

/- A message that becomes addressable is the one that is sent, or has waited for the name. -/
theorem addresses_stamp (new : a ∈ addresses h (stamp count e)) :
    addresses h (stamp count e) = [a] ∧ a.tag = count ∧
        (∀ name handle, stamp count e ≠ .named name handle) ∨
      ∃ name handle, stamp count e = .named name handle := by
  cases e with
  | data | closed | connect => cases new
  | named name handle => exact .inr ⟨name, handle, rfl⟩
  | toHandle source destination type session msg =>
    left
    rw [stamp, addresses] at new ⊢
    split at new
    · cases new
    next nonzero =>
      rw [mem_singleton.mp new, if_neg nonzero]
      exact ⟨rfl, rfl, nofun⟩
  | toName source name type session msg =>
    left
    rw [stamp, addresses] at new ⊢
    split at new
    · cases new
    next known =>
      rw [mem_singleton.mp new, if_neg known]
      exact ⟨rfl, rfl, nofun⟩

theorem Tracked.news (tracked : Tracked w) (new : a ∈ addresses w.harbor (stamp w.count e)) :
    a.tag < w.count + 1 ∧ ∀ b ∈ w.known, b.tag ≠ a.tag := by
  rcases addresses_stamp new with ⟨-, tag, -⟩ | ⟨name, handle, named⟩
  · rw [tag]
    exact ⟨Nat.lt_succ_self _, fun b known => Nat.ne_of_lt (tracked.bound b known)⟩
  · rw [named] at new
    obtain ⟨m, waits, rfl⟩ := addresses_named new
    obtain ⟨bound, unknown⟩ := tracked.waits name m waits
    exact ⟨Nat.lt_succ_of_lt bound, unknown⟩

theorem Tracked.distinct (tracked : Tracked w) {b : Addressed}
    (first : a ∈ addresses w.harbor (stamp w.count e))
    (second : b ∈ addresses w.harbor (stamp w.count e)) (same : a.tag = b.tag) : a = b := by
  rcases addresses_stamp first with ⟨only, -⟩ | ⟨name, handle, named⟩
  · rw [only] at second
    exact (mem_singleton.mp second).symm
  · rw [named] at first second
    obtain ⟨m, waits, rfl⟩ := addresses_named first
    obtain ⟨m', waits', rfl⟩ := addresses_named second
    rw [(tracked.single name name m m' waits waits' same).2]

theorem stamp_toName {source type session : UInt32} {msg : Message}
    (sent : stamp count e = .toName source name type session msg) : msg.tag = count := by
  cases e with
  | data | closed | connect | named | toHandle => cases sent
  | toName =>
    cases sent
    rfl

variable (alive : Nat → UInt32 → Bool) (heap : Nat → UInt8)

/-- A message that waits after a step has waited before, or is the one that is sent. -/
inductive Waits (w : World) (e : Incoming) (name : Name) (m : HarborMsg) : Prop
  | old (waits : m ∈ waiting w.harbor name)
      (other : ∀ handle, stamp w.count e = .named name handle →
        addresses w.harbor (stamp w.count e) = [])
  | new (source type session : UInt32) (msg : Message) (tag : msg.tag = w.count)
      (sent : stamp w.count e = .toName source name type session msg)
      (none : addresses w.harbor (stamp w.count e) = [])
      (shown : m = ⟨⟨source, type <<< handleRemoteShift, session⟩, msg⟩)

theorem Tracked.waiting (tracked : Tracked w) {m : HarborMsg}
    (waits : m ∈ waiting (mainloop alive heap w.harbor (stamp w.count e)) name) :
    Waits w e name m := by
  rcases mainloop_waiting alive heap tracked.links _ waits with
    ⟨old, other⟩ | ⟨source, type, session, msg, sent, none, shown⟩
  · exact .old old other
  · exact .new source type session msg (stamp_toName sent) sent none shown

theorem tracked_step (tracked : Tracked w) {w' : World}
    (taken : w.step alive heap e = some w') : Tracked w' := by
  obtain ⟨id, fresh, effective⟩ :=
    mainloop_effective alive heap tracked.links tracked.plain (stamp w.count e)
  cases taken
  refine ⟨effective.touched.links, mainloop_plain alive heap tracked.links tracked.plain _,
    ?_, ?_, ?_, ?_⟩
  · intro i m member
    rcases effective.touched.mem member with old | new
    · obtain ⟨a, known, tag⟩ := tracked.placed i m old
      exact ⟨a, mem_append_left _ known, tag⟩
    · obtain ⟨a, news, tag⟩ := effective.carries.tags new
      exact ⟨a, mem_append_right _ news, tag⟩
  · intro a member
    rcases mem_append.mp member with known | news
    · exact Nat.lt_succ_of_lt (tracked.bound a known)
    · exact (tracked.news news).1
  · intro name m waits
    cases tracked.waiting alive heap waits with
    | old waits other =>
      obtain ⟨bound, unknown⟩ := tracked.waits name m waits
      refine ⟨Nat.lt_succ_of_lt bound, fun a member => ?_⟩
      rcases mem_append.mp member with known | news
      · exact unknown a known
      · intro same
        rcases addresses_stamp news with ⟨-, tag, -⟩ | ⟨name', handle, named⟩
        · omega
        · have none := other handle
          rw [named] at news none
          obtain ⟨m', waits', rfl⟩ := addresses_named news
          obtain ⟨rfl, -⟩ := tracked.single name' name m' m waits' waits same
          rw [none rfl] at news
          cases news
    | new source type session msg tag sent none shown =>
      have here : m.buffer.tag = w.count := by rw [shown, tag]
      rw [here]
      refine ⟨Nat.lt_succ_self _, fun a member => ?_⟩
      rw [World.after, none, append_nil] at member
      exact Nat.ne_of_lt (tracked.bound a member)
  · intro name name' m m' waits waits' same
    cases tracked.waiting alive heap waits with
    | old waits other =>
      have bound := (tracked.waits name m waits).1
      cases tracked.waiting alive heap waits' with
      | old waits' other' => exact tracked.single name name' m m' waits waits' same
      | new source type session msg tag sent none shown =>
        rw [same, shown, tag] at bound
        exact absurd bound (Nat.lt_irrefl _)
    | new source type session msg tag sent none shown =>
      cases tracked.waiting alive heap waits' with
      | old waits' other' =>
        have bound := (tracked.waits name' m' waits').1
        rw [← same, shown, tag] at bound
        exact absurd bound (Nat.lt_irrefl _)
      | new source' type' session' msg' tag' sent' none' shown' =>
        have both := sent.symm.trans sent'
        cases both
        exact ⟨rfl, shown.trans shown'.symm⟩

end Step

end Skynet.HarborService
