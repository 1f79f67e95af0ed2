import Skynet.Harbor.World

/-! The handle that a message carries on a link. -/
namespace Skynet.HarborService
open Base List

/-- A name that messages wait for gets its handle only once there is a link to its harbor, or
if that is this one. -/
def LinkedName (w : World) : Incoming → Prop
  | .named name handle => waiting w.harbor name ≠ [] →
    (w.harbor.s (harborOf handle)).fd ≠ 0 ∨ harborOf handle = harborOf w.harbor.slave
  | _ => True

/- A message keeps the low bits of the handle that it became addressable with. -/
def Directed (w : World) : Prop :=
  ∀ i m, m ∈ written i w.harbor.log ++ queued w.harbor i → ∀ a ∈ w.known,
    a.tag = m.buffer.tag → m.header.destination &&& handleMask = a.handle &&& handleMask

section Step
variable (alive : Nat → UInt32 → Bool) (heap : Nat → UInt8)

theorem linked_merged {w : World} {e : Incoming} {fresh : List HarborMsg}
    (linked : LinkedName w e)
    (merged : ¬ Unlinked w.harbor (stamp w.count e) →
      Merged (addresses w.harbor (stamp w.count e)) fresh) :
    Merged (addresses w.harbor (stamp w.count e)) fresh := by
  cases e with
  | data | closed | connect | toHandle | toName => exact merged id
  | named name handle =>
    by_cases waits : waiting w.harbor name = []
    · intro m member a new
      obtain ⟨m', waits', -⟩ := addresses_named new
      rw [waits] at waits'
      cases waits'
    · refine merged fun unlinked => ?_
      exact (linked waits).elim (fun fd => fd unlinked.1) unlinked.2

theorem directed_step {w w' : World} {e : Incoming} (tracked : Tracked w) (directed : Directed w)
    (linked : LinkedName w e) (taken : w.step alive heap e = some w') : Directed w' := by
  obtain ⟨id, fresh, effective⟩ :=
    mainloop_effective alive heap tracked.links tracked.plain (stamp w.count e)
  have merged := linked_merged linked effective.merged
  cases taken
  intro i m member a known same
  rcases effective.touched.mem member with old | new
  · rcases mem_append.mp known with known | news
    · exact directed i m old a known same
    · obtain ⟨b, placed, tag⟩ := tracked.placed i m old
      exact absurd (tag.trans same.symm) ((tracked.news news).2 b placed)
  · rcases mem_append.mp known with known | news
    · obtain ⟨b, news, tag⟩ := effective.carries.tags new
      exact absurd (same.trans tag.symm) ((tracked.news news).2 a known)
    · exact merged m new a news

end Step

/-- Each message on a link carries the low bits of its handle, whether it was sent to the handle
or to a name. -/
theorem harbor_name_destinations {alive : Nat → UInt32 → Bool} {heap : Nat → UInt8} {number : Nat}
    {slave : UInt32} {w : World}
    (reached : Reaches (World.step alive heap) LinkedName (World.start number slave) w) {i : Nat}
    {m : HarborMsg} (onLink : m ∈ written i w.harbor.log) :
    (∃ a ∈ w.known, a.tag = m.buffer.tag) ∧ ∀ a ∈ w.known, a.tag = m.buffer.tag →
      m.header.destination &&& handleMask = a.handle &&& handleMask := by
  have both := reached.invariant (fun w => Tracked w ∧ Directed w)
    ⟨tracked_start number slave, nofun⟩ fun w e w' held linked taken =>
      ⟨tracked_step alive heap held.1 taken, directed_step alive heap held.1 held.2 linked taken⟩
  have member := mem_append_left (queued w.harbor i) onLink
  exact ⟨both.1.placed i m member, both.2 i m member⟩

/- What a new link gets at once. -/
theorem accept_written {h : Harbor} {fd : Int} {id : Nat} (nonzero : fd ≠ 0)
    (valid : 0 < id ∧ id < remoteMax) (free : (h.s id).fd = 0) :
    written id (connectCommand h true fd id).log =
      written id h.log ++ (queued h id).filter (Accepted ·) := by
  have start : ¬ (fd = 0 ∨ id = 0 ∨ id ≥ remoteMax) := by
    rintro (zero | zero | large)
    · exact nonzero zero
    · omega
    · omega
  unfold connectCommand
  rw [if_neg start, if_neg (not_not.mpr free), if_pos rfl, dispatchQueue_written]
  · rw [if_pos rfl, queued, setSlave_here, setSlave_log, written_quiet rfl, written_quiet rfl]
    rfl
  · rwa [setSlave_here]

/- What waits for a name is written when it gets its handle. -/
theorem named_written {h : Harbor} {name : Name} {queue : HarborMsgQueue} {handle : UInt32}
    (waits : (nodeOf h name).queue = some queue) (fd : (h.s (harborOf handle)).fd ≠ 0)
    (valid : ¬ (name.length = 0 ∨ name.length ≥ globalnameLength)) :
    (nameCommand h name handle).s = h.s ∧
      written (harborOf handle) (nameCommand h name handle).log =
        written (harborOf handle) h.log ++
          (queue.items.map (merge handle)).filter (Accepted ·) := by
  rw [nameCommand, if_neg valid, updateName_some waits, dispatchNameQueue_linked fd]
  refine ⟨rfl, ?_⟩
  rw [written_append, written_remotes, if_pos rfl]

def nameSend : Incoming := .toName 0x01000005 [120] 10 4 ⟨0, [1]⟩

def sample (es : List Incoming) : World :=
  es.foldl (World.after (fun _ _ => true) fun _ => 0) (World.start 1 0x01000002)

/- The link is there before the name. -/
theorem harbor_name_destinations_late :
    ∃ m ∈ written 2
        (sample [.connect true 7 2, nameSend, .named [120] 0x02000009]).harbor.log,
      m.header.destination &&& handleMask = 0x02000009 &&& handleMask := by
  have reached : Reaches (World.step (fun _ _ => true) fun _ => 0) LinkedName
      (World.start 1 0x01000002)
      (sample [.connect true 7 2, nameSend, .named [120] 0x02000009]) :=
    .next (a := Incoming.named [120] 0x02000009) (.next (a := nameSend)
      (.next (a := Incoming.connect true 7 2) .start trivial rfl) trivial rfl)
      (fun _ => .inl (by decide)) rfl
  have onLink : written 2 (sample [.connect true 7 2, nameSend,
      .named [120] 0x02000009]).harbor.log = [⟨⟨0x01000005, 0x0a000009, 4⟩, ⟨1, [1]⟩⟩] := by
    refine (@named_written (sample [.connect true 7 2, nameSend]).harbor [120] _ 0x02000009 rfl
      (by decide) (by decide)).2.trans ?_
    rfl
  refine ⟨_, onLink ▸ mem_singleton_self _, ?_⟩
  exact (harbor_name_destinations reached (onLink ▸ mem_singleton_self _)).2
    ⟨1, 0x01000005, 0x02000009⟩ (mem_singleton_self _) rfl

/- The name is there before the link, and its handle does not come with the message. -/
theorem harbor_name_destination_lost : ∃ w, Run (World.step (fun _ _ => true) fun _ => 0)
    (World.start 1 0x01000002) w ∧ w.known = [⟨0, 0x01000005, 0x02000009⟩] ∧
      written 2 w.harbor.log = [⟨⟨0x01000005, 0x0a000000, 4⟩, ⟨0, [1]⟩⟩] := by
  refine ⟨_, run_of_list [nameSend, .named [120] 0x02000009, .connect true 7 2] rfl, rfl, ?_⟩
  refine (accept_written (by decide) (by decide) rfl).trans ?_
  rfl

end Skynet.HarborService
