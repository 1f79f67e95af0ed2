import Skynet.Harbor.Destinations

/-! The order in which the messages of one service to another reach the link. -/
namespace Skynet.HarborService
open Base List

/-- The messages from one service to another, in the order in which they became addressable. -/
def World.tagsFor (w : World) (source handle : UInt32) : List Nat :=
  (w.known.filter fun a => a.source = source ∧ a.handle = handle).map Addressed.tag

/-- Those of them that are in a list. -/
def tagsIn (tags : List Nat) (ms : List HarborMsg) : List Nat :=
  (ms.map fun m => m.buffer.tag).filter (· ∈ tags)

/-- No message that waits for a name is written past one of the same service to the same
handle, which is queued until the handshake is over. -/
def Patient (w : World) : Incoming → Prop
  | .named name handle => (w.harbor.s (harborOf handle)).status = .handshake →
    ∀ m ∈ waiting w.harbor name, ∀ q ∈ queued w.harbor (harborOf handle),
      q.buffer.tag ∉ w.tagsFor m.header.source handle
  | _ => True

section Lists

theorem tagsIn_append (tags : List Nat) (ms more : List HarborMsg) :
    tagsIn tags (ms ++ more) = tagsIn tags ms ++ tagsIn tags more := by
  rw [tagsIn, map_append, filter_append]
  rfl

variable {ms : List HarborMsg} {tags : List Nat}

theorem tagsIn_sublist (tags : List Nat) {more : List HarborMsg} (sub : ms.Sublist more) :
    (tagsIn tags ms).Sublist (tagsIn tags more) :=
  (sub.map _).filter _

theorem tagsIn_congr {tags' : List Nat}
    (same : ∀ m ∈ ms, m.buffer.tag ∈ tags ↔ m.buffer.tag ∈ tags') :
    tagsIn tags ms = tagsIn tags' ms := by
  apply filter_congr
  intro tag member
  obtain ⟨m, listed, rfl⟩ := mem_map.mp member
  exact decide_eq_decide.mpr (same m listed)

theorem tagsIn_nil (none : ∀ m ∈ ms, m.buffer.tag ∉ tags) : tagsIn tags ms = [] := by
  apply filter_eq_nil_iff.mpr
  intro tag member
  obtain ⟨m, listed, rfl⟩ := mem_map.mp member
  rw [decide_eq_true_eq]
  exact none m listed

end Lists

/- The messages that are added come last, unless they overtake others. -/
theorem LinkStep.ordered {overtakes : Prop} {fresh W Q W' Q' : List HarborMsg} {old new : List Nat}
    (step : LinkStep overtakes fresh W Q W' Q')
    (before : (tagsIn (old ++ new) (W ++ Q)).Sublist old) (added : tagsIn (old ++ new) fresh = new)
    (apart : overtakes → new ≠ [] → tagsIn (old ++ new) Q = []) :
    (tagsIn (old ++ new) (W' ++ Q')).Sublist (old ++ new) := by
  have shrunk : (W' ++ Q').Sublist (W ++ Q) →
      (tagsIn (old ++ new) (W' ++ Q')).Sublist (old ++ new) := fun sub =>
    (tagsIn_sublist _ sub).trans (before.trans (sublist_append_left old new))
  have grown : (W' ++ Q').Sublist (W ++ Q ++ fresh) →
      (tagsIn (old ++ new) (W' ++ Q')).Sublist (old ++ new) := by
    intro sub
    refine (tagsIn_sublist _ sub).trans ?_
    rw [tagsIn_append, added]
    exact before.append (List.Sublist.refl new)
  cases step with
  | lost => exact shrunk (List.Sublist.refl _)
  | dropped =>
    apply shrunk
    rw [append_nil]
    exact sublist_append_left W Q
  | flushed none =>
    apply shrunk
    rw [append_nil]
    exact (List.Sublist.refl W).append filter_sublist
  | queued =>
    apply grown
    rw [append_assoc]
  | direct order =>
    have accepted : (W ++ fresh.filter (Accepted ·)).Sublist (W ++ fresh) :=
      (List.Sublist.refl W).append filter_sublist
    rcases order with empty | overtaking
    · apply grown
      rw [empty, append_nil, append_nil]
      exact accepted
    · have sub : (tagsIn (old ++ new) (fresh.filter (Accepted ·))).Sublist new := by
        have all := tagsIn_sublist (old ++ new)
          (filter_sublist : (fresh.filter (Accepted ·)).Sublist fresh)
        rwa [added] at all
      by_cases none : new = []
      · rw [none, sublist_nil] at sub
        rw [none] at before ⊢
        rw [tagsIn_append, tagsIn_append, sub, append_nil, ← tagsIn_append]
        exact before.trans (sublist_append_left old [])
      · rw [tagsIn_append, apart overtaking none, append_nil, tagsIn_append]
        exact ((tagsIn_sublist _ (sublist_append_left W Q)).trans before).append sub

/- On a link and before it, the messages keep their order. -/
def Ordered (w : World) : Prop :=
  ∀ source handle, (tagsIn (w.tagsFor source handle)
    (written (harborOf handle) w.harbor.log ++ queued w.harbor (harborOf handle))).Sublist
      (w.tagsFor source handle)

section Step
variable {w : World} {e : Incoming} (alive : Nat → UInt32 → Bool) (heap : Nat → UInt8)

/-- The messages between these services that become addressable. -/
def newTags (w : World) (e : Incoming) (source handle : UInt32) : List Nat :=
  ((addresses w.harbor (stamp w.count e)).filter
    fun a => a.source = source ∧ a.handle = handle).map Addressed.tag

theorem tagsFor_after (w : World) (e : Incoming) (source handle : UInt32) :
    (w.after alive heap e).tagsFor source handle =
      w.tagsFor source handle ++ newTags w e source handle := by
  rw [World.tagsFor, World.after, filter_append, map_append]
  rfl

variable {source handle : UInt32} {tag id : Nat} {fresh : List HarborMsg}

theorem newTags_mem (member : tag ∈ newTags w e source handle) :
    ∃ a ∈ addresses w.harbor (stamp w.count e), a.source = source ∧ a.handle = handle ∧
      a.tag = tag := by
  obtain ⟨a, filtered, same⟩ := mem_map.mp member
  obtain ⟨new, both⟩ := mem_filter.mp filtered
  have both := of_decide_eq_true both
  exact ⟨a, new, both.1, both.2, same⟩

theorem tagsFor_known (member : tag ∈ w.tagsFor source handle) :
    ∃ a ∈ w.known, a.tag = tag := by
  obtain ⟨a, filtered, same⟩ := mem_map.mp member
  exact ⟨a, (mem_filter.mp filtered).1, same⟩

/- What was on the link or before it belongs to the same services as before. -/
theorem old_tags (tracked : Tracked w) {i : Nat} {ms : List HarborMsg} (source handle : UInt32)
    (old : ∀ m ∈ ms, m ∈ written i w.harbor.log ++ queued w.harbor i) :
    tagsIn (w.tagsFor source handle ++ newTags w e source handle) ms =
      tagsIn (w.tagsFor source handle) ms := by
  apply tagsIn_congr
  intro m member
  rw [mem_append]
  refine ⟨fun either => either.resolve_right fun new => ?_, .inl⟩
  obtain ⟨a, news, -, -, tag⟩ := newTags_mem new
  obtain ⟨b, placed, tag'⟩ := tracked.placed i m (old m member)
  exact (tracked.news news).2 b placed (tag'.trans tag.symm)

/- What is added to the link belongs to the services that it became addressable for. -/
theorem fresh_tags (tracked : Tracked w) (source handle : UInt32)
    (carries : Carries (addresses w.harbor (stamp w.count e)) id fresh) :
    tagsIn (w.tagsFor source handle ++ newTags w e source handle) fresh =
      newTags w e source handle := by
  have tags : fresh.map (fun m => m.buffer.tag) =
      (addresses w.harbor (stamp w.count e)).map Addressed.tag := by
    have firsts := congrArg (List.map Prod.fst) carries.same
    rwa [map_map, map_map] at firsts
  rw [tagsIn, tags, filter_map, newTags]
  congr 1
  apply filter_congr
  intro a new
  apply decide_eq_decide.mpr
  rw [mem_append]
  constructor
  · rintro (old | news)
    · obtain ⟨b, known, tag⟩ := tagsFor_known old
      exact absurd tag ((tracked.news new).2 b known)
    · obtain ⟨b, new', source', handle', tag⟩ := newTags_mem news
      rw [tracked.distinct new new' tag.symm]
      exact ⟨source', handle'⟩
  · intro both
    exact .inr (mem_map.mpr ⟨a, mem_filter.mpr ⟨new, decide_eq_true both⟩, rfl⟩)

/- A queue that is overtaken has nothing of the services that overtake. -/
theorem patient_queue (patient : Patient w e) (overtaking : Overtaking w.harbor (stamp w.count e))
    (carries : Carries (addresses w.harbor (stamp w.count e)) id fresh)
    (some' : newTags w e source handle ≠ []) :
    tagsIn (w.tagsFor source handle) (queued w.harbor id) = [] := by
  obtain ⟨tag, member⟩ := exists_mem_of_ne_nil _ some'
  obtain ⟨a, new, rfl, rfl, -⟩ := newTags_mem member
  rw [← carries.harbor a new]
  cases e with
  | data | closed | connect | toHandle | toName => exact overtaking.elim
  | named name handle =>
    obtain ⟨m, waits, rfl⟩ := addresses_named new
    exact tagsIn_nil (patient overtaking.2 m waits)

theorem ordered_step (tracked : Tracked w) (ordered : Ordered w) (patient : Patient w e)
    {w' : World} (taken : w.step alive heap e = some w') : Ordered w' := by
  obtain ⟨id, fresh, effective⟩ :=
    mainloop_effective alive heap tracked.links tracked.plain (stamp w.count e)
  cases taken
  intro source handle
  rw [tagsFor_after]
  have before : (tagsIn (w.tagsFor source handle ++ newTags w e source handle)
      (written (harborOf handle) w.harbor.log ++ queued w.harbor (harborOf handle))).Sublist
      (w.tagsFor source handle) := by
    rw [old_tags tracked source handle fun _ member => member]
    exact ordered source handle
  by_cases here : harborOf handle = id
  · subst here
    refine effective.touched.link.ordered before
      (fresh_tags tracked source handle effective.carries) fun overtaking some' => ?_
    rw [old_tags tracked source handle fun m member => mem_append_right _ member]
    exact patient_queue patient overtaking effective.carries some'
  · obtain ⟨log, queue⟩ := effective.touched.others _ here
    change (tagsIn _ (written _ (mainloop ..).log ++ queued (mainloop ..) _)).Sublist _
    rw [log, queue]
    exact before.trans (sublist_append_left ..)

end Step

/-- On each link the messages of one service to another follow the order in which they became
addressable. -/
theorem harbor_order {alive : Nat → UInt32 → Bool} {heap : Nat → UInt8} {number : Nat}
    {slave : UInt32} {w : World}
    (reached : Reaches (World.step alive heap) Patient (World.start number slave) w)
    (source handle : UInt32) :
    (tagsIn (w.tagsFor source handle) (written (harborOf handle) w.harbor.log)).Sublist
      (w.tagsFor source handle) := by
  have both := reached.invariant (fun w => Tracked w ∧ Ordered w)
    ⟨tracked_start number slave, fun _ _ => List.Sublist.refl _⟩
    fun w e w' held patient taken =>
      ⟨tracked_step alive heap held.1 taken, ordered_step alive heap held.1 held.2 patient taken⟩
  exact (tagsIn_sublist _ (sublist_append_left ..)).trans (both.2 source handle)

def handleSend : Incoming := .toHandle 0x01000005 0x02000009 10 4 ⟨0, [1]⟩

/- The link is ready before the name gets its handle. -/
theorem harbor_order_late :
    (tagsIn [1, 2] (written 2 (sample [.connect true 7 2, handleSend, nameSend,
      .named [120] 0x02000009]).harbor.log)).Sublist [1, 2] := by
  have reached : Reaches (World.step (fun _ _ => true) fun _ => 0) Patient
      (World.start 1 0x01000002)
      (sample [.connect true 7 2, handleSend, nameSend, .named [120] 0x02000009]) :=
    .next (a := Incoming.named [120] 0x02000009) (.next (a := nameSend) (.next (a := handleSend)
      (.next (a := Incoming.connect true 7 2) .start trivial rfl) trivial rfl) trivial rfl)
      nofun rfl
  exact harbor_order reached 0x01000005 0x02000009

/- The name gets its handle while the message to the handle waits for the handshake. -/
theorem harbor_order_overtaken : ∃ w, Run (World.step (fun _ _ => true) fun _ => 0)
    (World.start 1 0x01000002) w ∧ w.tagsFor 0x01000005 0x02000009 = [1, 2] ∧
      (written 2 w.harbor.log).map (fun m => m.buffer.tag) = [2, 1] := by
  refine ⟨_, run_of_list [.connect false 7 2, handleSend, nameSend, .named [120] 0x02000009,
    .data 7 [2]] rfl, rfl, ?_⟩
  obtain ⟨slaves, log⟩ := @named_written (sample [.connect false 7 2, handleSend, nameSend]).harbor
    [120] _ 0x02000009 rfl (by decide) (by decide)
  change (written 2 (Harbor.emit (pushSocketData _ _ 7 (nameCommand (sample
    [.connect false 7 2, handleSend, nameSend]).harbor [120] 0x02000009) [2]) .freed).log).map _ = _
  generalize nameCommand (sample [.connect false 7 2, handleSend, nameSend]).harbor [120]
    0x02000009 = h at slaves log
  have found : slaveOf h 7 = some 2 :=
    (slaveOf_congr (fun i => by rw [slaves]) 7).trans (by decide :
      slaveOf (sample [.connect false 7 2, handleSend, nameSend]).harbor 7 = some 2)
  have queue : queued h 2 = [⟨⟨0x01000005, 0x0a000009, 4⟩, ⟨1, [1]⟩⟩] := by
    rw [queued, slaves]
    rfl
  have log : written 2 h.log = [⟨⟨0x01000005, 0x0a000009, 4⟩, ⟨2, [1]⟩⟩] := log.trans rfl
  rw [written_quiet rfl, pushSocketData_found _ _ found, handshake_written, queue, log]
  · rfl
  · rw [slaves]
    decide
  · rw [slaves]
    rfl
  · rfl

end Skynet.HarborService
