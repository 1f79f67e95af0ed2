import Skynet.Harbor.Bytes
import Skynet.Harbor.Links

/-! A message becomes addressable when its handle is known: when it is sent to a handle or to a
name that has one, or when the name it waits for gets one. A run keeps the messages in the
order in which they became so. -/
namespace Skynet.HarborService
open Base List Function

structure Addressed where
  tag : Nat
  source : UInt32
  handle : UInt32
  deriving DecidableEq, Repr

def nodeOf (h : Harbor) (name : Name) : KeyValue := (h.map name).getD ⟨0, none⟩

/-- The messages that become addressable. -/
def addresses (h : Harbor) : Incoming → List Addressed
  | .toHandle source destination _ _ msg =>
    if destination = 0 then [] else [⟨msg.tag, source, destination⟩]
  | .toName source name _ _ msg =>
    if (nodeOf h name).value = 0 then [] else [⟨msg.tag, source, (nodeOf h name).value⟩]
  | .named name handle =>
    if name.length = 0 ∨ name.length ≥ globalnameLength then []
    else (waiting h name).map fun m => ⟨m.buffer.tag, m.header.source, handle⟩
  | .data _ _ | .closed _ | .connect _ _ _ => []

/-- A name gets its handle while the link there is in its handshake. -/
def Overtaking (h : Harbor) : Incoming → Prop
  | .named _ handle =>
    (h.s (harborOf handle)).fd ≠ 0 ∧ (h.s (harborOf handle)).status = .handshake
  | _ => False

/-- A name gets its handle while there is no link to its harbor, which is not this one. -/
def Unlinked (h : Harbor) : Incoming → Prop
  | .named _ handle => (h.s (harborOf handle)).fd = 0 ∧ harborOf handle ≠ harborOf h.slave
  | _ => False

/-- What is added to a link are the messages that become addressable. -/
structure Carries (news : List Addressed) (id : Nat) (fresh : List HarborMsg) : Prop where
  same : fresh.map (fun m => (m.buffer.tag, m.header.source)) = news.map fun a => (a.tag, a.source)
  harbor : ∀ a ∈ news, harborOf a.handle = id
  handle : ∀ a ∈ news, ∀ b ∈ news, a.handle = b.handle

def Merged (news : List Addressed) (fresh : List HarborMsg) : Prop :=
  ∀ m ∈ fresh, ∀ a ∈ news, m.header.destination &&& handleMask = a.handle &&& handleMask

/- The handle of a message that waits for a name is not yet there. -/
def Plain (h : Harbor) : Prop :=
  ∀ name, ∀ m ∈ waiting h name, m.header.destination &&& handleMask = 0

theorem carries_nothing (id : Nat) : Carries [] id [] := ⟨rfl, nofun, nofun⟩

theorem carries_one (source handle type session : UInt32) (msg : Message) :
    Carries [⟨msg.tag, source, handle⟩] (harborOf handle)
        [cookieOf source handle type session msg] ∧
      Merged [⟨msg.tag, source, handle⟩] [cookieOf source handle type session msg] := by
  refine ⟨⟨rfl, ?_, ?_⟩, ?_⟩
  · intro a member
    rw [mem_singleton.mp member]
  · intro a member b member'
    rw [mem_singleton.mp member, mem_singleton.mp member']
  · intro m member a member'
    rw [mem_singleton.mp member, mem_singleton.mp member']
    exact destination_handle handle type

theorem merge_handle {m : HarborMsg} (handle : UInt32)
    (plain : m.header.destination &&& handleMask = 0) :
    (merge handle m).header.destination &&& handleMask = handle &&& handleMask := by
  have parts : (m.header.destination ||| handle &&& handleMask) &&& handleMask =
      m.header.destination &&& handleMask ||| handle &&& handleMask &&& handleMask := by
    apply UInt32.toNat_inj.mp
    simp only [UInt32.toNat_and, UInt32.toNat_or, Nat.and_or_distrib_right]
  change (m.header.destination ||| handle &&& handleMask) &&& handleMask = _
  rw [parts, plain, UInt32.zero_or, UInt32.and_assoc, UInt32.and_self]

theorem waiting_node (h : Harbor) (name : Name) :
    waiting h name = (nodeOf h name).queue.elim [] HarborMsgQueue.items := by
  unfold waiting nodeOf
  cases h.map name with
  | none => rfl
  | some node => rfl

variable {h h' : Harbor} {overtakes : Prop} {id : Nat} {fresh : List HarborMsg} {name : Name}

theorem Touched.quiet (touched : Touched h h' overtakes id fresh) {e : Effect}
    (quiet : ∀ i, written i [e] = []) :
    Touched h (h'.emit e) overtakes id fresh := by
  refine ⟨⟨touched.links.connected, touched.links.flushed⟩, ?_, ?_⟩
  · intro i other
    rw [written_quiet (quiet i)]
    exact touched.others i other
  · rw [written_quiet (quiet id)]
    exact touched.link

theorem Touched.renamed (touched : Touched h h' overtakes id fresh) (map : Name → Option KeyValue) :
    Touched h { h' with map := map } overtakes id fresh :=
  ⟨⟨touched.links.connected, touched.links.flushed⟩, touched.others, touched.link⟩

/-- What a step does to the links, and with what. -/
structure Effective (h h' : Harbor) (e : Incoming) (id : Nat) (fresh : List HarborMsg) : Prop where
  touched : Touched h h' (Overtaking h e) id fresh
  carries : Carries (addresses h e) id fresh
  merged : ¬ Unlinked h e → Merged (addresses h e) fresh

theorem effective_nowhere {e : Incoming} (links : Links h) (slaves : h'.s = h.s)
    (quiet : ∀ i, written i h'.log = written i h.log) (none : addresses h e = []) :
    Effective h h' e 0 [] := by
  have still : Moved h { h' with map := h.map } (Overtaking h e) 0 [] :=
    moved_nowhere links 0 slaves rfl quiet
  refine ⟨still.renamed h'.map, ?_, fun _ => nofun⟩
  rw [none]
  exact carries_nothing 0

theorem updateName_none (queue : (nodeOf h name).queue = none) (handle : UInt32) :
    updateName h name handle =
      { h with map := update h.map name (some ⟨handle, none⟩) } := by
  unfold nodeOf at queue
  rw [updateName, queue]

theorem updateName_some {queue : HarborMsgQueue} (some' : (nodeOf h name).queue = some queue)
    (handle : UInt32) :
    updateName h name handle = { dispatchNameQueue h handle queue with
      map := update (dispatchNameQueue h handle queue).map name
        (some ⟨handle, none⟩) } := by
  unfold nodeOf at some'
  rw [updateName, some']

theorem updateName_effective (links : Links h) (plain : Plain h)
    (valid : ¬ (name.length = 0 ∨ name.length ≥ globalnameLength)) (handle : UInt32) :
    ∃ id fresh, Effective h (updateName h name handle) (.named name handle) id fresh := by
  have news : addresses h (.named name handle) =
      (waiting h name).map fun m => ⟨m.buffer.tag, m.header.source, handle⟩ := if_neg valid
  have items := waiting_node h name
  cases queue : (nodeOf h name).queue with
  | none =>
    rw [queue] at items
    refine ⟨0, [], ?_⟩
    rw [updateName_none queue]
    refine effective_nowhere links rfl (fun _ => rfl) ?_
    rw [news, items]
    rfl
  | some queue' =>
    rw [queue] at items
    rw [items] at news
    have may : (h.s (harborOf handle)).fd ≠ 0 → (h.s (harborOf handle)).status = .handshake →
        Overtaking h (.named name handle) := fun fd status => ⟨fd, status⟩
    obtain ⟨fresh, moved, which⟩ := dispatchNameQueue_moved links handle queue' may
    refine ⟨harborOf handle, fresh, ?_, ?_, ?_⟩
    · rw [updateName_some queue]
      exact moved.renamed _
    · rw [news]
      refine ⟨?_, ?_, ?_⟩
      · rcases which with rfl | ⟨rfl, -⟩
        · rw [map_map, map_map]
          rfl
        · rw [map_map]
          rfl
      · intro a member
        obtain ⟨m, -, rfl⟩ := mem_map.mp member
        rfl
      · intro a member b member'
        obtain ⟨m, -, rfl⟩ := mem_map.mp member
        obtain ⟨m', -, rfl⟩ := mem_map.mp member'
        rfl
    · intro linked m member a member'
      rw [news] at member'
      obtain ⟨m', -, rfl⟩ := mem_map.mp member'
      rcases which with rfl | ⟨-, unlinked⟩
      · obtain ⟨m₀, waits, rfl⟩ := mem_map.mp member
        exact merge_handle handle (plain name m₀ (items ▸ waits))
      · exact absurd unlinked linked

theorem remoteSendName_unknown (unknown : (nodeOf h name).value = 0) (source type session : UInt32)
    (msg : Message) :
    (remoteSendName h source name type session msg).1 =
      Harbor.emit { h with map := update h.map name (some ⟨0,
          some (pushQueue ((nodeOf h name).queue.getD newQueue) msg
            ⟨source, type <<< handleRemoteShift, session⟩)⟩) }
        (.send 0 h.slave ptypeText 0 (some ("Q ".toUTF8.toList ++ name))) :=
  congrArg Prod.fst (if_pos unknown)

theorem remoteSendName_known (known : (nodeOf h name).value ≠ 0) (source type session : UInt32)
    (msg : Message) :
    (remoteSendName h source name type session msg).1 =
      (remoteSendHandle { h with map := update h.map name (some (nodeOf h name)) }
        source (nodeOf h name).value type session msg).1 :=
  congrArg Prod.fst (if_neg known)

variable (alive : Nat → UInt32 → Bool) (heap : Nat → UInt8)

theorem mainloop_effective (links : Links h) (plain : Plain h) (e : Incoming) :
    ∃ id fresh, Effective h (mainloop alive heap h e) e id fresh := by
  cases e with
  | data fd buffer =>
    have received : ∃ id, Moved h (pushSocketData alive heap fd h buffer)
        (Overtaking h (.data fd buffer)) id [] := pushSocketData_moved alive heap links fd buffer
    obtain ⟨id, moved⟩ := received
    exact ⟨id, [], moved.quiet fun _ => rfl, carries_nothing id, fun _ => nofun⟩
  | closed fd =>
    refine ⟨0, [], ?_⟩
    rw [mainloop]
    split
    · exact effective_nowhere links rfl (fun i => written_quiet rfl h) rfl
    · exact effective_nowhere links rfl (fun _ => rfl) rfl
  | connect accept fd id =>
    exact ⟨id, [], (connectCommand_moved links accept fd id).toTouched, carries_nothing id,
      fun _ => nofun⟩
  | named name handle =>
    rw [mainloop, nameCommand]
    split
    next invalid => exact ⟨0, [], effective_nowhere links rfl (fun _ => rfl) (if_pos invalid)⟩
    next valid => exact updateName_effective links plain valid handle
  | toHandle source destination type session msg =>
    rw [mainloop]
    split
    next zero => exact ⟨0, [], effective_nowhere links rfl (fun _ => rfl) (if_pos zero)⟩
    next nonzero =>
      have news : addresses h (.toHandle source destination type session msg) =
          [⟨msg.tag, source, destination⟩] := if_neg nonzero
      obtain ⟨carries, merged⟩ := carries_one source destination type session msg
      refine ⟨_, _, (remoteSendHandle_moved links source destination type session msg).toTouched,
        ?_, ?_⟩
      · rw [news]
        exact carries
      · rw [news]
        exact fun _ => merged
  | toName source name type session msg =>
    rw [mainloop]
    by_cases known : (nodeOf h name).value = 0
    · rw [remoteSendName_unknown known]
      exact ⟨0, [], effective_nowhere links rfl (fun i => written_quiet rfl _) (if_pos known)⟩
    · rw [remoteSendName_known known]
      have news : addresses h (.toName source name type session msg) =
          [⟨msg.tag, source, (nodeOf h name).value⟩] := if_neg known
      obtain ⟨carries, merged⟩ := carries_one source (nodeOf h name).value type session msg
      have links' : Links { h with map := update h.map name (some (nodeOf h name)) } :=
        ⟨links.connected, links.flushed⟩
      refine ⟨_, _, (remoteSendHandle_moved links' source _ type session msg).after rfl
        (fun _ => rfl), ?_, ?_⟩
      · rw [news]
        exact carries
      · rw [news]
        exact fun _ => merged

section Waiting

variable {h : Harbor}

theorem waiting_congr {h' : Harbor} (map : h'.map = h.map) (name : Name) :
    waiting h' name = waiting h name := by
  rw [waiting, waiting, map]

theorem waiting_update (h : Harbor) (name : Name) (node : KeyValue) (other : Name) :
    waiting { h with map := update h.map name (some node) } other =
      if other = name then node.queue.elim [] HarborMsgQueue.items else waiting h other := by
  unfold waiting
  dsimp only
  by_cases here : other = name
  · rw [here, update_self, if_pos rfl]
    rfl
  · rw [update_of_ne here, if_neg here]

theorem updateName_waiting (links : Links h) (name : Name) (handle : UInt32) (other : Name) :
    waiting (updateName h name handle) other = if other = name then [] else waiting h other := by
  cases queue : (nodeOf h name).queue with
  | none =>
    rw [updateName_none queue, waiting_update]
    rfl
  | some queue' =>
    obtain ⟨fresh, moved, -⟩ :=
      dispatchNameQueue_moved links handle queue' (fun _ _ => trivial : _ → _ → True)
    rw [updateName_some queue, waiting_update, waiting_congr moved.map]
    rfl

theorem mainloop_waiting (links : Links h) (e : Incoming) {name : Name} {m : HarborMsg}
    (waits : m ∈ waiting (mainloop alive heap h e) name) :
    m ∈ waiting h name ∧ (∀ handle, e = .named name handle → addresses h e = []) ∨
      ∃ source type session msg, e = .toName source name type session msg ∧
        addresses h e = [] ∧ m = ⟨⟨source, type <<< handleRemoteShift, session⟩, msg⟩ := by
  cases e with
  | data fd buffer =>
    have received : ∃ id, Moved h (pushSocketData alive heap fd h buffer) True id [] :=
      pushSocketData_moved alive heap links fd buffer
    obtain ⟨id, moved⟩ := received
    have same : waiting (mainloop alive heap h (.data fd buffer)) name = waiting h name :=
      waiting_congr moved.map name
    exact .inl ⟨same ▸ waits, nofun⟩
  | closed fd =>
    have same : (mainloop alive heap h (.closed fd)).map = h.map := by
      rw [mainloop]
      split
      · rfl
      · rfl
    exact .inl ⟨waiting_congr same name ▸ waits, nofun⟩
  | connect accept fd id =>
    have moved : Moved h _ True id [] := connectCommand_moved links accept fd id
    exact .inl ⟨waiting_congr moved.map name ▸ waits, nofun⟩
  | named resolved handle =>
    left
    rw [mainloop, nameCommand] at waits
    split at waits
    next invalid => exact ⟨waits, fun _ _ => if_pos invalid⟩
    next valid =>
      rw [updateName_waiting links] at waits
      split at waits
      · cases waits
      next other =>
        refine ⟨waits, fun handle' same => ?_⟩
        cases same
        exact absurd rfl other
  | toHandle source destination type session msg =>
    have same : (mainloop alive heap h (.toHandle source destination type session msg)).map =
        h.map := by
      rw [mainloop]
      split
      · rfl
      · have moved : Moved h _ True _ _ :=
          remoteSendHandle_moved links source destination type session msg
        exact moved.map
    exact .inl ⟨waiting_congr same name ▸ waits, nofun⟩
  | toName source sent type session msg =>
    rw [mainloop] at waits
    by_cases known : (nodeOf h sent).value = 0
    · rw [remoteSendName_unknown known] at waits
      have waits : m ∈ if name = sent then _ else waiting h name := (waiting_update ..) ▸ waits
      by_cases here : name = sent
      · rw [if_pos here] at waits
        change m ∈ (pushQueueMsg _ _).items at waits
        rw [items_push] at waits
        rcases mem_append.mp waits with old | new
        · refine .inl ⟨?_, nofun⟩
          rw [here, waiting_node]
          cases queue : (nodeOf h sent).queue with
          | none | some _ =>
            rw [queue] at old
            exact old
        · subst here
          exact .inr ⟨source, type, session, msg, rfl, if_pos known, mem_singleton.mp new⟩
      · rw [if_neg here] at waits
        exact .inl ⟨waits, nofun⟩
    · rw [remoteSendName_known known] at waits
      have links' : Links { h with map := update h.map sent (some (nodeOf h sent)) } :=
        ⟨links.connected, links.flushed⟩
      have moved : Moved _ _ True _ _ :=
        remoteSendHandle_moved links' source (nodeOf h sent).value type session msg
      rw [waiting_congr moved.map, waiting_update] at waits
      refine .inl ⟨?_, nofun⟩
      by_cases here : name = sent
      · rw [if_pos here] at waits
        rw [here, waiting_node]
        exact waits
      · rwa [if_neg here] at waits

theorem mainloop_plain (links : Links h) (plain : Plain h) (e : Incoming) :
    Plain (mainloop alive heap h e) := by
  intro name m waits
  rcases mainloop_waiting alive heap links e waits with
    ⟨old, -⟩ | ⟨source, type, session, msg, -, -, rfl⟩
  · exact plain name m old
  · have low := destination_handle 0 type
    rwa [UInt32.zero_and, UInt32.zero_or] at low

end Waiting

end Skynet.HarborService
