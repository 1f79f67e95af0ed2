import Skynet.Base.Table
import Skynet.Multicast.Model

/-! What holds of the tables of every daemon and of the messages between them, in every
run: the counts are right, calls go to the owners of channels, and the address of an
owner is known to every node that has dealt with it. -/
namespace Skynet.Multicast
open Base List Function Option

section Fields
variable {w : World} {n m a b : Node} {d : Daemon} {msg : Msg}

@[simp] theorem set_daemon_self : (w.set n d).daemon n = d := update_self ..

theorem set_daemon_other (other : m ≠ n) : (w.set n d).daemon m = w.daemon m :=
  update_of_ne other ..

@[simp] theorem set_wire : (w.set n d).wire = w.wire := rfl

@[simp] theorem send_daemon : (w.send a b msg).daemon = w.daemon := rfl

theorem send_wire_self : (w.send a b msg).wire a b = w.wire a b ++ [msg] := by
  simp [World.send]

theorem send_wire_other (other : ¬ (n = a ∧ m = b)) :
    (w.send a b msg).wire n m = w.wire n m := by
  by_cases same : n = a
  · subst same
    have apart : m ≠ b := fun eq => other ⟨rfl, eq⟩
    simp [World.send, apart]
  · simp [World.send, same]

/-- The first message between two nodes is taken. -/
def World.pop (w : World) (a b : Node) (rest : List Msg) : World :=
  { w with wire := update w.wire a (update (w.wire a) b rest) }

@[simp] theorem pop_daemon (rest : List Msg) : (w.pop a b rest).daemon = w.daemon := rfl

theorem pop_wire_self (rest : List Msg) : (w.pop a b rest).wire a b = rest := by
  simp [World.pop]

theorem pop_wire_other {rest : List Msg} (other : ¬ (n = a ∧ m = b)) :
    (w.pop a b rest).wire n m = w.wire n m := by
  by_cases same : n = a
  · subst same
    have apart : m ≠ b := fun eq => other ⟨rfl, eq⟩
    simp [World.pop, apart]
  · simp [World.pop, same]

end Fields

/-- The tables of the daemon of a node fit together. -/
structure Daemon.Fits (d : Daemon) (n : Node) : Prop where
  looks : ∀ look ∈ d.looking, ∃ s, look = .sub s ∧ owner s.chan ≠ n
  counts : ∀ c group, d.channel c = some group → d.channelN c = some (group.card : Int)
  peopled : ∀ c group, owner c ≠ n → d.channel c = some group → group.Nonempty
  addressed : ∀ c, owner c ≠ n → d.channel c ≠ none → d.nodeAddress (owner c) = true

/-- A message is one that the code sends from one node to the other. -/
def Sent (w : World) (a b : Node) : Msg → Prop
  | .subr s => owner s.chan = b ∧ a ≠ b ∧ (w.daemon a).nodeAddress b = true
  | .reply s _ => owner s.chan = a ∧ a ≠ b ∧ (w.daemon b).nodeAddress a = true
  | .usubr c => owner c = b ∧ a ≠ b

structure Sane (w : World) : Prop where
  fits : ∀ n, (w.daemon n).Fits n
  sent : ∀ a b, ∀ msg ∈ w.wire a b, Sent w a b msg

section Keep
variable {w : World} {n a b : Node} {d : Daemon} {msg : Msg}

theorem sent_set (grows : ∀ node, (w.daemon n).nodeAddress node = true → d.nodeAddress node = true)
    (sent : Sent w a b msg) : Sent (w.set n d) a b msg := by
  have known : ∀ x y, (w.daemon x).nodeAddress y = true →
      ((w.set n d).daemon x).nodeAddress y = true := by
    intro x y here
    by_cases same : x = n
    · subst same
      rw [set_daemon_self]
      exact grows y here
    · rw [set_daemon_other same]
      exact here
  cases msg with
  | subr _ | reply _ _ => exact ⟨sent.1, sent.2.1, known _ _ sent.2.2⟩
  | usubr c => exact sent

theorem Sane.set (sane : Sane w) (fits : d.Fits n)
    (grows : ∀ node, (w.daemon n).nodeAddress node = true → d.nodeAddress node = true) :
    Sane (w.set n d) := by
  constructor
  · intro m
    by_cases same : m = n
    · subst same
      rw [set_daemon_self]
      exact fits
    · rw [set_daemon_other same]
      exact sane.fits m
  · intro a b msg member
    exact sent_set grows (sane.sent a b msg member)

theorem Sane.send (sane : Sane w) (sent : Sent w a b msg) : Sane (w.send a b msg) := by
  constructor
  · exact sane.fits
  · intro x y other member
    have here : Sent w x y other := by
      by_cases same : x = a ∧ y = b
      · obtain ⟨rfl, rfl⟩ := same
        rw [send_wire_self, mem_append, mem_singleton] at member
        rcases member with old | rfl
        · exact sane.sent x y other old
        · exact sent
      · rw [send_wire_other same] at member
        exact sane.sent x y other member
    cases other <;> exact here

theorem Sane.pop (sane : Sane w) {rest : List Msg} (first : w.wire a b = msg :: rest) :
    Sane (w.pop a b rest) := by
  constructor
  · exact sane.fits
  · intro x y other member
    have here : Sent w x y other := by
      by_cases same : x = a ∧ y = b
      · obtain ⟨rfl, rfl⟩ := same
        rw [pop_wire_self] at member
        exact sane.sent x y other (first ▸ mem_cons_of_mem msg member)
      · rw [pop_wire_other same] at member
        exact sane.sent x y other member
    cases other <;> exact here

end Keep

section Daemon
variable {d : Daemon} {n : Node} {group : Finset Service} {s : Sub}

theorem Daemon.Fits.change (fits : d.Fits n) {c : Chan} (peopled : owner c ≠ n → group.Nonempty)
    (addressed : owner c ≠ n → d.nodeAddress (owner c) = true) :
    Daemon.Fits { d with
      channel := update d.channel c (some group)
      channelN := update d.channelN c (some (group.card : Int)) } n := by
  refine ⟨fits.looks, ?_, ?_, ?_⟩
  · intro c' group' here
    rcases update_iff.mp here with ⟨rfl, new⟩ | ⟨other, old⟩
    · cases new
      exact update_self ..
    · exact (update_of_ne other ..).trans (fits.counts c' group' old)
  · intro c' group' away here
    rcases update_iff.mp here with ⟨rfl, new⟩ | ⟨-, old⟩
    · cases new
      exact peopled away
    · exact fits.peopled c' group' away old
  · intro c' away here
    by_cases same : c' = c
    · subst same
      exact addressed away
    · change update d.channel c (some group) c' ≠ _ at here
      rw [update_of_ne same] at here
      exact fits.addressed c' away here

theorem Daemon.Fits.remove (fits : d.Fits n) (c : Chan) :
    Daemon.Fits { d with
      channel := update d.channel c none
      channelN := update d.channelN c none } n := by
  have kept : ∀ c' group', update d.channel c none c' = some group' →
      c' ≠ c ∧ d.channel c' = some group' := fun _ _ => (update_ne_iff (by nofun)).mp
  refine ⟨fits.looks, ?_, ?_, ?_⟩
  · intro c' group' here
    obtain ⟨other, old⟩ := kept c' group' here
    exact (update_of_ne other ..).trans (fits.counts c' group' old)
  · intro c' group' away here
    exact fits.peopled c' group' away (kept c' group' here).2
  · intro c' away here
    obtain ⟨group', here⟩ := ne_none_iff_exists'.mp here
    exact fits.addressed c' away (by rw [(kept c' group' here).2]; exact some_ne_none _)

theorem addSubscriber_present (fits : d.Fits n) (present : d.channel s.chan = some group) :
    addSubscriber d s = if s.source ∈ group then d else { d with
      channel := update d.channel s.chan (some (insert s.source group))
      channelN := update d.channelN s.chan (some ((group.card : Int) + 1)) } := by
  rw [addSubscriber, present, fits.counts _ _ present]

theorem addSubscriber_absent (absent : d.channel s.chan = none) :
    addSubscriber d s = d := by
  rw [addSubscriber, absent]

theorem Daemon.Fits.addSubscriber (fits : d.Fits n) (s : Sub) : (addSubscriber d s).Fits n := by
  rcases eq_none_or_eq_some (d.channel s.chan) with absent | ⟨group, present⟩
  · rw [addSubscriber_absent absent]
    exact fits
  · rw [addSubscriber_present fits present]
    split
    · exact fits
    · next fresh =>
      have card : (group.card : Int) + 1 = ((insert s.source group).card : Int) := by
        rw [Finset.card_insert_of_notMem fresh]
        rfl
      rw [card]
      refine fits.change (fun _ => Finset.insert_nonempty ..) fun away => ?_
      exact fits.addressed _ away (by rw [present]; exact some_ne_none _)

theorem resumeSub_absent (absent : d.channel s.chan = none) :
    resumeSub d s .done = { d with
      channel := update d.channel s.chan (some {s.source})
      channelN := update d.channelN s.chan (some 1) } := by
  simp only [resumeSub, if_pos absent, Skynet.Multicast.addSubscriber, new, update_self,
    Finset.notMem_empty, if_false, update_idem, insert_empty_eq, zero_add]

theorem resumeSub_present (present : d.channel s.chan ≠ none) :
    resumeSub d s .done = Skynet.Multicast.addSubscriber d s := by
  rw [resumeSub, if_neg present]

theorem Daemon.Fits.resumeSub (fits : d.Fits n) (s : Sub) (answer : Answer)
    (addressed : owner s.chan ≠ n → d.nodeAddress (owner s.chan) = true) :
    (resumeSub d s answer).Fits n := by
  cases answer with
  | absent => exact fits
  | failed => exact fits
  | done =>
    by_cases absent : d.channel s.chan = none
    · rw [resumeSub_absent absent]
      exact fits.change (fun _ => Finset.singleton_nonempty _) addressed
    · rw [resumeSub_present absent]
      exact fits.addSubscriber s

theorem Daemon.Fits.look (fits : d.Fits n) {looking : List Look}
    (looks : ∀ look ∈ looking, ∃ s, look = .sub s ∧ owner s.chan ≠ n) :
    Daemon.Fits { d with looking := looking } n :=
  ⟨looks, fits.counts, fits.peopled, fits.addressed⟩

theorem addSubscriber_address (d : Daemon) (s : Sub) :
    (Skynet.Multicast.addSubscriber d s).nodeAddress = d.nodeAddress := by
  unfold Skynet.Multicast.addSubscriber
  split
  · split <;> rfl
  · rfl

theorem resumeSub_address (d : Daemon) (s : Sub) (answer : Answer) :
    (Skynet.Multicast.resumeSub d s answer).nodeAddress = d.nodeAddress := by
  cases answer with
  | absent => rfl
  | failed => rfl
  | done =>
    rw [Skynet.Multicast.resumeSub, addSubscriber_address]
    split <;> rfl

end Daemon

section Step
variable {w w' : World}

theorem sane_start : Sane start := by
  constructor
  · intro n
    refine ⟨?_, ?_, ?_, ?_⟩
    · intro look member
      cases member
    · intro c group here
      cases here
    · intro c group _ here
      cases here
    · intro c _ here
      exact absurd rfl here
  · intro a b msg member
    cases member

theorem sane_sub (sane : Sane w) (n : Node) (s : Sub) : Sane (sub w n s) := by
  have fits := sane.fits n
  unfold sub
  dsimp only
  split_ifs with away known
  · exact sane.send ⟨rfl, away.1.symm, known⟩
  · refine sane.set (fits.look ?_) fun _ here => here
    intro look member
    rcases mem_append.mp member with old | new
    · exact fits.looks look old
    · exact ⟨s, mem_singleton.mp new, away.1⟩
  · refine sane.set (fits.addSubscriber s) fun node here => ?_
    rw [addSubscriber_address]
    exact here

theorem usub_cases (sane : Sane w) (n : Node) (s : Sub) :
    usub w n s = w ∨
      (∃ group : Finset Service, (w.daemon n).channel s.chan = some group ∧ s.source ∈ group ∧
        (owner s.chan ≠ n → (group.erase s.source).Nonempty) ∧
        usub w n s = w.set n { w.daemon n with
          channel := update (w.daemon n).channel s.chan (some (group.erase s.source))
          channelN := update (w.daemon n).channelN s.chan
            (some ((group.erase s.source).card : Int)) }) ∨
      (owner s.chan ≠ n ∧ (w.daemon n).channel s.chan = some {s.source} ∧
        usub w n s = (w.set n { w.daemon n with
          channel := update (w.daemon n).channel s.chan none
          channelN := update (w.daemon n).channelN s.chan none }).send n
            (owner s.chan) (.usubr s.chan)) := by
  have fits := sane.fits n
  unfold usub
  rcases eq_none_or_eq_some ((w.daemon n).channel s.chan) with absent | ⟨group, present⟩
  · simp only [absent]
    exact .inl trivial
  · have count := fits.counts _ _ present
    simp only [present, count]
    by_cases member : s.source ∈ group
    · have card : ((group.erase s.source).card : Int) = (group.card : Int) - 1 := by
        rw [Finset.card_erase_of_mem member]
        have some' : 0 < group.card := Finset.card_pos.mpr ⟨_, member⟩
        omega
      rw [if_pos member]
      right
      split_ifs with last known
      · refine .inr ⟨last.2, ?_, rfl⟩
        have one : group.card = 1 := by omega
        obtain ⟨x, rfl⟩ := Finset.card_eq_one.mp one
        rw [Finset.mem_singleton.mp member]
      · exact absurd (fits.addressed _ last.2 (by rw [present]; exact some_ne_none _)) known
      · refine .inl ⟨group, rfl, member, fun away => ?_, by rw [card]⟩
        rw [← Finset.card_pos]
        have more : ¬ (group.card : Int) - 1 = 0 := fun zero => last ⟨zero, away⟩
        omega
    · rw [if_neg member]
      exact .inl rfl

theorem sane_usub (sane : Sane w) (n : Node) (s : Sub) : Sane (usub w n s) := by
  have fits := sane.fits n
  rcases usub_cases sane n s with same | ⟨group, present, -, peopled, same⟩ | ⟨away, -, same⟩
  · rw [same]
    exact sane
  · rw [same]
    refine sane.set (fits.change peopled fun away => ?_) fun _ here => here
    exact fits.addressed _ away (by rw [present]; exact some_ne_none _)
  · rw [same]
    exact (sane.set (fits.remove s.chan) fun _ here => here).send ⟨rfl, away.symm⟩

variable {n a b : Node} {i : Nat} {look : Look}

theorem Daemon.Fits.known {d : Daemon} (fits : d.Fits n) (node : Node) (i : Nat) :
    Daemon.Fits { d with
      nodeAddress := update d.nodeAddress node true
      looking := d.looking.eraseIdx i } n := by
  refine ⟨fun look member => fits.looks look (mem_of_mem_eraseIdx member), fits.counts,
    fits.peopled, ?_⟩
  intro c away here
  change update d.nodeAddress node true (owner c) = true
  rw [update_apply]
  split
  · rfl
  · exact fits.addressed c away here

/- Only SUB ever waits for the data center. -/
theorem found_cases (sane : Sane w) (waits : (w.daemon n).looking[i]? = some look) :
    ∃ s, look = .sub s ∧ owner s.chan ≠ n ∧
      found w n i look = (w.set n { w.daemon n with
        nodeAddress := update (w.daemon n).nodeAddress (owner s.chan) true
        looking := (w.daemon n).looking.eraseIdx i }).send n (owner s.chan) (.subr s) := by
  obtain ⟨s, rfl, away⟩ := (sane.fits n).looks look (mem_of_getElem? waits)
  exact ⟨s, rfl, away, rfl⟩

theorem grows_known (address : Node → Bool) (node other : Node) (here : address other = true) :
    update address node true other = true := by
  rw [update_apply]
  split
  · rfl
  · exact here

theorem sane_found (sane : Sane w) (waits : (w.daemon n).looking[i]? = some look) :
    Sane (found w n i look) := by
  obtain ⟨s, rfl, away, same⟩ := found_cases sane waits
  rw [same]
  refine (sane.set ((sane.fits n).known _ i) fun node here => grows_known _ _ _ here).send
    ⟨rfl, away.symm, ?_⟩
  rw [set_daemon_self]
  exact update_self ..

theorem sane_dispatch (sane : Sane w) {msg : Msg} (sent : Sent w a b msg) :
    Sane (dispatch w a b msg) := by
  have fits := sane.fits b
  cases msg with
  | subr s =>
    obtain ⟨owned, apart, known⟩ := sent
    have answered : ∀ result : Daemon × Answer, result.1.Fits b →
        result.1.nodeAddress = (w.daemon b).nodeAddress →
        Sane ((w.set b result.1).send b a (.reply s result.2)) := by
      intro result fits' same
      refine (sane.set fits' fun node here => ?_).send ⟨owned, apart.symm, ?_⟩
      · rw [same]
        exact here
      · rw [set_daemon_other apart]
        exact known
    apply answered
    · unfold subr
      split_ifs
      · exact fits
      · exact ⟨fits.looks, fits.counts, fits.peopled, fits.addressed⟩
      · exact fits
    · unfold subr
      split_ifs <;> rfl
  | reply s answer =>
    obtain ⟨owned, apart, known⟩ := sent
    refine sane.set (fits.resumeSub s answer fun _ => owned ▸ known) fun node here => ?_
    rw [resumeSub_address]
    exact here
  | usubr c =>
    have same : (usubr (w.daemon b) b a c).Fits b ∧
        (usubr (w.daemon b) b a c).nodeAddress = (w.daemon b).nodeAddress := by
      unfold usubr
      split
      · split
        · exact ⟨⟨fits.looks, fits.counts, fits.peopled, fits.addressed⟩, rfl⟩
        · exact ⟨fits, rfl⟩
      · exact ⟨fits, rfl⟩
    refine sane.set same.1 fun node here => ?_
    rw [same.2]
    exact here

theorem step_deliver (taken : step w (.deliver a b) = some w') :
    ∃ msg rest, w.wire a b = msg :: rest ∧ dispatch (w.pop a b rest) a b msg = w' := by
  dsimp only [step] at taken
  split at taken
  · cases taken
  · next msg rest first => exact ⟨msg, rest, first, some.inj taken⟩

theorem step_sane (sane : Sane w) {act : Action} (taken : step w act = some w') : Sane w' := by
  cases act with
  | new n c =>
    obtain ⟨⟨owned, -⟩, made⟩ := ite_none_right_eq_some.mp taken
    cases made
    have empty : (0 : Int) = ((∅ : Finset Service).card : Int) := rfl
    refine sane.set ?_ fun _ here => here
    unfold new
    rw [empty]
    exact (sane.fits n).change (fun away => absurd owned away) fun away => absurd owned away
  | sub n s =>
    cases taken
    exact sane_sub sane n s
  | usub n s =>
    cases taken
    exact sane_usub sane n s
  | found n i =>
    obtain ⟨look, waits, rfl⟩ := map_eq_some_iff.mp taken
    exact sane_found sane waits
  | missing n i =>
    obtain ⟨-, made⟩ := ite_none_right_eq_some.mp taken
    cases made
    refine sane.set ((sane.fits n).look ?_) fun _ here => here
    exact fun look member => (sane.fits n).looks look (mem_of_mem_eraseIdx member)
  | deliver a b =>
    obtain ⟨msg, rest, first, rfl⟩ := step_deliver taken
    have sent := sane.sent a b msg (first ▸ mem_cons_self ..)
    have still : Sent (w.pop a b rest) a b msg := by
      cases msg <;> exact sent
    exact sane_dispatch (sane.pop first) still

end Step

end Skynet.Multicast
