import Skynet.Multicast.Tables

/-! One node and one channel of another node: what the node and the owner of the channel
still have to say to each other about it, and that they agree when it is said. -/
namespace Skynet.Multicast
open Base List Function

def isUp (c : Chan) : Msg → Bool
  | .subr s => s.chan == c
  | .usubr c' => c' == c
  | .reply _ _ => false

def isDown (c : Chan) : Msg → Bool
  | .reply s _ => s.chan == c
  | _ => false

/-- What the node says to the owner about the channel. -/
def ups (w : World) (n : Node) (c : Chan) : List Msg := (w.wire n (owner c)).filter (isUp c)

/-- What the owner answers. -/
def downs (w : World) (n : Node) (c : Chan) : List Msg := (w.wire (owner c) n).filter (isDown c)

def Joined (w : World) (n : Node) (c : Chan) : Prop := (w.daemon n).channel c ≠ none

/-- Either the owner has the node exactly when the node has the channel or is about to, or
the node has left and the first that the owner will hear of is that. -/
inductive Agreed (c : Chan) (joined member : Prop) (ups downs : List Msg) : Prop
  | settled (stays : Msg.usubr c ∉ ups)
      (agree : member ↔ joined ∨ ∃ s, Msg.reply s .done ∈ downs)
  | leaving (rest : List Msg) (first : ups = .usubr c :: rest) (once : Msg.usubr c ∉ rest)
      (left : ¬ joined) (silent : downs = [])

def Agrees (w : World) (n : Node) (c : Chan) : Prop :=
  Agreed c (Joined w n c) (Member w n c) (ups w n c) (downs w n c)

section View
variable {w : World} {n m a b : Node} {c : Chan} {d : Daemon} {msg : Msg}

theorem Agrees.set (agrees : Agrees w n c)
    (joined : m = n → (d.channel c ≠ none ↔ Joined w n c))
    (member : m = owner c → ((∃ nodes, d.channelRemote c = some nodes ∧ n ∈ nodes) ↔
      Member w n c)) : Agrees (w.set m d) n c := by
  have joined' : Joined (w.set m d) n c ↔ Joined w n c := by
    by_cases same : m = n
    · subst same
      rw [Joined, set_daemon_self]
      exact joined rfl
    · rw [Joined, set_daemon_other (Ne.symm same)]
      rfl
  have member' : Member (w.set m d) n c ↔ Member w n c := by
    by_cases same : m = owner c
    · subst same
      rw [Member, set_daemon_self]
      exact member rfl
    · rw [Member, set_daemon_other (Ne.symm same)]
      rfl
  unfold Agrees
  rw [propext joined', propext member']
  exact agrees

theorem ups_send_skip (skip : n = a → owner c = b → isUp c msg = false) :
    ups (w.send a b msg) n c = ups w n c := by
  unfold ups
  by_cases same : n = a ∧ owner c = b
  · obtain ⟨rfl, rfl⟩ := same
    rw [send_wire_self, filter_append, filter_singleton, skip rfl rfl]
    exact append_nil _
  · rw [send_wire_other same]

theorem downs_send_skip (skip : owner c = a → n = b → isDown c msg = false) :
    downs (w.send a b msg) n c = downs w n c := by
  unfold downs
  by_cases same : owner c = a ∧ n = b
  · obtain ⟨rfl, rfl⟩ := same
    rw [send_wire_self, filter_append, filter_singleton, skip rfl rfl]
    exact append_nil _
  · rw [send_wire_other same]

theorem ups_send (about : isUp c msg = true) :
    ups (w.send n (owner c) msg) n c = ups w n c ++ [msg] := by
  rw [ups, send_wire_self, filter_append, filter_singleton, about]
  rfl

theorem downs_send (about : isDown c msg = true) :
    downs (w.send (owner c) n msg) n c = downs w n c ++ [msg] := by
  rw [downs, send_wire_self, filter_append, filter_singleton, about]
  rfl

variable {rest : List Msg}

section
variable (first : w.wire a b = msg :: rest)
include first

theorem pop_skip {f : Msg → Bool} {m : Node} (skip : n = a → m = b → f msg = false) :
    ((w.pop a b rest).wire n m).filter f = (w.wire n m).filter f := by
  by_cases same : n = a ∧ m = b
  · obtain ⟨rfl, rfl⟩ := same
    rw [pop_wire_self, first, filter_cons_of_neg (by rw [skip rfl rfl]; decide)]
  · rw [pop_wire_other same]

theorem ups_pop_skip
    (skip : n = a → owner c = b → isUp c msg = false) : ups (w.pop a b rest) n c = ups w n c :=
  pop_skip first skip

theorem downs_pop_skip (skip : owner c = a → n = b → isDown c msg = false) :
    downs (w.pop a b rest) n c = downs w n c :=
  pop_skip first skip

end

theorem ups_pop (first : w.wire n (owner c) = msg :: rest) (about : isUp c msg = true) :
    ups w n c = msg :: ups (w.pop n (owner c) rest) n c := by
  rw [ups, ups, first, pop_wire_self, filter_cons_of_pos about]

theorem downs_pop (first : w.wire (owner c) n = msg :: rest) (about : isDown c msg = true) :
    downs w n c = msg :: downs (w.pop (owner c) n rest) n c := by
  rw [downs, downs, first, pop_wire_self, filter_cons_of_pos about]

theorem Agrees.send_skip (agrees : Agrees w n c)
    (up : n = a → owner c = b → isUp c msg = false)
    (down : owner c = a → n = b → isDown c msg = false) : Agrees (w.send a b msg) n c := by
  unfold Agrees
  rw [ups_send_skip up, downs_send_skip down]
  exact agrees

theorem Agrees.pop_skip (agrees : Agrees w n c) (first : w.wire a b = msg :: rest)
    (up : n = a → owner c = b → isUp c msg = false)
    (down : owner c = a → n = b → isDown c msg = false) : Agrees (w.pop a b rest) n c := by
  unfold Agrees
  rw [ups_pop_skip first up, downs_pop_skip first down]
  exact agrees

theorem Agrees.call (agrees : Agrees w n c) (m : Node) (s : Sub) :
    Agrees (w.send m (owner s.chan) (.subr s)) n c := by
  by_cases here : m = n ∧ s.chan = c
  · obtain ⟨rfl, rfl⟩ := here
    have about : isUp s.chan (.subr s) = true := beq_self_eq_true _
    unfold Agrees
    rw [ups_send about, downs_send_skip fun _ _ => rfl]
    cases agrees with
    | settled stays agree =>
      refine .settled ?_ agree
      simpa using stays
    | leaving rest first once left silent =>
      refine .leaving (rest ++ [.subr s]) ?_ ?_ left silent
      · rw [first]
        rfl
      · simpa using once
  · refine agrees.send_skip ?_ fun _ _ => rfl
    intro same _
    have other : s.chan ≠ c := fun eq => here ⟨same.symm, eq⟩
    exact beq_false_of_ne other

end View

section Commands
variable {w : World} {n : Node} {c : Chan}

theorem addSubscriber_joined (d : Daemon) (s : Sub) (c : Chan) :
    ((addSubscriber d s).channel c ≠ none ↔ d.channel c ≠ none) ∧
      (addSubscriber d s).channelRemote = d.channelRemote := by
  unfold addSubscriber
  split
  · next group count present _ =>
    split
    · exact ⟨Iff.rfl, rfl⟩
    · refine ⟨?_, rfl⟩
      change update d.channel s.chan _ c ≠ none ↔ _
      by_cases same : c = s.chan
      · subst same
        rw [update_self, present]
        simp
      · rw [update_of_ne same]
  · exact ⟨Iff.rfl, rfl⟩

theorem agrees_new (agrees : Agrees w n c) (remote : n ≠ owner c) (c' : Chan) :
    Agrees (w.set (owner c') (new (w.daemon (owner c')) c')) n c := by
  apply agrees.set
  · rintro rfl
    have other : c ≠ c' := fun same => remote (same ▸ rfl)
    change update (w.daemon (owner c')).channel c' _ c ≠ none ↔ _
    rw [update_of_ne other]
    rfl
  · rintro same
    rw [same]
    rfl

theorem agrees_sub (agrees : Agrees w n c) (m : Node) (s : Sub) : Agrees (sub w m s) n c := by
  unfold sub
  dsimp only
  split_ifs with away known
  · exact agrees.call m s
  · apply agrees.set
    · rintro rfl
      exact Iff.rfl
    · rintro rfl
      exact Iff.rfl
  · obtain ⟨joined, remote⟩ := addSubscriber_joined (w.daemon m) s c
    apply agrees.set
    · rintro rfl
      exact joined
    · rintro rfl
      rw [remote]
      rfl

theorem agrees_leave (agrees : Agrees w n c) {d : Daemon} (alone : NoCall w n c)
    (joined : Joined w n c) (gone : d.channel c = none) :
    Agrees ((w.set n d).send n (owner c) (.usubr c)) n c := by
  have about : isUp c (.usubr c) = true := beq_self_eq_true _
  have silent : downs w n c = [] := by
    refine filter_eq_nil_iff.mpr fun msg member down => ?_
    cases msg with
    | subr s => cases down
    | usubr c' => cases down
    | reply s answer => exact (alone s (beq_iff_eq.mp down)).2 answer member
  have left : ¬ Joined ((w.set n d).send n (owner c) (.usubr c)) n c := by
    rw [Joined, send_daemon, set_daemon_self]
    exact not_not.mpr gone
  cases agrees with
  | leaving rest first once left silent => exact absurd joined left
  | settled stays agree =>
    have quiet : ups w n c = [] := by
      refine filter_eq_nil_iff.mpr fun msg member up => ?_
      cases msg with
      | subr s => exact (alone s (beq_iff_eq.mp up)).1 member
      | reply s answer => cases up
      | usubr c' =>
        cases beq_iff_eq.mp up
        exact stays (mem_filter.mpr ⟨member, up⟩)
    refine .leaving [] ?_ not_mem_nil left ?_
    · rw [ups_send about]
      exact congrArg (· ++ [Msg.usubr c]) quiet
    · rw [downs_send_skip fun _ _ => rfl]
      exact silent

theorem agrees_usub (sane : Sane w) (agrees : Agrees w n c) (m : Node) (s : Sub)
    (alone : Alone w (.usub m s)) : Agrees (usub w m s) n c := by
  rcases usub_cases sane m s with same | ⟨group, present, -, -, same⟩ | ⟨away, last, same⟩
  · rw [same]
    exact agrees
  · rw [same]
    apply agrees.set
    · rintro rfl
      change update (w.daemon m).channel s.chan _ c ≠ none ↔ _
      by_cases here : c = s.chan
      · subst here
        rw [update_self, Joined, present]
        simp
      · rw [update_of_ne here]
        rfl
    · rintro rfl
      exact Iff.rfl
  · rw [same]
    by_cases here : m = n ∧ s.chan = c
    · obtain ⟨rfl, rfl⟩ := here
      apply agrees_leave agrees (alone last)
      · rw [Joined, last]
        exact Option.some_ne_none _
      · exact update_self ..
    · apply Agrees.send_skip
      · apply agrees.set
        · rintro rfl
          have other : c ≠ s.chan := fun eq => here ⟨rfl, eq.symm⟩
          change update (w.daemon m).channel s.chan none c ≠ none ↔ _
          rw [update_of_ne other]
          rfl
        · rintro rfl
          exact Iff.rfl
      · intro eq _
        have other : s.chan ≠ c := fun chan => here ⟨eq.symm, chan⟩
        exact beq_false_of_ne other
      · exact fun _ _ => rfl

theorem agrees_found (sane : Sane w) (agrees : Agrees w n c) {m : Node} {i : Nat} {look : Look}
    (waits : (w.daemon m).looking[i]? = some look) : Agrees (found w m i look) n c := by
  obtain ⟨s, rfl, -, same⟩ := found_cases sane waits
  rw [same]
  apply Agrees.call
  apply agrees.set
  · rintro rfl
    exact Iff.rfl
  · rintro rfl
    exact Iff.rfl

end Commands

end Skynet.Multicast
