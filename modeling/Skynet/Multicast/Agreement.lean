import Skynet.Multicast.View

/-! The messages between a node and the owner of a channel, and what they come to: once
all is said, the owner has exactly the nodes with subscribers. -/
namespace Skynet.Multicast
open Base List Function

section Messages
variable {w : World} {n a b : Node} {c : Chan} {rest : List Msg}

theorem subr_member (d : Daemon) (c' : Chan) (other : n ≠ a ∨ c ≠ c') :
    ((∃ nodes, (subr d b a c').1.channelRemote c = some nodes ∧ n ∈ nodes) ↔
      ∃ nodes, d.channelRemote c = some nodes ∧ n ∈ nodes) ∧
      (subr d b a c').1.channel = d.channel := by
  unfold subr
  split_ifs with absent owned
  · exact ⟨Iff.rfl, rfl⟩
  · refine ⟨?_, rfl⟩
    change (∃ nodes, update d.channelRemote c' _ c = some nodes ∧ n ∈ nodes) ↔ _
    by_cases same : c = c'
    · subst same
      have apart : n ≠ a := other.resolve_right fun ne => ne rfl
      rw [update_self]
      cases d.channelRemote c with
      | none => simp [apart]
      | some nodes => simp [apart]
    · rw [update_of_ne same]
  · exact ⟨Iff.rfl, rfl⟩

theorem agrees_subr {s : Sub} (agrees : Agrees w n c) (remote : n ≠ owner c)
    (first : w.wire a b = .subr s :: rest) (owned : owner s.chan = b) :
    Agrees (dispatch (w.pop a b rest) a b (.subr s)) n c := by
  subst owned
  by_cases here : n = a ∧ c = s.chan
  · obtain ⟨rfl, rfl⟩ := here
    have about : isUp s.chan (.subr s) = true := beq_self_eq_true _
    have head := ups_pop first about
    have down : ∀ answer, isDown s.chan (.reply s answer) = true := fun _ => beq_self_eq_true _
    have same : downs (w.pop n (owner s.chan) rest) n s.chan = downs w n s.chan :=
      downs_pop_skip first fun _ _ => rfl
    cases agrees with
    | leaving rest' first' once left silent =>
      rw [first'] at head
      cases head
    | settled stays agree =>
      have stays' : Msg.usubr s.chan ∉ ups (w.pop n (owner s.chan) rest) n s.chan :=
        fun member => stays (head ▸ mem_cons_of_mem _ member)
      unfold dispatch Agrees
      rw [ups_send_skip fun _ _ => rfl, downs_send (down _)]
      refine .settled stays' ?_
      change _ ↔ _ ∨ ∃ s', Msg.reply s' .done ∈ downs (w.pop n (owner s.chan) rest) n s.chan ++ _
      rw [same, Joined, send_daemon, set_daemon_other remote, Member, send_daemon, set_daemon_self]
      unfold subr
      split_ifs with absent owned
      · simpa [Joined, Member] using agree
      · simp
      · simpa [Joined, Member] using agree
  · apply Agrees.send_skip
    · obtain ⟨member, channel⟩ := subr_member (b := owner s.chan)
        ((w.pop a (owner s.chan) rest).daemon (owner s.chan)) s.chan (not_and_or.mp here)
      apply Agrees.set
      · refine agrees.pop_skip first ?_ fun _ _ => rfl
        intro same _
        exact beq_false_of_ne fun eq => here ⟨same, eq.symm⟩
      · rintro rfl
        rw [channel]
        rfl
      · intro eq
        rw [member, eq]
        rfl
    · exact fun _ _ => rfl
    · intro _ same
      exact beq_false_of_ne fun eq => here ⟨same, eq.symm⟩

/- SUB has its answer: a node that is let in has the channel from now on. -/
theorem resumeSub_joined (d : Daemon) (s : Sub) (answer : Answer) :
    ((resumeSub d s answer).channel s.chan ≠ none ↔
        d.channel s.chan ≠ none ∨ answer = .done) ∧
      (∀ c ≠ s.chan, (resumeSub d s answer).channel c ≠ none ↔ d.channel c ≠ none) ∧
      (resumeSub d s answer).channelRemote = d.channelRemote := by
  cases answer with
  | absent => simp [resumeSub]
  | failed => simp [resumeSub]
  | done =>
    by_cases absent : d.channel s.chan = none
    · rw [resumeSub_absent absent]
      refine ⟨by simp, fun c other => ?_, rfl⟩
      change update d.channel s.chan _ c ≠ none ↔ _
      rw [update_of_ne other]
    · rw [resumeSub_present absent]
      refine ⟨?_, fun c _ => (addSubscriber_joined d s c).1, (addSubscriber_joined d s 0).2⟩
      rw [(addSubscriber_joined d s s.chan).1]
      exact ⟨.inl, fun _ => absent⟩

theorem agrees_reply {s : Sub} {answer : Answer} (agrees : Agrees w n c) (remote : n ≠ owner c)
    (first : w.wire a b = .reply s answer :: rest) (owned : owner s.chan = a) :
    Agrees (dispatch (w.pop a b rest) a b (.reply s answer)) n c := by
  subst owned
  obtain ⟨joined, others, members⟩ :=
    resumeSub_joined ((w.pop (owner s.chan) b rest).daemon b) s answer
  by_cases here : n = b ∧ c = s.chan
  · obtain ⟨rfl, rfl⟩ := here
    have about : isDown s.chan (.reply s answer) = true := beq_self_eq_true _
    have head := downs_pop first about
    have same : ups (w.pop (owner s.chan) n rest) n s.chan = ups w n s.chan :=
      ups_pop_skip first fun _ _ => rfl
    cases agrees with
    | leaving rest' first' once left silent =>
      rw [silent] at head
      cases head
    | settled stays agree =>
      refine .settled (same.symm ▸ stays) ?_
      have after : Joined (dispatch (w.pop (owner s.chan) n rest) (owner s.chan) n
          (.reply s answer)) n s.chan ↔ Joined w n s.chan ∨ answer = .done := by
        rw [Joined, dispatch, set_daemon_self]
        exact joined
      have member : Member (dispatch (w.pop (owner s.chan) n rest) (owner s.chan) n
          (.reply s answer)) n s.chan ↔ Member w n s.chan := by
        rw [Member, dispatch, set_daemon_other remote.symm]
        rfl
      have answers : (∃ s', Msg.reply s' .done ∈ downs w n s.chan) ↔ answer = .done ∨
            ∃ s', Msg.reply s' .done ∈ downs (w.pop (owner s.chan) n rest) n s.chan := by
        rw [head]
        constructor
        · rintro ⟨s', member⟩
          rcases mem_cons.mp member with eq | later
          · cases eq
            exact .inl rfl
          · exact .inr ⟨s', later⟩
        · rintro (rfl | ⟨s', later⟩)
          · exact ⟨s, mem_cons_self ..⟩
          · exact ⟨s', mem_cons_of_mem _ later⟩
      rw [after, member, agree, answers, or_assoc]
      rfl
  · apply Agrees.set
    · refine agrees.pop_skip first (fun _ _ => rfl) ?_
      intro _ same
      exact beq_false_of_ne fun eq => here ⟨same, eq.symm⟩
    · rintro rfl
      exact others c fun eq => here ⟨rfl, eq⟩
    · rintro rfl
      rw [members]
      rfl

theorem usubr_member (d : Daemon) (c' : Chan) (apart : a ≠ b) :
    (¬ ∃ nodes, (usubr d b a c').channelRemote c' = some nodes ∧ a ∈ nodes) ∧
      (n ≠ a ∨ c ≠ c' →
        ((∃ nodes, (usubr d b a c').channelRemote c = some nodes ∧ n ∈ nodes) ↔
          ∃ nodes, d.channelRemote c = some nodes ∧ n ∈ nodes)) ∧
      (usubr d b a c').channel = d.channel := by
  unfold usubr
  rw [if_pos apart]
  rcases known : d.channelRemote c' with _ | nodes
  · simp [known]
  · refine ⟨by simp, fun other => ?_, rfl⟩
    change (∃ group, update d.channelRemote c' _ c = some group ∧ n ∈ group) ↔ _
    by_cases same : c = c'
    · subst same
      have left : n ≠ a := other.resolve_right fun ne => ne rfl
      rw [update_self, known]
      simp [left]
    · rw [update_of_ne same]

theorem agrees_usubr {c' : Chan} (agrees : Agrees w n c) (remote : n ≠ owner c)
    (first : w.wire a b = .usubr c' :: rest) (owned : owner c' = b) (apart : a ≠ b) :
    Agrees (dispatch (w.pop a b rest) a b (.usubr c')) n c := by
  subst owned
  obtain ⟨gone, members, channel⟩ := usubr_member (n := n) (c := c)
    ((w.pop a (owner c') rest).daemon (owner c')) c' apart
  by_cases here : n = a ∧ c = c'
  · obtain ⟨rfl, rfl⟩ := here
    have about : isUp c (.usubr c) = true := beq_self_eq_true _
    have head := ups_pop first about
    have same : downs (w.pop n (owner c) rest) n c = downs w n c :=
      downs_pop_skip first fun _ _ => rfl
    cases agrees with
    | settled stays agree => exact absurd (head ▸ mem_cons_self ..) stays
    | leaving rest' first' once left silent =>
      rw [first'] at head
      obtain ⟨-, rfl⟩ := List.cons.inj head
      refine .settled once ?_
      have out : ¬ Member (dispatch (w.pop n (owner c) rest) n (owner c) (.usubr c)) n c := by
        rw [Member, dispatch, set_daemon_self]
        exact gone
      have left' : ¬ Joined (dispatch (w.pop n (owner c) rest) n (owner c) (.usubr c)) n c := by
        rw [Joined, dispatch, set_daemon_other remote]
        exact left
      have silent' : downs (dispatch (w.pop n (owner c) rest) n (owner c) (.usubr c)) n c = [] :=
        same.trans silent
      rw [silent']
      simp [out, left']
  · apply Agrees.set
    · refine agrees.pop_skip first ?_ fun _ _ => rfl
      intro same _
      exact beq_false_of_ne fun eq => here ⟨same, eq.symm⟩
    · rintro rfl
      rw [channel]
      rfl
    · intro eq
      rw [members (not_and_or.mp here), eq]
      rfl

end Messages

theorem start_agrees (n : Node) (c : Chan) : Agrees start n c := by
  refine .settled not_mem_nil ?_
  constructor
  · rintro ⟨nodes, known, -⟩
    cases known
  · rintro (joined | ⟨s, member⟩)
    · exact absurd rfl joined
    · cases member

theorem step_agrees {w w' : World} {act : Action} (sane : Sane w)
    (agrees : ∀ n c, n ≠ owner c → Agrees w n c) (alone : Alone w act)
    (taken : step w act = some w') {n : Node} {c : Chan} (remote : n ≠ owner c) :
    Agrees w' n c := by
  have here := agrees n c remote
  cases act with
  | new m c' =>
    obtain ⟨⟨rfl, -⟩, made⟩ := Option.ite_none_right_eq_some.mp taken
    cases made
    exact agrees_new here remote c'
  | sub m s =>
    cases taken
    exact agrees_sub here m s
  | usub m s =>
    cases taken
    exact agrees_usub sane here m s alone
  | found m i =>
    obtain ⟨look, waits, rfl⟩ := Option.map_eq_some_iff.mp taken
    exact agrees_found sane here waits
  | missing m i =>
    obtain ⟨-, made⟩ := Option.ite_none_right_eq_some.mp taken
    cases made
    apply here.set
    · rintro rfl
      exact Iff.rfl
    · rintro rfl
      exact Iff.rfl
  | deliver a b =>
    obtain ⟨msg, rest, first, rfl⟩ := step_deliver taken
    have sent := sane.sent a b msg (first ▸ mem_cons_self ..)
    cases msg with
    | subr s => exact agrees_subr here remote first sent.1
    | reply s answer => exact agrees_reply here remote first sent.1
    | usubr c' => exact agrees_usubr here remote first sent.1 sent.2

theorem multicast_membership (w : World) (run : Reaches step Alone start w) (quiet : Quiet w)
    (n : Node) (c : Chan) (remote : n ≠ owner c) : Member w n c ↔ Subscribed w n c := by
  obtain ⟨sane, agrees⟩ : Sane w ∧ ∀ n c, n ≠ owner c → Agrees w n c := by
    refine run.invariant (fun w => Sane w ∧ ∀ n c, n ≠ owner c → Agrees w n c)
      ⟨sane_start, fun n c _ => start_agrees n c⟩ ?_
    intro s act s' ⟨sane, agrees⟩ alone taken
    exact ⟨step_sane sane taken, fun n c remote => step_agrees sane agrees alone taken remote⟩
  have silent : downs w n c = [] := by
    rw [downs, quiet.1]
    rfl
  have joined : Joined w n c ↔ Subscribed w n c := by
    constructor
    · intro present
      obtain ⟨group, present⟩ := Option.ne_none_iff_exists'.mp present
      exact ⟨group, present, (sane.fits n).peopled c group remote.symm present⟩
    · rintro ⟨group, present, -⟩
      rw [Joined, present]
      exact Option.some_ne_none _
  cases agrees n c remote with
  | settled stays agree =>
    rw [agree, silent, joined]
    simp
  | leaving rest first _ _ _ =>
    rw [ups, quiet.1] at first
    cases first

theorem few_nodes {P : Node → Prop} (zero : P 0) (one : P 1) (two : P 2)
    (others : ∀ n, P (n + 3)) : ∀ n, P n
  | 0 => zero
  | 1 => one
  | 2 => two
  | n + 3 => others n

/- Two services of node 2 subscribe to channel 1, and the first of them leaves again. -/
def comeAndGo : List Action :=
  [.new 1 1, .sub 2 ⟨10, 1⟩, .found 2 0, .deliver 2 1, .deliver 1 2, .sub 2 ⟨11, 1⟩,
    .usub 2 ⟨10, 1⟩]

def checked (w : World) : Action → Bool
  | .usub n s => (w.daemon n).channel s.chan != some {s.source}
  | _ => true

theorem checked_alone (w : World) (act : Action) (passed : checked w act = true) :
    Alone w act := by
  cases act with
  | usub n s =>
    intro last
    exact absurd last (bne_iff_ne.mp passed)
  | _ => trivial

theorem multicast_membership_two : ∃ w, Reaches step Alone start w ∧ Quiet w ∧
    (Member w 2 1 ↔ Subscribed w 2 1) ∧ Member w 2 1 := by
  obtain ⟨w, taken⟩ : ∃ w, comeAndGo.foldlM
      (fun w act => if checked w act then step w act else none) start = some w := ⟨_, rfl⟩
  have run := reaches_of_checked checked checked_alone comeAndGo taken
  have quiet : Quiet w := by
    cases taken
    exact ⟨few_nodes (fun _ => rfl) (few_nodes rfl rfl rfl fun _ => rfl)
      (few_nodes rfl rfl rfl fun _ => rfl) fun _ _ => rfl, few_nodes rfl rfl rfl fun _ => rfl⟩
  have agree := multicast_membership w run quiet 2 1 (by decide)
  cases taken
  exact ⟨_, run, quiet, agree, {2}, rfl, by decide⟩

/- Two services of node 2 call SUBR, the first that gets in leaves at once, and the
second gets its answer when the owner has heard of that. -/
theorem multicast_membership_overlap : ∃ w, Run step start w ∧ Quiet w ∧
    Subscribed w 2 1 ∧ ¬ Member w 2 1 := by
  have run : Run step start _ := run_of_list [.new 1 1, .sub 2 ⟨10, 1⟩, .found 2 0,
    .sub 2 ⟨11, 1⟩, .deliver 2 1, .deliver 2 1, .deliver 1 2, .usub 2 ⟨10, 1⟩, .deliver 2 1,
    .deliver 1 2] rfl
  refine ⟨_, run, ⟨?_, ?_⟩, ⟨{11}, rfl, 11, by decide⟩, ?_⟩
  · exact few_nodes (fun _ => rfl) (few_nodes rfl rfl rfl fun _ => rfl)
      (few_nodes rfl rfl rfl fun _ => rfl) fun _ _ => rfl
  · exact few_nodes rfl rfl rfl fun _ => rfl
  · rintro ⟨nodes, known, member⟩
    cases known
    exact absurd member (by decide)

end Skynet.Multicast
