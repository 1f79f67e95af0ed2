import Skynet.Lualib.Queue
import Skynet.Lualib.Waiting

/-! The queue is a fair critical section that its holder may enter again, in every run in which
nothing else wakes the coroutines that wait in it. -/
namespace Skynet.Lualib.Queue
open Base List Function Option

/-- The coroutine that was handed the section and has not run since. -/
def handed (w : World) : List Coroutine :=
  if w.ref = 0 then w.currentThread.toList else []

theorem step_ask {w w' : World} (taken : step w .ask = some w') :
    ∃ co pending, w.service.control = .running co pending ∧ w' = ask w co pending := by
  simp only [step] at taken
  split at taken
  · rename_i co pending control
    exact ⟨co, pending, control, (some.inj taken).symm⟩
  · cases taken

theorem step_leave {w w' : World} {ok : Bool} (taken : step w (.leave ok) = some w') :
    ∃ co pending, w.service.control = .running co pending ∧ 0 < w.depth co ∧
      w' = xpcallRet w co := by
  simp only [step] at taken
  split at taken
  · rename_i co pending control
    simp only [ite_none_right_eq_some, Option.some.injEq] at taken
    exact ⟨co, pending, control, taken.1, taken.2.symm⟩
  · cases taken

theorem xpcallRet_last {w : World} (co : Coroutine) (last : w.ref - 1 = 0) :
    (xpcallRet w co).ref = 0 ∧ (xpcallRet w co).currentThread = w.threadQueue.head? ∧
      (xpcallRet w co).threadQueue = w.threadQueue.tail ∧
      (xpcallRet w co).depth co = w.depth co - 1 := by
  unfold xpcallRet
  rw [if_pos last]
  cases queue : w.threadQueue with
  | nil | cons _ _ => exact ⟨last, rfl, rfl, update_self ..⟩

structure Inv (w : World) : Prop where
  current : Current w.service
  blocked : ∀ co, w.blocked co = true →
    (∃ session, w.service.place co = .wait session) ∧ w.service.sleepSession co ≠ none
  waiting : ∀ co, w.blocked co = true ↔ co ∈ w.threadQueue ∨ w.woken co = true
  distinct : w.threadQueue.Nodup
  outside : ∀ co ∈ w.threadQueue, w.depth co = 0 ∧ w.woken co = false
  woken : ∀ co, w.woken co = true ↔ w.ref = 0 ∧ w.currentThread = some co
  ready : ∀ co, w.woken co = true → co ∈ w.service.wakeupSession
  empty : w.currentThread = none → w.ref = 0 ∧ w.threadQueue = []
  holder : ∀ co, 0 < w.depth co → w.currentThread = some co
  count : ∀ co, w.currentThread = some co → w.ref = w.depth co
  order : w.asked = w.entered ++ handed w ++ w.threadQueue
  sound : w.assertFailed = false

section Steps
variable {w : World} {co : Coroutine} {pending : Nat}

theorem Inv.free (h : Inv w) (control : w.service.control = .running co pending) :
    w.blocked co = false ∧ co ∉ w.threadQueue ∧ w.woken co = false := by
  have runs := h.current co pending control
  have free : w.blocked co = false := by
    rw [Bool.eq_false_iff]
    intro blocked
    obtain ⟨⟨session, waits⟩, -⟩ := h.blocked co blocked
    exact nomatch runs.symm.trans waits
  have neither := not_or.mp fun either => Bool.eq_false_iff.mp free ((h.waiting co).mpr either)
  exact ⟨free, neither.1, Bool.eq_false_iff.mpr neither.2⟩

theorem Inv.depth_eq_zero (h : Inv w) (other : w.currentThread ≠ some co) : w.depth co = 0 := by
  by_contra inside
  exact other (h.holder co (Nat.pos_of_ne_zero inside))

theorem Inv.idle (h : Inv w) (other : ∀ c, ¬ (w.ref = 0 ∧ w.currentThread = some c))
    (c : Coroutine) : w.woken c = false :=
  Bool.eq_false_iff.mpr fun woken => other c ((h.woken c).mp woken)

/- The holder stays in the section when its depth changes. -/
theorem Inv.holding (h : Inv w) (inside : 0 < w.depth co) {depth : Nat} (deep : 0 < depth) :
    Inv { w with ref := depth, depth := update w.depth co depth } := by
  have holds := h.holder co inside
  have count := h.count co holds
  have taken : ¬ w.ref = 0 := by omega
  have taken' : ¬ (depth : Int) = 0 := by omega
  have idle := h.idle fun _ both => taken both.1
  refine { h with
    outside := ?_, woken := ?_, empty := ?_, holder := ?_, count := ?_, order := ?_ }
  · intro c member
    have other : c ≠ co := by
      rintro rfl
      exact inside.ne' (h.outside c member).1
    exact ⟨(update_of_ne other ..).trans (h.outside c member).1, idle c⟩
  · intro c
    rw [idle c]
    exact iff_of_false nofun fun both => taken' both.1
  · intro none
    exact nomatch holds.symm.trans none
  · intro c deep
    by_cases here : c = co
    · rw [here]
      exact holds
    · exact h.holder c (update_of_ne here depth w.depth ▸ deep)
  · intro c same
    cases some.inj (holds.symm.trans same)
    simp
  · have order := h.order
    rw [handed, if_neg taken] at order
    rw [handed, if_neg taken']
    exact order

theorem Inv.nested (h : Inv w) (inside : 0 < w.depth co) : Inv (enter w co) := by
  have holds := h.holder co inside
  have same : enter w co = { w with
      ref := (w.depth co + 1 : Nat), depth := update w.depth co (w.depth co + 1) } := by
    simp [enter, inside.ne', h.count co holds, ← holds]
  rw [same]
  exact h.holding inside (Nat.succ_pos _)

theorem waits_still {s s' : Service} (still : Still s s' co)
    (old : (∃ session, s.place co = .wait session) ∧ s.sleepSession co ≠ none) :
    (∃ session, s'.place co = .wait session) ∧ s'.sleepSession co ≠ none := by
  rw [still.place, still.asleep]
  exact old

/-- Nobody has the section, and a coroutine is the next to enter. -/
structure Next (w : World) (co : Coroutine) : Prop where
  current : Current w.service
  blocked : ∀ co, w.blocked co = true →
    (∃ session, w.service.place co = .wait session) ∧ w.service.sleepSession co ≠ none
  waiting : ∀ c, w.blocked c = true ↔ c ∈ w.threadQueue
  distinct : w.threadQueue.Nodup
  away : co ∉ w.threadQueue
  asleep : ∀ c, w.woken c = false
  free : w.ref = 0
  empty : ∀ c, w.depth c = 0
  order : w.asked = w.entered ++ [co] ++ w.threadQueue
  sound : w.assertFailed = false

theorem Next.enter (h : Next w co) : Inv (enter w co) := by
  have one : (Queue.enter w co).ref = 1 := by
    change w.ref + 1 = 1
    rw [h.free]
    rfl
  have taken : ¬ (Queue.enter w co).ref = 0 := by
    rw [one]
    decide
  refine ⟨h.current, h.blocked, ?_, h.distinct, ?_, ?_, ?_, nofun, ?_, ?_, ?_, h.sound⟩
  · intro c
    rw [show (Queue.enter w co).woken c = false from h.asleep c]
    exact (h.waiting c).trans (by simp [Queue.enter])
  · intro c member
    have other : c ≠ co := by
      rintro rfl
      exact h.away member
    rw [enter_depth_other w co other]
    exact ⟨h.empty c, h.asleep c⟩
  · intro c
    exact iff_of_false (Bool.eq_false_iff.mp (h.asleep c)) fun both => taken both.1
  · intro c woken
    exact absurd woken (Bool.eq_false_iff.mp (h.asleep c))
  · intro c deep
    by_cases here : c = co
    · rw [here]
      rfl
    · rw [enter_depth_other w co here, h.empty c] at deep
      cases deep
  · intro c same
    cases some.inj same
    rw [one, enter_depth_here, h.empty co]
    rfl
  · rw [handed, if_neg taken, append_nil]
    change w.asked = (if w.depth co = 0 then w.entered ++ [co] else w.entered) ++ w.threadQueue
    rw [if_pos (h.empty co)]
    exact h.order

theorem ask_inv (h : Inv w) (control : w.service.control = .running co pending) :
    Inv (ask w co pending) := by
  obtain ⟨free, away, asleep⟩ := h.free control
  unfold ask
  rcases eq_none_or_eq_some w.currentThread with holds | ⟨thread, holds⟩
  · obtain ⟨unused, queue⟩ := h.empty holds
    have depth : ∀ c, w.depth c = 0 := fun c => h.depth_eq_zero (by rw [holds]; nofun)
    have idle := h.idle fun _ both => nomatch holds.symm.trans both.2
    have order : w.asked = w.entered := by
      rw [h.order, handed, if_pos unused, holds, queue]
      simp
    rw [if_neg (fun both => both.1 holds), if_pos (depth co)]
    apply Next.enter
    refine ⟨h.current, h.blocked, ?_, h.distinct, away, idle, unused, depth, ?_, h.sound⟩
    · intro c
      refine (h.waiting c).trans ?_
      rw [idle c]
      simp
    · change w.asked ++ [co] = w.entered ++ [co] ++ w.threadQueue
      rw [order, queue, append_nil]
  · by_cases same : thread = co
    · subst same
      have taken : w.ref ≠ 0 := by
        intro zero
        rw [(h.woken thread).mpr ⟨zero, holds⟩] at asleep
        cases asleep
      have inside : 0 < w.depth thread := by
        have := h.count thread holds
        omega
      rw [if_neg (fun both => both.2 holds), if_neg inside.ne']
      exact h.nested inside
    · have other : w.currentThread ≠ some co := by
        rw [holds]
        exact fun equal => same (some.inj equal)
      have outside : w.depth co = 0 := h.depth_eq_zero other
      have present : w.currentThread ≠ none := by
        rw [holds]
        nofun
      have blocked : ∀ c, update w.blocked co true c = true ↔ w.blocked c = true ∨ c = co := by
        intro c
        by_cases here : c = co <;> simp [here]
      have still : ∀ c, c ≠ co → Still w.service (sleep w.service co pending .wait) c :=
        fun c different => sleep_still w.service pending .wait different
      rw [if_pos ⟨present, other⟩, if_pos outside]
      refine ⟨nofun, ?_, ?_, ?_, ?_, h.woken, ?_, ?_, h.holder, h.count, ?_, h.sound⟩
      · intro c now
        by_cases here : c = co
        · subst here
          exact ⟨⟨newsession w.service, setPlace_here ..⟩, by simp [sleep, Service.setSleep]⟩
        · exact waits_still (still c here)
            (h.blocked c (((blocked c).mp now).resolve_right here))
      · intro c
        refine (blocked c).trans ?_
        rw [h.waiting c, mem_append, mem_singleton]
        exact or_right_comm
      · refine h.distinct.append (nodup_singleton co) ?_
        intro c member single
        cases mem_singleton.mp single
        exact away member
      · intro c member
        rcases mem_append.mp member with old | new
        · exact h.outside c old
        · cases mem_singleton.mp new
          exact ⟨outside, asleep⟩
      · intro c woken
        have different : c ≠ co := by
          rintro rfl
          exact nomatch asleep.symm.trans woken
        exact (still c different).woken (h.ready c woken)
      · exact fun none => absurd none present
      · change w.asked ++ [co] = w.entered ++ handed w ++ (w.threadQueue ++ [co])
        rw [h.order, append_assoc]

theorem leave_inv (h : Inv w) (inside : 0 < w.depth co) : Inv (xpcallRet w co) := by
  have holds := h.holder co inside
  have count := h.count co holds
  have taken : ¬ w.ref = 0 := by omega
  have idle := h.idle fun _ both => taken both.1
  have others : ∀ c, c ≠ co → w.depth c = 0 := by
    intro c other
    exact h.depth_eq_zero fun same => other (some.inj (same.symm.trans holds))
  have order : w.asked = w.entered ++ w.threadQueue := by
    rw [h.order, handed, if_neg taken, append_nil]
  unfold xpcallRet
  dsimp only
  split
  · rename_i released
    have last : w.depth co - 1 = 0 := by omega
    have gone : ∀ c, update w.depth co (w.depth co - 1) c = 0 := by
      intro c
      by_cases here : c = co
      · simp [here, last]
      · simp [here, others c here]
    split
    · rename_i queue
      refine { h with
        outside := ?_, woken := ?_, empty := fun _ => ⟨released, queue⟩, holder := ?_,
        count := nofun, order := ?_ }
      · intro c member
        rw [queue] at member
        cases member
      · intro c
        rw [idle c]
        exact iff_of_false nofun fun both => nomatch both.2
      · intro c deep
        exact absurd (gone c) deep.ne'
      · rw [handed, if_pos released]
        change w.asked = w.entered ++ [] ++ w.threadQueue
        rw [append_nil, order]
    · rename_i thread rest queue
      have distinct := nodup_cons.mp (queue ▸ h.distinct)
      have waits : w.blocked thread = true := (h.waiting thread).mpr (.inl (queue ▸ mem_cons_self))
      have woken : ∀ c, update w.woken thread true c = true ↔ c = thread := by
        intro c
        simp [update_iff, idle c]
      have still := wakeup_still w.service thread
      refine ⟨?_, ?_, ?_, distinct.2, ?_, ?_, ?_, nofun, ?_, ?_, ?_, h.sound⟩
      · intro c below running
        rw [(wakeup_control w.service thread).1] at running
        rw [(wakeup_control w.service thread).2]
        exact h.current c below running
      · intro c blocked
        exact waits_still (still c) (h.blocked c blocked)
      · intro c
        refine (h.waiting c).trans ?_
        rw [queue, idle c, mem_cons, woken c]
        simp [or_comm]
      · intro c member
        refine ⟨gone c, ?_⟩
        have other : c ≠ thread := by
          rintro rfl
          exact distinct.1 member
        exact (update_of_ne other ..).trans (idle c)
      · intro c
        refine (woken c).trans ?_
        simp only [released, true_and, Option.some.injEq]
        exact eq_comm
      · intro c now
        cases (woken c).mp now
        exact wakeup_mem (h.blocked thread waits).2
      · intro c deep
        exact absurd (gone c) deep.ne'
      · intro c same
        change w.ref - 1 = ((update w.depth co (w.depth co - 1) c : Nat) : Int)
        rw [gone c]
        exact released
      · rw [handed, if_pos released]
        change w.asked = w.entered ++ [thread] ++ rest
        rw [order, queue, append_assoc]
        rfl
  · have ref : w.ref - 1 = (w.depth co - 1 : Nat) := by omega
    rw [ref]
    exact h.holding inside (by omega)

theorem service_inv {a : Lualib.Action} {s : Service} (h : Inv w)
    (only : OnlyQueueWakes w (.service a)) (taken : Lualib.step w.service a = some s) :
    Inv (goOn { w with service := s }) := by
  have current := step_current h.current taken
  have either : ∀ c, w.blocked c = true →
      (∃ pending, s.control = .running c pending) ∨ Still w.service s c := by
    intro c blocked
    obtain ⟨⟨session, waits⟩, sleeping⟩ := h.blocked c blocked
    exact step_either h.current waits sleeping taken
  by_cases resumed : ∃ co pending, s.control = .running co pending ∧ w.blocked co = true
  · obtain ⟨co, pending, control, blocked⟩ := resumed
    have woken := only s co pending taken control blocked
    obtain ⟨free, holds⟩ := (h.woken co).mp woken
    have still : ∀ c, c ≠ co → w.blocked c = true → Still w.service s c := by
      intro c other waits
      refine (either c waits).resolve_left ?_
      rintro ⟨below, running⟩
      exact other (Control.running.inj (running.symm.trans control)).1
    have away : co ∉ w.threadQueue := by
      intro member
      exact nomatch (h.outside co member).2.symm.trans woken
    have alone : ∀ c, w.woken c = true → c = co := by
      intro c also
      exact some.inj (((h.woken c).mp also).2.symm.trans holds)
    have shut : ∀ c, update w.blocked co false c = true ↔ c ≠ co ∧ w.blocked c = true :=
      fun _ => update_ne_iff nofun
    unfold goOn
    rw [show ({ w with service := s } : World).service.control = .running co pending from control]
    dsimp only
    rw [if_pos blocked]
    unfold afterWait
    rw [if_pos free]
    apply Next.enter
    refine ⟨current, ?_, ?_, h.distinct, away, ?_, free, ?_, ?_, h.sound⟩
    · intro c now
      obtain ⟨other, waits⟩ := (shut c).mp now
      exact waits_still (still c other waits) (h.blocked c waits)
    · intro c
      refine (shut c).trans ?_
      rw [h.waiting c]
      constructor
      · rintro ⟨other, queued | also⟩
        · exact queued
        · exact absurd (alone c also) other
      · intro queued
        refine ⟨?_, .inl queued⟩
        rintro rfl
        exact away queued
    · intro c
      change update w.woken co false c = false
      by_cases here : c = co
      · simp [here]
      · simpa [here] using fun also => here (alone c also)
    · intro c
      by_contra inside
      have owner := h.holder c (Nat.pos_of_ne_zero inside)
      have count := h.count c owner
      rw [free] at count
      exact inside (Int.natCast_eq_zero.mp count.symm)
    · change w.asked = w.entered ++ [co] ++ w.threadQueue
      rw [h.order, handed, if_pos free, holds]
      rfl
  · have quiet : ∀ c, w.blocked c = true → Still w.service s c := by
      intro c waits
      refine (either c waits).resolve_left ?_
      rintro ⟨pending, running⟩
      exact resumed ⟨c, pending, running, waits⟩
    have same : goOn { w with service := s } = { w with service := s } := by
      unfold goOn
      split
      · rename_i co pending control
        split
        · rename_i waits
          exact absurd ⟨co, pending, control, waits⟩ resumed
        · rfl
      · rfl
    rw [same]
    refine { h with current := current, blocked := ?_, ready := ?_ }
    · intro c waits
      exact waits_still (quiet c waits) (h.blocked c waits)
    · intro c also
      exact (quiet c ((h.waiting c).mpr (.inr also))).woken (h.ready c also)

theorem step_inv {w' : World} {a : Action} (h : Inv w) (only : OnlyQueueWakes w a)
    (taken : step w a = some w') : Inv w' := by
  cases a with
  | service a =>
    simp only [step, ite_none_right_eq_some] at taken
    obtain ⟨s, moved, rfl⟩ := map_eq_some_iff.mp taken.2
    exact service_inv h only moved
  | ask =>
    obtain ⟨co, pending, control, rfl⟩ := step_ask taken
    exact ask_inv h control
  | leave ok =>
    obtain ⟨co, pending, control, inside, rfl⟩ := step_leave taken
    exact leave_inv h inside

end Steps

theorem start_inv : Inv World.start where
  current := nofun
  blocked := nofun
  waiting := fun _ => iff_of_false nofun (by simp [World.start])
  distinct := List.nodup_nil
  outside := nofun
  woken := fun _ => iff_of_false nofun fun both => nomatch both.2
  ready := nofun
  empty := fun _ => ⟨rfl, rfl⟩
  holder := nofun
  count := nofun
  order := rfl
  sound := rfl

theorem run_inv {w : World} (run : Reaches step OnlyQueueWakes World.start w) : Inv w :=
  run.invariant Inv start_inv fun _ _ _ => step_inv

/-- In every run in which only the queue wakes the coroutines that wait in it: one coroutine at
most is inside; they enter in the order in which they asked; the holder enters again at once; when
it leaves its outermost call, also by an error, the section is handed to the next waiter, which is
then woken; and the assertion after the wait does not fail. -/
theorem queue_critical_section (w : World) (run : Reaches step OnlyQueueWakes World.start w) :
    (∀ a b, Inside w a → Inside w b → a = b) ∧
    w.entered <+: w.asked ∧
    (∀ co pending w', w.service.control = .running co pending → Inside w co →
      step w .ask = some w' →
      w'.service.control = .running co pending ∧ w'.depth co = w.depth co + 1) ∧
    (∀ co pending ok w', w.service.control = .running co pending → w.depth co = 1 →
      step w (.leave ok) = some w' →
      ¬ Inside w' co ∧ w'.ref = 0 ∧ w'.currentThread = w.threadQueue.head? ∧
        w'.threadQueue = w.threadQueue.tail ∧
        ∀ next, w'.currentThread = some next → next ∈ w'.service.wakeupSession) ∧
    w.assertFailed = false := by
  have h := run_inv run
  refine ⟨?_, ?_, ?_, ?_, h.sound⟩
  · intro a b first second
    exact some.inj ((h.holder a first).symm.trans (h.holder b second))
  · rw [h.order, append_assoc]
    exact prefix_append ..
  · intro co pending w' control inside taken
    obtain ⟨co', pending', control', rfl⟩ := step_ask taken
    cases control.symm.trans control'
    have holds := h.holder co inside
    unfold ask
    rw [if_neg (fun both => both.2 holds)]
    exact ⟨control, enter_depth_here ..⟩
  · intro co pending ok w' control last taken
    have left := step_inv (a := .leave ok) h trivial taken
    obtain ⟨co', pending', control', inside, rfl⟩ := step_leave taken
    cases control.symm.trans control'
    have count := h.count co (h.holder co inside)
    have zero : w.ref - 1 = 0 := by omega
    obtain ⟨free, next, rest, depth⟩ := xpcallRet_last co zero
    refine ⟨?_, free, next, rest, ?_⟩
    · unfold Inside
      rw [depth, last]
      exact Nat.lt_irrefl 0
    · intro thread holds
      exact left.ready thread ((left.woken thread).mpr ⟨free, holds⟩)

def checked (w : World) : Action → Bool
  | .service a =>
    match Lualib.step w.service a with
    | some s =>
      match s.control with
      | .running co _ => !w.blocked co || w.woken co
      | _ => true
    | none => true
  | .ask | .leave _ => true

theorem checked_only (w : World) (a : Action) (check : checked w a = true) : OnlyQueueWakes w a := by
  cases a with
  | service a =>
    intro s co pending moved control blocked
    simp only [checked, moved, control, blocked] at check
    exact check
  | ask | leave _ => trivial

/- The first coroutine sleeps in the section, the second asks for it, and the first fails. -/
def handover : List Action :=
  [.service (.message (.response 1)), .service (.op (.fork 0 1)), .ask, .ask,
    .service (.op .sleep), .service (.wakeup none), .service .errors, .service (.fork (some 1)),
    .ask, .service (.wakeup none), .service .errors, .service (.fork none),
    .service (.message (.response 2)), .leave true, .leave false, .service (.op .fail),
    .service (.fork none), .service (.message (.request 0 7 2 true)), .service (.op .exit),
    .service (.wakeup (some 1))]

theorem queue_critical_section_handover :
    ∃ w, Reaches step OnlyQueueWakes World.start w ∧ w.entered = [0, 1] ∧ w.entered <+: w.asked ∧
      w.depth 1 = 1 ∧ w.assertFailed = false := by
  have run : Reaches step OnlyQueueWakes World.start _ :=
    reaches_of_checked checked checked_only handover rfl
  have held := queue_critical_section _ run
  exact ⟨_, run, rfl, held.2.1, rfl, held.2.2.2.2⟩

end Skynet.Lualib.Queue
