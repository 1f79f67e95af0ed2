import Skynet.Timer.Placement

/-! Timer exactness. The wheel refines a list of requests with deadlines counted in
ticks: each list of the wheel holds the pending requests that belong there, for
each deadline in the order in which they were added. -/
namespace Skynet.TimerWheel
open Base List Option

def atDeadline (k : Nat) (as : List Added) : List TimerNode :=
  (as.filter (fun a => a.deadline = k)).map Added.node

variable {k now : Nat} {n : TimerNode} {T : Timer} {pending : List Added} {h : History}

theorem mem_atDeadline {as : List Added} :
    n ∈ atDeadline k as ↔ ∃ a ∈ as, a.deadline = k ∧ a.node = n := by
  simp only [atDeadline, List.mem_map, List.mem_filter, decide_eq_true_eq, and_assoc]

theorem atDeadline_append (k : Nat) (as bs : List Added) :
    atDeadline k (as ++ bs) = atDeadline k as ++ atDeadline k bs := by
  simp [atDeadline]

structure Placed (T : Timer) (now : Nat) (pending : List Added) : Prop where
  clock : T.time = now % 2 ^ 32
  window : ∀ a ∈ pending, now ≤ a.deadline ∧ a.deadline < now + 2 ^ 31
  expire : ∀ a ∈ pending, a.node.expire = a.deadline % 2 ^ 32
  known : ∀ s, ∀ n ∈ T.list s, ∃ a ∈ pending, a.node = n
  sorted : ∀ s k, now ≤ k → k < now + 2 ^ 31 →
    (T.list s).filter (fun n => n.expire = k % 2 ^ 32) =
      if place now k = s then atDeadline k pending else []

theorem deadline_of_expire {j : Nat} (hj : now ≤ j ∧ j < now + 2 ^ 31)
    (hk : now ≤ k ∧ k < now + 2 ^ 31) : j % 2 ^ 32 = k % 2 ^ 32 ↔ j = k := by
  omega

theorem placed_initial : Placed timerCreateTimer 0 [] := by
  constructor
  · rfl
  · simp
  · simp
  · intro s n member
    cases s <;> simp [timerCreateTimer, Timer.list] at member
  · intro s k _ _
    cases s <;> simp [timerCreateTimer, Timer.list, atDeadline]

theorem Placed.slot (h : Placed T now pending) {s : Slot} (member : n ∈ T.list s) :
    ∃ a ∈ pending, a.node = n ∧ place now a.deadline = s := by
  obtain ⟨a, ha, rfl⟩ := h.known s n member
  have range := h.window a ha
  have found : a.node ∈ (T.list s).filter (fun n => n.expire = a.deadline % 2 ^ 32) :=
    mem_filter.mpr ⟨member, by simp [h.expire a ha]⟩
  rw [h.sorted s a.deadline range.1 range.2] at found
  split at found
  · rename_i here
    exact ⟨a, ha, rfl, here⟩
  · simp at found

theorem placed_add (h : Placed T now pending) (a : Added)
    (range : now ≤ a.deadline ∧ a.deadline < now + 2 ^ 31)
    (expire : a.node.expire = a.deadline % 2 ^ 32) :
    Placed (addNode T a.node) now (pending ++ [a]) := by
  have slot : slotOf T.time a.node.expire = place now a.deadline := by
    rw [h.clock, expire, slotOf_eq_place range.1 range.2]
  rw [addNode_eq_link, slot]
  constructor
  · rw [link_time]; exact h.clock
  · intro b hb
    rcases mem_append.mp hb with hb | hb
    · exact h.window b hb
    · cases mem_singleton.mp hb; exact range
  · intro b hb
    rcases mem_append.mp hb with hb | hb
    · exact h.expire b hb
    · cases mem_singleton.mp hb; exact expire
  · intro s n member
    rw [link_list] at member
    have old_or_new : n ∈ T.list s ∨ n = a.node := by
      split at member
      · simpa using member
      · exact .inl member
    rcases old_or_new with old | rfl
    · obtain ⟨b, hb, hn⟩ := h.known s n old
      exact ⟨b, mem_append_left _ hb, hn⟩
    · exact ⟨a, by simp, rfl⟩
  · intro s k low high
    have single : atDeadline k [a] = if a.deadline = k then [a.node] else [] := by
      by_cases eq : a.deadline = k <;> simp [atDeadline, eq]
    have old := h.sorted s k low high
    rw [link_list, atDeadline_append, single]
    by_cases eq : a.deadline = k
    · subst eq
      by_cases here : place now a.deadline = s
      · rw [if_pos here] at old
        rw [if_pos here, if_pos here.symm, filter_append, old]
        simp [-Nat.reducePow, expire]
      · rw [if_neg here] at old
        rw [if_neg here, if_neg (fun e => here e.symm), old]
    · have other : ¬ a.node.expire = k % 2 ^ 32 := by
        rw [expire, deadline_of_expire range ⟨low, high⟩]; exact eq
      rw [if_neg eq, append_nil, ← old]
      split <;> simp [-Nat.reducePow, filter_append, other]

theorem foldl_addNode_time (nodes : List TimerNode) (T : Timer) :
    (nodes.foldl addNode T).time = T.time := by
  induction nodes generalizing T with
  | nil => rfl
  | cons n nodes ih => rw [foldl_cons, ih, addNode_eq_link, link_time]

theorem foldl_addNode_list (nodes : List TimerNode) (T : Timer) (s : Slot) :
    (nodes.foldl addNode T).list s =
      T.list s ++ nodes.filter (fun n => slotOf T.time n.expire = s) := by
  induction nodes generalizing T with
  | nil => simp
  | cons n nodes ih =>
    rw [foldl_cons, ih, addNode_eq_link, link_time, link_list]
    by_cases here : slotOf T.time n.expire = s
    · simp [here]
    · have elsewhere : ¬ s = slotOf T.time n.expire := fun h => here h.symm
      simp [here, elsewhere]

theorem atDeadline_nil (free : ∀ a ∈ pending, a.deadline ≠ k) :
    atDeadline k pending = [] := by
  simpa [atDeadline, filter_eq_nil_iff] using free

/- No timer is due at the far end of the window, which the next tick opens. -/
theorem Placed.edge {nodes : List TimerNode} {p : Prop} [Decidable p] (h : Placed T now pending)
    (known : ∀ n ∈ nodes, ∃ a ∈ pending, a.node = n) (edge : k = now + 2 ^ 31) :
    nodes.filter (fun n => n.expire = k % 2 ^ 32) = if p then atDeadline k pending else [] := by
  have free : ∀ a ∈ pending, a.deadline ≠ k := fun a ha => by
    have range := h.window a ha
    omega
  rw [atDeadline_nil free, ite_self, filter_eq_nil_iff]
  intro n member due
  obtain ⟨a, ha, rfl⟩ := known n member
  have bounds := h.window a ha
  rw [decide_eq_true_eq, h.expire a ha] at due
  omega

section
variable (held : Placed T now pending) (later : ∀ a ∈ pending, now < a.deadline)
include held later

/- The time advances when nothing is due any more. -/
theorem Placed.next {T' : Timer} (clock : T'.time = (now + 1) % 2 ^ 32)
    (known : ∀ s, ∀ n ∈ T'.list s, ∃ a ∈ pending, a.node = n)
    (sorted : ∀ s k, now < k → k < now + 2 ^ 31 →
      (T'.list s).filter (fun n => n.expire = k % 2 ^ 32) =
        if place (now + 1) k = s then atDeadline k pending else []) :
    Placed T' (now + 1) pending := by
  refine ⟨clock, fun a ha => ?_, held.expire, known, fun s k low high => ?_⟩
  · have range := held.window a ha
    have ahead := later a ha
    omega
  · by_cases edge : k = now + 2 ^ 31
    · exact held.edge (known s) edge
    · exact sorted s k low (by omega)

/- Moving the list of a slot when the time advances: its nodes go where the new
time puts them, the nodes of every other list stay. -/
theorem placed_move {i idx : Nat} (moved : carry (now + 1) = some (i, idx)) :
    Placed (moveList { T with time := (now + 1) % 2 ^ 32 } i idx) (now + 1) pending := by
  have lists : ∀ s, (moveList { T with time := (now + 1) % 2 ^ 32 } i idx).list s =
      (if s = .level i idx then [] else T.list s) ++
        (T.list (.level i idx)).filter (fun n => slotOf ((now + 1) % 2 ^ 32) n.expire = s) := by
    intro s
    rw [moveList, foldl_addNode_list]
    congr 1
    cases s <;> simp [clearLevel, Timer.list]
  refine held.next later (by rw [moveList, foldl_addNode_time]; rfl) ?_ ?_
  · intro s n member
    rw [lists] at member
    rcases mem_append.mp member with old | new
    · split at old
      · simp at old
      · exact held.known s n old
    · exact held.known _ n (mem_filter.mp new).1
  · intro s k low inside
    have target : ∀ n : TimerNode, n.expire = k % 2 ^ 32 →
        slotOf ((now + 1) % 2 ^ 32) n.expire = place (now + 1) k := by
      intro n due
      rw [due, slotOf_eq_place low (by omega)]
    have arrived : ((T.list (.level i idx)).filter
          (fun n => slotOf ((now + 1) % 2 ^ 32) n.expire = s)).filter
            (fun n => n.expire = k % 2 ^ 32) =
        if place (now + 1) k = s then
          (T.list (.level i idx)).filter (fun n => n.expire = k % 2 ^ 32)
        else [] := by
      rw [List.filter_filter]
      split
      · rename_i here
        apply filter_congr
        intro n _
        by_cases due : n.expire = k % 2 ^ 32
        · simp [-Nat.reducePow, due, ← here, ← target n due]
        · simp [-Nat.reducePow, due]
      · rename_i elsewhere
        rw [filter_eq_nil_iff]
        intro n _ both
        simp only [Bool.and_eq_true, decide_eq_true_eq] at both
        exact elsewhere ((target n both.1).symm.trans both.2)
    rw [lists, filter_append, arrived, held.sorted _ k low.le inside]
    by_cases carried : place now k = .level i idx
    · rw [if_pos carried]
      split
      · simp
      · rename_i other
        rw [held.sorted s k low.le inside, if_neg (fun e => other (e.symm.trans carried)),
          nil_append]
    · have stays : place (now + 1) k = place now k := by
        apply place_stays low
        intro j jdx again
        rw [moved] at again
        cases again
        exact carried
      rw [if_neg carried, ite_self, append_nil, stays]
      split
      · rename_i same
        rw [filter_nil, if_neg (fun e => carried (e.trans same))]
      · exact held.sorted s k low.le inside

theorem placed_still (still : carry (now + 1) = none) :
    Placed { T with time := (now + 1) % 2 ^ 32 } (now + 1) pending := by
  have lists : ∀ s, Timer.list { T with time := (now + 1) % 2 ^ 32 } s = T.list s := by
    intro s; cases s <;> rfl
  refine held.next later rfl (fun s n member => held.known s n (lists s ▸ member)) ?_
  intro s k low inside
  have stays : place (now + 1) k = place now k :=
    place_stays low (fun i idx again => by rw [still] at again; cases again)
  rw [stays]
  exact held.sorted s k low.le inside

/- One shift: the loop breaks in time and every node is where the new time wants it. -/
theorem placed_shift :
    ∃ T', timerShift T = some T' ∧ Placed T' (now + 1) pending := by
  rw [timerShift_eq_carry T now held.clock]
  cases moved : carry (now + 1) with
  | none => exact ⟨_, rfl, placed_still held later moved⟩
  | some target => exact ⟨_, rfl, placed_move held later moved⟩

end

theorem Placed.index (h : Placed T now pending) : T.time &&& timeNearMask = now % 2 ^ 8 := by
  have mask : timeNearMask = 2 ^ 8 - 1 := by decide
  rw [mask, and_mask, h.clock]
  omega

theorem placed_due (h : Placed T now pending) :
    T.near (T.time &&& timeNearMask) = atDeadline now pending := by
  have all := h.sorted (.near (now % 2 ^ 8)) now (Nat.le_refl _) (by omega)
  rw [if_pos (place_now now)] at all
  rw [h.index, ← all]
  symm
  apply filter_eq_self.mpr
  intro n member
  obtain ⟨a, ha, rfl, here⟩ := h.slot member
  rw [decide_eq_true_eq, h.expire a ha, place_near here]

def pendingAfter (now : Nat) (as : List Added) : List Added :=
  as.filter (fun a => now < a.deadline)

theorem atDeadline_pendingAfter (now k : Nat) (as : List Added) :
    atDeadline k (pendingAfter now as) = if now < k then atDeadline k as else [] := by
  simp only [atDeadline, pendingAfter, List.filter_filter]
  split
  · congr 1
    apply List.filter_congr
    intro a _
    by_cases eq : a.deadline = k <;> simp_all
  · rw [List.map_eq_nil_iff, List.filter_eq_nil_iff]
    intro a _ both
    simp only [Bool.and_eq_true, decide_eq_true_eq] at both
    omega

theorem placed_clear (h : Placed T now pending) :
    Placed (clearNear T (T.time &&& timeNearMask)) now (pendingAfter now pending) := by
  have lists : ∀ s, (clearNear T (now % 2 ^ 8)).list s =
      if s = .near (now % 2 ^ 8) then [] else T.list s := by
    intro s; cases s <;> simp [clearNear, Timer.list]
  rw [h.index]
  constructor
  · exact h.clock
  · exact fun a ha => h.window a (mem_filter.mp ha).1
  · exact fun a ha => h.expire a (mem_filter.mp ha).1
  · intro s n member
    rw [lists] at member
    split at member
    · simp at member
    · rename_i other
      obtain ⟨a, ha, rfl, here⟩ := h.slot member
      have range := h.window a ha
      have late : now ≠ a.deadline := fun due => other (by rw [← here, ← due, place_now])
      exact ⟨a, mem_filter.mpr ⟨ha, by simpa using by omega⟩, rfl⟩
  · intro s k low high
    rw [lists, atDeadline_pendingAfter]
    split
    · rename_i near
      rw [filter_nil]
      split
      · rename_i here
        rw [if_neg]
        have due := place_near (here.trans near)
        omega
      · rfl
    · rename_i other
      rw [h.sorted s k low high]
      split
      · rename_i here
        have late : k ≠ now := fun due => other (by rw [← here, due, place_now])
        rw [if_pos (by omega)]
      · rfl

/-- What a run keeps: the pending requests are placed, and the log holds, for every
tick made so far, the requests with that deadline and no others. -/
structure Exact (h : History) : Prop where
  placed : Placed h.timer h.ticks (pendingAfter h.ticks h.added)
  range : ∀ a ∈ h.added, InRange a.duration ∧ a.tick ≤ h.ticks
  expire : ∀ a ∈ h.added, a.time = a.tick % 2 ^ 32 ∧ a.node.expire = a.deadline % 2 ^ 32
  log : ∀ k, h.log.filter (fun e => e.2 = k) =
    if k ≤ h.ticks then (atDeadline k h.added).map (fun n => (n, k)) else []
  addrs : h.added.map (fun a => a.node.addr) = List.range h.added.length

theorem exact_initial : Exact initial := by
  constructor
  · exact placed_initial
  · simp [initial]
  · simp [initial]
  · intro k; simp [initial, atDeadline]
  · rfl

theorem exact_add (exact : Exact h) (request : TimerEvent × Nat) (range : InRange request.2) :
    Exact (add h request) := by
  obtain ⟨low, high⟩ := range
  have clock := exact.placed.clock
  let a : Added := ⟨⟨h.added.length, request.1, (request.2 + h.timer.time) % 2 ^ 32⟩,
    h.ticks, h.timer.time, request.2⟩
  have expire : a.node.expire = a.deadline % 2 ^ 32 := by
    show (request.2 + h.timer.time) % 2 ^ 32 = (h.ticks + request.2) % 2 ^ 32
    omega
  have late : h.ticks < a.deadline := by
    show h.ticks < h.ticks + request.2
    omega
  have close : a.deadline < h.ticks + 2 ^ 31 := by
    show h.ticks + request.2 < h.ticks + 2 ^ 31
    omega
  have split : ∀ b ∈ h.added ++ [a], b ∈ h.added ∨ b = a := fun b hb => by simpa using hb
  have later : pendingAfter h.ticks (h.added ++ [a]) = pendingAfter h.ticks h.added ++ [a] := by
    simp [pendingAfter, late]
  constructor
  · show Placed (addNode h.timer a.node) h.ticks (pendingAfter h.ticks (h.added ++ [a]))
    rw [later]
    exact placed_add exact.placed a ⟨Nat.le_of_lt late, close⟩ expire
  · intro b hb
    rcases split b hb with old | rfl
    · exact exact.range b old
    · exact ⟨⟨low, high⟩, Nat.le_refl _⟩
  · intro b hb
    rcases split b hb with old | rfl
    · exact exact.expire b old
    · exact ⟨clock, expire⟩
  · intro k
    show h.log.filter _ = if k ≤ h.ticks then (atDeadline k (h.added ++ [a])).map _ else []
    rw [exact.log k]
    split
    · have other : ∀ b ∈ [a], b.deadline ≠ k := by simp; omega
      rw [atDeadline_append, atDeadline_nil other, append_nil]
    · rfl
  · show (h.added ++ [a]).map (fun b => b.node.addr) = List.range (h.added ++ [a]).length
    rw [map_append, exact.addrs, length_append, length_singleton, range_succ]
    rfl

theorem exact_adds (exact : Exact h) (requests : List (TimerEvent × Nat))
    (range : ∀ r ∈ requests, InRange r.2) : Exact (requests.foldl add h) := by
  induction requests generalizing h with
  | nil => exact exact
  | cons r requests ih =>
    exact ih (exact_add exact r (range r (by simp))) (fun q hq => range q (by simp [hq]))

/- Between ticks nothing is due, so the first loop of timer_update finds nothing. -/
theorem execute_rest (exact : Exact h) (tick : Nat) (windows : List (List (TimerEvent × Nat))) :
    timerExecute tick windows h = h := by
  have empty : h.timer.near (h.timer.time &&& timeNearMask) = [] := by
    rw [placed_due exact.placed, atDeadline_pendingAfter, if_neg (Nat.lt_irrefl _)]
  cases windows <;> simp [timerExecute, empty]

theorem pendingAfter_succ (now : Nat) (as : List Added) :
    pendingAfter (now + 1) (pendingAfter now as) = pendingAfter (now + 1) as := by
  simp only [pendingAfter, List.filter_filter]
  apply List.filter_congr
  intro a _
  by_cases late : now + 1 < a.deadline
  · have before : now < a.deadline := by omega
    simp [late, before]
  · simp [late]

theorem exact_tick (exact : Exact h)
    (placed : Placed T (h.ticks + 1) (pendingAfter (h.ticks + 1) h.added)) :
    Exact { h with
      timer := T
      ticks := h.ticks + 1
      log := h.log ++ (atDeadline (h.ticks + 1) h.added).map (fun n => (n, h.ticks + 1)) } := by
  constructor
  · exact placed
  · intro a ha
    obtain ⟨range, past⟩ := exact.range a ha
    exact ⟨range, Nat.le_succ_of_le past⟩
  · exact exact.expire
  · intro k
    rw [filter_append, exact.log k]
    by_cases now : k = h.ticks + 1
    · subst now
      simp [List.filter_map, Function.comp_def]
    · have skipped : ((atDeadline (h.ticks + 1) h.added).map (fun n => (n, h.ticks + 1))).filter
          (fun e => decide (e.2 = k)) = [] := by
        simp [filter_eq_nil_iff, Ne.symm now]
      have past : k ≤ h.ticks + 1 ↔ k ≤ h.ticks := by omega
      rw [skipped, append_nil, if_congr past rfl rfl]
  · exact exact.addrs

theorem exact_update (exact : Exact h) (before after : List (List (TimerEvent × Nat)))
    (range : ∀ adds ∈ after, ∀ r ∈ adds, InRange r.2) :
    ∃ h', timerUpdate before after h = some h' ∧ Exact h' := by
  have later : ∀ a ∈ pendingAfter h.ticks h.added, h.ticks < a.deadline :=
    fun a ha => by simpa using (mem_filter.mp ha).2
  obtain ⟨T, shifted, placed⟩ := placed_shift exact.placed later
  have due : T.near (T.time &&& timeNearMask) = atDeadline (h.ticks + 1) h.added := by
    rw [placed_due placed, atDeadline_pendingAfter, if_pos (Nat.lt_succ_self _)]
  have cleared := placed_clear placed
  rw [pendingAfter_succ] at cleared
  have fired := exact_tick exact cleared
  refine ⟨_, by rw [timerUpdate, execute_rest exact, shifted]; rfl, ?_⟩
  by_cases idle : atDeadline (h.ticks + 1) h.added = []
  · have kept : pendingAfter (h.ticks + 1) h.added = pendingAfter h.ticks h.added := by
      apply filter_congr
      intro a ha
      have apart : a.deadline ≠ h.ticks + 1 := fun eq => by
        have member := mem_atDeadline.mpr ⟨a, ha, eq, rfl⟩
        simp [idle] at member
      simp only [decide_eq_decide]
      omega
    have quiet := exact_tick exact (T := T) (by rw [kept]; exact placed)
    cases after <;> simpa [timerExecute, due, idle] using quiet
  · cases after with
    | nil => simpa [timerExecute, due, idle] using fired
    | cons adds windows =>
      have added := exact_adds fired adds (fun r hr => range adds (by simp) r hr)
      simp only [timerExecute, due, idle, if_false]
      rw [execute_rest added]
      exact added

theorem exact_step (exact : Exact h) (op : Op) (valid : op.Valid) :
    ∃ h', step h op = some h' ∧ Exact h' := by
  cases op with
  | add event duration => exact ⟨_, rfl, exact_add exact (event, duration) valid⟩
  | update before after => exact exact_update exact before after valid.2

theorem exact_run (reached : Base.Reaches step (fun _ op => op.Valid) initial h) : Exact h := by
  refine reached.invariant Exact exact_initial ?_
  intro h op h' exact valid taken
  obtain ⟨next, stepped, kept⟩ := exact_step exact op valid
  cases some.inj (taken.symm.trans stepped)
  exact kept

theorem nodes_distinct (exact : Exact h) : (h.added.map Added.node).Nodup := by
  have addrs : ((h.added.map Added.node).map TimerNode.addr).Nodup := by
    rw [List.map_map]
    exact exact.addrs ▸ nodup_range
  exact List.Nodup.of_map _ addrs

/- Each request is in the log once, at its deadline, as soon as that tick was made. -/
theorem count_log (exact : Exact h) (a : Added) (member : a ∈ h.added) (k : Nat) :
    h.log.count (a.node, k) = if k = a.deadline ∧ k ≤ h.ticks then 1 else 0 := by
  have inTick : h.log.count (a.node, k) = (h.log.filter (fun e => e.2 = k)).count (a.node, k) := by
    rw [count_filter]; simp
  rw [inTick, exact.log k]
  have distinct := nodes_distinct exact
  by_cases past : k ≤ h.ticks
  · have pairs : ((atDeadline k h.added).map (fun n => (n, k))).count (a.node, k) =
        (atDeadline k h.added).count a.node :=
      count_map_of_injective _ _ (fun x y eq => (Prod.mk.inj eq).1) _
    rw [if_pos past, pairs]
    have once : (atDeadline k h.added).Nodup := distinct.sublist (filter_sublist.map _)
    by_cases here : k = a.deadline
    · rw [if_pos ⟨here, past⟩]
      exact count_eq_one_of_mem once (mem_atDeadline.mpr ⟨a, member, here.symm, rfl⟩)
    · rw [if_neg (fun both => here both.1)]
      apply count_eq_zero.mpr
      intro found
      obtain ⟨b, hb, eq, same⟩ := mem_atDeadline.mp found
      have ab : b = a := inj_on_of_nodup_map distinct hb member same
      exact here (by rw [← eq, ab])
  · rw [if_neg past, if_neg (fun both => past both.2)]
    rfl

/-- Timer exactness. In every run the loop of timer_shift answers, T->time is the
number of ticks modulo 2^32, and each node is dispatched once, in the tick that
ends at its expiry, and not before that tick is made. -/
theorem timer_dispatches_exactly (h : History)
    (reached : Base.Reaches step (fun _ op => op.Valid) initial h) :
    h.timer.time = h.ticks % 2 ^ 32 ∧
    (h.added.map Added.node).Nodup ∧
    (∀ a ∈ h.added,
      a.node.expire = (a.time + a.duration) % 2 ^ 32 ∧
      (a.tick + a.duration) % 2 ^ 32 = a.node.expire ∧
      ∀ k, h.log.count (a.node, k) = if k = a.tick + a.duration ∧ k ≤ h.ticks then 1 else 0) ∧
    (∀ e ∈ h.log, e.1 ∈ h.added.map Added.node) ∧
    (timerShift h.timer).isSome ∧
    (∀ op : Op, op.Valid → (step h op).isSome) := by
  have exact := exact_run reached
  refine ⟨exact.placed.clock, nodes_distinct exact, ?_, ?_, ?_, ?_⟩
  · intro a ha
    obtain ⟨time, expire⟩ := exact.expire a ha
    refine ⟨?_, expire.symm, count_log exact a ha⟩
    rw [expire, time, Added.deadline]
    omega
  · rintro ⟨n, k⟩ he
    have found : (n, k) ∈ h.log.filter (fun x => x.2 = k) := mem_filter.mpr ⟨he, by simp⟩
    rw [exact.log k] at found
    split at found
    · obtain ⟨m, hm, same⟩ := mem_map.mp found
      cases same
      obtain ⟨a, ha, _, rfl⟩ := mem_atDeadline.mp hm
      exact mem_map_of_mem ha
    · simp at found
  · obtain ⟨T, shifted, _⟩ := placed_shift exact.placed
      (fun a ha => by simpa using (mem_filter.mp ha).2)
    rw [shifted]; rfl
  · intro op valid
    obtain ⟨h', taken, _⟩ := exact_step exact op valid
    rw [taken]; rfl

/- A request for one tick, dispatched by the first call of timer_update. -/
theorem timer_dispatches_first_tick :
    ∃ h : History, h.ticks = 1 ∧ h.added.length = 1 ∧
      ∀ a ∈ h.added, h.log.count (a.node, 1) = 1 := by
  have added : Base.Reaches step (fun _ op => op.Valid) initial (add initial (⟨7, 1⟩, 1)) :=
    .next .start (a := .add ⟨7, 1⟩ 1) ⟨by decide, by decide⟩ rfl
  obtain ⟨h, taken⟩ : ∃ h, step (add initial (⟨7, 1⟩, 1)) (.update [] []) = some h := ⟨_, rfl⟩
  have quiet : (Op.update [] []).Valid := ⟨by simp, by simp⟩
  have clock : h.ticks = 1 := by cases some.inj taken; rfl
  have requests : h.added = (add initial (⟨7, 1⟩, 1)).added := by
    cases some.inj taken; rfl
  have facts := timer_dispatches_exactly h (.next added quiet taken)
  refine ⟨h, clock, by rw [requests]; rfl, ?_⟩
  intro a ha
  rw [(facts.2.2.1 a ha).2.2 1, clock]
  rw [requests] at ha
  cases mem_singleton.mp ha
  rfl

end Skynet.TimerWheel
