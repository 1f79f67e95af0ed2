import Skynet.Socketchannel.Apart

/-! The dispatch coroutine and the results it hands out. -/
namespace Skynet.Socketchannel
open Base List Function Option

variable {desc : Desc} {w : World} {c : Conn} {n : Nat}

theorem pending_setDispatch (own : c = w.opened) (d : Dispatch) :
    (w.setDispatch c d).pending = d.held ++ w.thread := by
  subst own
  simp [World.pending, World.setDispatch]

variable {d : Dispatch} {thread : List (Nat × Nat)} {ticket : Ticket} {padding blocked : Bool}
  {key number : Nat} {held : Option (Nat × Nat)}

theorem Apart.advance {reads : Conn → Nat} (apart : Apart desc w) (own : c = w.opened)
    (fewer : (d.held ++ thread).Sublist w.pending)
    (here : ∀ so held blocked, d = .reading (some so) held blocked → so = w.opened)
    (fails : ∀ fd so held, d = .closing fd (some so) held → so = w.opened)
    (stops : d.stopped = true → w.sock = none)
    (numbers : desc.response = false →
      ∃ first, (d.held ++ thread).map Prod.fst = List.range' first (d.held ++ thread).length ∧
        (w.sock ≠ none → first + (d.held ++ thread).length = w.writes w.opened) ∧
          (w.sock ≠ none ∨ d.taken ≠ 0 → reads w.opened = first + d.taken)) :
    Apart desc ({ w with thread := thread, reads := reads }.setDispatch c d) := by
  subst own
  have mine : update w.dispatch w.opened d w.opened = d := update_self ..
  have others : ∀ c, c ≠ w.opened → update w.dispatch w.opened d c = w.dispatch c :=
    fun c other => update_of_ne other _ _
  have pending : ({ w with thread := thread, reads := reads }.setDispatch w.opened d).pending =
      d.held ++ thread := pending_setDispatch rfl d
  obtain ⟨⟨a, live, reading, failing, stopped, e, f, g, u⟩, ⟨h, i, j, k, l, m⟩, closes, log⟩ :=
    apart
  refine ⟨⟨a, ?_, ?_, ?_, ?_, e, f, g, u⟩, ⟨?_, ?_, j, k, l, fun order => ⟨?_⟩⟩, closes, log⟩
  · intro c alive
    by_contra other
    exact other (live c (others c other ▸ alive))
  · intro c so held blocked now
    rcases update_iff.mp now with ⟨-, now⟩ | ⟨-, now⟩
    · exact here so held blocked now
    · exact reading c so held blocked now
  · intro c fd so held now
    rcases update_iff.mp now with ⟨-, now⟩ | ⟨-, now⟩
    · exact fails fd so held now
    · exact failing c fd so held now
  · intro c now
    by_cases this : c = w.opened
    · subst this
      exact stops (mine ▸ now)
    · exact stopped c (others c this ▸ now)
  · rw [pending]
    exact fun p member => h p (fewer.subset member)
  · rw [pending]
    exact List.Nodup.sublist (fewer.map _) i
  · rw [pending]
    obtain ⟨first, keys, writes, counted⟩ := numbers order
    refine ⟨first, keys, writes, ?_⟩
    change _ ∨ (update w.dispatch w.opened d w.opened).taken ≠ 0 →
      reads w.opened = first + (update w.dispatch w.opened d w.opened).taken
    rw [mine]
    exact counted

theorem Apart.setDispatch (apart : Apart desc w) (own : c = w.opened)
    (held : d.held = (w.dispatch c).held) (taken : d.taken = (w.dispatch c).taken)
    (here : ∀ so held blocked, d = .reading (some so) held blocked → so = w.opened)
    (fails : ∀ fd so held, d = .closing fd (some so) held → so = w.opened)
    (stops : d.stopped = true → w.sock = none) : Apart desc (w.setDispatch c d) := by
  subst own
  refine apart.advance rfl ?_ here fails stops fun order => ?_
  · rw [held]
    exact List.Sublist.refl _
  · obtain ⟨first, numbers⟩ := (apart.answers.ordered order).numbers
    rw [held, taken]
    exact ⟨first, numbers⟩

theorem taken_eq_held (going : d.stopped ≠ true) : d.taken = d.held.length := by
  cases d with
  | ended | looping | popping => rfl
  | reading so held blocked =>
    cases so with
    | none => exact absurd rfl going
    | some so => rfl
  | closing fd so held => exact absurd rfl going

section
variable (apart : Apart desc w)
include apart

theorem Apart.release (own : c = w.opened) :
    Apart desc (w.setDispatch c .looping) := by
  subst own
  refine apart.advance rfl (sublist_append_right _ _) nofun nofun nofun fun order => ?_
  obtain ⟨first, keys, writes, counted⟩ := (apart.answers.ordered order).numbers
  refine ⟨first + (w.dispatch w.opened).held.length, ?_, ?_, ?_⟩
  · rw [World.pending, map_append, length_append, ← range'_append_1] at keys
    exact (append_inj keys (by simp)).2
  · intro sock
    have counted := writes sock
    rw [World.pending, length_append, ← Nat.add_assoc] at counted
    exact counted
  · intro some'
    have sock : w.sock ≠ none := some'.resolve_right (absurd rfl)
    rw [← taken_eq_held fun now => sock (apart.current.stopped _ now)]
    exact counted (.inl sock)

theorem Apart.popResponse (own : c = w.opened)
    (idle : (w.dispatch c).held = [] ∧ (w.dispatch c).taken = 0) :
    Apart desc (w.popResponse c) := by
  subst own
  unfold World.popResponse
  split
  next empty =>
    apply Apart.sleep
    apply Apart.setWaitResponse
    exact apart.setDispatch rfl idle.1.symm idle.2.symm nofun nofun nofun
  next p later waiting =>
    have pending : w.pending = p :: later := by
      rw [World.pending, idle.1, waiting]
      rfl
    refine apart.advance rfl ?_ ?_ nofun ?_ fun order => ?_
    · rw [pending]
      exact List.Sublist.refl _
    · intro so held blocked now
      exact apart.current.sock so (Dispatch.reading.inj now).1
    · intro stopped
      cases known : w.sock with
      | none => rfl
      | some so =>
        rw [known] at stopped
        cases stopped
    · obtain ⟨first, keys, writes, counted⟩ := (apart.answers.ordered order).numbers
      rw [pending] at keys writes
      refine ⟨first, keys, writes, ?_⟩
      cases known : w.sock with
      | none => exact fun some' => absurd some' (by simp [Dispatch.taken])
      | some so =>
        intro
        rw [apart.current.sock so known]
        dsimp only
        rw [update_self]
        have before := counted (.inl (known ▸ some_ne_none so))
        rw [idle.2] at before
        rw [before]
        rfl

theorem Apart.dispatchLoop (own : c = w.opened) (head : w.dispatch c = .looping) :
    Apart desc (w.dispatchLoop desc c) := by
  unfold World.dispatchLoop
  split
  · refine apart.setDispatch own ?_ ?_ nofun nofun nofun
    · rw [head]
      rfl
    · rw [head]
      rfl
  next so known =>
    split
    · refine apart.setDispatch own ?_ ?_ ?_ nofun nofun
      · rw [head]
        rfl
      · rw [head]
        rfl
      · intro so' held blocked now
        cases now
        exact apart.current.sock so known
    · apply apart.popResponse own
      rw [head]
      exact ⟨rfl, rfl⟩

theorem Apart.setResult {r : Result} (waiting : w.task n = .waiting ticket)
    (free : ∀ p ∈ w.pending, p.2 ≠ n) (fits : Fits ticket r) : Apart desc (w.setResult n r) := by
  apply Apart.wakeup
  obtain ⟨⟨a, b, c, d, s, e, f, g, u⟩, ⟨h, i, j, k, l, m⟩, closes, log⟩ := apart
  refine ⟨⟨a, b, c, d, s, e, f, g, u⟩, ⟨?_, i, ?_, ?_, ?_, fun order => ⟨(m order).numbers⟩⟩,
    closes, log⟩
  · intro p member
    obtain ⟨now, none'⟩ := h p member
    exact ⟨now, (update_of_ne (free p member) _ _).trans none'⟩
  · intro n' ticket' r' now known
    by_cases here : n' = n
    · subst here
      obtain rfl := Task.waiting.inj (waiting.symm.trans now)
      obtain rfl := some.inj ((update_self n' (some r) w.result).symm.trans known)
      exact fits
    · exact j n' ticket' r' now ((update_of_ne here _ _).symm.trans known)
  · intro n' ticket' now part member
    by_cases here : n' = n
    · subst here
      have nothing : part ∈ [] := (update_self n' [] w.resultData) ▸ member
      cases nothing
    · exact k n' ticket' now part ((update_of_ne here [] w.resultData) ▸ member)
  · intro n' still
    have here : n' ≠ n := by
      rintro rfl
      exact still ticket waiting
    obtain ⟨none', nothing⟩ := l n' still
    exact ⟨(update_of_ne here _ _).trans none', (update_of_ne here _ _).trans nothing⟩

theorem Apart.respond (waiting : w.task n = .waiting ticket)
    (free : padding = false → ∀ p ∈ w.pending, p.2 ≠ n) :
    Apart desc (w.respond n ticket padding) := by
  have fits : ∀ part ∈ w.resultData n ++ [ticket], part = ticket := by
    intro part member
    rcases mem_append.mp member with member | member
    · exact apart.answers.parts n ticket waiting part member
    · exact mem_singleton.mp member
  unfold World.respond
  cases padding with
  | false =>
    rw [if_neg Bool.false_ne_true]
    exact apart.setResult waiting (free rfl) fits
  | true =>
    rw [if_pos rfl]
    obtain ⟨⟨a, b, c, d, s, e, f, g, u⟩, ⟨h, i, j, k, l, m⟩, closes, log⟩ := apart
    refine ⟨⟨a, b, c, d, s, e, f, g, u⟩, ⟨h, i, j, ?_, ?_, fun order => ⟨(m order).numbers⟩⟩,
      closes, log⟩
    · intro n' ticket' now part member
      by_cases here : n' = n
      · subst here
        obtain rfl := Task.waiting.inj (waiting.symm.trans now)
        have own := update_self n' (w.resultData n' ++ [ticket]) w.resultData
        exact fits part (own ▸ member)
      · exact k n' ticket' now part ((update_of_ne here _ w.resultData) ▸ member)
    · intro n' still
      have here : n' ≠ n := by
        rintro rfl
        exact still ticket waiting
      exact ⟨(l n' still).1, (update_of_ne here _ _).trans (l n' still).2⟩

theorem Apart.wakeupAll (gone : w.sock = none) :
    Apart desc (w.wakeupAll w.opened) := by
  have listed : ∀ m ∈ w.thread.map Prod.snd, ∃ key, w.task m = .waiting ⟨w.opened, key⟩ := by
    intro m member
    obtain ⟨p, present, rfl⟩ := mem_map.mp member
    exact ⟨p.1, (apart.answers.expected p (mem_append_right _ present)).1⟩
  have pending : (w.wakeupAll w.opened).pending = (w.dispatch w.opened).held := append_nil _
  have outside : ∀ p ∈ (w.dispatch w.opened).held, p.2 ∉ w.thread.map Prod.snd := by
    intro p member there
    have distinct := apart.answers.distinct
    rw [World.pending, map_append] at distinct
    exact disjoint_of_nodup_append distinct (mem_map_of_mem member) there
  obtain ⟨⟨a, b, c, d, s, e, f, g, u⟩, ⟨h, i, j, k, l, m⟩, closes, log⟩ := apart
  refine ⟨⟨a, b, c, d, s, e, f, g, u⟩, ⟨?_, ?_, ?_, ?_, ?_, fun order => ⟨?_⟩⟩, closes, log⟩
  · intro p member
    rw [pending] at member
    obtain ⟨waiting, none'⟩ := h p (mem_append_left _ member)
    exact ⟨waiting, (if_neg (outside p member)).trans none'⟩
  · rw [pending]
    refine List.Nodup.sublist ?_ i
    exact List.Sublist.map _ (sublist_append_left _ _)
  · intro n ticket r now known
    by_cases here : n ∈ w.thread.map Prod.snd
    · obtain ⟨key, waiting⟩ := listed n here
      obtain rfl := Task.waiting.inj (waiting.symm.trans now)
      obtain rfl := some.inj ((if_pos here).symm.trans known)
      rfl
    · exact j n ticket r now ((if_neg here).symm.trans known)
  · intro n ticket now part member
    by_cases here : n ∈ w.thread.map Prod.snd
    · have nothing : part ∈ [] := (if_pos here : (w.wakeupAll w.opened).resultData n = []) ▸ member
      cases nothing
    · exact k n ticket now part
        ((if_neg here : (w.wakeupAll w.opened).resultData n = w.resultData n) ▸ member)
  · intro n still
    have here : n ∉ w.thread.map Prod.snd := by
      intro there
      obtain ⟨key, waiting⟩ := listed n there
      exact still _ waiting
    exact ⟨(if_neg here).trans (l n still).1, (if_neg here).trans (l n still).2⟩
  · obtain ⟨first, keys, -, counted⟩ := (m order).numbers
    refine ⟨first, ?_, fun sock => absurd gone sock, counted⟩
    rw [pending]
    rw [World.pending, map_append, length_append, ← range'_append_1] at keys
    exact (append_inj keys (by simp)).1

theorem Apart.setThread (session : desc.response = true) (fewer : thread.Sublist w.thread) :
    Apart desc { w with thread := thread } := by
  have less : ((w.dispatch w.opened).held ++ thread).Sublist w.pending :=
    List.Sublist.append_left fewer _
  obtain ⟨⟨a, b, c, d, s, e, f, g, u⟩, ⟨h, i, j, k, l, -⟩, closes, log⟩ := apart
  refine ⟨⟨a, b, c, d, s, e, f, g, u⟩, ⟨?_, ?_, j, k, l, fun order => ?_⟩, closes, log⟩
  · exact fun p member => h p (less.subset member)
  · exact List.Nodup.sublist (less.map _) i
  · rw [session] at order
    cases order

theorem Apart.once {p q : Nat × Nat} (first : p ∈ w.pending) (second : q ∈ w.pending)
    (same : p.2 = q.2) : p = q :=
  inj_on_of_nodup_map apart.answers.distinct first second same

theorem held_free (holds : (w.dispatch w.opened).held = [(key, n)]) :
    ∀ p ∈ w.thread, p.2 ≠ n := by
  rintro p member rfl
  have distinct := apart.answers.distinct
  rw [World.pending, holds] at distinct
  exact (nodup_cons.mp distinct).1 (mem_map.mpr ⟨p, member, rfl⟩)

theorem Apart.readFailed {so : Option Conn} (own : c = w.opened) (gone : w.sock = none)
    (from' : ∀ conn, so = some conn → conn = w.opened) (holds : (w.dispatch c).held = held.toList) :
    Apart desc (w.readFailed desc c so held) := by
  subst own
  have cause : so.getD w.opened = w.opened := by
    cases so with
    | none => rfl
    | some conn => exact from' conn rfl
  have looping := apart.release rfl
  have head : (w.setDispatch w.opened .looping).dispatch w.opened = .looping := update_self ..
  unfold World.readFailed
  rw [cause]
  cases held with
  | none => exact (looping.wakeupAll gone).dispatchLoop rfl head
  | some p =>
    obtain ⟨key, n⟩ := p
    have member : (key, n) ∈ w.pending := by
      rw [World.pending, holds]
      exact mem_cons_self ..
    have answered : Apart desc ((w.setDispatch w.opened .looping).setResult n
        (.error w.opened)) := by
      refine looping.setResult (apart.answers.expected _ member).1 ?_ rfl
      rw [pending_setDispatch rfl]
      exact held_free apart holds
    exact (answered.wakeupAll gone).dispatchLoop rfl head

end

theorem Apart.answerSession (padding : Bool) (apart : Apart desc w) (session : desc.response = true)
    (found : (w.thread.find? fun p => p.1 == number) = some (key, n)) :
    Apart desc (World.respond
      (if padding then w else { w with thread := w.thread.filter fun p => p.1 != number }) n
        ⟨w.opened, number⟩ padding) := by
  have same : key = number := by
    have test := find?_some found
    exact beq_iff_eq.mp test
  subst same
  have member : (key, n) ∈ w.pending := mem_append_right _ (mem_of_find?_eq_some found)
  have waiting := (apart.answers.expected _ member).1
  cases padding with
  | true => exact apart.respond waiting nofun
  | false =>
    have filtered := apart.setThread session
      (filter_sublist (p := fun p : Nat × Nat => p.1 != key) (l := w.thread))
    refine filtered.respond waiting fun _ p present same => ?_
    rcases mem_append.mp present with held | listed
    · have distinct := apart.answers.distinct
      rw [World.pending, map_append] at distinct
      have there : n ∈ w.thread.map Prod.snd := mem_map.mpr ⟨_, mem_of_find?_eq_some found, rfl⟩
      exact disjoint_of_nodup_append distinct (mem_map.mpr ⟨p, held, same⟩) there
    · obtain ⟨listed, different⟩ := mem_filter.mp listed
      have twice := apart.once (mem_append_right _ listed) member same
      rw [twice] at different
      simp at different

theorem Apart.answerHeld (apart : Apart desc w) (order : desc.response = false)
    (reading : w.dispatch w.opened = .reading (some w.opened) (some (key, n)) blocked) :
    Apart desc ((w.setDispatch w.opened .looping).respond n ⟨w.opened, w.reads w.opened - 1⟩
      padding) := by
  have holds : (w.dispatch w.opened).held = [(key, n)] := by rw [reading]; rfl
  have taken : (w.dispatch w.opened).taken = 1 := by rw [reading]; rfl
  have member : (key, n) ∈ w.pending := by
    rw [World.pending, holds]
    exact mem_cons_self ..
  have number : w.reads w.opened - 1 = key := by
    obtain ⟨first, keys, -, counted⟩ := (apart.answers.ordered order).numbers
    rw [counted (.inr (by rw [taken]; exact Nat.one_ne_zero)), taken]
    rw [World.pending, holds] at keys
    exact (List.cons.inj keys).1.symm
  rw [number]
  refine (apart.release rfl).respond (apart.answers.expected _ member).1 fun _ => ?_
  rw [pending_setDispatch rfl]
  exact held_free apart holds

theorem respond_dispatch (w : World) (n : Nat) (ticket : Ticket) (padding : Bool) :
    (w.respond n ticket padding).dispatch = w.dispatch ∧
      (w.respond n ticket padding).opened = w.opened := by
  unfold World.respond
  split <;> exact ⟨rfl, rfl⟩

theorem Apart.received {so : Conn} (apart : Apart desc w)
    (reading : w.dispatch c = .reading (some so) held blocked) :
    Apart desc (w.received desc c so held number padding) := by
  obtain rfl := apart.own reading nofun
  obtain rfl : so = w.opened := apart.current.reading _ _ _ _ reading
  have looping := apart.release rfl
  have head : (w.setDispatch w.opened .looping).dispatch w.opened = .looping := update_self ..
  unfold World.received
  dsimp only
  split
  next session =>
    split
    · exact looping.dispatchLoop rfl head
    next key n found =>
      have answered := looping.answerSession padding session found
      have kept := respond_dispatch (if padding then w.setDispatch w.opened .looping
          else { w.setDispatch w.opened .looping with
            thread := (w.setDispatch w.opened .looping).thread.filter fun p => p.1 != number })
        n ⟨w.opened, number⟩ padding
      apply Apart.dispatchLoop
      · exact answered
      · rw [kept.2]
        cases padding <;> rfl
      · rw [kept.1]
        cases padding <;> exact head
  next order =>
    cases held with
    | none => exact looping.dispatchLoop rfl head
    | some p =>
      obtain ⟨key, n⟩ := p
      have kept := respond_dispatch (w.setDispatch w.opened .looping) n
        ⟨w.opened, w.reads w.opened - 1⟩ padding
      apply Apart.dispatchLoop
      · exact apart.answerHeld (Bool.eq_false_iff.mpr order) reading
      · exact kept.2.symm
      · exact (congrFun kept.1 _).trans head

end Skynet.Socketchannel
