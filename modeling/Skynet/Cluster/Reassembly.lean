import Skynet.Base.Outcome
import Skynet.Base.Table
import Skynet.Cluster.Daemon

/-! Requests are delivered as they were packed, in runs where the sessions of partly received
requests do not meet. -/
namespace Skynet.Cluster
open Base List Function Option

section Frames

/- Only a frame that announces no other one ends a request, and it holds bytes. -/
theorem unpacked_bytes {msg : List UInt8} {u : Unpacked} (unpacked : lunpackrequest msg = .ok u)
    (last : u.padding = false) : ∃ l, u.msg = .bytes l := by
  unfold lunpackrequest unpackreqNumber unpackmreqNumber unpackmreqPart unpackreqString
    unpackmreqString at unpacked
  dsimp only at unpacked
  repeat' split at unpacked
  all_goals cases unpacked <;> first | exact ⟨_, rfl⟩ | cases last

variable {seen more : List Unpacked} {u : Unpacked} {addr : Address} {session : Nat}
  {msg : List UInt8}

theorem Received.padding (received : Received (seen ++ u :: more) addr session msg) :
    u.padding = !more.isEmpty := by
  have flags := received.joined.padded
  rw [List.map_map, List.length_map, List.length_append, List.length_cons] at flags
  have here := congrArg (·[seen.length]?) flags
  simp only [map_append, map_cons, comp_def] at here
  rw [getElem?_append_right (by simp), length_map, Nat.sub_self] at here
  cases more with
  | nil => simpa using here
  | cons v more =>
    rw [getElem?_append_left (by simp)] at here
    simpa using here

theorem Received.session_eq (received : Received (seen ++ u :: more) addr session msg) :
    u.session = session :=
  received.sessions u (mem_append_right seen (mem_cons_self ..))

theorem Received.concat (received : Received (seen ++ [u]) addr session msg) (begun : seen ≠ []) :
    lconcat (seen.map (·.msg) ++ [u.msg]) = .ok (some msg) := by
  have message := received.joined.message
  simp only [List.map_map, List.map_append, List.map_cons, List.map_nil] at message
  rcases message with single | joined
  · cases seen with
    | nil => exact absurd rfl begun
    | cons v seen =>
      have lengths := congrArg List.length single
      simp at lengths
  · exact joined

theorem Received.single (received : Received [u] addr session msg)
    (bytes : ∃ l, u.msg = .bytes l) : u.addr = some addr ∧ u.msg = .bytes msg := by
  refine ⟨received.address, ?_⟩
  rcases received.joined.message with single | joined
  · exact (List.cons.inj single).1
  · obtain ⟨l, known⟩ := bytes
    rw [List.map_map, List.map_cons, comp, known] at joined
    cases joined

end Frames

section Data
variable {d : Daemon} {frame : List UInt8} {u : Unpacked}

section
variable (unpacked : lunpackrequest frame = .ok u)
include unpacked

theorem socketData_padding (padding : u.padding = true) :
    socketData d frame = .ok (⟨update d.largeRequest u.session (some
      ⟨((d.largeRequest u.session).getD ⟨u.addr, []⟩).addr,
        ((d.largeRequest u.session).getD ⟨u.addr, []⟩).pieces ++ [u.msg]⟩)⟩, none) := by
  simp only [socketData, unpacked, bind, Except.bind, padding, if_true, pure, Except.pure]

theorem socketData_single (last : u.padding = false) (none : d.largeRequest u.session = none) :
    socketData d frame = .ok (d, some (call u.session u.addr u.msg)) := by
  simp only [socketData, unpacked, bind, Except.bind, last, Bool.false_eq_true, if_false, none,
    pure, Except.pure]

theorem socketData_last {req : Large} {msg : List UInt8}
    (last : u.padding = false) (known : d.largeRequest u.session = some req)
    (joined : lconcat (req.pieces ++ [u.msg]) = .ok (some msg)) :
    socketData d frame = .ok (⟨update d.largeRequest u.session none⟩,
      some (call u.session req.addr (.bytes msg))) := by
  simp only [socketData, unpacked, bind, Except.bind, last, Bool.false_eq_true, if_false, known,
    joined, pure, Except.pure]

end

theorem call_delivery (fd session : Nat) (addr : Address) (msg : List UInt8) :
    (call session (some addr) (.bytes msg)).delivery fd = some ⟨fd, session, addr, msg⟩ := by
  unfold call
  dsimp only
  split
  next zero =>
    rw [zero]
    rfl
  next => rfl

end Data

/-- The frames still to come complete what the daemon has stored of the request. -/
def Flies (d : Daemon) (f : Flight) : Prop :=
  ∃ seen todo, f.frames.mapM (fun x => lunpackrequest (strip x)) = .ok todo ∧
    Received (seen ++ todo) f.addr f.session f.msg ∧ (f.begun = true ↔ seen ≠ []) ∧
    (f.begun = true → d.largeRequest f.session = some ⟨some f.addr, seen.map (·.msg)⟩)

structure Inv (w : World) : Prop where
  flies : ∀ i f, w.flights i = some f → Flies w.daemon f
  distinct : ∀ i j f g, i ≠ j → w.flights i = some f → w.flights j = some g →
    f.begun = true → g.begun = true → f.session ≠ g.session
  owned : ∀ s req, w.daemon.largeRequest s = some req →
    ∃ i f, w.flights i = some f ∧ f.begun = true ∧ f.session = s
  fresh : ∀ i, w.count ≤ i → w.flights i = none
  numbers : ∀ fd s, w.next fd = some s → 1 ≤ s ∧ s < 2 ^ 31
  exact : w.delivered = w.completed

theorem inv_start : Inv World.start :=
  ⟨nofun, nofun, nofun, fun _ _ => rfl, nofun, rfl⟩

theorem nextSession_range {session : Int} (low : 1 ≤ session) (high : session < 2 ^ 31) :
    1 ≤ nextSession session ∧ nextSession session < 2 ^ 31 := by
  have range := signed_range (show 0 < 32 by decide) (session + 1)
  unfold nextSession
  split
  · omega
  next positive =>
    refine ⟨?_, range.2⟩
    by_cases wraps : session + 1 < 2 ^ 31
    · rw [signed_of_range (by decide) (by omega) wraps]
      omega
    · exfalso
      have value : session + 1 = 2 ^ 31 := by omega
      rw [value] at positive
      exact positive (by decide)

variable {w w' : World} {fd : Nat} {stack : Buffer} {addr : Address} {msg : List UInt8}

theorem inv_opens {first : Int} (inv : Inv w) (range : 1 ≤ first ∧ first < 2 ^ 31) :
    Inv { w with next := update w.next fd (some first) } := by
  refine ⟨inv.flies, inv.distinct, inv.owned, inv.fresh, fun fd' s known => ?_, inv.exact⟩
  rcases update_iff.mp known with ⟨-, ⟨⟩⟩ | ⟨-, old⟩
  · exact range
  · exact inv.numbers fd' s old

theorem lpackrequest_next {session : Nat} {r : Request} (positive : 1 ≤ session)
    (number : session < 2 ^ 31) (size : msg.length < 2 ^ 31)
    (packed : lpackrequest stack addr session (some msg) msg.length = .ok r) :
    r.nextSession = nextSession session := by
  rw [lpackrequest_eq stack positive number size] at packed
  obtain ⟨first, -, packed⟩ := bind_ok packed
  split at packed
  · obtain ⟨padding, -, packed⟩ := bind_ok packed
    rw [← Except.ok.inj packed]
  · rw [← Except.ok.inj packed]

theorem inv_sends (inv : Inv w) (taken : sends stack w fd addr msg = some w') : Inv w' := by
  unfold sends at taken
  split at taken
  · cases taken
  next session known =>
  split at taken
  next valid =>
    obtain ⟨low, high⟩ := inv.numbers fd session known
    have whole : ((session.toNat : Nat) : Int) = session := Int.toNat_of_nonneg (by omega)
    have positive : 1 ≤ session.toNat := by omega
    have number : session.toNat < 2 ^ 31 := by omega
    obtain ⟨r, decoded, packed, -, unpacked, received⟩ :=
      request_received stack valid.1 positive number valid.2
    have next := lpackrequest_next positive number valid.2 packed
    rw [whole] at packed next
    rw [packed] at taken
    cases taken
    have flown : ∀ i f, update w.flights w.count (some
        ⟨fd, session.toNat, addr, msg, false, r.request :: r.padding.getD []⟩) i = some f →
        f.begun = true → w.flights i = some f := by
      intro i f shown begun
      rcases update_iff.mp shown with ⟨-, ⟨⟩⟩ | ⟨-, old⟩
      · cases begun
      · exact old
    refine ⟨?_, ?_, ?_, ?_, ?_, inv.exact⟩
    · intro i f shown
      rcases update_iff.mp shown with ⟨-, ⟨⟩⟩ | ⟨-, old⟩
      · exact ⟨[], decoded, unpacked, received, ⟨nofun, fun none => absurd rfl none⟩, nofun⟩
      · exact inv.flies i f old
    · intro i j f g apart first second begun begun'
      exact inv.distinct i j f g apart (flown i f first begun) (flown j g second begun') begun begun'
    · intro s req stored
      obtain ⟨i, f, flight, begun, same⟩ := inv.owned s req stored
      have other : i ≠ w.count := by
        rintro rfl
        cases flight.symm.trans (inv.fresh _ (Nat.le_refl _))
      exact ⟨i, f, update_iff.mpr (.inr ⟨other, flight⟩), begun, same⟩
    · intro i late
      exact update_iff.mpr (.inr ⟨Nat.ne_of_gt late, inv.fresh i (Nat.le_of_succ_le late)⟩)
    · rw [next]
      exact (inv_opens inv (nextSession_range low high)).numbers
  · cases taken

/- After a reset nothing is stored, so no request may be begun. -/
theorem inv_reset {next : Nat → Option Int} {flights : Nat → Option Flight} (inv : Inv w)
    (numbers : ∀ fd s, next fd = some s → 1 ≤ s ∧ s < 2 ^ 31)
    (fewer : ∀ i f, flights i = some f → w.flights i = some f ∧ f.begun = false) :
    Inv { w with daemon := socketOther w.daemon, next := next, flights := flights } := by
  refine ⟨?_, ?_, nofun, ?_, numbers, inv.exact⟩
  · intro i f shown
    obtain ⟨old, waiting⟩ := fewer i f shown
    obtain ⟨seen, todo, unpacked, received, started, -⟩ := inv.flies i f old
    refine ⟨seen, todo, unpacked, received, started, ?_⟩
    rw [waiting]
    nofun
  · intro i j f g apart first second begun
    rw [(fewer i f first).2] at begun
    cases begun
  · intro i late
    refine eq_none_iff_forall_ne_some.mpr fun f shown => ?_
    cases (fewer i f shown).1.symm.trans (inv.fresh i late)

theorem mapM_cons_ok {α β : Type} {g : α → Except Error β} {x : α} {l : List α} {r : List β}
    (done : (x :: l).mapM g = .ok r) :
    ∃ u more, g x = .ok u ∧ l.mapM g = .ok more ∧ r = u :: more := by
  rw [mapM_cons] at done
  obtain ⟨u, first, done⟩ := bind_ok done
  obtain ⟨more, others, done⟩ := bind_ok done
  cases done
  exact ⟨u, more, first, others, rfl⟩

section Arrive
variable {w : World} {i : Nat} {f : Flight} {frame : List UInt8} {rest : List (List UInt8)}

/- The entry of one session changes, with the flight it belongs to. -/
theorem inv_update (inv : Inv w)
    (apart : ∀ j g, j ≠ i → w.flights j = some g → g.begun = true → g.session ≠ f.session)
    (flight : w.flights i = some f) {entry : Option Large} {flight' : Option Flight}
    (flies : ∀ g, flight' = some g → g.session = f.session ∧ g.begun = true ∧
      Flies ⟨update w.daemon.largeRequest f.session entry⟩ g)
    (owned : ∀ req, entry = some req → ∃ g, flight' = some g)
    {completed delivered : List Delivery} (exact : delivered = completed) :
    Inv ⟨⟨update w.daemon.largeRequest f.session entry⟩, w.next, w.count,
      update w.flights i flight', completed, delivered⟩ := by
  refine ⟨?_, ?_, ?_, ?_, inv.numbers, exact⟩
  · intro j g shown
    rcases update_iff.mp shown with ⟨-, new⟩ | ⟨other, old⟩
    · exact (flies g new).2.2
    · obtain ⟨seen, todo, unpacked, received, started, stored⟩ := inv.flies j g old
      refine ⟨seen, todo, unpacked, received, started, fun begun => ?_⟩
      exact update_iff.mpr (.inr ⟨apart j g other old begun, stored begun⟩)
  · intro j k g h different first second begun begun'
    rcases update_iff.mp first with ⟨rfl, new⟩ | ⟨here, old⟩
    · rcases update_iff.mp second with ⟨rfl, -⟩ | ⟨there, old⟩
      · exact absurd rfl different
      · rw [(flies g new).1]
        exact (apart k h there old begun').symm
    · rcases update_iff.mp second with ⟨rfl, new⟩ | ⟨-, old'⟩
      · rw [(flies h new).1]
        exact apart j g here old begun
      · exact inv.distinct j k g h different old old' begun begun'
  · intro s req known
    rcases update_iff.mp known with ⟨rfl, new⟩ | ⟨other, old⟩
    · obtain ⟨g, new⟩ := owned req new
      obtain ⟨session, begun, -⟩ := flies g new
      exact ⟨i, g, update_iff.mpr (.inl ⟨rfl, new⟩), begun, session⟩
    · obtain ⟨j, g, shown, begun, session⟩ := inv.owned s req old
      have moved : j ≠ i := by
        rintro rfl
        cases flight.symm.trans shown
        exact other session.symm
      exact ⟨j, g, update_iff.mpr (.inr ⟨moved, shown⟩), begun, session⟩
  · intro j late
    have other : j ≠ i := by
      rintro rfl
      cases flight.symm.trans (inv.fresh j late)
    exact update_iff.mpr (.inr ⟨other, inv.fresh j late⟩)

theorem unstored (inv : Inv w) (flight : w.flights i = some f) (calm : Undisturbed w (.arrives i))
    (waiting : f.begun = false) : w.daemon.largeRequest f.session = none := by
  refine eq_none_iff_forall_ne_some.mpr fun req known => ?_
  obtain ⟨j, g, shown, begun, session⟩ := inv.owned _ req known
  have other : j ≠ i := by
    rintro rfl
    cases flight.symm.trans shown
    cases waiting.symm.trans begun
  exact calm j f g other flight shown begun session

variable {seen : List Unpacked} {u : Unpacked}

section
variable (inv : Inv w) (flight : w.flights i = some f) (calm : Undisturbed w (.arrives i))
  (unpacked : lunpackrequest (strip frame) = .ok u)
include inv flight calm unpacked

theorem arrive_padding {more : List Unpacked} {v : Unpacked}
    (received : Received (seen ++ u :: v :: more) f.addr f.session f.msg)
    (started : f.begun = true ↔ seen ≠ [])
    (stored : f.begun = true →
      w.daemon.largeRequest f.session = some ⟨some f.addr, seen.map (·.msg)⟩) :
    socketData w.daemon (strip frame) =
      .ok (⟨update w.daemon.largeRequest f.session (some
        ⟨some f.addr, (seen ++ [u]).map (·.msg)⟩)⟩, none) := by
  rw [socketData_padding unpacked received.padding, received.session_eq, map_append]
  cases begun : f.begun with
  | true =>
    rw [stored begun]
    rfl
  | false =>
    rw [unstored inv flight calm begun]
    obtain rfl : seen = [] := by simpa [begun] using started
    have address : u.addr = some f.addr := received.address
    rw [getD_none, address]
    rfl

theorem arrive_last (received : Received (seen ++ [u]) f.addr f.session f.msg)
    (started : f.begun = true ↔ seen ≠ [])
    (stored : f.begun = true →
      w.daemon.largeRequest f.session = some ⟨some f.addr, seen.map (·.msg)⟩) :
    socketData w.daemon (strip frame) =
      .ok (⟨update w.daemon.largeRequest f.session none⟩,
        some (call f.session (some f.addr) (.bytes f.msg))) := by
  have last := received.padding
  have session := received.session_eq
  cases begun : f.begun with
  | true =>
    have known := stored begun
    rw [← session] at known ⊢
    exact socketData_last unpacked last known (received.concat (started.mp begun))
  | false =>
    obtain rfl : seen = [] := by simpa [begun] using started
    have absent := unstored inv flight calm begun
    obtain ⟨address, message⟩ := received.single (unpacked_bytes unpacked last)
    rw [← session] at absent ⊢
    rw [socketData_single unpacked last absent, address, message, ← absent, update_eq_self]

end

theorem inv_arrive (inv : Inv w) (flight : w.flights i = some f)
    (frames : f.frames = frame :: rest) (calm : Undisturbed w (.arrives i)) :
    Inv (arrive w i f frame rest) := by
  obtain ⟨seen, todo, unpacked, received, started, stored⟩ := inv.flies i f flight
  have apart : ∀ j g, j ≠ i → w.flights j = some g → g.begun = true → g.session ≠ f.session :=
    fun j g other known => calm j f g other flight known
  rw [frames] at unpacked
  obtain ⟨u, more, first, others, rfl⟩ := mapM_cons_ok unpacked
  cases more with
  | nil =>
    have ended : rest = [] := by
      cases rest with
      | nil => rfl
      | cons x rest =>
        obtain ⟨v, more, -, -, absurd⟩ := mapM_cons_ok others
        cases absurd
    rw [arrive, arrive_last inv flight calm first received started stored]
    rw [ended, if_pos rfl, if_pos rfl]
    refine inv_update inv apart flight ?_ ?_ ?_
    · nofun
    · nofun
    · rw [inv.exact, bind_some, call_delivery]
      rfl
  | cons v more =>
    have goes : rest ≠ [] := by
      rintro rfl
      cases others
    rw [arrive, arrive_padding inv flight calm first received started stored]
    rw [if_neg goes, if_neg goes]
    refine inv_update inv apart flight ?_ ?_ ?_
    · rintro g ⟨⟩
      refine ⟨rfl, rfl, seen ++ [u], v :: more, others, ?_, ?_, ?_⟩
      · rwa [append_assoc]
      · simp
      · intro _
        exact update_self ..
    · intro req _
      exact ⟨_, rfl⟩
    · rw [inv.exact]
      rfl

end Arrive

theorem inv_step {a : Action} (inv : Inv w) (calm : Undisturbed w a)
    (taken : step stack w a = some w') : Inv w' := by
  cases a with
  | opens fd first =>
    rw [step] at taken
    split at taken
    next allowed =>
      cases taken
      exact inv_opens inv allowed.2
    · cases taken
  | sends fd addr msg => exact inv_sends inv taken
  | arrives i =>
    rw [step, arrives] at taken
    split at taken
    next f flight =>
      split at taken
      next frame rest frames =>
        cases taken
        exact inv_arrive inv flight frames calm
      · cases taken
    · cases taken
  | closes fd =>
    rw [step] at taken
    split at taken
    · cases taken
      refine inv_reset inv ?_ ?_
      · intro fd' s known
        exact inv.numbers fd' s ((update_ne_iff (by nofun)).mp known).2
      · intro i f shown
        obtain ⟨old, other⟩ := filter_eq_some_iff.mp shown
        refine ⟨old, Bool.eq_false_iff.mpr fun begun => ?_⟩
        exact of_decide_eq_true other (calm i f old begun)
    · cases taken
  | warns fd =>
    rw [step] at taken
    split at taken
    · cases taken
      exact inv_reset inv inv.numbers fun i f shown => ⟨shown, calm i f shown⟩
    · cases taken

/-- In every run in which nothing disturbs a partly received request, the requests sent on are
those whose last frame has come, with the address and message they were packed with. -/
theorem cluster_reassembly (stack : Buffer) (w : World)
    (run : Reaches (step stack) Undisturbed World.start w) : w.delivered = w.completed :=
  (Reaches.invariant Inv inv_start (fun _ _ _ inv calm taken => inv_step inv calm taken) run).exact

section Meeting

/- The first requests of two peers: a large one on connection 1 and a small one on
connection 2. -/
def largeFrame (sz : Nat) : List UInt8 := frame (numberBody 1 5 1 (leBytes 4 sz))

def smallFrame : List UInt8 := frame (numberBody 0 6 1 [9])

variable {stack : Buffer} {msg : List UInt8}

theorem smallRequest_packed :
    lpackrequest stack (.number 6) 1 (some [9]) [(9 : UInt8)].length = .ok ⟨smallFrame, 2, none⟩ :=
  rfl

theorem largeRequest_packed (length : msg.length = multiPart) : ∃ part parts,
    lpackrequest stack (.number 5) 1 (some msg) msg.length =
      .ok ⟨largeFrame msg.length, 2, some (part :: parts)⟩ := by
  have small : msg.length < 2 ^ 31 := by
    rw [length]
    decide
  have first : packreq stack (.number 5) 1 msg msg.length =
      .ok (largeFrame msg.length, (msg.length - 1) / multiPart + 1) :=
    packreqNumber_large stack (Nat.not_lt_of_le (Nat.le_of_eq length.symm))
  have number : 1 < 2 ^ 31 := by decide
  have packed := @lpackrequest_eq stack (.number 5) 1 msg (Nat.le_refl 1) number small
  rw [first, Except.bind, if_pos (Nat.succ_ne_zero _), packreqMulti,
    packreqParts_eq stack (Nat.zero_add _), Except.bind, cuts, map_cons] at packed
  exact ⟨_, _, packed⟩

/- Both connections are open, and both requests are on their way. -/
def meeting (msg : List UInt8) (frames : List (List UInt8)) : World where
  daemon := Daemon.start
  next := update (update (update (update
    (fun _ => none) 1 (some 1)) 2 (some 1)) 1 (some 2)) 2 (some 2)
  count := 2
  flights := update (update (fun _ => none) 0
    (some ⟨1, 1, .number 5, msg, false, largeFrame msg.length :: frames⟩)) 1
    (some ⟨2, 1, .number 6, [9], false, [smallFrame]⟩)
  completed := []
  delivered := []

variable {w : World} {fd i : Nat} {f : Flight} {x : List UInt8} {xs : List (List UInt8)}

theorem step_opens (closed : w.next fd = none) :
    step stack w (.opens fd 1) = some { w with next := update w.next fd (some 1) } :=
  if_pos ⟨closed, by decide, by decide⟩

theorem step_sends {addr : Address} {session : Int} {r : Request} (known : w.next fd = some session)
    (valid : addr.Valid ∧ msg.length < 2 ^ 31)
    (packed : lpackrequest stack addr session (some msg) msg.length = .ok r) :
    step stack w (.sends fd addr msg) = some { w with
      next := update w.next fd (some r.nextSession)
      count := w.count + 1
      flights := update w.flights w.count (some
        ⟨fd, session.toNat, addr, msg, false, r.request :: r.padding.getD []⟩) } := by
  rw [step, sends, known]
  dsimp only
  rw [if_pos valid, packed]

theorem step_arrives (flight : w.flights i = some f) (frames : f.frames = x :: xs) :
    step stack w (.arrives i) = some (arrive w i f x xs) := by
  rw [step, arrives, flight]
  dsimp only
  rw [frames]

theorem meeting_reached (length : msg.length = multiPart) :
    ∃ part parts, Run (step stack) World.start (meeting msg (part :: parts)) := by
  have small : msg.length < 2 ^ 31 := by
    rw [length]
    decide
  obtain ⟨part, parts, packed⟩ := @largeRequest_packed stack msg length
  have one := Reaches.next (.start : Run (step stack) World.start _) trivial
    (@step_opens stack World.start 1 rfl)
  have both := Reaches.next one trivial (@step_opens stack _ 2 rfl)
  have large := Reaches.next both trivial
    (@step_sends stack msg _ 1 (.number 5) 1 _ rfl ⟨by decide, small⟩ packed)
  have requests := Reaches.next large trivial
    (@step_sends stack [9] _ 2 (.number 6) 1 _ rfl ⟨by decide, by decide⟩ smallRequest_packed)
  exact ⟨part, parts, requests⟩

theorem largeFrame_unpacked (length : msg.length = multiPart) :
    lunpackrequest (strip (largeFrame msg.length)) =
      .ok ⟨some (.number 5), 1, .size multiPart, true⟩ := by
  rw [length]
  exact unpack_numberLarge (by decide) (by decide) (by decide)

theorem smallFrame_unpacked :
    lunpackrequest (strip smallFrame) = .ok ⟨some (.number 6), 1, .bytes [9], false⟩ :=
  unpack_number (by decide) (by decide)

theorem arrive_ok {d : Daemon} {effect : Option Effect}
    (done : socketData w.daemon (strip x) = .ok (d, effect)) :
    arrive w i f x xs = { w with
      daemon := d
      flights := update w.flights i
        (if xs = [] then none else some { f with begun := true, frames := xs })
      completed := w.completed ++ (if xs = [] then [f.request] else [])
      delivered := w.delivered ++ (effect.bind (·.delivery f.fd)).toList } := by
  rw [arrive, done]

theorem meeting_lost (length : msg.length = multiPart) : ∃ w, Run (step stack) World.start w ∧
    w.completed = [⟨2, 1, .number 6, [9]⟩] ∧ w.delivered = [] := by
  obtain ⟨part, parts, reached⟩ := @meeting_reached stack msg length
  have first : socketData Daemon.start (strip (largeFrame msg.length)) = .ok (⟨_⟩, none) :=
    socketData_padding (largeFrame_unpacked length) rfl
  have begun := Reaches.next reached trivial (@step_arrives stack _ 0 _ _ _ rfl rfl)
  rw [arrive_ok first] at begun
  have second : socketData ⟨update Daemon.start.largeRequest 1 (some
      ⟨some (.number 5), [.size multiPart]⟩)⟩ (strip smallFrame) =
      .ok (⟨update (update Daemon.start.largeRequest 1 (some
        ⟨some (.number 5), [.size multiPart]⟩)) 1 none⟩, some (.invalid 1)) := by
    rw [socketData, smallFrame_unpacked]
    rfl
  have ended := Reaches.next begun trivial (@step_arrives stack _ 1 _ _ _ rfl rfl)
  rw [arrive_ok second] at ended
  exact ⟨_, ended, rfl, rfl⟩

theorem cluster_request_lost : ∃ w, Run (step fun _ => 0) World.start w ∧
    w.completed = [⟨2, 1, .number 6, [9]⟩] ∧ w.delivered = [] :=
  meeting_lost (@length_replicate UInt8 multiPart 7)

/- The small request alone. -/
theorem cluster_reassembly_small : ∃ w, Reaches (step fun _ => 0) Undisturbed World.start w ∧
    w.completed = [⟨2, 1, .number 6, [9]⟩] ∧ w.delivered = w.completed := by
  have one := Reaches.next (a := Action.opens 2 1)
    (.start : Reaches (step fun _ => 0) Undisturbed World.start _) trivial
    (@step_opens (fun _ => 0) World.start 2 rfl)
  have sent := Reaches.next (a := Action.sends 2 (.number 6) [9]) one trivial
    (@step_sends (fun _ => 0) [9] _ 2 (.number 6) 1 _ rfl ⟨by decide, by decide⟩
      smallRequest_packed)
  have ended := Reaches.next sent ?_ (@step_arrives (fun _ => 0) _ 0 _ _ _ rfl rfl)
  · exact ⟨_, ended, rfl, cluster_reassembly _ _ ended⟩
  · intro j f g other _ known
    simp only [World.start, update_of_ne other] at known
    cases known

end Meeting

end Skynet.Cluster
