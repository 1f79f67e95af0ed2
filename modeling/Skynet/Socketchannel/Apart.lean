import Skynet.Base.Table
import Skynet.Socketchannel.Model

/-! What keeps the connections apart: all that is left of a connection is gone before the next
one is there, so everything refers to the connection opened last. -/
namespace Skynet.Socketchannel
open Base Function

/-- A request may be resumed with parts of its own response or an error of its connection. -/
def Fits (ticket : Ticket) : Result → Prop
  | .response parts => ∀ part ∈ parts, part = ticket
  | .error conn => conn = ticket.conn

def Dispatch.held : Dispatch → List (Nat × Nat)
  | .reading _ held _ | .closing _ _ held => held.toList
  | .ended | .looping | .popping => []

/- Whether a response of the socket is being read for a request. -/
def Dispatch.taken : Dispatch → Nat
  | .reading (some _) held _ | .closing _ (some _) held => held.toList.length
  | .ended | .looping | .popping | .reading none _ _ | .closing _ none _ => 0

/- The dispatcher has seen that the channel has no socket. -/
def Dispatch.stopped : Dispatch → Bool
  | .reading none _ _ | .closing .. => true
  | .ended | .looping | .popping | .reading (some _) _ _ => false

/-- The requests whose responses are still expected, oldest first. -/
def World.pending (w : World) : List (Nat × Nat) := (w.dispatch w.opened).held ++ w.thread

/-- Everything refers to the connection opened last. -/
structure Current (w : World) : Prop where
  sock : ∀ c, w.sock = some c → c = w.opened
  live : ∀ c, w.dispatch c ≠ .ended → c = w.opened
  reading : ∀ c so held blocked, w.dispatch c = .reading (some so) held blocked → so = w.opened
  failing : ∀ c fd so held, w.dispatch c = .closing fd (some so) held → so = w.opened
  stopped : ∀ c, (w.dispatch c).stopped = true → w.sock = none
  writing : ∀ n fd conn, w.task n = .closing fd (.writeFailed conn) →
    conn = w.opened ∧ w.sock = none
  auth : ∀ n req conn, w.authco = some (n, req, conn) → conn = w.opened ∧ w.connecting ≠ none
  opening : ∀ n req, w.task n = .opening req → w.authco = none ∧ w.connecting ≠ none ∧
    ∀ n' req', w.task n' = .opening req' → n' = n
  unauthed : ∀ n fd req, w.task n = .closing fd (.authFailed req) →
    ∃ conn, w.authco = some (n, req, conn)

/- In order mode the requests expected are numbered on, and the first of them is the next
response that is read. -/
structure Ordered (w : World) : Prop where
  numbers : ∃ first, w.pending.map Prod.fst = List.range' first w.pending.length ∧
    (w.sock ≠ none → first + w.pending.length = w.writes w.opened) ∧
    (w.sock ≠ none ∨ (w.dispatch w.opened).taken ≠ 0 →
      w.reads w.opened = first + (w.dispatch w.opened).taken)

/-- The requests, the results they wait for and those they have. -/
structure Answers (desc : Desc) (w : World) : Prop where
  expected : ∀ p ∈ w.pending, w.task p.2 = .waiting ⟨w.opened, p.1⟩ ∧ w.result p.2 = none
  distinct : (w.pending.map Prod.snd).Nodup
  results : ∀ n ticket r, w.task n = .waiting ticket → w.result n = some r → Fits ticket r
  parts : ∀ n ticket, w.task n = .waiting ticket → ∀ part ∈ w.resultData n, part = ticket
  clear : ∀ n, (∀ ticket, w.task n ≠ .waiting ticket) → w.result n = none ∧ w.resultData n = []
  ordered : desc.response = false → Ordered w

structure Apart (desc : Desc) (w : World) : Prop where
  current : Current w
  answers : Answers desc w
  closes : ∀ p ∈ w.closes, p.1 = p.2
  log : ∀ p ∈ w.log, Fits p.1 p.2

variable {desc : Desc} {w : World} {n : Nat} {t : Task}

theorem Apart.free (apart : Apart desc w) (idle : ∀ ticket, w.task n ≠ .waiting ticket) :
    ∀ p ∈ w.pending, p.2 ≠ n := by
  rintro p member rfl
  exact idle _ (apart.answers.expected p member).1

theorem Apart.own {c : Conn} {d : Dispatch} (apart : Apart desc w) (now : w.dispatch c = d)
    (alive : d ≠ .ended) : c = w.opened :=
  apart.current.live c (now ▸ alive)

section Simple
variable {desc : Desc} {w : World} (apart : Apart desc w)
include apart

theorem Apart.setOthers (awake : Co → Bool) (pool : Conn → Option Socket) (c : Option Conn) :
    Apart desc { w with awake := awake, socketPool := pool, waitResponse := c } := by
  obtain ⟨⟨a, b, c, d, s, e, f, g, u⟩, ⟨h, i, j, k, l, m⟩, closes, log⟩ := apart
  exact ⟨⟨a, b, c, d, s, e, f, g, u⟩, ⟨h, i, j, k, l, fun order => ⟨(m order).numbers⟩⟩, closes,
    log⟩

theorem Apart.setAwake (awake : Co → Bool) : Apart desc { w with awake := awake } :=
  apart.setOthers awake _ _

theorem Apart.wakeup (co : Co) : Apart desc (w.wakeup co) := apart.setAwake _

theorem Apart.sleep (co : Co) : Apart desc (w.sleep co) := apart.setAwake _

theorem Apart.setSocket (fd : Conn) (s : Option Socket) : Apart desc (w.setSocket fd s) :=
  apart.setOthers _ _ _

theorem Apart.setWaitResponse (c : Option Conn) : Apart desc { w with waitResponse := c } :=
  apart.setOthers _ _ c

theorem Apart.setSock (closes : List (Conn × Conn)) (same : ∀ p ∈ closes, p.1 = p.2) :
    Apart desc { w with sock := none, closes := closes } := by
  obtain ⟨⟨-, b, c, d, -, e, f, g, u⟩, ⟨h, i, j, k, l, m⟩, -, log⟩ := apart
  refine ⟨⟨nofun, b, c, d, fun _ _ => rfl, fun n fd conn now => ⟨(e n fd conn now).1, rfl⟩, f, g,
    u⟩,
    ⟨h, i, j, k, l, fun order => ⟨?_⟩⟩, same, log⟩
  obtain ⟨first, keys, -, reads⟩ := (m order).numbers
  refine ⟨first, keys, fun sock => absurd rfl sock, fun taken => ?_⟩
  exact reads (taken.imp_left (absurd rfl))

theorem Apart.setAuthco (nobody : ∀ n fd req, w.task n ≠ .closing fd (.authFailed req)) :
    Apart desc { w with authco := none } := by
  obtain ⟨⟨a, b, c, d, s, e, -, g, -⟩, ⟨h, i, j, k, l, m⟩, closes, log⟩ := apart
  refine ⟨⟨a, b, c, d, s, e, nofun, ?_, ?_⟩, ⟨h, i, j, k, l, fun order => ⟨(m order).numbers⟩⟩,
    closes, log⟩
  · intro n req opening
    exact ⟨rfl, (g n req opening).2⟩
  · intro n fd req now
    exact absurd now (nobody n fd req)

theorem Apart.setConnecting (queue : List Nat) :
    Apart desc { w with connecting := some queue } := by
  obtain ⟨⟨a, b, c, d, s, e, f, g, u⟩, ⟨h, i, j, k, l, m⟩, closes, log⟩ := apart
  refine ⟨⟨a, b, c, d, s, e, fun n req conn known => ⟨(f n req conn known).1, nofun⟩, ?_, u⟩,
    ⟨h, i, j, k, l, fun order => ⟨(m order).numbers⟩⟩, closes, log⟩
  intro n req opening
  exact ⟨(g n req opening).1, nofun, (g n req opening).2.2⟩

theorem Apart.wakeQueued (authed : w.authco = none) (nobody : ∀ n req, w.task n ≠ .opening req) :
    Apart desc w.wakeQueued := by
  obtain ⟨⟨a, b, c, d, s, e, f, g, u⟩, ⟨h, i, j, k, l, m⟩, closes, log⟩ := apart
  refine ⟨⟨a, b, c, d, s, e, ?_, ?_, u⟩, ⟨h, i, j, k, l, fun order => ⟨(m order).numbers⟩⟩,
    closes, log⟩
  · intro n req conn known
    cases authed.symm.trans known
  · intro n req opening
    exact absurd opening (nobody n req)

theorem Apart.socketClose (co : Co) (fd : Conn) : Apart desc (w.socketClose co fd).1 := by
  unfold World.socketClose
  split
  · exact apart
  · split
    · split
      · exact apart
      · exact (apart.setSocket _ _).sleep co
      · exact (apart.setSocket _ _).sleep co
    · exact apart.setSocket _ _

end Simple

/-- What close_channel_socket leaves as it is. -/
structure Kept (w w' : World) : Prop where
  sock : w'.sock = none
  opened : w'.opened = w.opened
  connecting : w'.connecting = w.connecting
  authco : w'.authco = w.authco
  thread : w'.thread = w.thread
  task : w'.task = w.task
  dispatch : w'.dispatch = w.dispatch

theorem socketClose_kept (w : World) (co : Co) (fd : Conn) (none' : w.sock = none) :
    Kept w (w.socketClose co fd).1 := by
  unfold World.socketClose
  split
  · exact ⟨none', rfl, rfl, rfl, rfl, rfl, rfl⟩
  · split
    · split <;> exact ⟨none', rfl, rfl, rfl, rfl, rfl, rfl⟩
    · exact ⟨none', rfl, rfl, rfl, rfl, rfl, rfl⟩

theorem closeChannelSocket_kept (w : World) (co : Co) (cause : Conn) :
    Kept w (w.closeChannelSocket co cause).1 := by
  unfold World.closeChannelSocket
  split
  next none' => exact ⟨none', rfl, rfl, rfl, rfl, rfl, rfl⟩
  next fd known =>
    have kept := socketClose_kept { w with sock := none, closes := w.closes ++ [(cause, fd)] } co fd
      rfl
    exact ⟨kept.sock, kept.opened, kept.connecting, kept.authco, kept.thread, kept.task,
      kept.dispatch⟩

theorem Apart.closeChannelSocket (apart : Apart desc w) (co : Co) {cause : Conn}
    (own : ∀ fd, w.sock = some fd → cause = fd) :
    Apart desc (w.closeChannelSocket co cause).1 := by
  unfold World.closeChannelSocket
  split
  · exact apart
  next fd known =>
    apply Apart.socketClose
    apply apart.setSock
    intro p member
    rcases List.mem_append.mp member with member | member
    · exact apart.closes p member
    · rw [List.mem_singleton.mp member]
      exact own fd known

theorem Current.setTask (current : Current w)
    (write : ∀ fd conn, t = .closing fd (.writeFailed conn) → conn = w.opened ∧ w.sock = none)
    (connect : ∀ req, t = .opening req →
      w.authco = none ∧ w.connecting ≠ none ∧ ∀ n' req', w.task n' ≠ .opening req')
    (auth : ∀ fd req, t = .closing fd (.authFailed req) → ∃ conn, w.authco = some (n, req, conn)) :
    Current (w.setTask n t) := by
  obtain ⟨a, b, c, d, s, writing, f, opening, unauthed⟩ := current
  refine ⟨a, b, c, d, s, ?_, f, ?_, ?_⟩
  · intro n' fd conn now
    rcases update_iff.mp now with ⟨-, now⟩ | ⟨-, now⟩
    · exact write fd conn now
    · exact writing n' fd conn now
  · intro n' req now
    rcases update_iff.mp now with ⟨rfl, new⟩ | ⟨-, now⟩
    · obtain ⟨free, connecting, nobody⟩ := connect req new
      refine ⟨free, connecting, fun n'' req'' now' => ?_⟩
      rcases update_iff.mp now' with ⟨same, -⟩ | ⟨-, now'⟩
      · exact same
      · exact absurd now' (nobody n'' req'')
    · obtain ⟨free, connecting, unique⟩ := opening n' req now
      refine ⟨free, connecting, fun n'' req'' now' => ?_⟩
      rcases update_iff.mp now' with ⟨-, second⟩ | ⟨-, now'⟩
      · exact absurd now ((connect req'' second).2.2 n' req)
      · exact unique n'' req'' now'
  · intro n' fd req now
    rcases update_iff.mp now with ⟨rfl, new⟩ | ⟨-, now⟩
    · exact auth fd req new
    · exact unauthed n' fd req now

theorem Apart.setTask (apart : Apart desc w) (idle : ∀ ticket, w.task n ≠ .waiting ticket)
    (calm : ∀ ticket, t ≠ .waiting ticket) (current : Current (w.setTask n t)) :
    Apart desc (w.setTask n t) := by
  have free := apart.free idle
  obtain ⟨-, ⟨h, i, j, k, l, m⟩, closes, log⟩ := apart
  refine ⟨current, ⟨?_, i, ?_, ?_, ?_, fun order => ⟨(m order).numbers⟩⟩, closes, log⟩
  · intro p member
    obtain ⟨waiting, none'⟩ := h p member
    exact ⟨(update_of_ne (free p member) ..).trans waiting, none'⟩
  · intro n' ticket r now
    exact j n' ticket r ((update_ne_iff (calm ticket)).mp now).2
  · intro n' ticket now
    exact k n' ticket ((update_ne_iff (calm ticket)).mp now).2
  · intro n' still
    by_cases here : n' = n
    · subst here
      exact l n' idle
    · exact l n' fun ticket now => still ticket ((update_of_ne here ..).trans now)

theorem Apart.setRunning (apart : Apart desc w) (idle : ∀ ticket, w.task n ≠ .waiting ticket) :
    Apart desc (w.setTask n .running) :=
  apart.setTask idle nofun (apart.current.setTask nofun nofun nofun)

end Skynet.Socketchannel
