import Skynet.Base.Run

/-! The hierarchical timing wheel of skynet_timer.c. A linked list is the list of
its nodes from head to tail; a node's address stands for its identity. The wall
clock fields of the timer are read by no function of the wheel and are left out. -/
namespace Skynet.TimerWheel

def timeNearShift : Nat := 8
def timeNear : Nat := 1 <<< timeNearShift
def timeLevelShift : Nat := 6
def timeLevel : Nat := 1 <<< timeLevelShift
def timeNearMask : Nat := timeNear - 1
def timeLevelMask : Nat := timeLevel - 1

structure TimerEvent where
  handle : Nat
  session : Int
  deriving DecidableEq, Repr

structure TimerNode where
  addr : Nat
  event : TimerEvent
  expire : Nat
  deriving DecidableEq, Repr

structure Timer where
  near : Nat → List TimerNode
  t : Nat → Nat → List TimerNode
  time : Nat

def linkNear (T : Timer) (idx : Nat) (node : TimerNode) : Timer :=
  { T with near := fun i => if i = idx then T.near i ++ [node] else T.near i }

def linkLevel (T : Timer) (level idx : Nat) (node : TimerNode) : Timer :=
  { T with t := fun i j => if i = level ∧ j = idx then T.t i j ++ [node] else T.t i j }

def clearNear (T : Timer) (idx : Nat) : Timer :=
  { T with near := fun i => if i = idx then [] else T.near i }

def clearLevel (T : Timer) (level idx : Nat) : Timer :=
  { T with t := fun i j => if i = level ∧ j = idx then [] else T.t i j }

/- The for loop of add_node: `left` counts the rounds that remain of the three. -/
def levelLoop (time currentTime : Nat) : (left i mask : Nat) → Nat
  | 0, i, _ => i
  | left + 1, i, mask =>
    if time ||| (mask - 1) = currentTime ||| (mask - 1) then i
    else levelLoop time currentTime left (i + 1) (mask <<< timeLevelShift)

def addNode (T : Timer) (node : TimerNode) : Timer :=
  let time := node.expire
  let currentTime := T.time
  if time ||| timeNearMask = currentTime ||| timeNearMask then
    linkNear T (time &&& timeNearMask) node
  else
    let i := levelLoop time currentTime 3 0 (timeNear <<< timeLevelShift)
    linkLevel T i ((time >>> (timeNearShift + i * timeLevelShift)) &&& timeLevelMask) node

def timerAdd (T : Timer) (addr : Nat) (event : TimerEvent) (time : Nat) : Timer × TimerNode :=
  let node := ⟨addr, event, (time + T.time) % 2 ^ 32⟩
  (addNode T node, node)

def moveList (T : Timer) (level idx : Nat) : Timer :=
  (T.t level idx).foldl addNode (clearLevel T level idx)

/- The while loop of timer_shift. It answers none when a round would shift the
signed mask past its sign bit or move a list of a level outside 0..3, so that
"the loop reaches its break in time" is a statement about this function. The
first argument bounds the rounds; the mask check stops the loop before it does. -/
def shiftLoop (ct : Nat) : (rounds mask time i : Nat) → Timer → Option Timer
  | 0, _, _, _, _ => none
  | rounds + 1, mask, time, i, T =>
    if ct &&& (mask - 1) = 0 then
      let idx := time &&& timeLevelMask
      if idx ≠ 0 then
        if i < 4 then some (moveList T i idx) else none
      else if mask <<< timeLevelShift < 2 ^ 31 then
        shiftLoop ct rounds (mask <<< timeLevelShift) (time >>> timeLevelShift) (i + 1) T
      else none
    else some T

def timerShift (T : Timer) : Option Timer :=
  let ct := (T.time + 1) % 2 ^ 32
  let T := { T with time := ct }
  if ct = 0 then some (moveList T 3 0)
  else shiftLoop ct 31 timeNear (ct >>> timeNearShift) 0 T

def timerCreateTimer : Timer := ⟨fun _ => [], fun _ _ => [], 0⟩

/-- One call of timer_add: its node, the number of ticks made before it and the
value T->time had then, and the duration it was given. -/
structure Added where
  node : TimerNode
  tick : Nat
  time : Nat
  duration : Nat
  deriving DecidableEq, Repr

def Added.deadline (a : Added) : Nat := a.tick + a.duration

/-- The timer with a record of what was done to it. A tick is one increment of
T->time; an entry of the log is a dispatched node with the number of the tick in
whose timer_update call it was dispatched. -/
structure History where
  timer : Timer
  ticks : Nat
  added : List Added
  log : List (TimerNode × Nat)

def initial : History := ⟨timerCreateTimer, 0, [], []⟩

def add (h : History) (request : TimerEvent × Nat) : History :=
  let (timer, node) := timerAdd h.timer h.added.length request.1 request.2
  { h with
    timer := timer
    added := h.added ++ [⟨node, h.ticks, h.timer.time, request.2⟩] }

/- The loop of timer_execute. The lock is released while a list is dispatched;
`windows` holds the timer_add calls other threads make in each such window. -/
def timerExecute (tick : Nat) : List (List (TimerEvent × Nat)) → History → History
  | [], h =>
    let idx := h.timer.time &&& timeNearMask
    if h.timer.near idx = [] then h
    else
      { h with
        timer := clearNear h.timer idx
        log := h.log ++ (h.timer.near idx).map (fun n => (n, tick)) }
  | adds :: windows, h =>
    let idx := h.timer.time &&& timeNearMask
    if h.timer.near idx = [] then h
    else
      timerExecute tick windows (adds.foldl add
        { h with
          timer := clearNear h.timer idx
          log := h.log ++ (h.timer.near idx).map (fun n => (n, tick)) })

def timerUpdate (before after : List (List (TimerEvent × Nat))) (h : History) : Option History :=
  let tick := h.ticks + 1
  let h := timerExecute tick before h
  (timerShift h.timer).map fun timer =>
    timerExecute tick after { h with timer := timer, ticks := tick }

inductive Op where
  | add (event : TimerEvent) (duration : Nat)
  | update (before after : List (List (TimerEvent × Nat)))

def step (h : History) : Op → Option History
  | .add event duration => some (add h (event, duration))
  | .update before after => timerUpdate before after h

def InRange (duration : Nat) : Prop := 1 ≤ duration ∧ duration ≤ 2 ^ 31 - 1

/-- Every duration the operation passes to timer_add is between 1 and 2^31-1. -/
def Op.Valid : Op → Prop
  | .add _ duration => InRange duration
  | .update before after =>
    (∀ adds ∈ before, ∀ r ∈ adds, InRange r.2) ∧ ∀ adds ∈ after, ∀ r ∈ adds, InRange r.2

end Skynet.TimerWheel
