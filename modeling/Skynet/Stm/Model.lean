import Skynet.Base.Run
import Skynet.Base.Outcome

/-! The shared objects of lua-stm.c and the lock of rwlock.h, one access to shared memory a step.
The agents are the box of the writer (`none`) and the boxes of its readers, of any number. -/
namespace Skynet.Stm

variable {R : Type}

/-- An access to a freed object, to a freed copy or its message, or an assert that does not
hold. -/
inductive Fault where
  | object
  | copy
  | assertion
  deriving DecidableEq, Repr

structure Copy where
  reference : Int
  msgFreed : Nat
  freed : Nat
  deriving DecidableEq, Repr

/-- What is done under the read lock: stm_grab, stm_copy, stm_releasereader. -/
inductive Reading where
  | grab
  | copy
  | release
  deriving DecidableEq, Repr

/-- What is done under the write lock: stm_update with its new copy, stm_release. -/
inductive Writing where
  | update (copy : Nat)
  | release
  deriving DecidableEq, Repr

/-- The loop of rwlock_rlock. -/
inductive RLock where
  | test
  | add
  | check
  | back
  deriving DecidableEq, Repr

/-- The two loops of rwlock_wlock. -/
inductive WLock where
  | testAndSet
  | readers
  deriving DecidableEq, Repr

/-- What a function has in hand when it gives the read lock back. -/
inductive RUnlock where
  | grab (ref : Int)
  | copy (ret : Option Nat)
  | release
  deriving DecidableEq, Repr

inductive WUnlock where
  | update (oldcopy : Option Nat)
  | release
  deriving DecidableEq, Repr

/-- What follows stm_releasecopy: nothing, the store to lastcopy, the end of the box, or the rest
of stm_release. -/
inductive Next where
  | idle
  | keep (copy : Option Nat)
  | gone
  | clear
  deriving DecidableEq, Repr

/-- The next access of an agent. A box is absent until its pointer is made into one. -/
inductive Pc where
  | absent
  | idle
  | rlock (phase : RLock) (op : Reading)
  | reading (op : Reading)
  | finc (copy : Nat)
  | runlock (after : RUnlock)
  | lastReader
  | readerFree
  | checkCopy
  | wlock (phase : WLock) (op : Writing)
  | writing (op : Writing)
  | wunlock (after : WUnlock)
  | clear
  | decrement
  | writerFree
  | drop (copy : Option Nat) (next : Next)
  | freeMsg (copy : Nat) (next : Next)
  | freeCopy (copy : Nat) (next : Next)
  | use (copy : Nat)
  | done
  deriving DecidableEq, Repr

structure Thread where
  pc : Pc
  lastcopy : Option Nat
  deriving DecidableEq, Repr

/-- The lock's two words, the fields of the stm_object and how often it was freed, the copies, the
pointers that stm.copy has given out and nobody has made a box of, and the agents. -/
structure World (R : Type) where
  write : Bool
  read : Int
  reference : Int
  copy : Option Nat
  freed : Nat
  copies : Nat → Copy
  allocated : Nat
  handed : Nat
  thread : Option R → Thread

/- lnewwriter and stm_new; the first copy is number 0. -/
def World.start : World R where
  write := false
  read := 0
  reference := 1
  copy := some 0
  freed := 0
  copies c := if c = 0 then ⟨1, 0, 0⟩ else ⟨0, 0, 0⟩
  allocated := 1
  handed := 0
  thread
    | none => ⟨.idle, none⟩
    | some _ => ⟨.absent, none⟩

/- After stm_releasecopy; lread goes on to use a copy that it has stored. -/
def Thread.after (t : Thread) : Next → Thread
  | .idle => { t with pc := .idle }
  | .keep none => ⟨.idle, none⟩
  | .keep (some c) => ⟨.use c, some c⟩
  | .gone => ⟨.done, none⟩
  | .clear => { t with pc := .clear }

def touch (w : World R) (rest : Except Fault (World R)) : Except Fault (World R) :=
  if w.freed = 0 then rest else .error .object

def touchCopy (w : World R) (c : Nat) (rest : Except Fault (World R)) : Except Fault (World R) :=
  if (w.copies c).freed = 0 then rest else .error .copy

def touchMsg (w : World R) (c : Nat) (rest : Except Fault (World R)) : Except Fault (World R) :=
  if (w.copies c).msgFreed = 0 then rest else .error .copy

section
variable [DecidableEq R]

def put (w : World R) (a : Option R) (t : Thread) : World R :=
  { w with thread := Function.update w.thread a t }

def go (w : World R) (a : Option R) (pc : Pc) : World R :=
  put w a { w.thread a with pc := pc }

def rlock (w : World R) (a : Option R) (op : Reading) : RLock → World R
  | .test => go w a (if w.write then .rlock .test op else .rlock .add op)
  | .add => go { w with read := w.read + 1 } a (.rlock .check op)
  | .check => go w a (if w.write then .rlock .back op else .reading op)
  | .back => go { w with read := w.read - 1 } a (.rlock .test op)

def reading (w : World R) (a : Option R) : Reading → World R
  | .grab => go { w with reference := w.reference + 1 } a (.runlock (.grab w.reference))
  | .copy =>
    match w.copy with
    | some c => go w a (.finc c)
    | none => go w a (.runlock (.copy none))
  | .release =>
    go { w with reference := w.reference - 1 } a
      (if w.reference - 1 = 0 then .lastReader else .runlock .release)

def setCopy (w : World R) (c : Nat) (copy : Copy) : World R :=
  { w with copies := Function.update w.copies c copy }

def addCopy (w : World R) (c : Nat) (n : Int) : World R :=
  setCopy w c { w.copies c with reference := (w.copies c).reference + n }

/- ATOM_FINC of a copy and the assert on what it returns. -/
def finc (w : World R) (a : Option R) (c : Nat) : Except Fault (World R) :=
  if 0 < (w.copies c).reference then .ok (go (addCopy w c 1) a (.runlock (.copy (some c))))
  else .error .assertion

/- rwlock_runlock, and what its caller goes on with: the assert of stm_grab, the comparison of
lread, the release of lastcopy in ldeletereader. -/
def runlock (w : World R) (a : Option R) (after : RUnlock) : Except Fault (World R) :=
  let w := { w with read := w.read - 1 }
  match after with
  | .grab ref =>
    if 0 < ref then .ok (go { w with handed := w.handed + 1 } a .idle) else .error .assertion
  | .copy ret =>
    if ret = (w.thread a).lastcopy then .ok (go w a (.drop ret .idle))
    else .ok (go w a (.drop (w.thread a).lastcopy (.keep ret)))
  | .release => .ok (go w a (.drop (w.thread a).lastcopy .gone))

def wlock (w : World R) (a : Option R) (op : Writing) : WLock → World R
  | .testAndSet =>
    go { w with write := true } a
      (if w.write then .wlock .testAndSet op else .wlock .readers op)
  | .readers => go w a (if w.read = 0 then .writing op else .wlock .readers op)

def writing (w : World R) (a : Option R) : Writing → World R
  | .update c => go { w with copy := some c } a (.wunlock (.update w.copy))
  | .release => go w a (.drop w.copy .clear)

def wunlock (w : World R) (a : Option R) (after : WUnlock) : World R :=
  let w := { w with write := false }
  match after with
  | .update oldcopy => go w a (.drop oldcopy .idle)
  | .release => go w a .done

/- --obj->reference under the write lock. -/
def decrement (w : World R) (a : Option R) : World R :=
  go { w with reference := w.reference - 1 } a
    (if 0 < w.reference - 1 then .wunlock .release else .writerFree)

def finish (w : World R) (a : Option R) (next : Next) : World R :=
  put w a ((w.thread a).after next)

def dropCopy (w : World R) (a : Option R) (c : Nat) (next : Next) : World R :=
  let w' := addCopy w c (-1)
  if (w.copies c).reference - 1 = 0 then go w' a (.freeMsg c next) else finish w' a next

def freeMsg (w : World R) (a : Option R) (c : Nat) (next : Next) : World R :=
  go (setCopy w c { w.copies c with msgFreed := (w.copies c).msgFreed + 1 }) a (.freeCopy c next)

def freeCopy (w : World R) (a : Option R) (c : Nat) (next : Next) : World R :=
  finish (setCopy w c { w.copies c with freed := (w.copies c).freed + 1 }) a next

def advance (w : World R) (a : Option R) : Option (Except Fault (World R)) :=
  match (w.thread a).pc with
  | .absent => none
  | .idle => none
  | .rlock phase op => some (touch w (.ok (rlock w a op phase)))
  | .reading op => some (touch w (.ok (reading w a op)))
  | .finc c => some (touchCopy w c (finc w a c))
  | .runlock after => some (touch w (runlock w a after))
  | .lastReader =>
    some (touch w (if w.copy = none then .ok (go w a .readerFree) else .error .assertion))
  | .readerFree =>
    some (touch w (.ok (go { w with freed := w.freed + 1 } a
      (.drop (w.thread a).lastcopy .gone))))
  | .checkCopy =>
    some (touch w (if w.copy = none then .error .assertion
      else .ok (go w a (.wlock .testAndSet .release))))
  | .wlock phase op => some (touch w (.ok (wlock w a op phase)))
  | .writing op => some (touch w (.ok (writing w a op)))
  | .wunlock after => some (touch w (.ok (wunlock w a after)))
  | .clear => some (touch w (.ok (go { w with copy := none } a .decrement)))
  | .decrement => some (touch w (.ok (decrement w a)))
  | .writerFree => some (touch w (.ok (go { w with freed := w.freed + 1 } a .done)))
  | .drop none next => some (.ok (finish w a next))
  | .drop (some c) next => some (touchCopy w c (.ok (dropCopy w a c next)))
  | .freeMsg c next => some (touchCopy w c (touchMsg w c (.ok (freeMsg w a c next))))
  | .freeCopy c next => some (touchCopy w c (.ok (freeCopy w a c next)))
  | .use c => some (touchCopy w c (touchMsg w c (.ok (go w a .idle))))
  | .done => none

/-- The calls of a box: stm.copy, a read, an update, and the release by __gc. -/
inductive Call where
  | copy
  | read
  | update
  | release
  deriving DecidableEq, Repr

/- stm_update makes its copy before it takes the lock. -/
def begin (w : World R) : Option R → Call → Option (World R)
  | a, .copy => some (go w a (.rlock .test .grab))
  | some r, .read => some (go w (some r) (.rlock .test .copy))
  | some r, .release => some (go w (some r) (.rlock .test .release))
  | none, .update =>
    some (go { setCopy w w.allocated ⟨1, 0, 0⟩ with allocated := w.allocated + 1 } none
      (.wlock .testAndSet (.update w.allocated)))
  | none, .release => some (go w none .checkCopy)
  | some _, .update => none
  | none, .read => none

inductive Action (R : Type) where
  | call (a : Option R) (c : Call)
  | newcopy (r : R)
  | advance (a : Option R)
  deriving DecidableEq, Repr

def perform (w : World R) : Action R → Option (Except Fault (World R))
  | .call a c => if (w.thread a).pc = .idle then (begin w a c).map .ok else none
  | .newcopy r =>
    if (w.thread (some r)).pc = .absent ∧ 0 < w.handed then
      some (.ok (put { w with handed := w.handed - 1 } (some r) ⟨.idle, none⟩))
    else none
  | .advance a => advance w a

/- A fault stops the process. -/
structure State (R : Type) where
  world : World R
  fault : Option Fault

def State.start : State R := ⟨.start, none⟩

def step (st : State R) (action : Action R) : Option (State R) :=
  if st.fault ≠ none then none
  else
    (perform st.world action).map fun
      | .ok w => ⟨w, none⟩
      | .error f => ⟨st.world, some f⟩

end

/-- Every holder has released: the writer, every reader, and no pointer is on its way. -/
def Released (w : World R) : Prop :=
  w.handed = 0 ∧ (w.thread none).pc = .done ∧
    ∀ r, (w.thread (some r)).pc = .done ∨ (w.thread (some r)).pc = .absent

end Skynet.Stm
