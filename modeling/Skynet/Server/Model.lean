import Skynet.Base.Chain
import Skynet.Base.Pool
import Skynet.Base.Ring
import Skynet.Handle.Storage

/-! The scheduler: message queues and the global queue of skynet_mq.c, contexts and
dispatching of skynet_server.c, sending over skynet_harbor.c. Contexts and queues are
named by their addresses, and every field of the two structures is a map from
addresses. A critical section or an atomic operation is one step of the frame on top
of a thread's stack. -/
namespace Skynet.Server
open Base Skynet.Handle
open Function (update)

def defaultQueueSize : Nat := 64
def mqOverloadMark : Nat := 1024
def messageTypeShift : Nat := 56
def messageTypeMask : Nat := 2 ^ 56 - 1
def ptypeSystem : Nat := 4
def ptypeHarbor : Nat := 5
def ptypeError : Nat := 7

structure RemoteMessage where
  destination : Nat
  message : Nat
  sz : Nat
  deriving DecidableEq, Repr

def remoteMessageSize : Nat := 40

inductive Payload where
  | buffer (address : Nat)
  | remote (rmsg : RemoteMessage)
  deriving DecidableEq, Repr

/- The type is in the high 8 bits of sz. -/
structure SkynetMessage where
  source : Nat
  session : Int
  data : Payload
  sz : Nat
  deriving DecidableEq, Repr

/-- Ways in which a thread stops the process: the assertions of the code, a queue
pointer read before it was set, and memory used after it was freed. -/
inductive Fault where
  | register (cause : Handle.Fault)
  | queueNext
  | globalTail
  | releaseTwice
  | freeNext
  | queueMismatch
  | notInit
  | noSource
  | harbor
  | noQueue
  | freed
  deriving DecidableEq, Repr

/-- What became of a message taken out of a queue: handed to the callback of a
context, freed because that context has no callback, or given to drop_message. -/
inductive Fate where
  | callback (ctx : Nat)
  | freed (ctx : Nat)
  | dropped
  deriving DecidableEq, Repr

structure ErrorSend where
  source : Nat
  destination : Nat
  type : Nat
  deriving DecidableEq, Repr

structure Shared where
  storage : HandleStorage
  /- struct skynet_context -/
  live : Nat → Bool
  ref : Nat → Nat
  handle : Nat → Nat
  queue : Nat → Option Nat
  cb : Nat → Bool
  init : Nat → Bool
  /- struct message_queue; the next field is in the chain of the global queue -/
  mqLive : Nat → Bool
  mqHandle : Nat → Nat
  ring : Nat → RingBuffer SkynetMessage
  release : Nat → Bool
  inGlobal : Nat → Bool
  overload : Nat → Nat
  overloadThreshold : Nat → Nat
  global : Chain
  remote : Option Nat
  /- the next addresses to be given out -/
  contextCount : Nat
  queueCount : Nat
  /- the history of the run: what skynet_handle_register returned for a context, how often
  it was reserved, the context a queue was created for, and the messages of a queue -/
  given : Nat → Nat
  reserved : Nat → Nat
  owner : Nat → Nat
  accepted : Nat → List SkynetMessage
  hand : Nat → List SkynetMessage
  taken : Nat → List (SkynetMessage × Fate)
  errors : Nat → List ErrorSend

def Shared.initial (harbor : Nat) : Shared where
  storage := handleInit harbor
  live := fun _ => false
  ref := fun _ => 0
  handle := fun _ => 0
  queue := fun _ => none
  cb := fun _ => false
  init := fun _ => false
  mqLive := fun _ => false
  mqHandle := fun _ => 0
  ring := fun _ => RingBuffer.empty defaultQueueSize
  release := fun _ => false
  inGlobal := fun _ => false
  overload := fun _ => 0
  overloadThreshold := fun _ => 0
  global := Chain.empty
  remote := none
  contextCount := 0
  queueCount := 0
  given := fun _ => 0
  reserved := fun _ => 0
  owner := fun _ => 0
  accepted := fun _ => []
  hand := fun _ => []
  taken := fun _ => []
  errors := fun _ => []

/-! skynet_mq.c -/

def Shared.globalmqPush (s : Shared) (q : Nat) : Except Fault Shared :=
  match s.global.push q with
  | some global => .ok { s with global := global }
  | none => .error .queueNext

def Shared.globalmqPop (s : Shared) : Except Fault (Option Nat × Shared) :=
  match s.global.pop with
  | some (q, global) => .ok (q, { s with global := global })
  | none => .error .globalTail

def Shared.mqCreate (s : Shared) (handle : Nat) : Shared :=
  let q := s.queueCount
  { s with
    queueCount := q + 1
    mqLive := update s.mqLive q true
    mqHandle := update s.mqHandle q handle
    ring := update s.ring q (RingBuffer.empty defaultQueueSize)
    release := update s.release q false
    inGlobal := update s.inGlobal q true
    overload := update s.overload q 0
    overloadThreshold := update s.overloadThreshold q mqOverloadMark }

/- The while loop of skynet_mq_pop; the threshold doubles, so the length bounds the rounds. -/
def raiseThreshold (length : Nat) : Nat → Nat × Nat → Nat × Nat
  | 0, marks => marks
  | rounds + 1, (overload, threshold) =>
    if length > threshold then raiseThreshold length rounds (length, threshold * 2)
    else (overload, threshold)

def Shared.mqPop (s : Shared) (q : Nat) : Option SkynetMessage × Shared :=
  match (s.ring q).pop with
  | some (message, ring) =>
    let marks := raiseThreshold ring.length ring.length (s.overload q, s.overloadThreshold q)
    (some message, { s with
      ring := update s.ring q ring
      overload := update s.overload q marks.1
      overloadThreshold := update s.overloadThreshold q marks.2 })
  | none =>
    (none, { s with
      overloadThreshold := update s.overloadThreshold q mqOverloadMark
      inGlobal := update s.inGlobal q false })

def Shared.mqPush (s : Shared) (q : Nat) (message : SkynetMessage) : Except Fault Shared :=
  let s := { s with
    ring := update s.ring q ((s.ring q).push (2 * ·) message)
    accepted := update s.accepted q (s.accepted q ++ [message]) }
  if s.inGlobal q then .ok s
  else Shared.globalmqPush { s with inGlobal := update s.inGlobal q true } q

def Shared.mqMarkRelease (s : Shared) (q : Nat) : Except Fault Shared :=
  if s.release q then .error .releaseTwice
  else
    let s := { s with release := update s.release q true }
    if s.inGlobal q then .ok s else s.globalmqPush q

/-! skynet_server.c -/

def Shared.handleGrab (s : Shared) (handle : Nat) : Option (Nat × Shared) :=
  (Handle.handleGrab s.handle s.storage handle).map fun ctx =>
    (ctx, { s with ref := update s.ref ctx (s.ref ctx + 1) })

/- The flag says that the last reference is gone and delete_context follows. -/
def Shared.contextRelease (s : Shared) (ctx : Nat) : Bool × Shared :=
  (s.ref ctx - 1 = 0, { s with ref := update s.ref ctx (s.ref ctx - 1) })

/- A push through the queue pointer of a context. -/
def Shared.pushContext (s : Shared) (ctx : Nat) (message : SkynetMessage) : Except Fault Shared :=
  if s.live ctx then
    match s.queue ctx with
    | some q => if s.mqLive q then s.mqPush q message else .error .freed
    | none => .error .noQueue
  else .error .freed

def harborMessageIsremote (harbor handle : Nat) : Bool :=
  let h := handle &&& 0xff000000
  h ≠ harbor && h ≠ 0

/-- The dispatch of one queue: `i` and `n` are the variables of the loop. -/
structure Batch where
  q : Nat
  ctx : Nat
  weight : Int
  i : Nat
  n : Nat
  deriving DecidableEq, Repr

/-- Where a thread is inside the functions of the scheduler. -/
inductive Frame where
  /- skynet_context_push, its push after the grab, skynet_harbor_send -/
  | contextPush (destination : Nat) (message : SkynetMessage)
  | pushTo (ctx : Nat) (message : SkynetMessage)
  | harborSend (type : Nat) (message : SkynetMessage)
  /- skynet_context_release, delete_context, skynet_handle_retire, skynet_context_endless -/
  | release (ctx : Nat)
  | delete (ctx : Nat)
  | retire (handle : Nat)
  | endless (handle : Nat)
  /- skynet_context_message_dispatch -/
  | popNext (weight : Int)
  | worker (weight : Int) (q : Nat)
  | loop (b : Batch)
  | measure (b : Batch) (message : SkynetMessage)
  | consume (b : Batch) (message : SkynetMessage)
  | callback (b : Batch) (message : SkynetMessage)
  | pushBack (q : Nat)
  /- skynet_mq_release, _drop_queue, drop_message, _release -/
  | mqRelease (q : Nat) (handle : Nat)
  | dropQueue (q : Nat) (handle : Nat)
  | dropMessage (q : Nat) (handle : Nat) (message : SkynetMessage)
  | free (q : Nat)
  /- skynet_context_new after the register call -/
  | assign (ctx : Nat) (handle : Nat)
  | createQueue (ctx : Nat)
  | init (ctx : Nat) (q : Nat)
  | launched (ctx : Nat) (q : Nat)
  | setInit (ctx : Nat) (q : Nat)
  | publish (q : Nat)
  | failed (handle : Nat) (q : Nat)
  deriving DecidableEq, Repr

/- skynet_send, with the session and the address of the data as _filter_args leaves them. -/
def skynetSend (harbor source destination type : Nat) (session : Int) (data sz : Nat) :
    List Frame :=
  if sz &&& messageTypeMask ≠ sz then []
  else
    let tagged := sz ||| (type &&& 0xff) <<< messageTypeShift
    if destination = 0 then []
    else if harborMessageIsremote harbor destination then
      let rmsg : RemoteMessage := ⟨destination, data, tagged &&& messageTypeMask⟩
      let type := tagged >>> messageTypeShift
      [.harborSend type ⟨source, session, .remote rmsg,
        remoteMessageSize ||| type <<< messageTypeShift⟩]
    else [.contextPush destination ⟨source, session, .buffer data, tagged⟩]

/- One step of a frame: the frames that replace it, the next one to run first. The flag
is the answer of the service's init function. -/
def act (s : Shared) (ok : Bool) : Frame → Except Fault (Shared × List Frame)
  | .contextPush destination message =>
    match s.handleGrab destination with
    | some (ctx, s) => .ok (s, [.pushTo ctx message])
    | none => .ok (s, [])
  | .pushTo ctx message =>
    match s.pushContext ctx message with
    | .ok s => .ok (s, [.release ctx])
    | .error e => .error e
  | .harborSend type message =>
    match s.remote with
    | some ctx =>
      if type = ptypeSystem ∨ type = ptypeHarbor then .error .harbor
      else match s.pushContext ctx message with
        | .ok s => .ok (s, [])
        | .error e => .error e
    | none => .error .harbor
  | .release ctx =>
    if s.live ctx then
      .ok ((s.contextRelease ctx).2, if (s.contextRelease ctx).1 then [.delete ctx] else [])
    else .error .freed
  | .delete ctx =>
    match s.queue ctx with
    | some q =>
      if s.mqLive q then
        match s.mqMarkRelease q with
        | .ok s => .ok ({ s with live := update s.live ctx false }, [])
        | .error e => .error e
      else .error .freed
    | none => .error .noQueue
  | .retire handle =>
    match handleRetire s.handle s.storage handle with
    | some (storage, ctx) => .ok ({ s with storage := storage }, [.release ctx])
    | none => .ok (s, [])
  | .endless handle =>
    match s.handleGrab handle with
    | some (ctx, s) => .ok (s, [.release ctx])
    | none => .ok (s, [])
  | .popNext weight =>
    match s.globalmqPop with
    | .ok (some q, s) => .ok (s, [.worker weight q])
    | .ok (none, s) => .ok (s, [])
    | .error e => .error e
  | .worker weight q =>
    if s.mqLive q then
      match s.handleGrab (s.mqHandle q) with
      | some (ctx, s) => .ok (s, [.loop ⟨q, ctx, weight, 0, 1⟩])
      | none => .ok (s, [.mqRelease q (s.mqHandle q), .popNext weight])
    else .error .freed
  | .loop b =>
    if b.i < b.n then
      if s.mqLive b.q then
        match s.mqPop b.q with
        | (none, s) => .ok (s, [.release b.ctx, .popNext b.weight])
        | (some message, s) =>
          .ok ({ s with hand := update s.hand b.q [message] },
            if b.i = 0 ∧ 0 ≤ b.weight then [.measure b message] else [.consume b message])
      else .error .freed
    else if s.live b.ctx then
      if s.queue b.ctx = some b.q then
        match s.globalmqPop with
        | .ok (some next, s) => .ok (s, [.pushBack b.q, .release b.ctx, .worker b.weight next])
        | .ok (none, s) => .ok (s, [.release b.ctx, .worker b.weight b.q])
        | .error e => .error e
      else .error .queueMismatch
    else .error .freed
  | .measure b message =>
    if s.mqLive b.q then
      .ok (s, [.consume { b with n := (s.ring b.q).length >>> b.weight.toNat } message])
    else .error .freed
  | .consume b message =>
    if s.live b.ctx then
      let record (fate : Fate) : Shared := { s with
        overload := update s.overload b.q 0
        hand := update s.hand b.q []
        taken := update s.taken b.q (s.taken b.q ++ [(message, fate)]) }
      if s.cb b.ctx then
        if s.init b.ctx then .ok (record (.callback b.ctx), [.callback b message])
        else .error .notInit
      else .ok (record (.freed b.ctx), [.loop { b with i := b.i + 1 }])
    else .error .freed
  | .callback b _ => .ok (s, [.loop { b with i := b.i + 1 }])
  | .pushBack q | .publish q =>
    match s.globalmqPush q with
    | .ok s => .ok (s, [])
    | .error e => .error e
  | .mqRelease q handle =>
    if s.mqLive q then
      if s.release q then .ok (s, [.dropQueue q handle])
      else match s.globalmqPush q with
        | .ok s => .ok (s, [])
        | .error e => .error e
    else .error .freed
  | .dropQueue q handle =>
    if s.mqLive q then
      match s.mqPop q with
      | (some message, s) =>
        .ok ({ s with hand := update s.hand q [message] }, [.dropMessage q handle message])
      | (none, s) => .ok (s, [.free q])
    else .error .freed
  | .dropMessage q handle message =>
    if handle = 0 then .error .noSource
    else
      .ok ({ s with
        hand := update s.hand q []
        taken := update s.taken q (s.taken q ++ [(message, .dropped)])
        errors := update s.errors q
          (s.errors q ++ [⟨handle, message.source, ptypeError⟩]) },
        skynetSend s.storage.harbor handle message.source ptypeError 0 0 0 ++ [.dropQueue q handle])
  | .free q =>
    if s.global.next q = none then .ok ({ s with mqLive := update s.mqLive q false }, [])
    else .error .freeNext
  | .assign ctx handle =>
    .ok ({ s with handle := update s.handle ctx handle }, [.createQueue ctx])
  | .createQueue ctx =>
    .ok ({ s.mqCreate (s.handle ctx) with
      queue := update s.queue ctx (some s.queueCount)
      owner := update s.owner s.queueCount ctx }, [.init ctx s.queueCount])
  | .init ctx q =>
    .ok (s, if ok then [.launched ctx q] else [.release ctx, .failed (s.handle ctx) q])
  | .launched ctx q =>
    if s.live ctx then
      .ok ((s.contextRelease ctx).2,
        if (s.contextRelease ctx).1 then [.delete ctx, .publish q] else [.setInit ctx q])
    else .error .freed
  /- The context may be freed by now, and the store then reaches no live context. -/
  | .setInit ctx q =>
    .ok (if s.live ctx then { s with init := update s.init ctx true } else s, [.publish q])
  | .failed handle q =>
    match handleRetire s.handle s.storage handle with
    | some (storage, ctx) =>
      .ok ({ s with storage := storage }, [.release ctx, .mqRelease q handle])
    | none => .ok (s, [.mqRelease q handle])

/-- What a thread outside the scheduler, or a service's code, can call. -/
inductive Call where
  | send (source destination type : Nat) (session : Int) (data sz : Nat)
  | contextPush (destination : Nat) (message : SkynetMessage)
  | retire (handle : Nat)
  | endless (handle : Nat)
  | launch
  | dispatch (weight : Int)
  | harborStart
  | setCallback (on : Bool)
  deriving DecidableEq, Repr

/- skynet_context_new up to the return of skynet_handle_register. -/
def Shared.contextNew (s : Shared) : Except Fault (Shared × List Frame) :=
  let ctx := s.contextCount
  let s := { s with
    contextCount := ctx + 1
    live := update s.live ctx true
    ref := update s.ref ctx 2
    handle := update s.handle ctx 0
    queue := update s.queue ctx none
    cb := update s.cb ctx false
    init := update s.init ctx false }
  match handleRegister s.handle s.storage ctx with
  | .ok (storage, handle) =>
    .ok ({ s with storage := storage, given := update s.given ctx handle },
      [.assign ctx handle])
  | .error e => .error (.register e)

/- The caller is the context whose code runs, none for a thread outside any service;
only such a thread is a worker, and only a service sets its callback or becomes the
harbor service. -/
def start (s : Shared) (caller : Option Nat) : Call → Option (Except Fault (Shared × List Frame))
  | .send source destination type session data sz =>
    some (.ok (s, skynetSend s.storage.harbor source destination type session data sz))
  | .contextPush destination message => some (.ok (s, [.contextPush destination message]))
  | .retire handle => some (.ok (s, [.retire handle]))
  | .endless handle => some (.ok (s, [.endless handle]))
  | .launch => some s.contextNew
  | .dispatch weight => if caller = none then some (.ok (s, [.popNext weight])) else none
  | .harborStart => caller.map fun ctx => .ok ({ s with
      ref := update s.ref ctx (s.ref ctx + 1)
      reserved := update s.reserved ctx (s.reserved ctx + 1)
      remote := some ctx }, [])
  | .setCallback on => caller.map fun ctx => .ok ({ s with cb := update s.cb ctx on }, [])

structure State where
  shared : Shared
  threads : List (List Frame)
  fault : Option Fault

def State.initial (harbor threads : Nat) : State :=
  ⟨Shared.initial harbor, List.replicate threads [], none⟩

inductive Action where
  | call (thread : Nat) (what : Call)
  | run (thread : Nat) (ok : Bool)
  deriving DecidableEq, Repr

/- The context whose code a thread is running: its init function or its callback. -/
def Frame.running : Frame → Option Nat
  | .init ctx _ => some ctx
  | .callback b _ => some b.ctx
  | _ => none

def callerOf : List Frame → Option (Option Nat)
  | [] => some none
  | f :: _ => f.running.map some

def State.finish (st : State) (thread : Nat) (below : List Frame) :
    Except Fault (Shared × List Frame) → State
  | .ok (s, new) => ⟨s, st.threads.set thread (new ++ below), none⟩
  | .error e => { st with fault := some e }

def step (st : State) (a : Action) : Option State :=
  match st.fault with
  | some _ => none
  | none =>
    match a with
    | .call thread what => do
      let stack ← st.threads[thread]?
      let caller ← callerOf stack
      let result ← start st.shared caller what
      return st.finish thread stack result
    | .run thread ok =>
      match st.threads[thread]? with
      | some (f :: below) => some (st.finish thread below (act st.shared ok f))
      | _ => none

end Skynet.Server
