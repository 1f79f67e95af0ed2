import Skynet.Base.Outcome
import Skynet.Server.Commands
import Skynet.Server.Model

/-! skynet_send and skynet_sendname, with what becomes of the payload. Memory is named by
addresses; address 0 is NULL. -/
namespace Skynet.Send
open Base Skynet.Handle Skynet.Server

def ptypeTagDontcopy : Nat := 0x10000
def ptypeTagAllocsession : Nat := 0x20000
def globalnameLength : Nat := 16

/-- The assertions on the way, a NULL context whose fields are read, and a fault of the search
in the name table. -/
inductive SendFault where
  | names (cause : NameFault)
  | nullContext
  | sessionGiven
  | harborUnset
  | harborType
  | noRemote
  deriving DecidableEq, Repr

/-- What the data pointer of a queued message points to: a payload, or a struct
remote_message with the payload in it. -/
inductive Cargo where
  | buffer (address : Nat)
  | rmsg (name : List UInt8) (handle message sz : Nat)
  deriving DecidableEq, Repr

/-- A message in the queue of the context `ctx`. -/
structure Letter where
  ctx : Nat
  source : Nat
  session : Int
  data : Cargo
  sz : Nat
  deriving DecidableEq, Repr

/-- The tables, HARBOR and REMOTE, the session counters of the contexts, the messages put into
queues, the blocks freed and the number of blocks allocated for copies. -/
structure World where
  directory : Directory
  harbor : Option Nat
  remote : Option Nat
  sessionId : Nat → Int
  queued : List Letter
  freed : List Nat
  blocks : Nat

def World.free (w : World) (address : Nat) : World :=
  if address = 0 then w else { w with freed := address :: w.freed }

def World.push (w : World) (letter : Letter) : World := { w with queued := letter :: w.queued }

def contextNewsession (w : World) (ctx : Nat) : World × Int :=
  let session := if w.sessionId ctx = 2 ^ 31 - 1 then -2 ^ 31 else w.sessionId ctx + 1
  let session := if session ≤ 0 then 1 else session
  ({ w with sessionId := Function.update w.sessionId ctx session }, session)

structure SendArgs where
  context : Option Nat
  source : Nat
  type : Nat
  session : Int
  data : Nat
  sz : Nat
  deriving DecidableEq, Repr

def SendArgs.dontcopy (args : SendArgs) : Bool := args.type &&& ptypeTagDontcopy ≠ 0

def SendArgs.tooLarge (args : SendArgs) : Bool := args.sz &&& messageTypeMask ≠ args.sz

def allocSession (w : World) (args : SendArgs) : Except SendFault (World × Int) :=
  if args.type &&& ptypeTagAllocsession ≠ 0 then
    if args.session ≠ 0 then .error .sessionGiven
    else
      match args.context with
      | none => .error .nullContext
      | some ctx => .ok (contextNewsession w ctx)
  else .ok (w, args.session)

def copyData (w : World) (args : SendArgs) : World × Nat :=
  if !args.dontcopy ∧ args.data ≠ 0 then ({ w with blocks := w.blocks + 1 }, w.blocks + 1)
  else (w, args.data)

def filterArgs (w : World) (args : SendArgs) : Except SendFault (World × SendArgs) := do
  let (w, session) ← allocSession w args
  let (w, data) := copyData w args
  let sz := args.sz ||| ((args.type &&& 0xff) <<< messageTypeShift)
  return (w, { args with session := session, data := data, sz := sz })

def contextHandle (w : World) (args : SendArgs) : Except SendFault Nat :=
  if args.source = 0 then
    match args.context with
    | none => .error .nullContext
    | some ctx => .ok (w.directory.registry.handleOf ctx)
  else .ok args.source

def harborSend (w : World) (name : List UInt8) (handle : Nat) (args : SendArgs) (source : Nat) :
    Except SendFault World :=
  let type := args.sz >>> messageTypeShift
  let sz := args.sz &&& messageTypeMask
  if type = ptypeSystem ∨ type = ptypeHarbor then .error .harborType
  else
    match w.remote with
    | none => .error .noRemote
    | some ctx =>
      .ok (w.push ⟨ctx, source, args.session, .rmsg name handle args.data sz,
        remoteMessageSize ||| (type <<< messageTypeShift)⟩)

/- none is the answer -1 of skynet_context_push. -/
def contextPush (w : World) (destination : Nat) (args : SendArgs) (source : Nat) : Option World :=
  (handleGrab w.directory.registry.handleOf w.directory.registry.storage destination).map fun ctx =>
    w.push ⟨ctx, source, args.session, .buffer args.data, args.sz⟩

def skynetSend (w : World) (args : SendArgs) (destination : Nat) : Except SendFault (World × Int) :=
  if args.tooLarge then .ok (if args.dontcopy then w.free args.data else w, -1)
  else do
    let (w, sent) ← filterArgs w args
    let source ← contextHandle w sent
    if destination = 0 then return (w, sent.session)
    match w.harbor with
    | none => .error .harborUnset
    | some harbor =>
      if harborMessageIsremote harbor destination then
        let w ← harborSend w [] destination sent source
        return (w, sent.session)
      else
        match contextPush w destination sent source with
        | some w => return (w, sent.session)
        | none => return (w.free sent.data, -1)

def copyName (addr : CString) : List UInt8 :=
  let name := addr.bytes.take globalnameLength
  name ++ List.replicate (globalnameLength - name.length) 0

def findDestination (w : World) (name : CString) : Except SendFault Nat :=
  match handleFindname w.directory.table name with
  | .ok handle => .ok handle
  | .error cause => .error (.names cause)

def skynetSendname (w : World) (args : SendArgs) (addr : CString) :
    Except SendFault (World × Int) := do
  let source ← contextHandle w args
  let args := { args with source := source }
  if addr.bytes.head? = some colon then
    skynetSend w args (strtoulHex addr.after.bytes % 2 ^ 32)
  else if addr.bytes.head? = some dot then
    let destination ← findDestination w addr.after
    if destination = 0 then return (if args.dontcopy then w.free args.data else w, -1)
    skynetSend w args destination
  else
    let (w, sent) ← filterArgs w args
    let w ← harborSend w (copyName addr) 0 sent source
    return (w, sent.session)

inductive Target where
  | handle (destination : Nat)
  | named (addr : CString)
  deriving DecidableEq

def send (w : World) (args : SendArgs) : Target → Except SendFault (World × Int)
  | .handle destination => skynetSend w args destination
  | .named addr => skynetSendname w args addr

/-- The call comes to skynet_send with destination 0. -/
def Target.isZero : Target → Bool
  | .handle destination => destination = 0
  | .named addr => addr.bytes.head? = some colon ∧ strtoulHex addr.after.bytes % 2 ^ 32 = 0

/-- The payload a call owns: the caller's buffer, or the copy made in the call. -/
def owned (w w' : World) (args : SendArgs) : Option Nat :=
  if args.dontcopy then (if args.data = 0 then none else some args.data)
  else if w'.blocks = w.blocks then none
  else some w'.blocks

def Letter.carries (address : Nat) (letter : Letter) : Bool :=
  match letter.data with
  | .buffer a => a = address
  | .rmsg _ _ message _ => message = address

/-- How many times the payload is in a queue, with the harbor, or freed. -/
def World.disposals (w : World) (address : Nat) : Nat :=
  w.queued.countP (Letter.carries address) + w.freed.count address

section Disposals

variable {w : World} {args : SendArgs}

@[simp] theorem free_disposals {address : Nat} (nonnull : address ≠ 0) :
    (w.free address).disposals address = w.disposals address + 1 := by
  simp [World.free, nonnull, World.disposals]
  omega

@[simp] theorem push_disposals {letter : Letter} {address : Nat}
    (carries : letter.carries address = true) :
    (w.push letter).disposals address = w.disposals address + 1 := by
  simp [World.push, World.disposals, carries]
  omega

/- The arguments as _filter_args leaves them; the payload owned is the data sent. -/
structure Filtered (w : World) (args : SendArgs) (w' : World) (sent : SendArgs) : Prop where
  disposals : ∀ a, w'.disposals a = w.disposals a
  owned : ∀ w'' : World, w''.blocks = w'.blocks → owned w w'' args =
    if sent.data = 0 then none else some sent.data

variable {w' w₁ : World} {sent : SendArgs} {r : Int}

theorem filterArgs_filtered (filtered : filterArgs w args = .ok (w', sent)) :
    Filtered w args w' sent := by
  unfold filterArgs at filtered
  obtain ⟨⟨w₁, session⟩, allocated, rest⟩ := bind_ok filtered
  have same : w₁.queued = w.queued ∧ w₁.freed = w.freed ∧ w₁.blocks = w.blocks := by
    unfold allocSession at allocated
    split_ifs at allocated
    · split at allocated
      · cases allocated
      · cases allocated
        exact ⟨rfl, rfl, rfl⟩
    · cases allocated
      exact ⟨rfl, rfl, rfl⟩
  obtain ⟨queued, freed, blocks⟩ := same
  rcases copy : copyData w₁ args with ⟨w₂, data⟩
  simp only [copy] at rest
  cases rest
  unfold copyData at copy
  split at copy
  · cases copy
    constructor
    · intro a
      simp [World.disposals, queued, freed]
    · intro w'' counted
      simp_all [owned]
  · cases copy
    constructor
    · intro a
      simp [World.disposals, queued, freed]
    · intro w'' counted
      cases copied : args.dontcopy <;> simp_all [owned]

/- The call put the payload it owns into one place. -/
def Disposed (w w' : World) (args : SendArgs) : Prop :=
  ∀ a, owned w w' args = some a → w'.disposals a = w.disposals a + 1

@[simp] theorem tooLarge_source (source : Nat) :
    SendArgs.tooLarge { args with source := source } = args.tooLarge := rfl

@[simp] theorem disposed_source {w' : World} (source : Nat) :
    Disposed w w' { args with source := source } ↔ Disposed w w' args := Iff.rfl

theorem push_disposed (filtered : Filtered w args w₁ sent) {letter : Letter}
    (carries : letter.carries sent.data = true) :
    Disposed w (w₁.push letter) args := by
  intro a owns
  rw [filtered.owned (w₁.push letter) rfl] at owns
  split at owns
  · cases owns
  · cases owns
    rw [push_disposals carries, filtered.disposals]

theorem free_disposed (filtered : Filtered w args w₁ sent) :
    Disposed w (w₁.free sent.data) args := by
  have blocks : (w₁.free sent.data).blocks = w₁.blocks := by
    unfold World.free
    split <;> rfl
  intro a owns
  rw [filtered.owned _ blocks] at owns
  split at owns
  · cases owns
  · rename_i nonnull
    cases owns
    rw [free_disposals nonnull, filtered.disposals]

/- The early returns free the caller's buffer; no copy was made. -/
theorem refused_disposed : Disposed w (if args.dontcopy then w.free args.data else w) args := by
  intro a owns
  unfold owned at owns
  cases copied : args.dontcopy with
  | true =>
    simp only [copied, if_true] at owns ⊢
    split at owns
    · cases owns
    · rename_i nonnull
      cases owns
      exact free_disposals nonnull
  | false => simp [copied] at owns

theorem harborSend_disposed {name : List UInt8} {handle source : Nat}
    (filtered : Filtered w args w₁ sent) (handed : harborSend w₁ name handle sent source = .ok w') :
    Disposed w w' args := by
  unfold harborSend at handed
  dsimp only at handed
  split at handed
  · cases handed
  · split at handed
    · cases handed
    · cases handed
      exact push_disposed filtered (by simp [Letter.carries])

theorem skynetSend_cases {destination : Nat}
    (returned : skynetSend w args destination = .ok (w', r)) :
    if destination = 0 ∧ args.tooLarge = false then ∀ a, w'.disposals a = w.disposals a
    else Disposed w w' args := by
  unfold skynetSend at returned
  split at returned
  · rename_i large
    cases returned
    simp only [large, Bool.true_eq_false, and_false, if_false]
    exact refused_disposed
  · rename_i fits
    obtain ⟨⟨w₁, sent⟩, filtering, rest⟩ := bind_ok returned
    have filtered := filterArgs_filtered filtering
    obtain ⟨source, -, rest⟩ := bind_ok rest
    by_cases zero : destination = 0
    · simp only [zero, if_true] at rest
      cases rest
      simpa [zero, fits] using filtered.disposals
    · simp only [zero, if_false, false_and] at rest ⊢
      split at rest
      · cases rest
      · split at rest
        · obtain ⟨w₂, handed, rest⟩ := bind_ok rest
          cases rest
          exact harborSend_disposed filtered handed
        · split at rest
          · rename_i w₂ pushed
            cases rest
            obtain ⟨ctx, -, rfl⟩ := Option.map_eq_some_iff.mp pushed
            exact push_disposed filtered (by simp [Letter.carries])
          · cases rest
            exact free_disposed filtered

theorem skynetSendname_cases {addr : CString} (returned : skynetSendname w args addr = .ok (w', r)) :
    if (Target.named addr).isZero ∧ args.tooLarge = false then
      ∀ a, w'.disposals a = w.disposals a
    else Disposed w w' args := by
  unfold skynetSendname at returned
  obtain ⟨source, -, rest⟩ := bind_ok returned
  split at rest
  · rename_i number
    have sent := skynetSend_cases rest
    simpa [Target.isZero, number] using sent
  · rename_i name
    have apart : (Target.named addr).isZero = false := by simp [Target.isZero, name]
    simp only [apart, Bool.false_eq_true, false_and, if_false]
    split at rest
    · obtain ⟨destination, -, rest⟩ := bind_ok rest
      by_cases zero : destination = 0
      · simp only [zero, if_true] at rest
        cases rest
        exact refused_disposed
      · simp only [zero, if_false] at rest
        have sent := skynetSend_cases rest
        simpa [zero] using sent
    · obtain ⟨⟨w₁, sent⟩, filtering, rest⟩ := bind_ok rest
      obtain ⟨w₂, handed, rest⟩ := bind_ok rest
      cases rest
      have disposed := harborSend_disposed (filterArgs_filtered filtering) handed
      simpa using disposed

end Disposals

/-- A call that returns has put the payload it owns into exactly one place, unless a message
that is not too large goes to destination 0. -/
theorem payload_disposed_iff (w w' : World) (args : SendArgs) (target : Target) (r : Int) (a : Nat)
    (returned : send w args target = .ok (w', r)) (owns : owned w w' args = some a) :
    w'.disposals a = w.disposals a + 1 ↔ ¬ (target.isZero = true ∧ args.tooLarge = false) := by
  have result : if target.isZero ∧ args.tooLarge = false then
      ∀ a, w'.disposals a = w.disposals a else Disposed w w' args := by
    cases target with
    | handle destination => simpa [Target.isZero] using skynetSend_cases returned
    | named addr => exact skynetSendname_cases returned
  split at result
  · rename_i lost
    simp [lost, result a]
  · rename_i kept
    simp [kept, result a owns]

/- One service, registered under handle 1 of harbor 0. -/
def oneService : Option World :=
  ((Directory.initial 0).step .register).map fun directory =>
    { directory := directory, harbor := some 0, remote := none, sessionId := fun _ => 0,
      queued := [], freed := [], blocks := 0 }

theorem payload_disposed_local :
    ∃ w w', oneService = some w ∧
      send w ⟨some 0, 0, 0, 0, 5, 3⟩ (.handle 1) = .ok (w', 0) ∧
      w'.disposals 1 = w.disposals 1 + 1 := by
  obtain ⟨w, made, w', returned, owns⟩ : ∃ w, oneService = some w ∧
      ∃ w', send w ⟨some 0, 0, 0, 0, 5, 3⟩ (.handle 1) = .ok (w', 0) ∧
        owned w w' ⟨some 0, 0, 0, 0, 5, 3⟩ = some 1 := ⟨_, rfl, _, rfl, rfl⟩
  refine ⟨w, w', made, returned, ?_⟩
  exact (payload_disposed_iff w w' _ (.handle 1) 0 1 returned owns).mpr (by decide)

/-- Sent to destination 0, the caller's buffer 5 and the copy of it are in no queue, not with
the harbor and not freed; and so is a buffer sent to the name ":0". -/
theorem payload_lost :
    ∃ w, oneService = some w ∧
      (∃ w' r, send w ⟨some 0, 0, ptypeTagDontcopy, 0, 5, 3⟩ (.handle 0) = .ok (w', r) ∧
        owned w w' ⟨some 0, 0, ptypeTagDontcopy, 0, 5, 3⟩ = some 5 ∧ w'.disposals 5 = 0) ∧
      (∃ w' r, send w ⟨some 0, 0, 0, 0, 5, 3⟩ (.handle 0) = .ok (w', r) ∧
        owned w w' ⟨some 0, 0, 0, 0, 5, 3⟩ = some 1 ∧ w'.disposals 1 = 0) ∧
      ∃ w' r, send w ⟨some 0, 0, ptypeTagDontcopy, 0, 5, 3⟩
          (.named ⟨[58, 48], by decide⟩) = .ok (w', r) ∧
        owned w w' ⟨some 0, 0, ptypeTagDontcopy, 0, 5, 3⟩ = some 5 ∧ w'.disposals 5 = 0 := by
  refine ⟨_, rfl, ⟨_, _, rfl, rfl, rfl⟩, ⟨_, _, rfl, rfl, rfl⟩, _, _, rfl, rfl, rfl⟩

end Skynet.Send
