import Skynet.Base.Chunks
import Skynet.Base.Bits

/-! The gate service: the data buffer of a connection, and how the bytes that a client
sends are cut into messages for the broker, the agent or the watchdog. -/
namespace Skynet.ServiceGate
open Base

/-- The style of the length header that the service is started with. -/
inductive Header
  | S
  | L
deriving DecidableEq

/-- The field `header_size`. -/
def Header.size : Header → Nat
  | .S => 2
  | .L => 4

/-- The messages of a buffer from its head to its tail. -/
structure DataBuffer where
  header : Int
  offset : Nat
  size : Nat
  messages : List (List UInt8)
deriving DecidableEq

def DataBuffer.cleared : DataBuffer := ⟨0, 0, 0, []⟩

/- Nothing is a read through the null head. -/
def readLoop : List (List UInt8) → Nat → Nat → Option (List UInt8 × List (List UInt8) × Nat)
  | [], _, _ => none
  | current :: next, offset, sz =>
    let rest := current.drop offset
    if sz < rest.length then some (rest.take sz, current :: next, offset + sz)
    else if rest.length = sz then some (rest, next, 0)
    else (readLoop next 0 (sz - rest.length)).map fun read => (rest ++ read.1, read.2)

/- Nothing is a failed assertion. -/
def databufferRead (db : DataBuffer) (sz : Nat) : Option (List UInt8 × DataBuffer) :=
  if sz ≤ db.size then
    (readLoop db.messages db.offset sz).map fun read =>
      (read.1, { db with size := db.size - sz, messages := read.2.1, offset := read.2.2 })
  else none

def databufferPush (db : DataBuffer) (data : List UInt8) : DataBuffer :=
  { db with size := db.size + data.length, messages := db.messages ++ [data] }

/-- The length that the bytes of a header give, as a C integer. -/
def plen : Header → List UInt8 → Int
  | .S, [b₀, b₁] => (b₀.toNat <<< 8 ||| b₁.toNat : Nat)
  | .L, [b₀, b₁, b₂, b₃] =>
    ((b₀.toNat <<< 24 ||| b₁.toNat <<< 16 ||| b₂.toNat <<< 8 ||| b₃.toNat : Nat) : Int).bmod
      0x100000000
  | _, _ => 0

def databufferReadheader (db : DataBuffer) (style : Header) : Option (Int × DataBuffer) :=
  let answer (db : DataBuffer) : Int × DataBuffer :=
    (if (db.size : Int) < db.header then -1 else db.header, db)
  if db.header = 0 then
    if db.size < style.size then some (-1, db)
    else (databufferRead db style.size).map fun read =>
      answer { read.2 with header := plen style read.1 }
  else some (answer db)

def databufferReset (db : DataBuffer) : DataBuffer := { db with header := 0 }

structure Gate where
  watchdog : Nat
  broker : Nat
  clientTag : Nat
  headerSize : Header

def ptypeText : Nat := 0
def ptypeTagDontcopy : Nat := 0x10000

/-- The arguments of `skynet_send`. -/
structure Send where
  source : Nat
  destination : Nat
  type : Nat
  msg : List UInt8
deriving DecidableEq

/-- A connection, with a record of what the gate did with its bytes: the messages it
sent, and how far in the stream it was each time it turned to the next header. -/
structure Connection where
  id : Int
  agent : Nat
  client : Nat
  buffer : DataBuffer
  sent : List Send
  pushed : Nat
  cuts : List Nat
  closed : Bool

/-- The text `"%d data "`. -/
def dataText (id : Int) : List UInt8 := (toString id ++ " data ").toUTF8.data.toList

/- The body is read and sent. -/
def handOver (c : Connection) (size : Nat) (message : List UInt8 → Send) : Option Connection :=
  (databufferRead c.buffer size).map fun read =>
    { c with buffer := read.2, sent := c.sent ++ [message read.1] }

def forward (g : Gate) (c : Connection) (size : Nat) : Option Connection :=
  if g.broker ≠ 0 then
    handOver c size fun temp => ⟨0, g.broker, g.clientTag ||| ptypeTagDontcopy, temp⟩
  else if c.agent ≠ 0 then
    handOver c size fun temp => ⟨c.client, c.agent, g.clientTag ||| ptypeTagDontcopy, temp⟩
  else if g.watchdog ≠ 0 then
    handOver c size fun temp =>
      ⟨0, g.watchdog, ptypeText ||| ptypeTagDontcopy, dataText c.id ++ temp⟩
  else some c

/-- The stream is cut where the unread bytes begin. -/
def Connection.cut (c : Connection) : Connection :=
  { c with cuts := c.cuts ++ [c.pushed - c.buffer.size] }

/- The loop of dispatch_message, for so many rounds. -/
def dispatchLoop (g : Gate) : Nat → Connection → Option Connection
  | 0, _ => none
  | rounds + 1, c =>
    match databufferReadheader c.buffer g.headerSize with
    | none => none
    | some (size, buffer) =>
      let c := { c with buffer := buffer }
      if size < 0 then some c
      else if 0 < size then
        if 0x1000000 ≤ size then some { c with buffer := .cleared, closed := true }
        else
          match forward g c size.toNat with
          | none => none
          | some c => dispatchLoop g rounds { c with buffer := databufferReset c.buffer }.cut
      else dispatchLoop g rounds c.cut

/- A round that begins at a header takes bytes, and only the first begins elsewhere. -/
def dispatchMessage (g : Gate) (c : Connection) (data : List UInt8) : Option Connection :=
  let buffer := databufferPush c.buffer data
  dispatchLoop g (buffer.size + 2)
    { c with buffer := buffer, pushed := c.pushed + data.length }

def accepted (id : Int) (agent client : Nat) : Connection :=
  ⟨id, agent, client, .cleared, [], 0, [], false⟩

end Skynet.ServiceGate
