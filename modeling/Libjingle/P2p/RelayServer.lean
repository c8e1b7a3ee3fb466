import Mathlib.Logic.Function.Basic
import Libjingle.Base.AddressOrder
import Libjingle.Lib.Runs
import Libjingle.Stun.Request

/-! `RelayServer`: clients allocate bindings from the inside, and peers reach them from the
outside. A binding has connections to clients and to peers, and the server has a table of
all connections by their addresses. Bindings and connections are objects, and a pointer to
a deleted one is not followed. -/

namespace Libjingle

structure SocketAddressPair where
  source : SocketAddress
  destination : SocketAddress
  deriving DecidableEq, Repr

/-- What `operator<` of pairs goes by. -/
abbrev SocketAddressPair.Key : Type :=
  ((ℕ ×ₗ ℕ) ×ₗ (List ℕ ×ₗ ℕ)) × ((ℕ ×ₗ ℕ) ×ₗ (List ℕ ×ₗ ℕ))

instance : DecidableEq SocketAddressPair.Key := instDecidableEqProd

def SocketAddressPair.key (p : SocketAddressPair) : Key := (p.source.key, p.destination.key)

namespace RelayServer

def maxLifetime : UInt32 := 15 * 60 * 1000
def usernameLength : Nat := 16
def stunAllocateRequest : UInt16 := 0x0003
def stunSendRequest : UInt16 := 0x0004
def turnMagicCookieValue : List UInt8 := [0x72, 0xC6, 0x4B, 0xC6]

structure Connection where
  binding : Nat
  addrPair : SocketAddressPair
  socket : Nat
  locked : Bool := false
  defaultDestination : SocketAddress := .nil
  deriving DecidableEq, Repr

structure Binding where
  username : List UInt8
  lifetime : UInt32
  lastUsed : UInt32
  internalConnections : List Nat := []
  externalConnections : List Nat := []
  /-- `MSG_LIFETIME_TIMER` is posted. -/
  timer : Bool := true
  deriving DecidableEq, Repr

/-- What is sent. All messages but errors and raw data have the magic cookie. -/
inductive Packet
  | raw (bytes : List UInt8)
  | dataIndication (sender : SocketAddress) (bytes : List UInt8)
  | allocateResponse (transactionId : List UInt8) (mapped : SocketAddress) (lifetime : UInt32)
  | sendResponse (transactionId : List UInt8)
  | error (type : Option UInt16) (transactionId : List UInt8) (code : Nat) (reason : String)
  deriving DecidableEq, Repr

structure Output where
  connection : Option Nat
  socket : Nat
  receiver : SocketAddress
  packet : Packet
  deriving DecidableEq, Repr

end RelayServer

open RelayServer in
structure RelayServer where
  externalSockets : List (Nat × SocketAddress) := []
  bindings : List UInt8 → Option Nat := fun _ => none
  connections : SocketAddressPair.Key → Option Nat := fun _ => none
  binding : Nat → Option Binding := fun _ => none
  connection : Nat → Option RelayServer.Connection := fun _ => none
  nextBinding : Nat := 0
  nextConnection : Nat := 0
  /-- The bindings that timed out and are deleted later -/
  doomed : List Nat := []
  /-- The assertions of the tables held. -/
  asserted : Bool := true

namespace RelayServer

variable (s : RelayServer)

def bytesOf (msg : StunMessage) (type : UInt16) : Option (List UInt8) :=
  match msg.getByteString type with
  | some ⟨_, .byteString bytes⟩ => some bytes
  | _ => none

def uint32Of (msg : StunMessage) (type : UInt16) : Option UInt32 :=
  match msg.getUInt32 type with
  | some ⟨_, .uint32 bits⟩ => some bits
  | _ => none

/-- The constructor from the address and the port of an attribute. -/
def addressOf (msg : StunMessage) (type : UInt16) : Option SocketAddress :=
  match msg.getAddress type with
  | some ⟨_, .address addr⟩ => some (.ofIP addr.ip addr.port)
  | some ⟨_, .xorAddress addr⟩ => some (.ofIP addr.ip addr.port)
  | _ => none

def errorPacket (msg : StunMessage) (code : Nat) (reason : String) : Packet :=
  .error (getStunErrorResponseType msg.type) msg.transactionId code reason

def modifyConnection (c : Nat) (f : Connection → Connection) : RelayServer :=
  { s with connection := Function.update s.connection c ((s.connection c).map f) }

def modifyBinding (b : Nat) (f : Binding → Binding) : RelayServer :=
  { s with binding := Function.update s.binding b ((s.binding b).map f) }

def noteUsed (b : Nat) (now : UInt32) : RelayServer :=
  s.modifyBinding b fun x => { x with lastUsed := now }

def lock (c : Nat) : RelayServer := s.modifyConnection c fun x => { x with locked := true }

/-- Everything but an error is a use of the binding. -/
def send (c : Nat) (conn : Connection) (packet : Packet) (now : UInt32) :
    RelayServer × List Output :=
  (s.noteUsed conn.binding now, [⟨some c, conn.socket, conn.addrPair.source, packet⟩])

/-- `Send` of a packet with the address it came from. -/
def sendFrom (c : Nat) (conn : Connection) (bytes : List UInt8) (sender : SocketAddress)
    (now : UInt32) : RelayServer × List Output :=
  if conn.locked && sender.equal conn.defaultDestination then s.send c conn (.raw bytes) now
  else s.send c conn (.dataIndication sender bytes) now

def sendStunError (c : Nat) (conn : Connection) (msg : StunMessage) (code : Nat)
    (reason : String) : RelayServer × List Output :=
  (s, [⟨some c, conn.socket, conn.addrPair.source, errorPacket msg code reason⟩])

def hasMagicCookie (bytes : List UInt8) : Bool :=
  decide (24 + turnMagicCookieValue.length ≤ bytes.length) &&
    (bytes.drop 24).take turnMagicCookieValue.length = turnMagicCookieValue

/-- An internal connection that is locked to the address, or the first one. -/
def getInternalConnection (b : Binding) (extAddr : SocketAddress) : Option Nat :=
  (b.internalConnections.find? fun c => (s.connection c).any fun x =>
    x.locked && extAddr.equal x.defaultDestination).or b.internalConnections.head?

def getExternalConnection (b : Binding) (extAddr : SocketAddress) : Option Nat :=
  b.externalConnections.find? fun c => (s.connection c).any fun x =>
    extAddr.equal x.addrPair.source

def addConnection (c : Nat) (key : SocketAddressPair.Key) : RelayServer :=
  { s with
    asserted := s.asserted && (s.connections key).isNone
    connections := Function.update s.connections key (some c) }

def removeConnection (key : SocketAddressPair.Key) : RelayServer :=
  { s with
    asserted := s.asserted && (s.connections key).isSome
    connections := Function.update s.connections key none }

def removeBinding (username : List UInt8) : RelayServer :=
  { s with
    asserted := s.asserted && (s.bindings username).isSome
    bindings := Function.update s.bindings username none }

/-- The constructor of a connection, which is a use of its binding. -/
def construct (b : Nat) (ap : SocketAddressPair) (socket : Nat) (now : UInt32) : RelayServer :=
  { s.noteUsed b now with
    connection := Function.update s.connection s.nextConnection
      (some { binding := b, addrPair := ap, socket })
    nextConnection := s.nextConnection + 1 }

/-- `AddInternalConnection` and `AddExternalConnection` -/
def Binding.attach (c : Nat) (internal : Bool) (x : Binding) : Binding :=
  if internal then { x with internalConnections := x.internalConnections ++ [c] }
  else { x with externalConnections := x.externalConnections ++ [c] }

def newConnection (b : Nat) (ap : SocketAddressPair) (socket : Nat) (internal : Bool)
    (now : UInt32) : RelayServer :=
  ((s.construct b ap socket now).modifyBinding b (Binding.attach s.nextConnection internal)).addConnection
    s.nextConnection ap.key

/-- `HandleStunAllocate` on a connection, with the external socket that `rand` picks. -/
def answerAllocate (c : Nat) (request : StunMessage) (random : Nat) (now : UInt32) :
    RelayServer × List Output :=
  match s.connection c with
  | none => (s, [])
  | some conn =>
    match s.binding conn.binding, s.externalSockets[random % s.externalSockets.length]? with
    | some b, some (_, extAddr) =>
      s.send c conn (.allocateResponse request.transactionId extAddr (b.lifetime / 1000)) now
    | _, _ => (s, [])

def newBinding (username : List UInt8) (request : StunMessage) (now : UInt32) : RelayServer :=
  let lifetime := match uint32Of request stunAttrLifetime with
    | some value => min maxLifetime (value * 1000)
    | none => maxLifetime
  { s with
    bindings := Function.update s.bindings username (some s.nextBinding)
    binding := Function.update s.binding s.nextBinding
      (some { username, lifetime, lastUsed := now })
    nextBinding := s.nextBinding + 1 }

/-- The binding for a username, which is made if there is none. -/
def findOrCreate (username : List UInt8) (request : StunMessage) (now : UInt32) :
    RelayServer × Nat :=
  match s.bindings username with
  | some b => (s, b)
  | none => (s.newBinding username request now, s.nextBinding)

/-- `HandleStunAllocate` of a packet that is from no connection. -/
def handleStunAllocate (socket : Nat) (ap : SocketAddressPair) (bytes : List UInt8)
    (random : Nat) (now : UInt32) : RelayServer × List Output :=
  match StunMessage.read .relay bytes with
  | none => (s, [])
  | some request =>
    match bytesOf request stunAttrUsername with
    | none => (s, [⟨none, socket, ap.source, errorPacket request 432 "Missing Username"⟩])
    | some username =>
      if request.type ≠ stunAllocateRequest then
        (s, [⟨none, socket, ap.source, errorPacket request 600 "Operation Not Supported"⟩])
      else
        let (t, b) := s.findOrCreate username request now
        (t.newConnection b ap socket true now).answerAllocate t.nextConnection request random now

def peerPair (extAddr : SocketAddress) : Option (Nat × SocketAddressPair) :=
  s.externalSockets.head?.map fun e => (e.1, ⟨extAddr, e.2⟩)

/-- The connection to a peer, which is made if the binding has none. -/
def findOrConnect (b : Nat) (x : Binding) (extAddr : SocketAddress) (now : UInt32) :
    RelayServer × Option Nat :=
  match s.getExternalConnection x extAddr with
  | some e => (s, some e)
  | none =>
    match s.peerPair extAddr with
    | none => (s, none)
    | some (socket, ap) => (s.newConnection b ap socket false now, some s.nextConnection)

/-- The end of `HandleStunSend`, where the client may ask to be locked to the address. -/
def lockTo (c : Nat) (request : StunMessage) (extAddr : SocketAddress) (now : UInt32) :
    RelayServer × List Output :=
  match s.connection c, uint32Of request stunAttrOptions with
  | some conn, some options =>
    if options &&& 1 ≠ 0 then
      (s.modifyConnection c fun x =>
        { x with defaultDestination := extAddr, locked := true }).send c conn
          (.sendResponse request.transactionId) now
    else (s, [])
  | _, _ => (s, [])

def handleStunSend (c : Nat) (conn : Connection) (b : Binding) (request : StunMessage)
    (now : UInt32) : RelayServer × List Output :=
  match addressOf request stunAttrDestinationAddress, bytesOf request stunAttrData with
  | some extAddr, some data =>
    match s.findOrConnect conn.binding b extAddr now with
    | (t, none) => (t, [])
    | (t, some e) =>
      let (u, sent) := match t.connection e with
        | some ext => if ext.locked then t.send e ext (.raw data) now else (t, [])
        | none => (t, [])
      let (v, answer) := u.lockTo c request extAddr now
      (v, sent ++ answer)
  | _, _ => s.sendStunError c conn request 400 "Bad Request"

/-- `HandleStun` on a connection of a client. -/
def handleStun (c : Nat) (conn : Connection) (b : Binding) (bytes : List UInt8) (random : Nat)
    (now : UInt32) : RelayServer × List Output :=
  match StunMessage.read .relay bytes with
  | none => (s, [])
  | some request =>
    match bytesOf request stunAttrUsername with
    | none =>
      (s, [⟨none, conn.socket, conn.addrPair.source,
        errorPacket request 432 "Missing Username"⟩])
    | some username =>
      if username ≠ b.username then s.sendStunError c conn request 430 "Stale Credentials"
      else if request.type = stunSendRequest then s.handleStunSend c conn b request now
      else if request.type = stunAllocateRequest then s.answerAllocate c request random now
      else s.sendStunError c conn request 600 "Operation Not Supported"

def onInternalPacket (socket : Nat) (ap : SocketAddressPair) (bytes : List UInt8)
    (random : Nat) (now : UInt32) : RelayServer × List Output :=
  match s.connections ap.key with
  | none => s.handleStunAllocate socket ap bytes random now
  | some c =>
    match s.connection c with
    | none => (s, [])
    | some conn =>
      match s.binding conn.binding with
      | none => (s, [])
      | some b =>
        if hasMagicCookie bytes then s.handleStun c conn b bytes random now
        else if conn.locked = false then (s, [])
        else
          match s.getExternalConnection b conn.defaultDestination with
          | none => (s, [])
          | some e =>
            match s.connection e with
            | none => (s, [])
            | some ext => if ext.locked then s.send e ext (.raw bytes) now else (s, [])

def forward (b : Nat) (bytes : List UInt8) (sender : SocketAddress) (now : UInt32) :
    RelayServer × List Output :=
  match (s.binding b).bind fun x => s.getInternalConnection x sender with
  | none => (s, [])
  | some i =>
    match s.connection i with
    | none => (s, [])
    | some conn => s.sendFrom i conn bytes sender now

def presentedUsername (bytes : List UInt8) : Option (List UInt8) :=
  ((StunMessage.read .relay bytes).bind fun msg => bytesOf msg stunAttrUsername).map
    (·.take usernameLength)

def onExternalPacket (socket : Nat) (ap : SocketAddressPair) (bytes : List UInt8)
    (now : UInt32) : RelayServer × List Output :=
  match s.connections ap.key with
  | some c =>
    match s.connection c with
    | none => (s, [])
    | some ext =>
      let (t, sent) := s.forward ext.binding bytes ext.addrPair.source now
      (t.lock c, sent)
  | none =>
    match (presentedUsername bytes).bind s.bindings with
    | none => (s, [])
    | some b =>
      let t := (s.newConnection b ap socket false now).lock s.nextConnection
      t.forward b bytes ap.source now

/-- `RelayServerBinding::OnMessage`. The binding is deleted by a message of its own. -/
def onTimer (b : Nat) (now : UInt32) : RelayServer :=
  match s.binding b with
  | none => s
  | some x =>
    if x.timer = false then s
    else if now ≥ x.lastUsed + x.lifetime then
      { s.modifyBinding b fun x => { x with timer := false } with doomed := s.doomed ++ [b] }
    else s

/-- The destructor of a connection. -/
def deleteConnection (c : Nat) : RelayServer :=
  match s.connection c with
  | none => s
  | some x =>
    let t := s.removeConnection x.addrPair.key
    { t with connection := Function.update t.connection c none }

/-- The destructor of a binding. -/
def deleteBinding (b : Nat) : RelayServer :=
  match s.binding b with
  | none => s
  | some x =>
    let t := (x.internalConnections ++ x.externalConnections).foldl deleteConnection s
    let t := t.removeBinding x.username
    { t with binding := Function.update t.binding b none }

def dispatch : RelayServer :=
  match s.doomed with
  | [] => s
  | b :: doomed => { s with doomed := doomed }.deleteBinding b

inductive Event
  | addExternalSocket (socket : Nat) (localAddress : SocketAddress)
  | removeExternalSocket (socket : Nat)
  | internalPacket (socket : Nat) (ap : SocketAddressPair) (bytes : List UInt8) (random : Nat)
    (now : UInt32)
  | externalPacket (socket : Nat) (ap : SocketAddressPair) (bytes : List UInt8) (now : UInt32)
  | timer (b : Nat) (now : UInt32)
  | dispatch

def handle : Event → RelayServer × List Output
  | .addExternalSocket socket localAddress =>
    ({ s with externalSockets := s.externalSockets ++ [(socket, localAddress)] }, [])
  | .removeExternalSocket socket =>
    ({ s with externalSockets := s.externalSockets.filter (·.1 ≠ socket) }, [])
  | .internalPacket socket ap bytes random now => s.onInternalPacket socket ap bytes random now
  | .externalPacket socket ap bytes now => s.onExternalPacket socket ap bytes now
  | .timer b now => (s.onTimer b now, [])
  | .dispatch => (s.dispatch, [])

def step (e : Event) : RelayServer := (s.handle e).1

end RelayServer

end Libjingle
