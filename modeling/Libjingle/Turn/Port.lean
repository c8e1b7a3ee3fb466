import Libjingle.Turn.Allocation

/-! `TurnPort`: how a client packs what it sends to a peer, and what it makes of the
packets of its server. -/

namespace Libjingle

open StunMessage TurnServer

/-- The transaction ids that `CreateRandomString` makes. -/
abbrev TransactionId := { id : List UInt8 // id.length = stunTransactionIdLength }

namespace TurnPort

inductive BindState
  | unbound
  | binding
  | bound
  deriving DecidableEq, Repr

/-- An entry has an address of the port's family, and the server binds no channel
outside its range. -/
structure TurnEntry where
  channelId : Nat
  extAddr : SocketAddress
  state : BindState
  known : extAddr.ip ≠ .unspec
  numbered : state = .bound → minChannelNumber ≤ channelId ∧ channelId ≤ maxChannelNumber
  deriving DecidableEq

def sendIndication (transactionId : List UInt8) (addr : SocketAddress) (data : List UInt8) :
    StunMessage :=
  withAttribute (withAttribute
    { StunMessage.new .turn with type := turnSendIndication, transactionId := transactionId }
    stunAttrXorPeerAddress (.xorAddress addr)) stunAttrData (.byteString data)

namespace TurnEntry

/-- The packet that `Send` hands to the socket. -/
def packet (e : TurnEntry) (transactionId : TransactionId) (data : List UInt8) :
    Option (List UInt8) :=
  if e.state ≠ .bound then (sendIndication transactionId.val e.extAddr data).write
  else some (shortToBytes (UInt16.ofNat e.channelId) ++
    (shortToBytes (UInt16.ofNat data.length) ++ data))

/-- Real data asks for a channel, once. -/
def requestsBind (e : TurnEntry) (payload : Bool) : Bool := e.state = .unbound ∧ payload

def send (e : TurnEntry) (transactionId : TransactionId) (data : List UInt8) (payload : Bool) :
    TurnEntry × Option (List UInt8) :=
  (if e.requestsBind payload then { e with state := .binding, numbered := fun h => (nomatch h) }
    else e, e.packet transactionId data)

end TurnEntry

end TurnPort

structure TurnPort where
  entries : List TurnPort.TurnEntry
  computeHmac : List UInt8 → List UInt8 → List UInt8
  hash : List UInt8

namespace TurnPort

inductive Received
  | data (bytes : List UInt8) (remoteAddr : SocketAddress)
  | response (packet : List UInt8)
  deriving DecidableEq, Repr

variable (port : TurnPort)

def hasPermission (ip : IPAddress) : Bool := port.entries.any (·.extAddr.ip = ip)

/-- `FindEntry` by the number of a channel. -/
def findEntry (channelId : Nat) : Option TurnEntry :=
  port.entries.find? (·.channelId = channelId)

def handleDataIndication (packet : List UInt8) : Option Received :=
  match StunMessage.read .turn packet with
  | none => none
  | some msg =>
    match peerOf msg, bytesOf msg stunAttrData with
    | some addr, some bytes => if port.hasPermission addr.ip then some (.data bytes addr) else none
    | _, _ => none

/-- A packet may be longer than its length field says, as channel data can be padded. -/
def handleChannelData (channelId : Nat) (packet : List UInt8) : Option Received :=
  let len := (getBE16 packet 2).toNat
  if len > packet.length - turnChannelHeaderSize then none
  else match port.findEntry channelId with
    | none => none
    | some entry => some (.data ((packet.drop turnChannelHeaderSize).take len) entry.extAddr)

def onReadPacket (packet : List UInt8) : Option Received :=
  if packet.length < turnChannelHeaderSize then none
  else
    let msgType := getBE16 packet 0
    if isTurnChannelData msgType then port.handleChannelData msgType.toNat packet
    else if msgType = turnDataIndication then port.handleDataIndication packet
    else if isStunSuccessResponseType msgType ∧
        validateMessageIntegrity port.computeHmac packet port.hash = false then none
    else some (.response packet)

end TurnPort

end Libjingle
