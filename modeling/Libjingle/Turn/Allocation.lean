import Libjingle.Turn.Connection
import Libjingle.Stun.Integrity
import Libjingle.Stun.Request

/-! An allocation of `TurnServer`: its permissions and channels, the messages it
handles and what it passes on. Times are in milliseconds, and a timer is kept as the
time it is due. -/

namespace Libjingle

open StunMessage

def stunAllocateRequest : UInt16 := 0x0003
def turnRefreshRequest : UInt16 := 0x0004
def turnCreatePermissionRequest : UInt16 := 0x0008
def turnChannelBindRequest : UInt16 := 0x0009
def turnSendIndication : UInt16 := 0x0016
def turnDataIndication : UInt16 := 0x0017

def turnChannelHeaderSize : Nat := 4

def isTurnChannelData (msgType : UInt16) : Bool := msgType &&& 0xc000 = 0x4000

namespace TurnServer

def nonceTimeout : Nat := 60 * 60 * 1000
def defaultAllocationTimeout : Nat := 10 * 60 * 1000
def permissionTimeout : Nat := 5 * 60 * 1000
def channelTimeout : Nat := 10 * 60 * 1000

def minChannelNumber : Nat := 0x4000
def maxChannelNumber : Nat := 0x7fff

structure Settings where
  computeHmac : List UInt8 → List UInt8 → List UInt8
  computeNonceHmac : List UInt8 → List UInt8 → List UInt8
  authHook : List UInt8 → List UInt8 → Option (List UInt8)
  nonceKey : List UInt8
  realm : List UInt8
  software : List UInt8
  enableOtuNonce : Bool

structure Permission where
  peer : IPAddress
  expires : Nat
  deriving DecidableEq, Repr

structure Channel where
  id : Nat
  peer : SocketAddress
  expires : Nat
  deriving DecidableEq, Repr

structure Allocation where
  conn : Connection
  relayed : SocketAddress
  key : List UInt8
  transactionId : List UInt8 := []
  username : List UInt8 := []
  lastNonce : List UInt8 := []
  perms : List Permission := []
  channels : List Channel := []
  timeouts : List Nat := []
  deriving DecidableEq, Repr

/-- What is sent: an answer to the client, a datagram of a peer to the client, as a
message or on a channel, or data to a peer. -/
inductive Output
  | reply (msg : StunMessage)
  | dataIndication (msg : StunMessage)
  | channelData (buf : List UInt8)
  | external (data : List UInt8) (peer : SocketAddress)
  deriving DecidableEq, Repr

def initResponse (req : StunMessage) : StunMessage :=
  match getStunSuccessResponseType req.type with
  | some type => { StunMessage.new .turn with type := type, transactionId := req.transactionId }
  | none => StunMessage.new .turn

/-- `AddAttribute` that is verified. -/
def withAttribute (msg : StunMessage) (type : UInt16) (value : StunAttributeValue) : StunMessage :=
  (msg.addAttribute ⟨type, value⟩).getD msg

/-- An error code and its reason. -/
structure ErrorCode where
  code : Nat
  reason : List Char
  deriving DecidableEq, Repr

def badRequest : ErrorCode := ⟨400, "Bad Request".toList⟩
def unauthorized : ErrorCode := ⟨401, "Unauthorized".toList⟩
def allocationMismatch : ErrorCode := ⟨437, "Allocation Mismatch".toList⟩
def staleNonce : ErrorCode := ⟨438, "Stale Nonce".toList⟩
def wrongCredentials : ErrorCode := ⟨441, "Wrong Credentials".toList⟩
def unsupportedProtocol : ErrorCode := ⟨442, "Unsupported Protocol".toList⟩
def serverError : ErrorCode := ⟨500, "Failed to allocate socket".toList⟩

def initErrorResponse (req : StunMessage) (error : ErrorCode) : StunMessage :=
  match getStunErrorResponseType req.type with
  | some type =>
    withAttribute { StunMessage.new .turn with type := type, transactionId := req.transactionId }
      stunAttrErrorCode (.errorCode (UInt8.ofNat (error.code / 100)) (UInt8.ofNat (error.code % 100))
        (error.reason.map fun c => UInt8.ofNat c.toNat))
  | none => StunMessage.new .turn

variable (cfg : Settings)

/-- What `SendStun` makes of a message before it is written. -/
def addSoftware (msg : StunMessage) : StunMessage :=
  if cfg.software = [] then msg else withAttribute msg stunAttrSoftware (.byteString cfg.software)

def sendErrorResponse (req : StunMessage) (error : ErrorCode) : Output :=
  .reply (addSoftware cfg (initErrorResponse req error))

def bytesOf (msg : StunMessage) (type : UInt16) : Option (List UInt8) :=
  match msg.getByteString type with
  | some ⟨_, .byteString bytes⟩ => some bytes
  | _ => none

def wordOf (msg : StunMessage) (type : UInt16) : Option UInt32 :=
  match msg.getUInt32 type with
  | some ⟨_, .uint32 bits⟩ => some bits
  | _ => none

def peerOf (msg : StunMessage) : Option SocketAddress :=
  match msg.getAddress stunAttrXorPeerAddress with
  | some ⟨_, .xorAddress addr⟩ => some addr
  | _ => none

namespace Allocation

variable (a : Allocation)

/-- In seconds: the requested lifetime, if it is smaller than the default. -/
def computeLifetime (msg : StunMessage) : Nat :=
  match wordOf msg stunAttrLifetime with
  | some requested => min requested.toNat (defaultAllocationTimeout / 1000)
  | none => defaultAllocationTimeout / 1000

def findPermission (addr : IPAddress) : Option Permission := a.perms.find? (·.peer = addr)

def hasPermission (addr : IPAddress) : Bool := (a.findPermission addr).isSome

/-- `AddPermission`: the permission for an address is new, or it is refreshed. -/
def addPermission (now : Nat) (addr : IPAddress) : Allocation :=
  match a.findPermission addr with
  | none => { a with perms := a.perms ++ [⟨addr, now + permissionTimeout⟩] }
  | some perm => { a with
    perms := a.perms.map fun p =>
      if p = perm then { p with expires := now + permissionTimeout } else p }

def findChannelById (id : Nat) : Option Channel := a.channels.find? (·.id = id)

def findChannelByPeer (addr : SocketAddress) : Option Channel :=
  a.channels.find? (·.peer.equal addr)

def addChannel (now id : Nat) (addr : SocketAddress) : Allocation :=
  match a.findChannelById id with
  | none => { a with channels := a.channels ++ [⟨id, addr, now + channelTimeout⟩] }
  | some channel => { a with
    channels := a.channels.map fun c =>
      if c = channel then { c with expires := now + channelTimeout } else c }

/-- `SendResponse`: success responses are signed. -/
def sendResponse (msg : StunMessage) : Output :=
  .reply (addSoftware cfg (msg.addMessageIntegrity cfg.computeHmac a.key).1)

def handleAllocateRequest (now : Nat) (msg : StunMessage) : Allocation × List Output :=
  let lifetime := computeLifetime msg
  let a := { a with
    transactionId := msg.transactionId
    username := (bytesOf msg stunAttrUsername).getD a.username
    timeouts := a.timeouts ++ [now + lifetime * 1000] }
  let response := withAttribute (initResponse msg) stunAttrXorMappedAddress (.xorAddress a.conn.src)
  let response := withAttribute response stunAttrXorRelayedAddress (.xorAddress a.relayed)
  let response := withAttribute response stunAttrLifetime (.uint32 (UInt32.ofNat lifetime))
  (a, [a.sendResponse cfg response])

def handleRefreshRequest (now : Nat) (msg : StunMessage) : Allocation × List Output :=
  let lifetime := computeLifetime msg
  let a := { a with timeouts := [now + lifetime * 1000] }
  (a, [a.sendResponse cfg
    (withAttribute (initResponse msg) stunAttrLifetime (.uint32 (UInt32.ofNat lifetime)))])

def handleSendIndication (msg : StunMessage) : List Output :=
  match bytesOf msg stunAttrData, peerOf msg with
  | some data, some peer => if a.hasPermission peer.ip then [.external data peer] else []
  | _, _ => []

def handleCreatePermissionRequest (now : Nat) (msg : StunMessage) : Allocation × List Output :=
  match peerOf msg with
  | none => (a, [sendErrorResponse cfg msg badRequest])
  | some peer => (a.addPermission now peer.ip, [a.sendResponse cfg (initResponse msg)])

/-- A channel may be bound when its number and the peer are bound to each other, or
neither is bound. -/
def handleChannelBindRequest (now : Nat) (msg : StunMessage) : Allocation × List Output :=
  match wordOf msg stunAttrChannelNumber, peerOf msg with
  | some number, some peer =>
    let id := (number >>> 16).toNat
    if id < minChannelNumber ∨ id > maxChannelNumber then (a, [sendErrorResponse cfg msg badRequest])
    else if a.findChannelById id ≠ a.findChannelByPeer peer then
      (a, [sendErrorResponse cfg msg badRequest])
    else
      ((a.addChannel now id peer).addPermission now peer.ip, [a.sendResponse cfg (initResponse msg)])
  | _, _ => (a, [sendErrorResponse cfg msg badRequest])

def handleTurnMessage (now : Nat) (msg : StunMessage) : Allocation × List Output :=
  if msg.type = stunAllocateRequest then a.handleAllocateRequest cfg now msg
  else if msg.type = turnRefreshRequest then a.handleRefreshRequest cfg now msg
  else if msg.type = turnSendIndication then (a, a.handleSendIndication msg)
  else if msg.type = turnCreatePermissionRequest then a.handleCreatePermissionRequest cfg now msg
  else if msg.type = turnChannelBindRequest then a.handleChannelBindRequest cfg now msg
  else (a, [])

/-- Everything behind the header goes to the peer, whatever the length field says. -/
def handleChannelData (data : List UInt8) : List Output :=
  match a.findChannelById (getBE16 data 0).toNat with
  | some channel => [.external (data.drop turnChannelHeaderSize) channel.peer]
  | none => []

/-- A datagram of a peer on a channel: the number, the size in 16 bits, the data. -/
def wrapChannelData (id : Nat) (data : List UInt8) : List UInt8 :=
  shortToBytes (UInt16.ofNat id) ++ shortToBytes (UInt16.ofNat data.length) ++ data

def wrapDataIndication (transactionId : List UInt8) (addr : SocketAddress) (data : List UInt8) :
    StunMessage :=
  withAttribute (withAttribute
    { StunMessage.new .turn with type := turnDataIndication, transactionId := transactionId }
    stunAttrXorPeerAddress (.xorAddress addr)) stunAttrData (.byteString data)

def onExternalPacket (data : List UInt8) (addr : SocketAddress) (transactionId : List UInt8) :
    List Output :=
  match a.findChannelByPeer addr with
  | some channel => [.channelData (wrapChannelData channel.id data)]
  | none =>
    if a.hasPermission addr.ip then
      [.dataIndication (addSoftware cfg (wrapDataIndication transactionId addr data))]
    else []

end Allocation

end TurnServer

end Libjingle
