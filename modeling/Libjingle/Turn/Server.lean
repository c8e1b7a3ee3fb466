import Libjingle.Turn.Allocation

/-! `TurnServer`: how packets of clients and peers are authorized and handled, and
the timers of allocations, permissions and channels. A run keeps a record of the
requests that were handed to an allocation. -/

namespace Libjingle

open StunMessage

def stunBindingRequestType : UInt16 := 0x0001

/-- `hex_decode` of a character, which takes all letters. -/
def hexDecodeChar (ch : UInt8) : Option UInt8 :=
  if 48 ≤ ch ∧ ch ≤ 57 then some (ch - 48)
  else if 65 ≤ ch ∧ ch ≤ 90 then some (ch - 65 + 10)
  else if 97 ≤ ch ∧ ch ≤ 122 then some (ch - 97 + 10)
  else none

def hexDecode : List UInt8 → Option (List UInt8)
  | [] => some []
  | [_] => none
  | h₁ :: h₂ :: rest => do
    let high ← hexDecodeChar h₁
    let low ← hexDecodeChar h₂
    let others ← hexDecode rest
    some ((high <<< 4 ||| low) :: others)

def hexEncodeChar (val : UInt8) : UInt8 := if val < 10 then 48 + val else 97 + (val - 10)

def hexEncode (bytes : List UInt8) : List UInt8 :=
  bytes.flatMap fun b : UInt8 => [hexEncodeChar (b >>> 4 &&& 15), hexEncodeChar (b &&& 15)]

/-- `TimeSince`, as a signed difference of the 32-bit clock. -/
def timeSince (now : Nat) (earlier : UInt32) : Int := (UInt32.ofNat now - earlier).toInt32.toInt

namespace TurnServer

def nonceSize : Nat := 40

/-- A time as its four bytes, the lowest first. -/
def timeBytes (time : UInt32) : List UInt8 := (longToBytes time).reverse

def generateNonce (cfg : Settings) (now : Nat) : List UInt8 :=
  let input := timeBytes (UInt32.ofNat now)
  hexEncode input ++ cfg.computeNonceHmac cfg.nonceKey input

def validateNonce (cfg : Settings) (now : Nat) (nonce : List UInt8) : Bool :=
  if nonce.length ≠ nonceSize then false
  else match hexDecode (nonce.take 8) with
    | none => false
    | some input =>
      if input.length ≠ 4 then false
      else if nonce.drop 8 ≠ cfg.computeNonceHmac cfg.nonceKey input then false
      else timeSince now (bytesToLong input.reverse) < nonceTimeout

def sendErrorResponseWithRealmAndNonce (cfg : Settings) (now : Nat) (msg : StunMessage)
    (error : ErrorCode) : Output :=
  let response := withAttribute (initErrorResponse msg error) stunAttrNonce
    (.byteString (generateNonce cfg now))
  .reply (addSoftware cfg (withAttribute response stunAttrRealm (.byteString cfg.realm)))

/-- A request that was handed to an allocation: its packet, the key it was checked
with, whether it created the allocation, and what was sent. -/
structure Request where
  allocation : Nat
  time : Nat
  data : List UInt8
  msg : StunMessage
  key : List UInt8
  creates : Bool
  outputs : List Output
  deriving DecidableEq, Repr

end TurnServer

/-- The time, the allocations that were not destroyed, and the record. -/
structure TurnServer where
  now : Nat := 0
  allocations : List (Nat × TurnServer.Allocation) := []
  next : Nat := 0
  record : List TurnServer.Request := []
  deriving DecidableEq, Repr

namespace TurnServer

variable (cfg : Settings) (s : TurnServer)

def allocation (id : Nat) : Option Allocation := (s.allocations.find? (·.1 = id)).map Prod.snd

def update (id : Nat) (f : Allocation → Allocation) : TurnServer :=
  { s with allocations := s.allocations.map fun a => if a.1 = id then (id, f a.2) else a }

def getKey (msg : StunMessage) : List UInt8 :=
  match bytesOf msg stunAttrUsername with
  | some username => (cfg.authHook username cfg.realm).getD []
  | none => []

/-- `CheckAuthorization`: the nonce of a request that is authorized, or the error. The
allocation is the one that was found. -/
def checkAuthorization (now : Nat) (found : Option Allocation) (msg : StunMessage)
    (data key : List UInt8) : Except Output (List UInt8) :=
  if bytesOf msg stunAttrMessageIntegrity = none then
    .error (sendErrorResponseWithRealmAndNonce cfg now msg unauthorized)
  else match bytesOf msg stunAttrUsername, bytesOf msg stunAttrRealm, bytesOf msg stunAttrNonce with
    | some _, some _, some nonce =>
      if validateNonce cfg now nonce = false then
        .error (sendErrorResponseWithRealmAndNonce cfg now msg staleNonce)
      else if key = [] ∨ validateMessageIntegrity cfg.computeHmac data key = false then
        .error (sendErrorResponseWithRealmAndNonce cfg now msg unauthorized)
      else if cfg.enableOtuNonce ∧ found.map Allocation.lastNonce = some nonce then
        .error (sendErrorResponseWithRealmAndNonce cfg now msg staleNonce)
      else .ok nonce
    | _, _, _ => .error (sendErrorResponse cfg msg badRequest)

/-- `HandleTurnMessage` of an allocation. Requests are kept on record. -/
def dispatch (id : Nat) (a : Allocation) (msg : StunMessage) (data : List UInt8) (creates : Bool) :
    TurnServer × List Output :=
  let (a', outputs) := a.handleTurnMessage cfg s.now msg
  let s := s.update id fun _ => a'
  if isStunRequestType msg.type then
    ({ s with record := s.record ++ [⟨id, s.now, data, msg, a.key, creates, outputs⟩] }, outputs)
  else (s, outputs)

def ipprotoUdp : UInt32 := 17

/-- `HandleAllocateRequest`. The address is the one of the socket that was created,
if that did not fail. -/
def handleAllocateRequest (conn : Connection) (msg : StunMessage) (data key : List UInt8)
    (socket : Option SocketAddress) : TurnServer × List Output :=
  match wordOf msg stunAttrRequestedTransport with
  | none => (s, [sendErrorResponse cfg msg badRequest])
  | some transport =>
    if transport >>> 24 ≠ ipprotoUdp then (s, [sendErrorResponse cfg msg unsupportedProtocol])
    else match socket with
      | none => (s, [sendErrorResponse cfg msg serverError])
      | some relayed =>
        let a : Allocation := { conn := conn, relayed := relayed, key := key }
        { s with allocations := s.allocations ++ [(s.next, a)], next := s.next + 1 }.dispatch cfg
          s.next a msg data true

def handleBindingRequest (conn : Connection) (msg : StunMessage) : Output :=
  .reply (addSoftware cfg (withAttribute (initResponse msg) stunAttrXorMappedAddress
    (.xorAddress conn.src)))

/-- The end of `HandleStunMessage`, for a message that is authorized if it has to be. -/
def handleAuthorized (conn : Connection) (found : Option (Nat × Allocation)) (msg : StunMessage)
    (data key : List UInt8) (socket : Option SocketAddress) : TurnServer × List Output :=
  match found with
  | none =>
    if msg.type = stunAllocateRequest then s.handleAllocateRequest cfg conn msg data key socket
    else (s, [sendErrorResponse cfg msg allocationMismatch])
  | some (id, a) =>
    if msg.type ≠ stunAllocateRequest ∨ msg.transactionId = a.transactionId then
      if isStunRequestType msg.type ∧ bytesOf msg stunAttrUsername ≠ some a.username then
        (s, [sendErrorResponse cfg msg wrongCredentials])
      else s.dispatch cfg id a msg data false
    else (s, [sendErrorResponse cfg msg allocationMismatch])

def handleStunMessage (conn : Connection) (found : Option (Nat × Allocation)) (data : List UInt8)
    (socket : Option SocketAddress) : TurnServer × List Output :=
  match StunMessage.read .turn data with
  | none => (s, [])
  | some msg =>
    if msg.type = stunBindingRequestType then (s, [handleBindingRequest cfg conn msg])
    else
      let key := match found with
        | some (_, a) => a.key
        | none => getKey cfg msg
      if isStunRequestType msg.type then
        match checkAuthorization cfg s.now (found.map Prod.snd) msg data key with
        | .error output => (s, [output])
        | .ok nonce =>
          match found with
          | some (id, a) =>
            (s.update id fun a => { a with lastNonce := nonce }).handleAuthorized cfg conn
              (some (id, { a with lastNonce := nonce })) msg data key socket
          | none => s.handleAuthorized cfg conn none msg data key socket
      else s.handleAuthorized cfg conn found msg data key socket

/-- `OnInternalPacket`, with the allocation that the table gives for the connection. -/
def onInternalPacket (conn : Connection) (found : Option (Nat × Allocation)) (data : List UInt8)
    (socket : Option SocketAddress) : TurnServer × List Output :=
  if data.length < turnChannelHeaderSize then (s, [])
  else if isTurnChannelData (getBE16 data 0) then
    match found with
    | some (_, a) => (s, a.handleChannelData data)
    | none => (s, [])
  else s.handleStunMessage cfg conn found data socket

/-- No timer is overdue. The thread handles the timers that are due before it waits
for packets. -/
def OnTime : Prop :=
  ∀ a ∈ s.allocations, (∀ due ∈ a.2.timeouts, s.now ≤ due) ∧
    (∀ perm ∈ a.2.perms, s.now ≤ perm.expires) ∧ ∀ channel ∈ a.2.channels, s.now ≤ channel.expires

instance : Decidable s.OnTime :=
  inferInstanceAs (Decidable (∀ a ∈ s.allocations, (∀ due ∈ a.2.timeouts, s.now ≤ due) ∧
    (∀ perm ∈ a.2.perms, s.now ≤ perm.expires) ∧ ∀ channel ∈ a.2.channels, s.now ≤ channel.expires))

/-- A packet of a client comes with what the table gives for its connection: nothing,
or a live allocation of an equal connection. -/
inductive Event
  | internalPacket (conn : Connection) (found : Option Nat) (data : List UInt8)
      (socket : Option SocketAddress)
  | externalPacket (id : Nat) (data : List UInt8) (addr : SocketAddress)
      (transactionId : List UInt8)
  | advance (time : Nat)
  | allocationTimeout (id : Nat)
  | permissionTimeout (id : Nat) (peer : IPAddress)
  | channelTimeout (id number : Nat)

def step (s : TurnServer) : Event → Option (TurnServer × List Output)
  | .internalPacket conn none data socket =>
    if s.OnTime then some (s.onInternalPacket cfg conn none data socket) else none
  | .internalPacket conn (some id) data socket =>
    match s.allocation id with
    | some a =>
      if s.OnTime ∧ a.conn.equal conn then
        some (s.onInternalPacket cfg conn (some (id, a)) data socket)
      else none
    | none => none
  | .externalPacket id data addr transactionId =>
    match s.allocation id with
    | some a =>
      if s.OnTime then some (s, a.onExternalPacket cfg data addr transactionId) else none
    | none => none
  | .advance time => some ({ s with now := s.now + time }, [])
  | .allocationTimeout id =>
    match s.allocation id with
    | some a =>
      if ∃ due ∈ a.timeouts, due ≤ s.now then
        some ({ s with allocations := s.allocations.filter (·.1 ≠ id) }, [])
      else none
    | none => none
  | .permissionTimeout id peer =>
    match s.allocation id with
    | some a =>
      if ∃ perm ∈ a.perms, perm.peer = peer ∧ perm.expires ≤ s.now then
        some (s.update id fun a => { a with perms := a.perms.filter (·.peer ≠ peer) }, [])
      else none
    | none => none
  | .channelTimeout id number =>
    match s.allocation id with
    | some a =>
      if ∃ channel ∈ a.channels, channel.id = number ∧ channel.expires ≤ s.now then
        some (s.update id fun a => { a with channels := a.channels.filter (·.id ≠ number) }, [])
      else none
    | none => none

end TurnServer

end Libjingle
