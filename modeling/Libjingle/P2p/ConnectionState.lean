import Libjingle.P2p.Port
import Libjingle.P2p.Connection

/-! How the states of a `Connection` change: with the packets it reads, with the time since its
pings, and when it is pruned or destroyed. A connection that has timed out in both directions
posts the message to itself by which it is deleted. -/

namespace Libjingle

namespace Connection

def connectionReadTimeout : UInt32 := 30000
def connectionWriteTimeout : UInt32 := 15000
def connectionWriteConnectTimeout : UInt32 := 5000
def connectionWriteConnectFailures : Nat := 5
def minimumRtt : UInt32 := 100
def maximumRtt : UInt32 := 3000
def rttRatio : UInt32 := 3

/-- At least so many pings have had no response in the time that one takes. -/
def tooManyFailures (pingsSinceLastResponse : List UInt32) (maximumFailures : Nat)
    (rttEstimate now : UInt32) : Bool :=
  match pingsSinceLastResponse[maximumFailures - 1]? with
  | none => false
  | some ping => ping + rttEstimate < now

def tooLongWithoutResponse (pingsSinceLastResponse : List UInt32) (maximumTime now : UInt32) :
    Bool :=
  match pingsSinceLastResponse with
  | [] => false
  | ping :: _ => ping + maximumTime < now

def conservativeRttEstimate (rtt : UInt32) : UInt32 := max minimumRtt (min maximumRtt (2 * rtt))

end Connection

/-- A connection on its port's thread: its outstanding pings by transaction id with the times
they were sent, and the messages to delete it that are queued. What it was when one of them was
handled is recorded. -/
structure QueuedConnection where
  connection : Connection UInt32
  remoteIceMode : IceMode := .full
  requests : List (List UInt8 × UInt32) := []
  deletes : Nat := 0
  deleted : Option (Connection.ReadState × Connection.WriteState) := none
  deriving DecidableEq, Repr

namespace QueuedConnection

open Connection StunMessage

variable (s : QueuedConnection)

def timedOut : Bool :=
  (s.connection.readState = .readTimeout || s.connection.readState = .readInit) &&
    s.connection.writeState = .writeTimeout

def checkTimeout : QueuedConnection :=
  if s.timedOut then { s with deletes := s.deletes + 1 } else s

def setReadState (value : ReadState) : QueuedConnection :=
  let t := { s with connection := { s.connection with readState := value } }
  if value ≠ s.connection.readState then t.checkTimeout else t

def setWriteState (value : WriteState) : QueuedConnection :=
  let t := { s with connection := { s.connection with writeState := value } }
  if value ≠ s.connection.writeState then t.checkTimeout else t

def receivedPing (now : UInt32) : QueuedConnection :=
  { s with connection := { s.connection with lastPingReceived := now } }.setReadState .readable

/-- A timed-out connection that is not pruned starts its checks again. -/
def restartChecks : QueuedConnection :=
  if s.connection.pruned = false ∧ s.connection.writeState = .writeTimeout then
    s.setWriteState .writeInit
  else s

def prune : QueuedConnection :=
  if s.connection.pruned then s
  else
    { s with connection := { s.connection with pruned := true }, requests := [] }.setWriteState
      .writeTimeout

def destroy : QueuedConnection := (s.setReadState .readTimeout).setWriteState .writeTimeout

def ping (now : UInt32) (transactionId : List UInt8) : QueuedConnection :=
  { s with
    connection := { s.connection with
      lastPingSent := now
      pingsSinceLastResponse := s.connection.pingsSinceLastResponse ++ [now] }
    requests := s.requests ++ [(transactionId, now)] }

def onClose : QueuedConnection :=
  { s with connection := { s.connection with connected := false } }.setWriteState .writeTimeout

/-- The read state, then the two steps of the write state, in this order. -/
def updateState (now : UInt32) : QueuedConnection :=
  let rtt := conservativeRttEstimate s.connection.rtt
  let s := if s.connection.readState = .readable ∧
      s.connection.lastPingReceived + connectionReadTimeout ≤ now ∧
      s.connection.lastDataReceived + connectionReadTimeout ≤ now then
    s.setReadState .readTimeout else s
  let s := if s.connection.writeState = .writable ∧
      tooManyFailures s.connection.pingsSinceLastResponse connectionWriteConnectFailures rtt now ∧
      tooLongWithoutResponse s.connection.pingsSinceLastResponse connectionWriteConnectTimeout
        now then
    s.setWriteState .writeUnreliable else s
  if (s.connection.writeState = .writeUnreliable ∨ s.connection.writeState = .writeInit) ∧
      tooLongWithoutResponse s.connection.pingsSinceLastResponse connectionWriteTimeout now then
    s.setWriteState .writeTimeout
  else s

def onConnectionRequestResponse (elapsed now : UInt32) : QueuedConnection :=
  let s := s.setWriteState .writable
  let s := if s.remoteIceMode = .lite then s.receivedPing now else s
  { s with connection := { s.connection with
      pingsSinceLastResponse := []
      rtt := (rttRatio * s.connection.rtt + elapsed) / (rttRatio + 1) } }

/-- The error code, which is written out differently in `ICEPROTO_GOOGLE`. -/
def errorCode (port : Port) (response : StunMessage) : Nat :=
  match response.getErrorCode with
  | some ⟨_, .errorCode eclass number _⟩ =>
    if port.iceProtocol = .google then eclass.toNat * 256 + number.toNat
    else eclass.toNat * 100 + number.toNat
  | _ => StunError.globalFailure.code

/-- All but a few errors end the connection. -/
def onConnectionRequestErrorResponse (port : Port) (response : StunMessage) : QueuedConnection :=
  let code := errorCode port response
  if code = StunError.unknownAttribute.code ∨ code = StunError.serverError.code ∨
      code = StunError.unauthorized.code ∨ code = StunError.staleCredentials.code ∨
      code = StunError.roleConflict.code then s
  else s.setWriteState .writeTimeout

def checkResponse (port : Port) (msg : StunMessage) (now : UInt32) : QueuedConnection :=
  match s.requests.find? (·.1 = msg.transactionId) with
  | none => s
  | some (id, sent) =>
    let finished (s : QueuedConnection) := { s with requests := s.requests.filter (·.1 ≠ id) }
    if msg.type = stunBindingResponse then
      finished (s.onConnectionRequestResponse (now - sent) now)
    else if msg.type = stunBindingErrorResponse then
      finished (s.onConnectionRequestErrorResponse port msg)
    else s

/-- A request that names the remote fragment and is not refused for its role. -/
def acceptsRequest (port : Port) (msg : StunMessage) (remoteUfrag : List UInt8) : Bool :=
  remoteUfrag = s.connection.remoteCandidate.username &&
    !(port.iceProtocol = .rfc5245 && port.maybeIceRoleConflict msg remoteUfrag = .refused)

/-- A response is checked by the remote password, but not in `ICEPROTO_GOOGLE`. -/
def acceptsResponse (computeHmac : List UInt8 → List UInt8 → List UInt8) (port : Port)
    (data : List UInt8) : Bool :=
  port.iceProtocol = .google ||
    validateMessageIntegrity computeHmac data s.connection.remoteCandidate.password

def onMessage (computeHmac : List UInt8 → List UInt8 → List UInt8) (port : Port)
    (data : List UInt8) (msg : StunMessage) (remoteUfrag : List UInt8) (now : UInt32) :
    QueuedConnection :=
  if msg.type = stunBindingRequest then
    if s.acceptsRequest port msg remoteUfrag then (s.receivedPing now).restartChecks else s
  else if msg.type = stunBindingResponse ∨ msg.type = stunBindingErrorResponse then
    if s.acceptsResponse computeHmac port data then s.checkResponse port msg now else s
  else if msg.type = stunBindingIndication then
    if port.iceProtocol = .rfc5245 ∧ s.connection.readState = .readable then s.receivedPing now
    else s
  else s

def onReadPacket (computeHmac : List UInt8 → List UInt8 → List UInt8)
    (computeCrc32 : List UInt8 → UInt32) (port : Port) (data : List UInt8) (now : UInt32) :
    QueuedConnection :=
  match port.getStunMessage computeHmac computeCrc32 data with
  | .notStun =>
    if s.connection.readState = .readable then
      { s with connection := { s.connection with lastDataReceived := now } }.restartChecks
    else s
  | .handled _ => s
  | .message msg remoteUfrag => s.onMessage computeHmac port data msg remoteUfrag now

/-- What happens on the thread. A packet comes with the port as it is then; a ping that another
of the channel's actions counts as received comes by itself. -/
inductive Event
  | updateState (now : UInt32)
  | prune
  | destroy
  | readPacket (port : Port) (data : List UInt8) (now : UInt32)
  | receivedPing (now : UInt32)
  | ping (now : UInt32) (transactionId : List UInt8)
  | requestTimeout (transactionId : List UInt8)
  | close
  | delete

def Enabled : Event → Bool
  | .delete => s.deleted.isNone && 0 < s.deletes
  | .ping _ _ => s.deleted.isNone && s.connection.connected
  | _ => s.deleted.isNone

def handle (computeHmac : List UInt8 → List UInt8 → List UInt8)
    (computeCrc32 : List UInt8 → UInt32) : Event → QueuedConnection
  | .updateState now => s.updateState now
  | .prune => s.prune
  | .destroy => s.destroy
  | .readPacket port data now => s.onReadPacket computeHmac computeCrc32 port data now
  | .receivedPing now => s.receivedPing now
  | .ping now transactionId => s.ping now transactionId
  | .requestTimeout transactionId =>
    { s with requests := s.requests.filter (·.1 ≠ transactionId) }
  | .close => s.onClose
  | .delete =>
    { s with deletes := 0, deleted := some (s.connection.readState, s.connection.writeState) }

def step (computeHmac : List UInt8 → List UInt8 → List UInt8)
    (computeCrc32 : List UInt8 → UInt32) (e : Event) : QueuedConnection :=
  if s.Enabled e then s.handle computeHmac computeCrc32 e else s

end QueuedConnection

end Libjingle
