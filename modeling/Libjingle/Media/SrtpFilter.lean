import Mathlib.Tactic.Common

/-! `SrtpFilter`: the negotiation of SRTP keys for a channel, by offers and answers or set
directly after a DTLS handshake, and the sessions that packets are given to. -/

namespace Libjingle

inductive ContentSource
  | csLocal
  | csRemote
  deriving DecidableEq, Repr

structure CryptoParams where
  tag : Int := 0
  cipherSuite : String := ""
  keyParams : String := ""
  sessionParams : String := ""
  deriving DecidableEq, Repr

/-- `CryptoParams::Matches` -/
def CryptoParams.isMatch (a b : CryptoParams) : Bool :=
  a.tag = b.tag && a.cipherSuite = b.cipherSuite

def csAesCm128HmacSha1_80 : String := "AES_CM_128_HMAC_SHA1_80"
def csAesCm128HmacSha1_32 : String := "AES_CM_128_HMAC_SHA1_32"
def srtpMasterKeyLen : Nat := 30

inductive SsrcType
  | anyOutbound
  | anyInbound
  deriving DecidableEq, Repr

/-- What a libSRTP session was created with. -/
structure SrtpPolicy where
  type : SsrcType
  cipherSuite : String
  key : List UInt8
  deriving DecidableEq, Repr

structure SrtpSession where
  session : Option SrtpPolicy := none
  signalSilentTime : UInt32 := 1000
  deriving DecidableEq, Repr

/-- The suites that `SetKey` has a crypto policy for. -/
def isSupportedSuite (cipherSuite : String) : Bool :=
  cipherSuite = csAesCm128HmacSha1_80 || cipherSuite = csAesCm128HmacSha1_32

namespace SrtpSession

/-- `SetKey`, where libSRTP can be initialised and creates a session, or not. -/
def setKey (s : SrtpSession) (policy : SrtpPolicy) (created : Bool) : SrtpSession × Bool :=
  if s.session = none ∧ isSupportedSuite policy.cipherSuite ∧
      policy.key.length = srtpMasterKeyLen ∧ created then ({ s with session := some policy }, true)
  else (s, false)

def setSend (s : SrtpSession) (cipherSuite : String) (key : List UInt8) (created : Bool) :
    SrtpSession × Bool := s.setKey ⟨.anyOutbound, cipherSuite, key⟩ created

def setRecv (s : SrtpSession) (cipherSuite : String) (key : List UInt8) (created : Bool) :
    SrtpSession × Bool := s.setKey ⟨.anyInbound, cipherSuite, key⟩ created

end SrtpSession

namespace SrtpFilter

inductive State
  | init
  | sentOffer
  | receivedOffer
  | sentPrAnswerNoCrypto
  | receivedPrAnswerNoCrypto
  | active
  | sentUpdatedOffer
  | receivedUpdatedOffer
  | sentPrAnswer
  | receivedPrAnswer
  deriving DecidableEq, Repr

/-- The order of the states. -/
def State.toNat : State → Nat
  | init => 0
  | sentOffer => 1
  | receivedOffer => 2
  | sentPrAnswerNoCrypto => 3
  | receivedPrAnswerNoCrypto => 4
  | active => 5
  | sentUpdatedOffer => 6
  | receivedUpdatedOffer => 7
  | sentPrAnswer => 8
  | receivedPrAnswer => 9

end SrtpFilter

structure SrtpFilter where
  state : SrtpFilter.State := .init
  signalSilentTime : UInt32 := 0
  offerParams : List CryptoParams := []
  sendSession : Option SrtpSession := none
  recvSession : Option SrtpSession := none
  sendRtcpSession : Option SrtpSession := none
  recvRtcpSession : Option SrtpSession := none
  appliedSendParams : CryptoParams := {}
  appliedRecvParams : CryptoParams := {}
  deriving DecidableEq, Repr

namespace SrtpFilter

variable (s : SrtpFilter)

def isActive : Bool := State.active.toNat ≤ s.state.toNat

def expectOffer (source : ContentSource) : Bool :=
  match s.state with
  | .init | .active => true
  | .sentOffer | .sentUpdatedOffer => source = .csLocal
  | .receivedOffer | .receivedUpdatedOffer => source = .csRemote
  | _ => false

/-- Every state but the first is taken for an active one. -/
def storeParams (params : List CryptoParams) (source : ContentSource) : SrtpFilter :=
  { s with
    offerParams := params
    state := if s.state = .init then
        (if source = .csLocal then .sentOffer else .receivedOffer)
      else if source = .csLocal then .sentUpdatedOffer else .receivedUpdatedOffer }

def setOffer (params : List CryptoParams) (source : ContentSource) : SrtpFilter × Bool :=
  if s.expectOffer source then (s.storeParams params source, true) else (s, false)

def expectAnswer (source : ContentSource) : Bool :=
  match s.state with
  | .sentOffer | .sentUpdatedOffer | .receivedPrAnswerNoCrypto | .receivedPrAnswer =>
    source = .csRemote
  | .receivedOffer | .receivedUpdatedOffer | .sentPrAnswerNoCrypto | .sentPrAnswer => source = .csLocal
  | _ => false

def newSession : SrtpSession := { signalSilentTime := s.signalSilentTime }

def createSrtpSessions : SrtpFilter := { s with
  sendSession := some s.newSession
  appliedSendParams := {}
  recvSession := some s.newSession
  appliedRecvParams := {} }

/-- New sessions, of which the second is keyed if the first could be. -/
def keySessions (send recv : String × List UInt8) (created : Bool × Bool) : SrtpFilter × Bool :=
  let s := s.createSrtpSessions
  let sent := s.newSession.setSend send.1 send.2 created.1
  if sent.2 then
    let received := s.newSession.setRecv recv.1 recv.2 created.2
    ({ s with sendSession := some sent.1, recvSession := some received.1 }, received.2)
  else (s, false)

/-- `ParseKeyParams`, by a base64 decoder. -/
def parseKeyParams (decode : String → Option (List UInt8)) (keyParams : String) :
    Option (List UInt8) :=
  if "inline:".toList.isPrefixOf keyParams.toList then
    (decode (String.ofList (keyParams.toList.drop 7))).filter (·.length = srtpMasterKeyLen)
  else none

def negotiateParams (answerParams : List CryptoParams) : Option CryptoParams :=
  match answerParams with
  | [answer] => s.offerParams.find? (answer.isMatch ·)
  | _ => none

def SameParams (send recv : CryptoParams) : Prop :=
  s.appliedSendParams.cipherSuite = send.cipherSuite ∧
    s.appliedSendParams.keyParams = send.keyParams ∧
    s.appliedRecvParams.cipherSuite = recv.cipherSuite ∧
    s.appliedRecvParams.keyParams = recv.keyParams

instance (send recv : CryptoParams) : Decidable (s.SameParams send recv) :=
  inferInstanceAs (Decidable (_ ∧ _))

def resetParams : SrtpFilter := { s with offerParams := [], state := .init }

/-- `SetRtpParams`, which sets the keys directly. -/
def setRtpParams (send recv : String × List UInt8) (created : Bool × Bool) : SrtpFilter × Bool :=
  if s.state = .active then (s, false)
  else
    let keyed := s.keySessions send recv created
    if keyed.2 then ({ keyed.1 with state := .active }, true) else (keyed.1, false)

/-- `SetRtcpParams`. Both sessions are set up to receive. -/
def setRtcpParams (send recv : String × List UInt8) (created : Bool × Bool) : SrtpFilter × Bool :=
  if s.sendRtcpSession ≠ none ∨ s.recvRtcpSession ≠ none then (s, false)
  else
    let sent := s.newSession.setRecv send.1 send.2 created.1
    let s := { s with sendRtcpSession := some sent.1 }
    if sent.2 then
      let received := s.newSession.setRecv recv.1 recv.2 created.2
      ({ s with recvRtcpSession := some received.1 }, received.2)
    else (s, false)

def setSignalSilentTime (ms : UInt32) : SrtpFilter :=
  let s := { s with signalSilentTime := ms }
  if s.state = .active then
    let silence (session : SrtpSession) := { session with signalSilentTime := ms }
    { s with
      sendSession := s.sendSession.map silence
      recvSession := s.recvSession.map silence
      sendRtcpSession := s.sendRtcpSession.map silence
      recvRtcpSession := s.recvRtcpSession.map silence }
  else s

/-- What a call to protect or unprotect a packet does: it fails, it uses a session that is
not there, or it uses a session. -/
inductive Use
  | inactive
  | missing
  | session (session : SrtpSession)
  deriving DecidableEq, Repr

def Use.ofSession : Option SrtpSession → Use
  | none => missing
  | some s => session s

def protectRtp : Use := if s.isActive then .ofSession s.sendSession else .inactive

def protectRtcp : Use :=
  if s.isActive then .ofSession (s.sendRtcpSession.or s.sendSession) else .inactive

def unprotectRtp : Use := if s.isActive then .ofSession s.recvSession else .inactive

def unprotectRtcp : Use :=
  if s.isActive then .ofSession (s.recvRtcpSession.or s.recvSession) else .inactive

section Decoder

variable (decode : String → Option (List UInt8))

def applyParams (send recv : CryptoParams) (created : Bool × Bool) : SrtpFilter × Bool :=
  if s.SameParams send recv then (s, true)
  else match parseKeyParams decode send.keyParams, parseKeyParams decode recv.keyParams with
    | some sendKey, some recvKey =>
      let keyed := s.keySessions (send.cipherSuite, sendKey) (recv.cipherSuite, recvKey) created
      if keyed.2 then ({ keyed.1 with appliedSendParams := send, appliedRecvParams := recv }, true)
      else (keyed.1, false)
    | _, _ => (s, false)

def selectedParams (answerParams : List CryptoParams) (source : ContentSource) :
    Option (CryptoParams × CryptoParams) :=
  match answerParams, s.negotiateParams answerParams with
  | answer :: _, some selected =>
    some (if source = .csRemote then (selected, answer) else (answer, selected))
  | _, _ => none

def doSetAnswer (answerParams : List CryptoParams) (source : ContentSource) (final : Bool)
    (created : Bool × Bool) : SrtpFilter × Bool :=
  if s.expectAnswer source = false then (s, false)
  else if answerParams = [] then
    if final then (s.resetParams, true)
    else ({ s with state :=
      if source = .csLocal then .sentPrAnswerNoCrypto else .receivedPrAnswerNoCrypto }, true)
  else match s.selectedParams answerParams source with
    | none => (s, false)
    | some (send, recv) =>
      let applied := s.applyParams decode send recv created
      if applied.2 = false then (applied.1, false)
      else if final then ({ applied.1 with offerParams := [], state := .active }, true)
      else ({ applied.1 with state :=
        if source = .csLocal then .sentPrAnswer else .receivedPrAnswer }, true)

def setAnswer (answerParams : List CryptoParams) (source : ContentSource) (created : Bool × Bool) :
    SrtpFilter × Bool := s.doSetAnswer decode answerParams source true created

def setProvisionalAnswer (answerParams : List CryptoParams) (source : ContentSource)
    (created : Bool × Bool) : SrtpFilter × Bool :=
  s.doSetAnswer decode answerParams source false created

inductive Event
  | setOffer (params : List CryptoParams) (source : ContentSource)
  | setProvisionalAnswer (params : List CryptoParams) (source : ContentSource)
    (created : Bool × Bool)
  | setAnswer (params : List CryptoParams) (source : ContentSource) (created : Bool × Bool)
  | setRtpParams (send recv : String × List UInt8) (created : Bool × Bool)
  | setRtcpParams (send recv : String × List UInt8) (created : Bool × Bool)
  | setSignalSilentTime (ms : UInt32)
  deriving DecidableEq, Repr

def step : Event → SrtpFilter × Bool
  | .setOffer params source => s.setOffer params source
  | .setProvisionalAnswer params source created => s.setProvisionalAnswer decode params source created
  | .setAnswer params source created => s.setAnswer decode params source created
  | .setRtpParams send recv created => s.setRtpParams send recv created
  | .setRtcpParams send recv created => s.setRtcpParams send recv created
  | .setSignalSilentTime ms => (s.setSignalSilentTime ms, true)

end Decoder

end SrtpFilter

end Libjingle
