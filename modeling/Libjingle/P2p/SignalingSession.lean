import Libjingle.Media.SrtpFilter
import Libjingle.P2p.Muxing
import Libjingle.P2p.P2PTransportChannel
import Libjingle.P2p.ProtocolNegotiation
import Libjingle.Xmpp.Constants
import Mathlib.Data.List.Sort

/-! `Session` with its descriptions and transport proxies: the messages that it handles
and the calls that send an initiate or accept. -/

namespace Libjingle

open Muxing (TransportProxy)
open SessionDescription (TransportInfo)

def qnStanzaBadRequest : QName := ⟨nsStanza, "bad-request"⟩
def qnStanzaNotAllowed : QName := ⟨nsStanza, "not-allowed"⟩
def qnStanzaNotAcceptable : QName := ⟨nsStanza, "not-acceptable"⟩

structure MessageError where
  type : QName := qnStanzaBadRequest
  text : String := ""
  deriving DecidableEq, Repr

/-- `IPIsPrivate` -/
def IPAddress.isPrivate : IPAddress → Bool
  | unspec => false
  | inet a => a >>> 24 = 127 || a >>> 24 = 10 || a >>> 20 = 0xAC1 || a >>> 16 = 0xC0A8 ||
      a >>> 16 = 0xA9FE
  | inet6 a => (inet6 a).isPrivateV6

def SocketAddress.isNil (address : SocketAddress) : Bool :=
  address.hostname = [] && address.ip = .unspec && address.port = 0

/-- `Transport::VerifyCandidate` -/
def verifyCandidate (cand : Candidate) : Except String Unit :=
  if cand.address.isNil || cand.address.ip.isAny then .error "candidate has address of zero"
  else if cand.address.port < 1024 then
    if cand.address.port ≠ 80 ∧ cand.address.port ≠ 443 then
      .error "candidate has port below 1024, but not 80 or 443"
    else if cand.address.ip.isPrivate then
      .error "candidate has port of 80 or 443 with private IP address"
    else .ok ()
  else .ok ()

/-- What `CheckState` answers. -/
def notAllowed : MessageError := ⟨qnStanzaNotAllowed, "message not allowed in current state"⟩

namespace MuxingSession

variable {Description : Type} (s : MuxingSession Description)

/-- The proxies are in the order of their names. A new one has a transport of its own. -/
def getOrCreateTransportProxy (contentName : String) : MuxingSession Description :=
  match s.getTransportProxy contentName with
  | some _ => s
  | none => { s with
    transports := s.transports.orderedInsert (fun p q => p.contentName ≤ q.contentName)
      { contentName := contentName, transport := contentName } }

/-- `Session::CreateTransportProxies`, which stops at a transport of another type. -/
def createTransportProxies (s : MuxingSession Description) :
    List TransportInfo → Bool × MuxingSession Description
  | [] => (true, s)
  | tinfo :: rest =>
    if tinfo.description.transportType ≠ nsGingleP2p then (false, s)
    else (s.getOrCreateTransportProxy tinfo.contentName).createTransportProxies rest

/-- The channels of the proxy that its transport does not have are created there. -/
def createImpls (proxy : TransportProxy) : MuxingSession Description := { s with
  transportChannels := s.transportChannels ++
    (proxy.channels.map fun channel => (proxy.transport, channel.component)).filter
      (!s.transportChannels.contains ·) }

def completeNegotiation (contentName : String) : MuxingSession Description :=
  match s.getTransportProxy contentName with
  | none => s
  | some proxy =>
    if proxy.negotiated then s
    else { s.createImpls proxy with
      transports := s.transports.map fun p =>
        if p.contentName = contentName then { p with
          negotiated := true
          channels := p.channels.map fun channel =>
            { channel with impl := some (p.transport, channel.component) } }
        else p }

/-- `ConnectChannels` of a proxy that may not be negotiated yet. -/
def connectChannels (contentName : String) : MuxingSession Description :=
  match s.getTransportProxy contentName with
  | none => s
  | some proxy => if proxy.negotiated then s else s.createImpls proxy

/-- The candidates of one content, in turn. -/
def checkCandidates (toString : Candidate → String) (contentName transport : String)
    (s : MuxingSession Description) : List Candidate → Except String Unit
  | [] => .ok ()
  | cand :: rest => do
    verifyCandidate cand
    if s.transportChannels.contains (transport, cand.component) then
      checkCandidates toString contentName transport s rest
    else .error ("Candidate has unknown component: " ++ toString cand ++ " for content: " ++
      contentName)

/-- `BaseSession::OnRemoteCandidates`. The channels of a negotiated proxy have their
implementations before they are connected. -/
def onRemoteCandidates (toString : Candidate → String) (contentName : String)
    (candidates : List Candidate) : Except String Unit × MuxingSession Description :=
  match s.getTransportProxy contentName with
  | none => (.error ("Unknown content name " ++ contentName), s)
  | some proxy =>
    let s := s.completeNegotiation contentName
    (s.checkCandidates toString contentName proxy.transport candidates, s)

/-- `Session::OnRemoteCandidates` -/
def onRemoteTransports (toString : Candidate → String) (s : MuxingSession Description) :
    List TransportInfo → Except String Unit × MuxingSession Description
  | [] => (.ok (), s)
  | tinfo :: rest =>
    match s.onRemoteCandidates toString tinfo.contentName tinfo.description.candidates with
    | (.error text, s) => (.error text, s)
    | (.ok (), s) => s.onRemoteTransports toString rest

/-- `MaybeEnableMuxingSupport` where assertions are checked: nothing is returned when
one of them fails. -/
def assertedMuxing : Option (MuxingSession Description) :=
  if (s.state = .sentInitiate ∨ s.state = .receivedInitiateAck ∨ s.state = .receivedInitiate) ∧
      (s.localDescription.isNone ∨ s.remoteDescription.isNone) then some s
  else if s.transports.any (!·.negotiated) then none
  else s.maybeEnableMuxingSupport.map Prod.snd

end MuxingSession

structure SignalingSession (Description : Type) extends MuxingSession Description where
  initiator : Bool
  id : String := ""
  remoteName : String := ""
  initiatorName : String := ""
  callTrackerId : String := ""
  currentProtocol : SignalingProtocol := .hybrid
  initiateAcked : Bool := false
  now : Nat := 0
  initAckTimer : Option Nat := none

/-- The states before an initiate is answered. -/
def Session.State.Opening (state : Session.State) : Prop :=
  state = .init ∨ state = .sentInitiate ∨ state = .receivedInitiateAck

instance (state : Session.State) : Decidable state.Opening :=
  inferInstanceAs
    (Decidable (state = .init ∨ state = .sentInitiate ∨ state = .receivedInitiateAck))

/-- What a session works with: the listeners of its signals, which may call it but cannot
open it again, the parsers of its contents and transports, whether a transport takes
a description, and the time that an initiate may take to be acknowledged. -/
structure SessionEnvironment (Description : Type) where
  listen : SignalingSession Description → SignalingSession Description
  listen_opening : ∀ s, ¬ s.state.Opening → ¬ (listen s).state.Opening
  contentParsers : String → Option (ContentParser Description)
  transportParser : TransportParser TransportProxy
  parser_type : ∀ elem translator desc,
    transportParser.parseTransportDescription elem translator = .ok desc →
      desc.transportType = nsGingleP2p
  takesDescription : ContentSource → String → SessionDescription.TransportDescription →
    ContentAction → Bool
  candidateToString : Candidate → String
  sessionInitAckTimeout : Nat

namespace SignalingSession

variable {Description : Type} (env : SessionEnvironment Description)
  (s : SignalingSession Description)

def parsers : Parsers Description TransportProxy where
  content := env.contentParsers
  transport := fun type => if type = nsGingleP2p then some env.transportParser else none
  translator := s.getTransportProxy

def setState (state : Session.State) : SignalingSession Description :=
  if state ≠ s.state then env.listen { s with state := state } else s

def checkSentInitiate : Bool := s.state = .sentInitiate ∨ s.state = .receivedInitiateAck

def initiatorDescription : Option (SessionDescription Description) :=
  if s.initiator then s.localDescription else s.remoteDescription

/-- The proxies take the parts of the description until one of them does not. -/
def pushdown (source : ContentSource) (action : ContentAction)
    (sdesc : SessionDescription Description) (s : MuxingSession Description) :
    List String → MuxingSession Description
  | [] => s
  | contentName :: rest =>
    match getTransportInfoByContentName sdesc.transportInfos contentName with
    | none => pushdown source action sdesc s rest
    | some tinfo =>
      let s := if action = .answer then s.completeNegotiation contentName else s
      if env.takesDescription source contentName tinfo.description action then
        let s := if source = .csLocal then s.connectChannels contentName else s
        pushdown source action sdesc s rest
      else s

/-- `PushdownTransportDescription` -/
def pushdownTransportDescription (source : ContentSource) (action : ContentAction)
    (sdesc : SessionDescription Description) : SignalingSession Description := { s with
  toMuxingSession := pushdown env source action sdesc s.toMuxingSession
    (s.transports.map TransportProxy.contentName) }

/-- `OnInitiateAcked`, whose transport infos are sent elsewhere. -/
def onInitiateAcked : SignalingSession Description :=
  { setState env { s with initAckTimer := none } .receivedInitiateAck with initiateAcked := true }

/-- What a handler leaves, with its error if the message was not valid, unless it fails an
assertion or uses a null pointer. -/
abbrev Handled (Description : Type) : Type :=
  Option (SignalingSession Description × Except MessageError Unit)

def takeTransports (tinfos : List TransportInfo) : Handled Description :=
  match s.toMuxingSession.onRemoteTransports env.candidateToString tinfos with
  | (.ok (), t) => some ({ s with toMuxingSession := t }, .ok ())
  | (.error text, t) => some ({ s with toMuxingSession := t }, .error { text := text })

/-- The candidates are not taken of a session that the listeners have rejected. -/
def takeUnlessRejected (tinfos : List TransportInfo) : Handled Description :=
  if s.state ≠ .sentReject ∧ s.state ≠ .sentBusy then s.takeTransports env tinfos
  else some (s, .ok ())

variable (msg : SessionMessages.SessionMessage) (elem : XmlElement)

def describe (message : ContentMessage Description) : SessionDescription Description where
  contents := message.contents
  transportInfos := message.transports
  groups := message.groups

def initiated (init : ContentMessage Description) :
    SignalingSession Description :=
  let s := { s with
    remoteName := msg.sender
    initiatorName := msg.initiator
    callTrackerId := msg.callTrackerId
    remoteDescription := some (describe init) }
  (s.pushdownTransportDescription env .csRemote .offer (describe init)).setState env
    .receivedInitiate

def onInitiateMessage : Handled Description :=
  if s.state ≠ .init then some (s, .error notAllowed)
  else
    match (s.parsers env).parseSessionInitiate msg.protocol elem with
    | .error text => some (s, .error { text := text })
    | .ok init =>
      match s.toMuxingSession.createTransportProxies init.transports with
      | (false, t) => some ({ s with toMuxingSession := t },
          .error ⟨qnStanzaNotAcceptable, "No supported transport in offer."⟩)
      | (true, t) =>
        ({ s with toMuxingSession := t }.initiated env msg init).takeUnlessRejected env
          init.transports

/-- The session as it is when it has been given an accept, before it decides on muxing. -/
def accepted (accept : ContentMessage Description) : SignalingSession Description :=
  let s := { s.onInitiateAcked env with remoteDescription := some (describe accept) }
  s.pushdownTransportDescription env .csRemote .answer (describe accept)

def onAcceptMessage : Handled Description :=
  if s.checkSentInitiate = false then none
  else
    match (s.parsers env).parseSessionAccept msg.protocol elem with
    | .error text => some (s, .error { text := text })
    | .ok accept =>
      let s := s.accepted env accept
      match s.toMuxingSession.assertedMuxing with
      | none => none
      | some t => takeUnlessRejected env
          ({ s with toMuxingSession := t }.setState env .receivedAccept) accept.transports

/-- The reason of a reject can always be parsed. -/
def onRejectMessage : Handled Description :=
  if s.checkSentInitiate = false then none else some (s, .ok ())

def onInfoMessage : Handled Description := some (env.listen s, .ok ())

def parseSessionTerminate (protocol : SignalingProtocol) (elem : XmlElement) : String :=
  let reasonElem := if protocol = .gingle then elem.firstElement
    else (elem.firstNamed qnJingleReason).bind XmlElement.firstElement
  (reasonElem.map (·.name.localPart)).getD ""

def onTerminateMessage : Handled Description :=
  some ((env.listen s).setState env
    (if parseSessionTerminate msg.protocol elem = terminateBusy then .receivedBusy
      else .receivedTerminate), .ok ())

def parseTransportInfos (protocol : SignalingProtocol) (elem : XmlElement)
    (contents : List (ContentInfo Description)) : Except String (List TransportInfo) :=
  if protocol = .gingle then (s.parsers env).parseGingleTransportInfos elem contents
  else (s.parsers env).parseJingleTransportInfos elem contents

def onTransportInfoMessage : Handled Description :=
  match s.initiatorDescription with
  | none => none
  | some sdesc =>
    match s.parseTransportInfos env msg.protocol elem sdesc.contents with
    | .error text => some (s, .error { text := text })
    | .ok tinfos => s.takeTransports env tinfos

def onTransportAcceptMessage : Handled Description := some (s, .ok ())

def onDescriptionInfoMessage : Handled Description :=
  if s.state ≠ .inProgress then some (s, .error notAllowed)
  else
    match (s.parsers env).parseDescriptionInfo msg.protocol elem with
    | .error text => some (s, .error { text := text })
    | .ok _ => some (env.listen s, .ok ())

/-- The protocol of the first message is the one of the session. -/
def settleProtocol : SignalingSession Description :=
  if s.currentProtocol = .hybrid then
    { s with currentProtocol := if msg.protocol = .gingle then .gingle else .jingle }
  else s

/-- `OnIncomingMessage` of a message with its action element. -/
def onIncomingMessage : Handled Description :=
  if s.state ≠ .init ∧ msg.sender ≠ s.remoteName then none
  else
    let s := s.settleProtocol msg
    match msg.type with
    | .sessionInitiate => s.onInitiateMessage env msg elem
    | .sessionInfo => s.onInfoMessage env
    | .sessionAccept => s.onAcceptMessage env msg elem
    | .sessionReject => s.onRejectMessage
    | .sessionTerminate => s.onTerminateMessage env msg elem
    | .transportInfo => s.onTransportInfoMessage env msg elem
    | .transportAccept => s.onTransportAcceptMessage
    | .descriptionInfo => s.onDescriptionInfoMessage env msg elem

/-- `GetEmptyTransportInfos` -/
def emptyTransportInfos (contents : List (ContentInfo Description)) : List TransportInfo :=
  contents.map fun content => ⟨content.name, { transportType := nsGingleP2p }⟩

def messageSender : SessionMessages.Sender where
  currentProtocol := s.currentProtocol
  id := s.id
  initiatorName := s.initiatorName
  callTrackerId := s.callTrackerId
  remoteName := s.remoteName

def sendInitiateMessage (sdesc : SessionDescription Description) :
    Except String XmlElement × SignalingSession Description :=
  let s := { s with initAckTimer := some (s.now + env.sessionInitAckTimeout) }
  (s.messageSender.send (.initiate fun protocol =>
    (s.parsers env).writeSessionInitiate protocol sdesc.contents
      (emptyTransportInfos sdesc.contents) sdesc.groups), s)

def sendAcceptMessage (sdesc : SessionDescription Description) : Except String XmlElement :=
  s.messageSender.send (.accept fun protocol =>
    (s.parsers env).writeSessionAccept protocol sdesc.contents
      (emptyTransportInfos sdesc.contents) sdesc.groups)

def speculativelyConnectAllTransportChannels : SignalingSession Description := { s with
  toMuxingSession := (s.transports.map TransportProxy.contentName).foldl
    MuxingSession.connectChannels s.toMuxingSession }

def initiate (remote : String) (sdesc : SessionDescription Description) :
    Bool × SignalingSession Description :=
  if s.state ≠ .init then (false, s)
  else
    let s := { s with remoteName := remote, localDescription := some sdesc }
    match s.toMuxingSession.createTransportProxies (emptyTransportInfos sdesc.contents) with
    | (false, t) => (false, { s with toMuxingSession := t })
    | (true, t) =>
      match { s with toMuxingSession := t }.sendInitiateMessage env sdesc with
      | (.error _, s) => (false, s)
      | (.ok _, s) =>
        (true, (s.speculativelyConnectAllTransportChannels.pushdownTransportDescription env
          .csLocal .offer sdesc).setState env .sentInitiate)

/-- `MaybeEnableMuxingSupport` may fail an assertion after the accept has been sent. -/
def accept (sdesc : SessionDescription Description) :
    Option (Bool × SignalingSession Description) :=
  if s.state ≠ .receivedInitiate then some (false, s)
  else
    let s := { s with localDescription := some sdesc }
    match s.sendAcceptMessage env sdesc with
    | .error _ => some (false, s)
    | .ok _ => do
      let s := s.pushdownTransportDescription env .csLocal .answer sdesc
      let t ← s.toMuxingSession.assertedMuxing
      return (true, setState env { s with toMuxingSession := t } .sentAccept)

end SignalingSession

end Libjingle
