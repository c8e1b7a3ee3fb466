import Libjingle.Xmpp.Constants
import Libjingle.Xmpp.XmppStanzaParser

/-! `XmppEngineImpl` with the `XmppLoginTask` that opens a connection. What the engine sends
is collected, and written when the outermost call is left. -/

namespace Libjingle

inductive TlsOption
  | disabled
  | enabled
  | required
  deriving DecidableEq, Repr

namespace XmppLoginTask

inductive State
  | init
  | streamStartSent
  | startedXmpp
  | tlsInit
  | authInit
  | bindInit
  | tlsRequested
  | saslRunning
  | bindRequested
  | sessionRequested
  | done
  deriving DecidableEq, Repr

end XmppLoginTask

/-- The mechanisms that `SaslHandler` creates. They have a state of their own. -/
structure SaslHandler where
  Mechanism : Type
  chooseBestSaslMechanism : List String → Bool → String
  createSaslMechanism : String → Option Mechanism
  startSaslAuth : Mechanism → Option XmlElement × Mechanism
  handleSaslChallenge : Mechanism → XmlElement → Option XmlElement × Mechanism

structure XmppLoginTask (sasl : SaslHandler) where
  authNeeded : Bool := true
  allowNonGoogleLogin : Bool := true
  state : XmppLoginTask.State := .init
  stanza : Option XmlElement := none
  isStart : Bool := false
  iqId : String := ""
  features : Option XmlElement := none
  fullJid : String := ""
  streamId : String := ""
  queuedStanzas : List XmlElement := []
  saslMech : Option sasl.Mechanism := none

namespace XmppEngine

inductive State
  | start
  | opening
  | isOpen
  | closed
  deriving DecidableEq, Repr

inductive Error
  | xml
  | stream
  | version
  | unauthorized
  | tls
  | auth
  | bind
  | connectionClosed
  | documentClosed
  | socket
  deriving DecidableEq, Repr

/-- What is set before the connection is opened. -/
structure Settings where
  userDomain : String
  requestedResource : String := ""
  tlsOption : TlsOption := .required
  tlsServerHostname : String := ""
  tlsServerDomain : String := ""
  lang : String := ""
  outputHandler : Bool := true
  deriving DecidableEq, Repr

/-- What goes to the output, and for an element who sends it: the login task, or those that
call `SendStanza`. -/
inductive Output
  | streamStart (hostname lang : String)
  | login (element : XmlElement)
  | stanza (element : XmlElement)
  | raw (text : String)
  | streamEnd

/-- What happens: `SendStanza` accepts a stanza; the login task takes a stanza or sends one;
TLS is started and SASL succeeds; the engine opens; the output is written. -/
inductive Action
  | accepted (element : XmlElement)
  | taken (element : XmlElement)
  | asked (element : XmlElement)
  | startTls (domain : String)
  | authenticated
  | opened (jid : String)
  | wrote (output : Output)
  | closeConnection

end XmppEngine

/-- What the engine is given: expat, the handler of SASL, whether a JID is a full one, and what
is sent in answer to a stanza after the login. -/
structure XmppEnvironment where
  expat : Expat
  sasl : SaslHandler
  isFull : String → Bool
  respond : XmlElement → List XmlElement

open XmppEngine in
structure XmppEngine (env : XmppEnvironment) where
  settings : Settings
  stanzaParser : XmppStanzaParser env.expat := {}
  engineEntered : Nat := 0
  tlsOption : TlsOption := settings.tlsOption
  loginTask : Option (XmppLoginTask env.sasl) := some {}
  nextId : Nat := 0
  boundJid : String := ""
  state : State := .start
  encrypted : Bool := false
  errorCode : Option Error := none
  raisedReset : Bool := false
  outputHandler : Bool := settings.outputHandler
  output : List Output := []
  log : List Action := []

namespace XmppEngine

open XmppLoginTask (State)

variable {env : XmppEnvironment} (s : XmppEngine env)

def record (a : Action) : XmppEngine env := { s with log := s.log ++ [a] }

def send (o : Output) : XmppEngine env := { s with output := s.output ++ [o] }

def internalSendStart (receiver : String) : XmppEngine env :=
  s.send (.streamStart
    (if s.settings.tlsServerHostname = "" then receiver else s.settings.tlsServerHostname)
    (if s.settings.lang = "" then "*" else s.settings.lang))

/-- `InternalSendStanza` of the login task. -/
def sendLogin (e : XmlElement) : XmppEngine env := (s.send (.login e)).record (.asked e)

def signalError (error : Error) : XmppEngine env :=
  if s.state = .closed then s else { s with errorCode := some error, state := .closed }

def signalBound (fullJid : String) : XmppEngine env :=
  if s.state = .opening then
    { s with boundJid := fullJid, state := .isOpen }.record (.opened fullJid)
  else s

def hasError : Bool := s.errorCode.isSome

/-- `SendStanza` once the engine is entered. -/
def takeStanza (e : XmlElement) : XmppEngine env :=
  match s.loginTask with
  | some t =>
    { s.record (.accepted e) with
      loginTask := some { t with queuedStanzas := t.queuedStanzas ++ [e] } }
  | none => (s.record (.accepted e)).send (.stanza e)

end XmppEngine

namespace XmppLoginTask

open XmppEngine (Output Action)

variable {env : XmppEnvironment}

structure Login (env : XmppEnvironment) where
  engine : XmppEngine env
  task : XmppLoginTask env.sasl

variable (l : Login env)

namespace Login

def setState (state : State) : Login env := { l with task := { l.task with state } }

/-- `NextStanza` of a stanza that is there. -/
def take (e : XmlElement) : Login env :=
  { engine := l.engine.record (.taken e), task := { l.task with stanza := none } }

def failure (error : XmppEngine.Error) : Login env :=
  { l.setState .done with engine := l.engine.signalError error }

def sendStanza (e : XmlElement) (state : State) : Login env :=
  { l.setState state with engine := l.engine.sendLogin e }

def getFeature (name : QName) : Option XmlElement := l.task.features.bind (·.firstNamed name)

/-- `StartTls`. What is sent meanwhile is queued. -/
def startTls (duringTls : List XmlElement) : Login env :=
  if l.engine.outputHandler then
    { engine := duringTls.foldl (fun s e => s.record (.accepted e))
        { l.engine.record (.startTls (if l.engine.settings.tlsServerDomain = "" then
            l.engine.settings.userDomain else l.engine.settings.tlsServerDomain)) with
          encrypted := true }
      task := { l.task with queuedStanzas := l.task.queuedStanzas ++ duringTls } }
  else l

def flushQueuedStanzas : Login env where
  engine := { l.engine with
    output := l.engine.output ++ l.task.queuedStanzas.map .stanza }
  task := { l.task with queuedStanzas := [] }

def request (e : XmlElement) (state : State) : Login env :=
  let id := toString l.engine.nextId
  let iq : XmlElement := (({ name := qnIq } : XmlElement).addAttr qnType "set").addAttr qnId id
  { engine := { l.engine with nextId := l.engine.nextId + 1 }.sendLogin (iq.addElement e)
    task := { l.task with iqId := id, state } }

def bindElement : XmlElement :=
  let resource := l.engine.settings.requestedResource
  if resource = "" then .withNs qnBindBind
  else (XmlElement.withNs qnBindBind).addElement
    (({ name := qnBindResource } : XmlElement).addText resource)

def startsStream (e : XmlElement) : Bool :=
  e.name = qnStreamStream && e.attr qnXmlns = nsClient && e.attr qnVersion = "1.0" &&
    e.hasAttr qnId

def responds (e : XmlElement) : Bool :=
  e.name = qnIq && e.attr qnId = l.task.iqId && e.attr qnType ≠ "get" && e.attr qnType ≠ "set"

def startedXmpp (e : XmlElement) : Login env × Bool :=
  if e.name ≠ qnStreamFeatures then (l.failure .version, false)
  else
    let l := { l with task := { l.task with features := some e } }
    let tlsPresent := (l.getFeature qnTlsStartTls).isSome
    if l.engine.tlsOption = .required ∧ tlsPresent = false then (l.failure .tls, false)
    else if l.engine.tlsOption ≠ .disabled ∧ tlsPresent then (l.setState .tlsInit, true)
    else if l.task.authNeeded then (l.setState .authInit, true)
    else (l.setState .bindInit, true)

def authInit : Login env × Bool :=
  match l.getFeature qnSaslMechanisms with
  | none => (l.failure .auth, false)
  | some mechanisms =>
    let choice := env.sasl.chooseBestSaslMechanism
      ((mechanisms.allNamed qnSaslMechanism).map (·.bodyText)) l.engine.encrypted
    if choice = "" then (l.failure .auth, false)
    else
      match (env.sasl.createSaslMechanism choice).map env.sasl.startSaslAuth with
      | none => ({ l with task := { l.task with saslMech := none } }.failure .auth, false)
      | some (none, mech) =>
        ({ l with task := { l.task with saslMech := some mech } }.failure .auth, false)
      | some (some auth, mech) =>
        let l := { l with task := { l.task with saslMech := some mech } }
        let auth := if l.task.allowNonGoogleLogin then
          (auth.setAttr qnGoogleAllowNonGoogleIdXmppLogin "true").setAttr
            qnGoogleAuthClientUsesFullBindResult "true" else auth
        (l.sendStanza auth .saslRunning, true)

def saslRunning (e : XmlElement) : Login env × Bool :=
  if e.name.ns ≠ nsSasl then (l.failure .auth, false)
  else if e.name = qnSaslChallenge then
    match l.task.saslMech.map (env.sasl.handleSaslChallenge · e) with
    | some (some response, mech) =>
      ({ l with task := { l.task with saslMech := some mech } }.sendStanza response .saslRunning,
        true)
    | some (none, mech) =>
      ({ l with task := { l.task with saslMech := some mech } }.failure .auth, false)
    | none => (l.failure .auth, false)
  else if e.name ≠ qnSaslSuccess then (l.failure .unauthorized, false)
  else
    ({ engine := l.engine.record .authenticated
       task := { l.task with authNeeded := false, state := .init } }, true)

def bindRequested (e : XmlElement) : Login env × Bool :=
  if l.responds e = false then (l, false)
  else
    match e.firstElement with
    | none => (l.failure .bind, false)
    | some first =>
      if e.attr qnType ≠ "result" ∨ first.name ≠ qnBindBind then (l.failure .bind, false)
      else
        let l := { l with task := { l.task with fullJid := first.textNamed qnBindJid } }
        if env.isFull l.task.fullJid = false then (l.failure .bind, false)
        else (l.request (.withNs qnSessionSession) .sessionRequested, true)

def sessionRequested (e : XmlElement) : Login env × Bool :=
  if l.responds e = false then (l, false)
  else if e.attr qnType ≠ "result" then (l.failure .bind, false)
  else
    let l := { l with engine := l.engine.signalBound l.task.fullJid }
    (l.flushQueuedStanzas.setState .done, false)

/-- One turn of the loop of `Advance`, and whether there is another one. -/
def turn (duringTls : List XmlElement) : Login env × Bool :=
  match l.task.state, l.task.stanza with
  | .init, _ =>
    let engine := { l.engine with raisedReset := true }
    ({ engine := engine.internalSendStart l.engine.settings.userDomain
       task := { l.task with features := none, state := .streamStartSent } }, true)
  | .streamStartSent, some e =>
    let l := l.take e
    if l.task.isStart && startsStream e then
      ({ l with task := { l.task with streamId := e.attr qnId, state := .startedXmpp } }, false)
    else (l.failure .version, false)
  | .startedXmpp, some e => (l.take e).startedXmpp e
  | .tlsInit, _ =>
    if (l.getFeature qnTlsStartTls).isSome then
      (l.sendStanza (.withNs qnTlsStartTls) .tlsRequested, true)
    else (l.failure .tls, false)
  | .tlsRequested, some e =>
    let l := l.take e
    if e.name ≠ qnTlsProceed then (l.failure .tls, false)
    else
      let l := l.startTls duringTls
      ({ l.setState .init with engine := { l.engine with tlsOption := .enabled } }, true)
  | .authInit, _ => l.authInit
  | .saslRunning, some e => (l.take e).saslRunning e
  | .bindInit, _ =>
    if (l.getFeature qnBindBind).isSome && (l.getFeature qnSessionSession).isSome then
      (l.request l.bindElement .bindRequested, true)
    else (l.failure .bind, false)
  | .bindRequested, some e => (l.take e).bindRequested e
  | .sessionRequested, some e => (l.take e).sessionRequested e
  | _, _ => (l, false)

def loop (duringTls : List XmlElement) : Nat → Login env → Login env
  | 0, l => l
  | n + 1, l =>
    match l.turn duringTls with
    | (l, true) => loop duringTls n l
    | (l, false) => l

def advance (duringTls : List XmlElement) : Login env := loop duringTls 4 l

end Login

end XmppLoginTask

namespace XmppEngine

variable {env : XmppEnvironment} (s : XmppEngine env)

/-- `IncomingStanza` of the login task, which is deleted when it is done. -/
def advanceLogin (t : XmppLoginTask env.sasl) (stanza : Option XmlElement) (isStart : Bool)
    (duringTls : List XmlElement) : XmppEngine env :=
  let l := XmppLoginTask.Login.advance ⟨s, { t with stanza, isStart }⟩ duringTls
  { l.engine with
    loginTask := if l.task.state = .done then none
      else some { l.task with stanza := none, isStart := false } }

/-- The first turns of the login task, without a stanza. -/
def startLogin : XmppEngine env :=
  match s.loginTask with
  | some t => s.advanceLogin t none false []
  | none => s

def incomingStart (stream : XmlElement) (duringTls : List XmlElement) : XmppEngine env :=
  match s.loginTask with
  | some t => s.advanceLogin t stream true duringTls
  | none => s.signalError .xml

def incomingStanza (stanza : XmlElement) (duringTls : List XmlElement) : XmppEngine env :=
  if stanza.name = qnStreamError then s.signalError .stream
  else match s.loginTask with
    | some t => s.advanceLogin t stanza false duringTls
    | none => (env.respond stanza).foldl takeStanza s

/-- The callbacks of the parser, which are dropped after an error and after a reset. -/
def incoming (duringTls : List XmlElement) (event : StanzaEvent) : XmppEngine env :=
  if s.hasError || s.raisedReset then s
  else match event with
    | .startStream stream => s.incomingStart stream duringTls
    | .stanza stanza => s.incomingStanza stanza duringTls
    | .endStream => s.signalError .documentClosed
    | .xmlError => s.signalError .xml

/-- `WriteOutput` of what was collected, with what the handler does besides. -/
def writeOutput (during : XmppEngine env → XmppEngine env) : XmppEngine env :=
  if s.output.isEmpty then s
  else { during { s with log := s.log ++ s.output.map .wrote } with output := [] }

/-- The output is written when the outermost call is left or the engine has been closed. -/
def flush (during : XmppEngine env → XmppEngine env) (before : State) : XmppEngine env :=
  if s.outputHandler = true ∧ (s.state ≠ before ∧ s.state = .closed ∨ s.engineEntered = 0) then
    if s.state ≠ before ∧ s.state = .closed then
      { (s.writeOutput during).record .closeConnection with outputHandler := false }
    else s.writeOutput during
  else s

/-- The reset of the parser that was deferred. -/
def resetParser : XmppEngine env :=
  if s.engineEntered = 0 ∧ s.raisedReset = true then
    { s with stanzaParser := s.stanzaParser.reset, raisedReset := false }
  else s

/-- The destructor of `EnterExit`, with the state that the engine was entered in. -/
def leave (during : XmppEngine env → XmppEngine env) (before : State) : XmppEngine env :=
  (flush { s with engineEntered := s.engineEntered - 1 } during before).resetParser

def enter : XmppEngine env := { s with engineEntered := s.engineEntered + 1 }

def sendStanzaWith (during : XmppEngine env → XmppEngine env) (e : XmlElement) :
    XmppEngine env :=
  if s.state = .closed then s else (s.enter.takeStanza e).leave during s.state

/-- What is sent from `WriteOutput`. -/
def sendAll (elements : List XmlElement) : XmppEngine env :=
  elements.foldl (sendStanzaWith · id) s

inductive Call
  | connect
  | handleInput (bytes : List UInt8) (duringTls : List XmlElement)
  | sendStanza (element : XmlElement)
  | sendRaw (text : String)
  | disconnect
  | connectionClosed (subcode : Int)
  | nextId

/-- A call of the engine, with what is sent while the engine writes its output. -/
structure Event where
  call : Call
  duringWrite : List XmlElement := []

def handleInput (bytes : List UInt8) (duringTls : List XmlElement) : XmppEngine env :=
  let parsed := s.stanzaParser.parse bytes
  parsed.2.foldl (incoming · duringTls) { s with stanzaParser := parsed.1 }

def step (e : Event) : XmppEngine env :=
  let during := (sendAll · e.duringWrite)
  match e.call with
  | .connect =>
    if s.state ≠ .start then s
    else (startLogin { s.enter with state := .opening }).leave during s.state
  | .handleInput bytes duringTls =>
    if s.state = .opening ∨ s.state = .isOpen then
      (s.enter.handleInput bytes duringTls).leave during s.state
    else s
  | .sendStanza element => s.sendStanzaWith during element
  | .sendRaw text =>
    if s.state = .closed ∨ s.loginTask.isSome then s
    else (s.enter.send (.raw text)).leave during s.state
  | .disconnect =>
    if s.state = .closed then s
    else
      let t := if s.state = .isOpen then s.enter.send .streamEnd else s.enter
      { t with state := .closed }.leave during s.state
  | .connectionClosed subcode =>
    if s.state = .closed then s
    else (s.enter.signalError (if subcode ≠ 0 then .socket else .connectionClosed)).leave during
      s.state
  | .nextId => { s with nextId := s.nextId + 1 }

end XmppEngine

end Libjingle
