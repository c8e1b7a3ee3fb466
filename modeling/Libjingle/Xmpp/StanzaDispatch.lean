import Libjingle.Lib.EventLog
import Libjingle.Xmpp.XmppEngine

/-! What `XmppEngineImpl` does after the login with the stanzas that come in. A callback is not one
step: between its beginning and its return the engine is called. -/

namespace Libjingle

namespace StanzaEngine

/-- What `XmppReturnStatus` has for the calls of the engine -/
inductive ReturnStatus
  | ok
  | badArgument
  | badState
  deriving DecidableEq, Repr

/-- `HL_NONE` has handlers too, which get nothing. -/
inductive HandlerLevel
  | none
  | peek
  | single
  | sender
  | type
  | all
  deriving DecidableEq, Repr

def HandlerLevel.later : HandlerLevel → List HandlerLevel
  | .none => []
  | .peek => [.single, .sender, .type, .all]
  | .single => [.sender, .type, .all]
  | .sender => [.type, .all]
  | .type => [.all]
  | .all => []

/-- A handler in a list, with a number of its own. One that is added twice has two. -/
structure Registration (κ : Type) where
  serial : Nat
  handler : κ
  deriving DecidableEq, Repr

/-- An `XmppIqEntry`. The cookie stands for its address. -/
structure IqEntry (ι : Type) where
  cookie : Nat
  id : String
  recipient : String
  handler : ι
  deriving DecidableEq, Repr

/-- The callback that runs: `HandleStanza` of the handler at an index, or `IqResponse`. -/
inductive Phase (κ ι : Type)
  | idle
  | handling (stanza : XmlElement) (level : HandlerLevel) (index : Nat) (turn : Registration κ)
  | responding (entry : IqEntry ι) (stanza : XmlElement)

inductive IqAction
  | sent (cookie : Nat) (id recipient : String)
  | removed (cookie : Nat)
  | responded (cookie : Nat) (stanza : XmlElement)

end StanzaEngine

open StanzaEngine in
structure StanzaEngine (κ ι : Type) where
  stanzaHandlers : HandlerLevel → List (Registration κ) := fun _ => []
  iqEntries : List (IqEntry ι) := []
  state : XmppEngine.State := .isOpen
  errorCode : Option XmppEngine.Error := none
  output : List XmlElement := []
  phase : Phase κ ι := .idle
  nextSerial : Nat := 0
  nextCookie : Nat := 0
  /-- The next number when the last stanza came -/
  started : Nat := 0
  /-- Those that have been given the last stanza -/
  given : List Nat := []
  /-- How many of the handlers up to the one that runs are still in the list -/
  passed : Nat := 0
  log : List IqAction := []

namespace StanzaEngine

variable {κ ι : Type} (s : StanzaEngine κ ι)

section Calls

def addStanzaHandler (stanzaHandler : κ) (level : HandlerLevel) :
    StanzaEngine κ ι × ReturnStatus :=
  if s.state = .closed then (s, .badState)
  else
    ({ s with
      stanzaHandlers := fun l => if l = level then
          s.stanzaHandlers l ++ [⟨s.nextSerial, stanzaHandler⟩]
        else s.stanzaHandlers l
      nextSerial := s.nextSerial + 1 }, .ok)

def isRegistered [DecidableEq κ] (stanzaHandler : κ) : Bool :=
  [HandlerLevel.none, .peek, .single, .sender, .type, .all].any fun level =>
    (s.stanzaHandlers level).any fun r => decide (r.handler = stanzaHandler)

def others [DecidableEq κ] (stanzaHandler : κ) (r : Registration κ) : Bool :=
  decide (r.handler ≠ stanzaHandler)

def removeStanzaHandler [DecidableEq κ] (stanzaHandler : κ) :
    StanzaEngine κ ι × ReturnStatus :=
  let passed := match s.phase with
    | .handling _ level _ _ =>
      ((s.stanzaHandlers level).take s.passed).countP (others stanzaHandler)
    | _ => s.passed
  ({ s with
    stanzaHandlers := fun level => (s.stanzaHandlers level).filter (others stanzaHandler)
    passed := passed },
    if s.isRegistered stanzaHandler then .ok else .badArgument)

def sendStanza (element : XmlElement) : StanzaEngine κ ι × ReturnStatus :=
  if s.state = .closed then (s, .badState)
  else ({ s with output := s.output ++ [element] }, .ok)

/-- The arguments that `SendIq` accepts. -/
def isIqRequest (element : XmlElement) : Bool :=
  element.name = qnIq && (element.attr qnType = "get" || element.attr qnType = "set") &&
    element.hasAttr qnId

def sendIq (element : Option XmlElement) (iqHandler : Option ι) :
    StanzaEngine κ ι × ReturnStatus :=
  if s.state = .closed then (s, .badState)
  else
    match iqHandler, element with
    | some iqHandler, some element =>
      if isIqRequest element then
        let id := element.attr qnId
        let recipient := element.attr qnTo
        ({ (sendStanza { s with
            iqEntries := s.iqEntries ++ [⟨s.nextCookie, id, recipient, iqHandler⟩] } element).1 with
          nextCookie := s.nextCookie + 1
          log := s.log ++ [.sent s.nextCookie id recipient] }, .ok)
      else (s, .badArgument)
    | _, _ => (s, .badArgument)

def removeIqHandler (cookie : Nat) : StanzaEngine κ ι × ReturnStatus :=
  if s.iqEntries.any (·.cookie = cookie) then
    ({ s with
      iqEntries := s.iqEntries.eraseP (·.cookie = cookie)
      log := s.log ++ [.removed cookie] }, .ok)
  else (s, .badArgument)

def disconnect : StanzaEngine κ ι := { s with state := .closed }

def signalStreamError : StanzaEngine κ ι :=
  if s.state = .closed then s else { s with errorCode := some .stream, state := .closed }

/-- One attribute of the copy that goes back as an error. -/
def copyErrorAttr (e : XmlElement) (attr : QName × String) : XmlElement :=
  if attr.1 = qnTo then e
  else if attr.1 = qnFrom then e.addAttr qnTo attr.2
  else if attr.1 = qnType then e
  else e.addAttr attr.1 attr.2

def copyChild (e : XmlElement) (child : String ⊕ XmlElement) : XmlElement :=
  match child with
  | .inl text => e.addText text
  | .inr element => e.addElement element

/-- `AddErrorCode` of `XSE_FEATURE_NOT_IMPLEMENTED` -/
def featureNotImplemented : XmlElement :=
  ((({ name := qnError } : XmlElement).addAttr qnCode "501").addAttr qnType "cancel").addElement
    (.withNs qnStanzaFeatureNotImplemented)

def stanzaError (original : XmlElement) : XmlElement :=
  let copy := original.attrs.foldl copyErrorAttr
    (({ name := original.name } : XmlElement).addAttr qnType "error")
  (original.children.foldl copyChild copy).addElement featureNotImplemented

def sendStanzaError (original : XmlElement) : StanzaEngine κ ι × ReturnStatus :=
  if s.state = .closed then (s, .badState)
  else ((s.sendStanza (stanzaError original)).1, .ok)

end Calls

section Dispatch

/-- The first handler of the first level that has one. -/
def firstTurn : List HandlerLevel → Option (HandlerLevel × Registration κ)
  | [] => none
  | level :: levels =>
    match (s.stanzaHandlers level).head? with
    | some r => some (level, r)
    | none => firstTurn levels

/-- Where the loops are once they have come to an index of a level. -/
def nextTurn (level : HandlerLevel) (index : Nat) :
    Option (HandlerLevel × Nat × Registration κ) :=
  match (s.stanzaHandlers level)[index]? with
  | some r => some (level, index, r)
  | none => (s.firstTurn level.later).map fun t => (t.1, 0, t.2)

def advance (stanza : XmlElement) (level : HandlerLevel) (index : Nat) : StanzaEngine κ ι :=
  match s.nextTurn level index with
  | some (level, index, r) =>
    { s with
      phase := .handling stanza level index r
      given := s.given ++ [r.serial]
      passed := index + 1 }
  | none =>
    let s := { s with phase := .idle }
    if stanza.name = qnIq ∧ ¬ (stanza.attr qnType = "error" ∨ stanza.attr qnType = "result") then
      (s.sendStanzaError stanza).1
    else s

def isIqResponse (stanza : XmlElement) : Bool :=
  stanza.name = qnIq && (stanza.attr qnType = "result" || stanza.attr qnType = "error") &&
    stanza.hasAttr qnId

def isAnsweredBy (stanza : XmlElement) (entry : IqEntry ι) : Bool :=
  entry.id = stanza.attr qnId && entry.recipient = stanza.attr qnFrom

/-- The entry that `HandleIqResponse` finds. -/
def answeredEntry (stanza : XmlElement) : Option (IqEntry ι) :=
  if isIqResponse stanza then s.iqEntries.find? (isAnsweredBy stanza) else none

def incomingStanza (stanza : XmlElement) : StanzaEngine κ ι :=
  if s.errorCode.isSome then s
  else if stanza.name = qnStreamError then s.signalStreamError
  else
    match s.answeredEntry stanza with
    | some entry =>
      { s with
        iqEntries := s.iqEntries.eraseP (isAnsweredBy stanza)
        phase := .responding entry stanza
        log := s.log ++ [.responded entry.cookie stanza] }
    | none => advance { s with started := s.nextSerial, given := [] } stanza .peek 0

/-- A callback returns. What `HandleStanza` returns does not count at the first level. -/
def callbackReturns (handled : Bool) : StanzaEngine κ ι :=
  match s.phase with
  | .idle => s
  | .responding _ _ => { s with phase := .idle }
  | .handling stanza level index _ =>
    if handled = true ∧ level ≠ .peek then { s with phase := .idle }
    else s.advance stanza level (index + 1)

end Dispatch

inductive Call (κ ι : Type)
  | addStanzaHandler (stanzaHandler : κ) (level : HandlerLevel)
  | removeStanzaHandler (stanzaHandler : κ)
  | sendStanza (element : XmlElement)
  | sendIq (element : Option XmlElement) (iqHandler : Option ι)
  | removeIqHandler (cookie : Nat)
  | disconnect

/-- A stanza comes in, which is only if no callback runs. Calls come from the callback that runs, or
from elsewhere if there is none. -/
inductive Event (κ ι : Type)
  | stanza (stanza : XmlElement)
  | call (c : Call κ ι)
  | callbackReturns (handled : Bool)

section Handle

variable {κ ι : Type} [DecidableEq κ] (s : StanzaEngine κ ι)

def call : Call κ ι → StanzaEngine κ ι × ReturnStatus
  | .addStanzaHandler stanzaHandler level => s.addStanzaHandler stanzaHandler level
  | .removeStanzaHandler stanzaHandler => s.removeStanzaHandler stanzaHandler
  | .sendStanza element => s.sendStanza element
  | .sendIq element iqHandler => s.sendIq element iqHandler
  | .removeIqHandler cookie => s.removeIqHandler cookie
  | .disconnect => (s.disconnect, .ok)

def handle : Event κ ι → StanzaEngine κ ι
  | .stanza stanza =>
    match s.phase with
    | .idle => s.incomingStanza stanza
    | _ => s
  | .call c => (s.call c).1
  | .callbackReturns handled => s.callbackReturns handled

end Handle

end StanzaEngine

end Libjingle
