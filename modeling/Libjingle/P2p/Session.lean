import Mathlib.Tactic.Common

/-! `Session`: the state of a call between two clients, the messages it sends and the
ones it handles. All of it runs on the signaling thread. A handler stops where it
signals, as a listener may call the session from there, and goes on later. -/

namespace Libjingle

/-- A hybrid stanza says the same in both protocols. -/
inductive SignalingProtocol
  | jingle
  | gingle
  | hybrid
  deriving DecidableEq, Repr

inductive ActionType
  | sessionInitiate
  | sessionInfo
  | sessionAccept
  | sessionReject
  | sessionTerminate
  | transportInfo
  | transportAccept
  | descriptionInfo
  deriving DecidableEq, Repr

def toActionType (type : String) : Option ActionType :=
  if type = "initiate" then some .sessionInitiate
  else if type = "info" then some .sessionInfo
  else if type = "accept" then some .sessionAccept
  else if type = "reject" then some .sessionReject
  else if type = "terminate" then some .sessionTerminate
  else if type = "candidates" then some .transportInfo
  else if type = "session-initiate" then some .sessionInitiate
  else if type = "transport-info" then some .transportInfo
  else if type = "transport-accept" then some .transportAccept
  else if type = "session-info" then some .sessionInfo
  else if type = "session-accept" then some .sessionAccept
  else if type = "session-terminate" then some .sessionTerminate
  else if type = "description-info" then some .descriptionInfo
  else if type = "update" then some .descriptionInfo
  else none

def toJingleString : ActionType → String
  | .sessionInitiate => "session-initiate"
  | .sessionInfo => "session-info"
  | .descriptionInfo => "description-info"
  | .sessionAccept => "session-accept"
  | .sessionReject | .sessionTerminate => "session-terminate"
  | .transportInfo => "transport-info"
  | .transportAccept => "transport-accept"

def toGingleString : ActionType → String
  | .sessionInitiate => "initiate"
  | .sessionInfo => "info"
  | .sessionAccept => "accept"
  | .sessionReject => "reject"
  | .sessionTerminate => "terminate"
  | .transportInfo => "candidates"
  | .transportAccept | .descriptionInfo => ""

def terminateBusy : String := "busy"
def terminateError : String := "general-error"

/-- A message as it was sent. It is readable if the one who gets it can parse its
descriptions and set up their transports, and usable if it can take their
candidates. -/
structure SessionMessage where
  protocol : SignalingProtocol
  type : ActionType
  reason : String := ""
  readable : Bool := true
  usable : Bool := true
  deriving DecidableEq, Repr

/-- What `ParseSessionMessage` makes of what `WriteSessionMessage` wrote. -/
def SessionMessage.parse (m : SessionMessage) : Option SessionMessage :=
  let name := match m.protocol with
    | .gingle => toGingleString m.type
    | .jingle | .hybrid => toJingleString m.type
  (toActionType name).map fun type => { m with type := type }

namespace Session

inductive State
  | init
  | sentInitiate
  | receivedInitiate
  | receivedInitiateAck
  | sentPrAccept
  | sentAccept
  | receivedPrAccept
  | receivedAccept
  | sentModify
  | receivedModify
  | sentBusy
  | sentReject
  | receivedBusy
  | receivedReject
  | sentRedirect
  | sentTerminate
  | receivedTerminate
  | inProgress
  | deinit
  deriving DecidableEq, Repr

inductive Error
  | none
  | time
  | response
  | network
  | content
  | transport
  | ackTime
  deriving DecidableEq, Repr

inductive MessageId
  | state
  | error
  | timeout
  | initAckTimeout
  deriving DecidableEq, Repr

inductive Rest
  | done
  | accepting (msg : SessionMessage)
  | terminating (msg : SessionMessage)
  | takingCandidates (msg : SessionMessage)
  | acknowledging (msg : SessionMessage)
  | failing
  deriving DecidableEq, Repr

inductive Output
  | message (msg : SessionMessage)
  | result (msg : SessionMessage)
  | error (msg : SessionMessage)
  deriving DecidableEq, Repr

/-- The messages that do not change the state. -/
inductive Info
  | session
  | description
  | transport
  deriving DecidableEq, Repr

/-- What a client calls. The descriptions of an initiate or accept can be written or
not, and are readable and usable for the other side or not. -/
inductive Call
  | initiate (written readable usable : Bool)
  | accept (written readable usable : Bool)
  | reject (reason : String)
  | terminate (reason : String)
  | sendInfo (info : Info)
  deriving DecidableEq, Repr

end Session

structure Session where
  state : Session.State := .init
  error : Session.Error := .none
  protocol : SignalingProtocol := .hybrid
  initAckTimer : Bool := false
  timeoutTimer : Bool := false
  queue : List Session.MessageId := []
  rest : Session.Rest := .done
  deriving DecidableEq, Repr

namespace Session

variable (s : Session)

/-- `SetState`, where `MSG_STATE` is posted before the listeners are told. -/
def setState (state : State) : Session :=
  if state ≠ s.state then { s with state := state, queue := s.queue ++ [.state] } else s

def clear (id : MessageId) : Session :=
  match id with
  | .timeout => { s with timeoutTimer := false, queue := s.queue.filter (· ≠ id) }
  | .initAckTimeout => { s with initAckTimer := false, queue := s.queue.filter (· ≠ id) }
  | .state | .error => { s with queue := s.queue.filter (· ≠ id) }

/-- `SendMessage` of an action that is written in the protocol of the session. -/
def actionMessage (type : ActionType) (reason : String) (readable usable : Bool) : Output :=
  .message ⟨s.protocol, type, reason, readable, usable⟩

/-- `SendMessage` of elements: in Jingle, unless the protocol is Gingle. -/
def elementsMessage (type : ActionType) (readable usable : Bool) : Output :=
  .message ⟨if s.protocol = .gingle then .gingle else .jingle, type, "", readable, usable⟩

def initiate (written readable usable : Bool) : Session × Bool × List Output :=
  if s.state ≠ .init then (s, false, [])
  else
    let s := { s.clear .initAckTimeout with initAckTimer := true }
    if written = false then (s, false, [])
    else (s.setState .sentInitiate, true, [s.actionMessage .sessionInitiate "" readable usable])

def accept (written readable usable : Bool) : Session × Bool × List Output :=
  if s.state ≠ .receivedInitiate then (s, false, [])
  else if written = false then (s, false, [])
  else (s.setState .sentAccept, true, [s.elementsMessage .sessionAccept readable usable])

def reject (reason : String) : Session × Bool × List Output :=
  if s.state ≠ .receivedInitiate ∧ s.state ≠ .receivedModify then (s, false, [])
  else (s.setState (if reason = terminateBusy then .sentBusy else .sentReject), true,
    [s.actionMessage .sessionReject reason true true])

def terminateWithReason (reason : String) : Session × Bool × List Output :=
  match s.state with
  | .sentBusy | .sentReject | .receivedBusy | .receivedReject | .sentTerminate
  | .receivedTerminate => (s, false, [])
  | _ => (s.setState .sentTerminate, true, [s.actionMessage .sessionTerminate reason true true])

def call : Call → Session × Bool × List Output
  | .initiate written readable usable => s.initiate written readable usable
  | .accept written readable usable => s.accept written readable usable
  | .reject reason => s.reject reason
  | .terminate reason => s.terminateWithReason reason
  | .sendInfo .session => (s, true, [s.elementsMessage .sessionInfo true true])
  | .sendInfo .description => (s, true, [s.elementsMessage .descriptionInfo true true])
  | .sendInfo .transport => (s, true, [s.actionMessage .transportInfo "" true true])

def checkSentInitiate : Bool := s.state = .sentInitiate ∨ s.state = .receivedInitiateAck

/-- The state that `OnTerminateMessage` sets. -/
def terminateState (reason : String) : State :=
  if reason = terminateBusy then .receivedBusy else .receivedTerminate

/-- The answer to a message that was valid or not. -/
def answer (valid : Bool) (msg : SessionMessage) : Output :=
  if valid then .result msg else .error msg

/-- What follows the new state in `OnInitiateMessage` and `OnAcceptMessage`. -/
def takeCandidates (msg : SessionMessage) : Output :=
  answer (decide (s.state = .sentReject ∨ s.state = .sentBusy) || msg.usable) msg

def resume : Session × List Output :=
  match s.rest with
  | .done => (s, [])
  | .accepting msg =>
    if s.state = .receivedAccept then ({ s with rest := .done }, [s.takeCandidates msg])
    else ({ s.setState .receivedAccept with rest := .takingCandidates msg }, [])
  | .terminating msg =>
    if s.state = terminateState msg.reason then ({ s with rest := .done }, [answer true msg])
    else ({ s.setState (terminateState msg.reason) with rest := .acknowledging msg }, [])
  | .takingCandidates msg => ({ s with rest := .done }, [s.takeCandidates msg])
  | .acknowledging msg => ({ s with rest := .done }, [answer true msg])
  | .failing => ({ s with queue := s.queue ++ [.error], rest := .done }, [])

/-- `SetError`: the error is signaled if it is new, and `MSG_ERROR` is posted. -/
def setError (error : Error) : Session :=
  if error ≠ s.error then { s with error := error, rest := .failing }
  else { s with queue := s.queue ++ [.error] }

def onInitiateMessage (msg : SessionMessage) : Session × List Output :=
  if s.state ≠ .init ∨ msg.readable = false then (s, [answer false msg])
  else ({ s.setState .receivedInitiate with rest := .takingCandidates msg }, [])

/-- `OnInitiateAcked`, which sets the state in whatever state the session is. -/
def onInitiateAcked : Session := (s.clear .initAckTimeout).setState .receivedInitiateAck

def onAcceptMessage (msg : SessionMessage) : Session × List Output :=
  if s.checkSentInitiate = false ∨ msg.readable = false then (s, [answer false msg])
  else
    let acked := s.onInitiateAcked
    if s.state = .receivedInitiateAck then { acked with rest := .accepting msg }.resume
    else ({ acked with rest := .accepting msg }, [])

/-- The reason of a reject can always be parsed, and nothing more is done. -/
def onRejectMessage (msg : SessionMessage) : Session × List Output := (s, [answer true msg])

/-- The reason is signaled before the state is set. -/
def onTerminateMessage (msg : SessionMessage) : Session × List Output :=
  ({ s with rest := .terminating msg }, [])

def onIncomingMessage (msg : SessionMessage) : Session × List Output :=
  let s := if s.protocol = .hybrid then
      { s with protocol := if msg.protocol = .gingle then .gingle else .jingle }
    else s
  match msg.type with
  | .sessionInitiate => s.onInitiateMessage msg
  | .sessionInfo => (s, [answer true msg])
  | .sessionAccept => s.onAcceptMessage msg
  | .sessionReject => s.onRejectMessage msg
  | .sessionTerminate => s.onTerminateMessage msg
  | .transportInfo => (s, [answer (msg.readable && msg.usable) msg])
  | .transportAccept => (s, [answer true msg])
  | .descriptionInfo => (s, [answer (decide (s.state = .inProgress) && msg.readable) msg])

/-- `OnIncomingResponse` to a message of the given type. -/
def onIncomingResponse (type : ActionType) : Session :=
  if type = .sessionInitiate then s.onInitiateAcked else s

/-- An answer to a failed send: a redirect, that is to the same client or not and whose
new initiate can be written or not, or an error of some type, if there is one. -/
inductive Failure
  | redirect (sameJid written readable usable : Bool)
  | error (type : Option String)
  deriving DecidableEq, Repr

def onFailedSend (type : ActionType) : Failure → Session × List Output
  | .redirect sameJid written readable usable =>
    if s.checkSentInitiate = true ∧ sameJid = true then
      let s := { s.clear .initAckTimeout with initAckTimer := true }
      if written then (s, [s.actionMessage .sessionInitiate "" readable usable])
      else (s.setError .response, [])
    else (s.setError .response, [])
  | .error none => (s, [])
  | .error (some errorType) =>
    if type = .transportInfo then (s, [])
    else if errorType ≠ "continue" ∧ errorType ≠ "wait" then (s.setError .response, [])
    else (s, [])

/-- `OnTransportWritable`, for a transport that is waited for or not. -/
def onTransportWritable (waits : Bool) : Session :=
  { s.clear .timeout with timeoutTimer := waits }

/-- A timer is due: its message comes behind those that are posted. -/
def onTimer : MessageId → Session
  | .timeout =>
    if s.timeoutTimer then { s with timeoutTimer := false, queue := s.queue ++ [.timeout] } else s
  | .initAckTimeout =>
    if s.initAckTimer then
      { s with initAckTimer := false, queue := s.queue ++ [.initAckTimeout] }
    else s
  | .state | .error => s

/-- `OnMessage`, and whether the session is to be destroyed. -/
def onMessage (id : MessageId) : Session × Bool × List Output :=
  match id with
  | .timeout => (s.setError .time, false, [])
  | .initAckTimeout => (s.setError .ackTime, false, [])
  | .error =>
    let called := s.terminateWithReason terminateError
    (called.1, false, called.2.2)
  | .state =>
    match s.state with
    | .sentAccept | .receivedAccept => (s.setState .inProgress, false, [])
    | .sentBusy | .sentReject | .receivedBusy | .receivedReject | .sentTerminate
    | .receivedTerminate => (s, true, [])
    | _ => (s, false, [])

end Session

end Libjingle
