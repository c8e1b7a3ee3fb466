import Libjingle.Xmpp.Constants
import Libjingle.P2p.Session

/-! The stanzas that sessions send each other. A message is written as a `session`
element in Gingle and as a `jingle` element otherwise; a hybrid stanza has both. What
is in these elements is up to those who write the contents and transports. -/

namespace Libjingle

def nsJingle : String := "urn:xmpp:jingle:1"
def nsGingle : String := "http://www.google.com/session"

def qnAction : QName := ⟨"", "action"⟩
def qnSid : QName := ⟨"", "sid"⟩
def qnInitiator : QName := ⟨"", "initiator"⟩
def qnCallTrackerId : QName := ⟨"", "callid"⟩
def qnJingle : QName := ⟨nsJingle, "jingle"⟩
def qnJingleReason : QName := ⟨nsJingle, "reason"⟩
def qnGingleSession : QName := ⟨nsGingle, "session"⟩

namespace SessionMessages

structure SessionMessage where
  id : String := ""
  sender : String := ""
  receiver : String := ""
  protocol : SignalingProtocol
  type : ActionType
  sid : String
  initiator : String
  callTrackerId : String := ""
  actionElem : Option XmlElement := none
  deriving Repr

def isJingleMessage (stanza : XmlElement) : Bool :=
  match stanza.firstNamed qnJingle with
  | none => false
  | some jingle => jingle.hasAttr qnAction && jingle.hasAttr qnSid

def isGingleMessage (stanza : XmlElement) : Bool :=
  match stanza.firstNamed qnGingleSession with
  | none => false
  | some session =>
    session.hasAttr qnType && session.hasAttr qnId && session.hasAttr qnInitiator

def isSessionMessage (stanza : XmlElement) : Bool :=
  stanza.name = qnIq && stanza.attr qnType = "set" &&
    (isJingleMessage stanza || isGingleMessage stanza)

def unknownAction (type : String) : String := "unknown action: " ++ type

def parseGingleSessionMessage (session : XmlElement) : Except String SessionMessage :=
  match toActionType (session.attr qnType) with
  | none => .error (unknownAction (session.attr qnType))
  | some type => .ok
      { protocol := .gingle
        type
        sid := session.attr qnId
        initiator := session.attr qnInitiator
        actionElem := some session }

def parseJingleSessionMessage (jingle : XmlElement) : Except String SessionMessage :=
  match toActionType (jingle.attr qnAction) with
  | none => .error (unknownAction (jingle.attr qnAction))
  | some type => .ok
      { protocol := .jingle
        type
        sid := jingle.attr qnSid
        initiator := jingle.getXmlAttr qnInitiator ""
        callTrackerId := jingle.getXmlAttr qnCallTrackerId ""
        actionElem := some jingle }

def parseHybridSessionMessage (jingle : XmlElement) : Except String SessionMessage :=
  (parseJingleSessionMessage jingle).map fun msg => { msg with protocol := .hybrid }

/-- An element of neither protocol leaves the error empty. -/
def parseSessionMessage (stanza : XmlElement) : Except String SessionMessage :=
  let parsed :=
    match stanza.firstNamed qnJingle, stanza.firstNamed qnGingleSession with
    | some jingle, some _ => parseHybridSessionMessage jingle
    | some jingle, none => parseJingleSessionMessage jingle
    | none, some session => parseGingleSessionMessage session
    | none, none => .error ""
  parsed.map fun msg =>
    { msg with
      id := stanza.attr qnId
      sender := stanza.attr qnFrom
      receiver := stanza.attr qnTo }

section Write

variable (msg : SessionMessage) (actionElems : List XmlElement)

def writeGingleAction : XmlElement :=
  let session := ((XmlElement.withNs qnGingleSession).addAttr qnType (toGingleString msg.type))
    |>.addAttr qnId msg.sid |>.addAttr qnInitiator msg.initiator
  session.addXmlChildren actionElems

def writeJingleAction : XmlElement :=
  let jingle := ((XmlElement.withNs qnJingle).addAttr qnAction (toJingleString msg.type))
    |>.addAttr qnSid msg.sid
  let jingle :=
    if msg.type = .sessionInitiate then
      (jingle.addAttr qnInitiator msg.initiator).addXmlAttrIfNonEmpty qnCallTrackerId
        msg.callTrackerId
    else jingle
  jingle.addXmlChildren actionElems

def writeSessionMessage (stanza : XmlElement) : XmlElement :=
  ((stanza.setAttr qnTo msg.receiver).setAttr qnType "set").addElement
    (if msg.protocol = .gingle then writeGingleAction msg actionElems
    else writeJingleAction msg actionElems)

end Write

def writeSessionTerminate (protocol : SignalingProtocol) (reason : String) : List XmlElement :=
  if protocol = .gingle then [{ name := ⟨nsGingle, reason⟩ }]
  else if reason = "" then []
  else [XmlElement.addElement { name := qnJingleReason } { name := ⟨nsJingle, reason⟩ }]

structure Sender where
  currentProtocol : SignalingProtocol
  id : String
  initiatorName : String
  callTrackerId : String
  remoteName : String

/-- The elements of an action in a protocol, or why they cannot be written. -/
abbrev Writer : Type := SignalingProtocol → Except String (List XmlElement)

inductive Sending
  | initiate (write : Writer)
  | accept (write : Writer)
  | reject (reason : String)
  | terminate (reason : String)
  | info (elems : List XmlElement)
  | descriptionInfo (write : Writer)
  | transportInfo (write : Writer)

def Sending.type : Sending → ActionType
  | .initiate _ => .sessionInitiate
  | .accept _ => .sessionAccept
  | .reject _ => .sessionReject
  | .terminate _ => .sessionTerminate
  | .info _ => .sessionInfo
  | .descriptionInfo _ => .descriptionInfo
  | .transportInfo _ => .transportInfo

namespace Sender

variable (s : Sender)

def message (protocol : SignalingProtocol) (type : ActionType) : SessionMessage :=
  { protocol
    type
    sid := s.id
    initiator := s.initiatorName
    callTrackerId := s.callTrackerId
    receiver := s.remoteName }

/-- `SendMessage` of elements, which a session writes once whatever its protocol. -/
def sendElements (type : ActionType) (elems : List XmlElement) : XmlElement :=
  writeSessionMessage (s.message s.currentProtocol type) elems { name := qnIq }

def writeActionMessage (protocol : SignalingProtocol) (type : ActionType) (write : Writer)
    (stanza : XmlElement) : Except String XmlElement :=
  (write protocol).map fun elems => writeSessionMessage (s.message protocol type) elems stanza

/-- `SendMessage` of an action, which a hybrid session writes in both protocols. -/
def sendAction (type : ActionType) (write : Writer) : Except String XmlElement :=
  if s.currentProtocol = .hybrid then
    (s.writeActionMessage .jingle type write { name := qnIq }).bind
      (s.writeActionMessage .gingle type write)
  else s.writeActionMessage s.currentProtocol type write { name := qnIq }

def send : Sending → Except String XmlElement
  | .initiate write => s.sendAction .sessionInitiate write
  | .accept write => (write s.currentProtocol).map (s.sendElements .sessionAccept)
  | .reject reason =>
    s.sendAction .sessionReject fun protocol => .ok (writeSessionTerminate protocol reason)
  | .terminate reason =>
    s.sendAction .sessionTerminate fun protocol => .ok (writeSessionTerminate protocol reason)
  | .info elems => .ok (s.sendElements .sessionInfo elems)
  | .descriptionInfo write =>
    (write s.currentProtocol).map (s.sendElements .descriptionInfo)
  | .transportInfo write => s.sendAction .transportInfo write

end Sender

open XmlElement

variable {msg : SessionMessage} {elems : List XmlElement}

@[simp] theorem name_writeGingleAction :
    (writeGingleAction msg elems).name = qnGingleSession := by
  simp [writeGingleAction, XmlElement.withNs]

@[simp] theorem name_writeJingleAction : (writeJingleAction msg elems).name = qnJingle := by
  simp only [writeJingleAction, addXmlAttrIfNonEmpty]
  split_ifs <;> simp [XmlElement.withNs]

theorem attr?_writeGingleAction {name : QName} : (writeGingleAction msg elems).attr? name =
    if name = qnXmlns then some nsGingle
    else if name = qnType then some (toGingleString msg.type)
    else if name = qnId then some msg.sid
    else if name = qnInitiator then some msg.initiator
    else none := by
  simp only [writeGingleAction, attr?_addXmlChildren, attr?_addAttr, attr?_withNs]
  split_ifs <;> simp_all [qnGingleSession]

theorem attr?_writeJingleAction {name : QName} : (writeJingleAction msg elems).attr? name =
    if name = qnXmlns then some nsJingle
    else if name = qnAction then some (toJingleString msg.type)
    else if name = qnSid then some msg.sid
    else if name = qnInitiator ∧ msg.type = .sessionInitiate then some msg.initiator
    else if name = qnCallTrackerId ∧ msg.type = .sessionInitiate ∧ msg.callTrackerId ≠ "" then
      some msg.callTrackerId
    else none := by
  by_cases htype : msg.type = .sessionInitiate
  · by_cases hid : msg.callTrackerId = ""
    · simp only [writeJingleAction, htype, hid, addXmlAttrIfNonEmpty, if_true,
        attr?_addXmlChildren, attr?_addAttr, attr?_withNs, ne_eq, not_true, and_true, and_false,
        if_false]
      split_ifs <;> simp_all [qnJingle]
    · simp only [writeJingleAction, htype, hid, addXmlAttrIfNonEmpty, if_true, if_false,
        attr?_addXmlChildren, attr?_addAttr, attr?_withNs, ne_eq, not_false_eq_true, and_true]
      split_ifs <;> simp_all [qnJingle]
  · simp only [writeJingleAction, htype, if_false, attr?_addXmlChildren, attr?_addAttr,
      attr?_withNs, and_false, false_and]
    split_ifs <;> simp_all [qnJingle]

theorem attr_writeGingleAction : (writeGingleAction msg elems).attr qnType =
    toGingleString msg.type := by
  simp [attr, attr?_writeGingleAction, qnType, qnXmlns]

theorem parseGingleSessionMessage_write {type : ActionType}
    (h : toActionType (toGingleString msg.type) = some type) :
    parseGingleSessionMessage (writeGingleAction msg elems) = .ok
      { protocol := .gingle
        type
        sid := msg.sid
        initiator := msg.initiator
        actionElem := some (writeGingleAction msg elems) } := by
  have hsid : (writeGingleAction msg elems).attr qnId = msg.sid := by
    simp [attr, attr?_writeGingleAction, qnType, qnXmlns, qnId]
  have hinitiator : (writeGingleAction msg elems).attr qnInitiator = msg.initiator := by
    simp [attr, attr?_writeGingleAction, qnType, qnXmlns, qnId, qnInitiator]
  simp only [parseGingleSessionMessage, attr_writeGingleAction, h, hsid, hinitiator]

theorem parseGingleSessionMessage_unknown (h : toActionType (toGingleString msg.type) = none) :
    parseGingleSessionMessage (writeGingleAction msg elems) =
      .error (unknownAction (toGingleString msg.type)) := by
  simp only [parseGingleSessionMessage, attr_writeGingleAction, h]

theorem toActionType_toJingleString (type : ActionType) : toActionType (toJingleString type) =
    some (if type = .sessionReject then .sessionTerminate else type) := by
  cases type <;> decide

theorem toActionType_toGingleString {type : ActionType} (h : type ≠ .transportAccept) :
    toActionType (toGingleString type) =
      if type = .descriptionInfo then none else some type := by
  cases type <;> first | decide | exact absurd rfl h

theorem parseJingleSessionMessage_write :
    parseJingleSessionMessage (writeJingleAction msg elems) = .ok
      { protocol := .jingle
        type := if msg.type = .sessionReject then .sessionTerminate else msg.type
        sid := msg.sid
        initiator := if msg.type = .sessionInitiate then msg.initiator else ""
        callTrackerId := if msg.type = .sessionInitiate then msg.callTrackerId else ""
        actionElem := some (writeJingleAction msg elems) } := by
  have haction : (writeJingleAction msg elems).attr qnAction = toJingleString msg.type := by
    simp [attr, attr?_writeJingleAction, qnAction, qnXmlns]
  have hsid : (writeJingleAction msg elems).attr qnSid = msg.sid := by
    simp [attr, attr?_writeJingleAction, qnSid, qnAction, qnXmlns]
  have hinitiator : (writeJingleAction msg elems).attr qnInitiator =
      if msg.type = .sessionInitiate then msg.initiator else "" := by
    by_cases h : msg.type = .sessionInitiate <;>
      simp [attr, attr?_writeJingleAction, h, qnInitiator, qnSid, qnAction, qnXmlns,
        qnCallTrackerId]
  have htracker : (writeJingleAction msg elems).attr qnCallTrackerId =
      if msg.type = .sessionInitiate then msg.callTrackerId else "" := by
    by_cases h : msg.type = .sessionInitiate
    · by_cases hid : msg.callTrackerId = "" <;>
        simp [attr, attr?_writeJingleAction, h, hid, qnInitiator, qnSid, qnAction, qnXmlns,
          qnCallTrackerId]
    · simp [attr, attr?_writeJingleAction, h, qnInitiator, qnSid, qnAction, qnXmlns,
        qnCallTrackerId]
  simp only [parseJingleSessionMessage, haction, toActionType_toJingleString, hsid,
    getXmlAttr_empty, hinitiator, htracker]

section Stanza

variable {stanza : XmlElement}

theorem elements_writeSessionMessage : (writeSessionMessage msg elems stanza).elements =
    stanza.elements ++ [if msg.protocol = .gingle then writeGingleAction msg elems
      else writeJingleAction msg elems] := by
  simp [writeSessionMessage]

theorem attr_writeSessionMessage : (writeSessionMessage msg elems stanza).attr qnType = "set" := by
  simp [writeSessionMessage, attr, attr?_setAttr]

theorem name_writeSessionMessage :
    (writeSessionMessage msg elems stanza).name = stanza.name := by
  simp [writeSessionMessage]

def Holds (stanza : XmlElement) (jingle gingle : Option XmlElement) : Prop :=
  stanza.name = qnIq ∧ stanza.attr qnType = "set" ∧
    stanza.firstNamed qnJingle = jingle ∧ stanza.firstNamed qnGingleSession = gingle

theorem gingle_ne_jingle : qnGingleSession ≠ qnJingle := by decide

theorem writeSessionMessage_holds_gingle (h : msg.protocol = .gingle) :
    Holds (writeSessionMessage msg elems { name := qnIq }) none
      (some (writeGingleAction msg elems)) := by
  refine ⟨name_writeSessionMessage, attr_writeSessionMessage, ?_, ?_⟩ <;>
    rw [firstNamed, elements_writeSessionMessage, if_pos h] <;> simp [gingle_ne_jingle]

theorem writeSessionMessage_holds_jingle (h : msg.protocol ≠ .gingle) :
    Holds (writeSessionMessage msg elems { name := qnIq })
      (some (writeJingleAction msg elems)) none := by
  refine ⟨name_writeSessionMessage, attr_writeSessionMessage, ?_, ?_⟩ <;>
    rw [firstNamed, elements_writeSessionMessage, if_neg h] <;> simp [gingle_ne_jingle.symm]

theorem writeSessionMessage_holds_both {other : SessionMessage} {others : List XmlElement}
    (h : msg.protocol ≠ .gingle) (hother : other.protocol = .gingle) :
    Holds (writeSessionMessage other others (writeSessionMessage msg elems { name := qnIq }))
      (some (writeJingleAction msg elems)) (some (writeGingleAction other others)) := by
  refine ⟨by simp [name_writeSessionMessage], attr_writeSessionMessage, ?_, ?_⟩ <;>
    rw [firstNamed, elements_writeSessionMessage, elements_writeSessionMessage, if_pos hother,
      if_neg h] <;> simp [gingle_ne_jingle.symm]

end Stanza

variable {stanza : XmlElement}

theorem isGingleMessage_write {jingle : Option XmlElement}
    (h : Holds stanza jingle (some (writeGingleAction msg elems))) :
    isSessionMessage stanza = true := by
  have hgingle : isGingleMessage stanza = true := by
    simp [isGingleMessage, h.2.2.2, hasAttr, attr?_writeGingleAction, qnType, qnXmlns, qnId,
      qnInitiator]
  simp [isSessionMessage, h.1, h.2.1, hgingle]

theorem isJingleMessage_write {gingle : Option XmlElement}
    (h : Holds stanza (some (writeJingleAction msg elems)) gingle) :
    isSessionMessage stanza = true := by
  have hjingle : isJingleMessage stanza = true := by
    simp [isJingleMessage, h.2.2.1, hasAttr, attr?_writeJingleAction, qnAction, qnXmlns, qnSid]
  simp [isSessionMessage, h.1, h.2.1, hjingle]

theorem parseSessionMessage_jingle {gingle : Option XmlElement}
    (h : Holds stanza (some (writeJingleAction msg elems)) gingle) :
    ∃ parsed, parseSessionMessage stanza = .ok parsed ∧ parsed.protocol ≠ .gingle ∧
      parsed.sid = msg.sid ∧
      parsed.type = (if msg.type = .sessionReject then .sessionTerminate else msg.type) ∧
      parsed.initiator = (if msg.type = .sessionInitiate then msg.initiator else "") ∧
      parsed.callTrackerId = (if msg.type = .sessionInitiate then msg.callTrackerId else "") := by
  obtain ⟨-, -, hjingle, hgingle⟩ := h
  cases gingle with
  | none =>
    simp only [parseSessionMessage, hjingle, hgingle, parseJingleSessionMessage_write]
    exact ⟨_, rfl, nofun, rfl, rfl, rfl, rfl⟩
  | some session =>
    simp only [parseSessionMessage, hjingle, hgingle, parseHybridSessionMessage,
      parseJingleSessionMessage_write]
    exact ⟨_, rfl, nofun, rfl, rfl, rfl, rfl⟩

theorem parseSessionMessage_gingle {type : ActionType}
    (h : Holds stanza none (some (writeGingleAction msg elems)))
    (htype : toActionType (toGingleString msg.type) = some type) :
    ∃ parsed, parseSessionMessage stanza = .ok parsed ∧ parsed.protocol = .gingle ∧
      parsed.sid = msg.sid ∧ parsed.type = type ∧ parsed.initiator = msg.initiator := by
  obtain ⟨-, -, hjingle, hgingle⟩ := h
  simp only [parseSessionMessage, hjingle, hgingle, parseGingleSessionMessage_write htype]
  exact ⟨_, rfl, rfl, rfl, rfl, rfl⟩

theorem parseSessionMessage_unknown
    (h : Holds stanza none (some (writeGingleAction msg elems)))
    (htype : toActionType (toGingleString msg.type) = none) :
    parseSessionMessage stanza = .error (unknownAction (toGingleString msg.type)) := by
  obtain ⟨-, -, hjingle, hgingle⟩ := h
  simp only [parseSessionMessage, hjingle, hgingle, parseGingleSessionMessage_unknown htype]
  rfl

section Sender

variable {s : Sender} {m : Sending}

theorem parse_refines (abstract : Libjingle.SessionMessage) (h : abstract.protocol = msg.protocol)
    (htype : abstract.type = msg.type) :
    (parseSessionMessage (writeSessionMessage msg elems { name := qnIq })).toOption.map
      SessionMessage.type = abstract.parse.map Libjingle.SessionMessage.type := by
  by_cases hgingle : msg.protocol = .gingle
  · have hparse : abstract.parse.map Libjingle.SessionMessage.type =
        toActionType (toGingleString msg.type) := by
      simp [SessionMessage.parse, h, htype, hgingle, Function.comp_def]
    rw [hparse]
    cases hknown : toActionType (toGingleString msg.type) with
    | none =>
      rw [parseSessionMessage_unknown (writeSessionMessage_holds_gingle hgingle) hknown]
      rfl
    | some type =>
      obtain ⟨parsed, hok, -, -, rfl, -⟩ :=
        parseSessionMessage_gingle (writeSessionMessage_holds_gingle hgingle) hknown
      rw [hok]
      rfl
  · have hparse : abstract.parse.map Libjingle.SessionMessage.type =
        toActionType (toJingleString msg.type) := by
      cases hprotocol : msg.protocol with
      | gingle => exact absurd hprotocol hgingle
      | jingle => simp [SessionMessage.parse, h, htype, hprotocol, Function.comp_def]
      | hybrid => simp [SessionMessage.parse, h, htype, hprotocol, Function.comp_def]
    obtain ⟨parsed, hok, -, -, htype, -⟩ :=
      parseSessionMessage_jingle (writeSessionMessage_holds_jingle hgingle)
    rw [hparse, toActionType_toJingleString, hok, ← htype]
    rfl

/-- A stanza is written in Gingle by those who speak only that. -/
def Sender.Wrote (s : Sender) (type : ActionType) (stanza : XmlElement) : Prop :=
  ∃ protocol elems,
    if s.currentProtocol = .gingle then
      Holds stanza none (some (writeGingleAction (s.message protocol type) elems))
    else ∃ gingle,
      Holds stanza (some (writeJingleAction (s.message protocol type) elems)) gingle

theorem Sender.wrote_sendElements {type : ActionType} :
    s.Wrote type (s.sendElements type elems) := by
  refine ⟨s.currentProtocol, elems, ?_⟩
  split_ifs with h
  · exact writeSessionMessage_holds_gingle h
  · exact ⟨none, writeSessionMessage_holds_jingle h⟩

theorem Sender.writeActionMessage_ok {protocol : SignalingProtocol} {type : ActionType}
    {write : Writer} {before : XmlElement}
    (h : s.writeActionMessage protocol type write before = .ok stanza) :
    ∃ elems, writeSessionMessage (s.message protocol type) elems before = stanza := by
  unfold writeActionMessage at h
  cases helems : write protocol with
  | error text => simp [helems, Except.map] at h
  | ok elems =>
    rw [helems] at h
    exact ⟨elems, Except.ok.inj h⟩

theorem Sender.wrote_sendAction {type : ActionType} {write : Writer}
    (h : s.sendAction type write = .ok stanza) : s.Wrote type stanza := by
  unfold sendAction at h
  split_ifs at h with hhybrid
  · cases hjingle : s.writeActionMessage .jingle type write { name := qnIq } with
    | error text => simp [hjingle, Except.bind] at h
    | ok before =>
      rw [hjingle] at h
      obtain ⟨elems, rfl⟩ := Sender.writeActionMessage_ok hjingle
      obtain ⟨others, rfl⟩ := Sender.writeActionMessage_ok h
      refine ⟨.jingle, elems, ?_⟩
      rw [if_neg (by simp [hhybrid])]
      exact ⟨_, writeSessionMessage_holds_both nofun rfl⟩
  · obtain ⟨elems, rfl⟩ := Sender.writeActionMessage_ok h
    exact Sender.wrote_sendElements

theorem Sender.wrote_map {type : ActionType} {elems : Except String (List XmlElement)}
    (h : elems.map (s.sendElements type) = .ok stanza) : s.Wrote type stanza := by
  cases elems with
  | error text => cases h
  | ok elems =>
    cases h
    exact Sender.wrote_sendElements

theorem Sender.wrote_send (h : s.send m = .ok stanza) : s.Wrote m.type stanza := by
  cases m with
  | initiate write => exact Sender.wrote_sendAction h
  | accept write => exact Sender.wrote_map h
  | reject reason => exact Sender.wrote_sendAction h
  | terminate reason => exact Sender.wrote_sendAction h
  | info elems =>
    cases h
    exact Sender.wrote_sendElements
  | descriptionInfo write => exact Sender.wrote_map h
  | transportInfo write => exact Sender.wrote_sendAction h

/-- The other side takes a stanza for the message that was sent. A reject cannot be told
from a terminate in Jingle. -/
def Sender.Understood (s : Sender) (type : ActionType) (stanza : XmlElement) : Prop :=
  isSessionMessage stanza = true ∧
  (∃ parsed, parseSessionMessage stanza = .ok parsed ∧
    (parsed.protocol = .gingle ↔ s.currentProtocol = .gingle) ∧ parsed.sid = s.id ∧
    parsed.type = (if s.currentProtocol ≠ .gingle ∧ type = .sessionReject then .sessionTerminate
      else type) ∧
    (type = .sessionInitiate → parsed.initiator = s.initiatorName ∧
      (s.currentProtocol ≠ .gingle → parsed.callTrackerId = s.callTrackerId))) ∧
  ∀ action, parseSessionMessage stanza ≠ .error (unknownAction action)

theorem Sending.type_ne : m.type ≠ .transportAccept := by
  cases m <;> simp [Sending.type]

/-- Gingle has no word for a description-info. -/
theorem Sender.understood_iff (h : s.send m = .ok stanza) : s.Understood m.type stanza ↔
    ¬ (s.currentProtocol = .gingle ∧ m.type = .descriptionInfo) := by
  obtain ⟨protocol, elems, hwrote⟩ := Sender.wrote_send h
  by_cases hgingle : s.currentProtocol = .gingle
  · rw [if_pos hgingle] at hwrote
    have hknown := toActionType_toGingleString m.type_ne
    by_cases hinfo : m.type = .descriptionInfo
    · rw [if_pos hinfo] at hknown
      have hparse := parseSessionMessage_unknown hwrote hknown
      refine iff_of_false ?_ (by simp [hgingle, hinfo])
      rintro ⟨-, -, hno⟩
      exact hno _ hparse
    · rw [if_neg hinfo] at hknown
      obtain ⟨parsed, hparse, hprotocol, hsid, htype, hinitiator⟩ :=
        parseSessionMessage_gingle hwrote hknown
      refine iff_of_true ⟨isGingleMessage_write hwrote, ⟨parsed, hparse, ?_⟩, ?_⟩ (by simp [hinfo])
      · exact ⟨by simp [hprotocol, hgingle], hsid, by simp [hgingle, htype],
          fun _ => ⟨hinitiator, fun hne => absurd hgingle hne⟩⟩
      · simp [hparse]
  · rw [if_neg hgingle] at hwrote
    obtain ⟨gingle, hwrote⟩ := hwrote
    obtain ⟨parsed, hparse, hprotocol, hsid, htype, hinitiator, htracker⟩ :=
      parseSessionMessage_jingle hwrote
    refine iff_of_true ⟨isJingleMessage_write hwrote, ⟨parsed, hparse, ?_⟩, ?_⟩ (by simp [hgingle])
    · refine ⟨by simp [hprotocol, hgingle], hsid, ?_, fun hinit => ?_⟩
      · by_cases hreject : m.type = .sessionReject <;>
          simp [htype, hgingle, hreject, Sender.message]
      simp only [Sender.message, hinit, if_true] at hinitiator htracker
      exact ⟨hinitiator, fun _ => htracker⟩
    · simp [hparse]

def gingleSender : Sender :=
  ⟨.gingle, "sid", "a@example.com/phone", "", "b@example.com/phone"⟩

theorem understood_iff_reject :
    gingleSender.Understood .sessionReject (gingleSender.sendElements .sessionReject
      (writeSessionTerminate .gingle "decline")) ↔
      ¬ (SignalingProtocol.gingle = .gingle ∧ ActionType.sessionReject = .descriptionInfo) :=
  Sender.understood_iff (s := gingleSender) (m := .reject "decline") rfl

/-- Such a session says something that its like does not understand. -/
theorem description_info_unknown :
    ∃ stanza, gingleSender.send (.descriptionInfo fun _ => .ok []) = .ok stanza ∧
      parseSessionMessage stanza = .error "unknown action: " ∧
      ¬ gingleSender.Understood .descriptionInfo stanza := by
  refine ⟨_, rfl, by rfl, ?_⟩
  rintro ⟨-, -, hno⟩
  exact hno "" rfl

end Sender

end SessionMessages
end Libjingle
