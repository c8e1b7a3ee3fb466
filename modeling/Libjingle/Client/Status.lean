import Libjingle.Base.Strtoul
import Libjingle.Base.StringEncode
import Libjingle.Lib.Pieces
import Libjingle.Xmpp.Constants
import Libjingle.Xmpp.Jid

/-! The presence of a user as a `Status`: how it is written to a stanza and filled from one.
A status text is cut off by its bytes, so that the texts of these elements are bytes. -/

namespace Libjingle

structure ByteElement where
  name : QName
  attrs : List (QName × List UInt8) := []
  children : List (List UInt8 ⊕ ByteElement) := []

namespace ByteElement

/-- The constructor with `useDefaultNs`. -/
def withNs (name : QName) : ByteElement := { name, attrs := [(qnXmlns, stringBytes name.ns)] }

variable (e : ByteElement) (name : QName)

def attr : List UInt8 := ((e.attrs.find? (·.1 = name)).map (·.2)).getD []

def firstNamed : Option ByteElement :=
  (e.children.filterMap Sum.getRight?).find? (·.name = name)

def bodyText : List UInt8 :=
  match e.children with
  | [.inl text] => text
  | _ => []

def addAttr (value : List UInt8) : ByteElement := { e with attrs := e.attrs ++ [(name, value)] }

def addElement (child : ByteElement) : ByteElement :=
  { e with children := e.children ++ [.inr child] }

def addText (text : List UInt8) : ByteElement :=
  if text = [] then e
  else match e.children.getLast? with
    | some (.inl last) => { e with children := e.children.dropLast ++ [.inl (last ++ text)] }
    | _ => { e with children := e.children ++ [.inl text] }

def onLast (f : ByteElement → ByteElement) : Option ByteElement :=
  match e.children.getLast? with
  | some (.inr child) => some { e with children := e.children.dropLast ++ [.inr (f child)] }
  | _ => none

end ByteElement

namespace Status

inductive Show
  | none
  | offline
  | xa
  | away
  | dnd
  | online
  | chat
  deriving DecidableEq, Repr

end Status

structure Status where
  jid : Jid := {}
  priority : Int := 0
  showState : Status.Show := .none
  status : List UInt8 := []
  nick : List UInt8 := []
  available : Bool := false
  knowCapabilities : Bool := false
  voiceCapability : Bool := false
  pmucCapability : Bool := false
  videoCapability : Bool := false
  cameraCapability : Bool := false
  capsNode : List UInt8 := []
  version : List UInt8 := []
  sentTime : List UInt8 := []
  deriving DecidableEq, Repr

/-- Whether `TUENTI_CUSTOM_BUILD` is defined. -/
inductive Build
  | standard
  | tuenti
  deriving DecidableEq, Repr

def strUnavailable : List UInt8 := stringBytes "unavailable"

namespace RosterHandler

def isUtf8FirstByte (c : UInt8) : Bool := c &&& 0x80 = 0 || c - 0xC0 < 0x3E

def isXmlSpace (ch : UInt8) : Bool := ch = 0x20 || ch = 0x0A || ch = 0x0D || ch = 0x09

/-- `find` of a string: the first place where the other one stands. -/
def find (list token : List UInt8) : Option Nat :=
  (List.range (list.length + 1)).find? fun i => token.isPrefixOf (list.drop i)

def boundaryBefore (list : List UInt8) (i : Nat) : Bool :=
  i = 0 || list[i - 1]?.any isXmlSpace

def boundaryAfter (list token : List UInt8) (i : Nat) : Bool :=
  i = list.length - token.length || list[i + token.length]?.any isXmlSpace

def listContainsToken (list token : List UInt8) : Bool :=
  match find list token with
  | none => false
  | some i => token ≠ [] && boundaryBefore list i && boundaryAfter list token i

def voiceV1 : List UInt8 := stringBytes "voice-v1"

def videoV1 : List UInt8 := stringBytes "video-v1"

/-- Where a long status is cut: the loop goes back from byte 300 to the start of a character. -/
def truncated (status : List UInt8) : List UInt8 :=
  if 300 < status.length then status.take (Pieces.lastMark isUtf8FirstByte status 300) else status

def statusOf (stanza : ByteElement) (s : Status) : Status :=
  (stanza.firstNamed qnStatus).elim s fun status => { s with status := truncated status.bodyText }

def showOf (stanza : ByteElement) : Status.Show :=
  match stanza.firstNamed qnShow with
  | none => .online
  | some element =>
    if element.children = [] then .online
    else if element.bodyText = stringBytes "away" then .away
    else if element.bodyText = stringBytes "xa" then .xa
    else if element.bodyText = stringBytes "dnd" then .dnd
    else if element.bodyText = stringBytes "chat" then .chat
    else .online

/-- The part under `TUENTI_CUSTOM_BUILD`; the data must have a capabilities element. -/
def tuentiCapabilities (stanza : ByteElement) (s : Status) : Option Status :=
  match stanza.firstNamed qnTuentiData with
  | none => some s
  | some td => do
    let caps ← td.firstNamed qnTuentiCaps
    if (caps.firstNamed qnTuentiVoice).isSome then
      return { s with
        voiceCapability := true
        knowCapabilities := true
        capsNode := stringBytes "http://www.google.com/xmpp/client/caps"
        version := stringBytes "1.0" }
    else return s

def standardCapabilities (stanza : ByteElement) (s : Status) : Status :=
  (stanza.firstNamed qnCapsC).elim s fun caps =>
    let exts := caps.attr qnExt
    { s with
      knowCapabilities := true
      capsNode := caps.attr qnNode
      version := caps.attr qnVer
      voiceCapability := s.voiceCapability || listContainsToken exts voiceV1
      videoCapability := s.videoCapability || listContainsToken exts videoV1 }

def sentTimeOf (stanza : ByteElement) (s : Status) : Status :=
  (stanza.firstNamed qnDelayX).elim s fun delay => { s with sentTime := delay.attr qnStamp }

def nickOf (stanza : ByteElement) (s : Status) : Status :=
  (stanza.firstNamed qnNickname).elim s fun nick => { s with nick := nick.bodyText }

/-- `FillStatus`, which fails where it follows the pointer to an element that is not there. -/
def fillStatus (build : Build) (sender : Jid) (stanza : ByteElement) (s : Status) : Option Status :=
  if stanza.attr qnType = strUnavailable then some { s with jid := sender, available := false }
  else do
    let shown := { statusOf stanza { s with jid := sender, available := true } with
      showState := showOf stanza }
    let capable ← match build with
      | .tuenti => tuentiCapabilities stanza shown
      | .standard => some (standardCapabilities stanza shown)
    return nickOf stanza (sentTimeOf stanza capable)

end RosterHandler

namespace PresenceOutTask

def showText : Status.Show → List UInt8
  | .xa => stringBytes "xa"
  | .dnd => stringBytes "dnd"
  | .chat => stringBytes "chat"
  | _ => stringBytes "away"

def capsExt (s : Status) : List UInt8 :=
  (if s.voiceCapability then stringBytes "voice-v1" else []) ++
    (if s.pmucCapability then stringBytes " pmuc-v1" else []) ++
    (if s.videoCapability then stringBytes " video-v1" else []) ++
    (if s.cameraCapability then stringBytes " camera-v1" else [])

/-- A child with the text, as `AddElement` and `AddText` at depth 1 add it. -/
def addTextElement (e : ByteElement) (name : QName) (text : List UInt8) : Option ByteElement :=
  (e.addElement { name }).onLast (·.addText text)

def addCapabilities (build : Build) (s : Status) (e : ByteElement) : Option ByteElement :=
  if !s.knowCapabilities then some e
  else match build with
    | .tuenti =>
        some (e.addElement ((ByteElement.withNs qnTuentiData).addElement
          (({ name := qnTuentiCaps } : ByteElement).addElement { name := qnTuentiVoice })))
    | .standard => do
        let e ← (e.addElement (.withNs qnCapsC)).onLast (·.addAttr qnNode s.capsNode)
        let e ← e.onLast (·.addAttr qnVer s.version)
        e.onLast (·.addAttr qnExt (capsExt s))

/-- `TranslateStatus` at a time that `strftime` writes as the stamp. -/
def translateStatus (build : Build) (stamp : List UInt8) (s : Status) : Option ByteElement :=
  let result : ByteElement := { name := qnPresence }
  if !s.available then some (result.addAttr qnType strUnavailable)
  else do
    let result ← if s.showState ≠ .online ∧ s.showState ≠ .offline then
        addTextElement result qnShow (showText s.showState)
      else some result
    let result ← addTextElement result qnStatus s.status
    let result ← if s.nick ≠ [] then addTextElement result qnNickname s.nick else some result
    let result ← addTextElement result qnPriority (stringBytes (toStringInt s.priority))
    let result ← addCapabilities build s result
    (result.addElement (.withNs qnDelayX)).onLast (·.addAttr qnStamp stamp)

end PresenceOutTask

end Libjingle
