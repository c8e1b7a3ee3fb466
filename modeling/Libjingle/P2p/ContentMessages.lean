import Libjingle.Lib.Fallible
import Libjingle.P2p.SessionDescription
import Libjingle.P2p.SessionMessages
import Libjingle.Xmpp.Constants

/-! The descriptions that initiates, accepts and description-infos carry. The content and
transport parsers are those that clients and transports register by the namespaces of
their elements. -/

namespace Libjingle

open SessionDescription

def nsGingleP2p : String := "http://www.google.com/transport/p2p"
def nsGingleAudio : String := "http://www.google.com/session/phone"
def nsGingleVideo : String := "http://www.google.com/session/video"
def nsJingleDraft : String := "google:jingle"
def nsJingleRtp : String := "urn:xmpp:jingle:apps:rtp:1"

def lnDescription : String := "description"
def lnTransport : String := "transport"
def lnCandidate : String := "candidate"
def lnInitiator : String := "initiator"

def cnAudio : String := "audio"
def cnVideo : String := "video"
def cnOther : String := "main"

def qnCreator : QName := ⟨"", "creator"⟩
def qnJingleContent : QName := ⟨nsJingle, "content"⟩
def qnJingleContentName : QName := ⟨"", "name"⟩
def qnJingleDraftGroup : QName := ⟨nsJingleDraft, "group"⟩
def qnJingleDraftGroupType : QName := ⟨"", "type"⟩
def qnGingleAudioContent : QName := ⟨nsGingleAudio, lnDescription⟩

structure ContentParser (Description : Type) where
  parseContent : SignalingProtocol → XmlElement → Except String Description
  isWritable : SignalingProtocol → Description → Bool := fun _ _ => true
  writeContent : SignalingProtocol → Description → Except String XmlElement

/-- There is no translator while a session has no transports, as when it is initiated. -/
structure TransportParser (Translator : Type) where
  parseTransportDescription :
    XmlElement → Option Translator → Except String SessionDescription.TransportDescription
  writeTransportDescription :
    SessionDescription.TransportDescription → Translator → Except String XmlElement
  parseGingleCandidate : XmlElement → Option Translator → Except String Candidate
  writeGingleCandidate : Candidate → Translator → Except String XmlElement

/-- What a session parses and writes descriptions with: the parsers for types of contents
and transports, and the translators for names of contents. -/
structure Parsers (Description Translator : Type) where
  content : String → Option (ContentParser Description)
  transport : String → Option (TransportParser Translator)
  translator : String → Option Translator

structure ContentMessage (Description : Type) where
  contents : List (ContentInfo Description) := []
  transports : List TransportInfo := []
  groups : List ContentGroup := []
  deriving DecidableEq, Repr

namespace Parsers

variable {Description Translator : Type} (parsers : Parsers Description Translator)

section Parse

def parserToParse (transportType contentName : String) :
    Except String (TransportParser Translator × Option Translator) :=
  match parsers.transport transportType with
  | none => .error ("unknown transport type: " ++ transportType)
  | some parser => .ok (parser, parsers.translator contentName)

def parseGingleCandidate (candidateElem : XmlElement) (contentName : String) :
    Except String Candidate := do
  let (parser, translator) ← parsers.parserToParse nsGingleP2p contentName
  parser.parseGingleCandidate candidateElem translator

def candidateElems (elem : XmlElement) : List XmlElement :=
  elem.elements.filter (·.name.localPart = lnCandidate)

def contentOfChannel (hasAudio hasVideo : Bool) (channelName : String) : Option String :=
  if hasAudio && (channelName = "rtp" || channelName = "rtcp") then some cnAudio
  else if hasVideo && (channelName = "video_rtp" || channelName = "video_rtcp") then some cnVideo
  else none

def gingleTransportInfo (contentName : String) (candidates : List Candidate) : TransportInfo :=
  ⟨contentName, { transportType := nsGingleP2p, candidates }⟩

def parseGingleTransportInfos (actionElem : XmlElement)
    (contents : List (ContentInfo Description)) : Except String (List TransportInfo) := do
  let hasAudio := (findContentInfoByName contents cnAudio).isSome
  let hasVideo := (findContentInfoByName contents cnVideo).isSome
  if !hasAudio && !hasVideo then
    let candidates ← (candidateElems actionElem).mapM (parsers.parseGingleCandidate · cnOther)
    return [gingleTransportInfo cnOther candidates]
  let candidates ← (candidateElems actionElem).mapM fun candidateElem => do
    let channelName := candidateElem.attr qnName
    match contentOfChannel hasAudio hasVideo channelName with
    | none => .error ("Unknown channel name: " ++ channelName)
    | some contentName =>
      return (contentName, ← parsers.parseGingleCandidate candidateElem contentName)
  let candidatesOf := fun contentName =>
    (candidates.filter (·.1 = contentName)).map (·.2)
  return (if hasAudio then [gingleTransportInfo cnAudio (candidatesOf cnAudio)] else []) ++
    (if hasVideo then [gingleTransportInfo cnVideo (candidatesOf cnVideo)] else [])

def parseJingleTransportInfo (transElem : XmlElement) (contentName : String) :
    Except String TransportInfo := do
  let (parser, translator) ← parsers.parserToParse transElem.name.ns contentName
  let description ← parser.parseTransportDescription transElem translator
  return ⟨contentName, description⟩

def parseJingleTransportPair (contents : List (ContentInfo Description))
    (pairElem : XmlElement) : Except String TransportInfo := do
  let contentName ← pairElem.requireXmlAttr qnJingleContentName
  match findContentInfoByName contents contentName with
  | none => .error ("Unknown content name: " ++ contentName)
  | some content =>
    let transElem ← pairElem.requireXmlChild lnTransport
    parsers.parseJingleTransportInfo transElem content.name

def parseJingleTransportInfos (jingle : XmlElement) (contents : List (ContentInfo Description)) :
    Except String (List TransportInfo) :=
  (jingle.allNamed qnJingleContent).mapM (parsers.parseJingleTransportPair contents)

def parseContentInfo (protocol : SignalingProtocol) (name type : String) (elem : XmlElement) :
    Except String (ContentInfo Description) :=
  match parsers.content type with
  | none => .error ("unknown application content: " ++ type)
  | some parser => do
    let description ← parser.parseContent protocol elem
    return { name, type, description }

def parseContentType (parentElem : XmlElement) : Except String (String × XmlElement) := do
  let contentElem ← parentElem.requireXmlChild lnDescription
  return (contentElem.name.ns, contentElem)

def parseGingleContentInfos (session : XmlElement) :
    Except String (List (ContentInfo Description)) := do
  let (contentType, contentElem) ← parseContentType session
  if contentType = nsGingleVideo then
    let audioElem := contentElem.copyXmlChildren { name := qnGingleAudioContent }
    let audio ← parsers.parseContentInfo .gingle cnAudio nsJingleRtp audioElem
    let video ← parsers.parseContentInfo .gingle cnVideo nsJingleRtp contentElem
    return [audio, video]
  else if contentType = nsGingleAudio then
    return [← parsers.parseContentInfo .gingle cnAudio nsJingleRtp contentElem]
  else
    return [← parsers.parseContentInfo .gingle cnOther contentType contentElem]

def parseJingleContentPair (pairElem : XmlElement) :
    Except String (ContentInfo Description) := do
  let contentName ← pairElem.requireXmlAttr qnJingleContentName
  let (contentType, contentElem) ← parseContentType pairElem
  parsers.parseContentInfo .jingle contentName contentType contentElem

def parseJingleContentInfos (jingle : XmlElement) :
    Except String (List (ContentInfo Description)) :=
  (jingle.allNamed qnJingleContent).mapM parsers.parseJingleContentPair

def parseJingleGroupInfo (pairElem : XmlElement) : Except String ContentGroup := do
  let groupName ← pairElem.requireXmlAttr qnJingleDraftGroupType
  let contentNames ← (pairElem.allNamed qnJingleContent).mapM
    (XmlElement.requireXmlAttr · qnJingleContentName)
  return contentNames.foldl ContentGroup.addContentName { semantics := groupName }

def parseJingleGroupInfos (jingle : XmlElement) : Except String (List ContentGroup) :=
  (jingle.allNamed qnJingleDraftGroup).mapM parseJingleGroupInfo

def parseContentMessage (protocol : SignalingProtocol) (actionElem : XmlElement)
    (expectTransports : Bool) : Except String (ContentMessage Description) := do
  if protocol = .gingle then
    let contents ← parsers.parseGingleContentInfos actionElem
    let transports ← if expectTransports then
      parsers.parseGingleTransportInfos actionElem contents else .ok []
    return { contents, transports }
  else
    let contents ← parsers.parseJingleContentInfos actionElem
    let groups ← parseJingleGroupInfos actionElem
    let transports ← if expectTransports then
      parsers.parseJingleTransportInfos actionElem contents else .ok []
    return { contents, transports, groups }

def parseSessionInitiate (protocol : SignalingProtocol) (actionElem : XmlElement) :
    Except String (ContentMessage Description) :=
  parsers.parseContentMessage protocol actionElem true

def parseSessionAccept (protocol : SignalingProtocol) (actionElem : XmlElement) :
    Except String (ContentMessage Description) :=
  parsers.parseContentMessage protocol actionElem true

def parseDescriptionInfo (protocol : SignalingProtocol) (actionElem : XmlElement) :
    Except String (ContentMessage Description) :=
  parsers.parseContentMessage protocol actionElem false

end Parse

section Write

def parserToWrite (transportType contentName : String) :
    Except String (TransportParser Translator × Translator) :=
  match parsers.transport transportType with
  | none => .error ("unknown transport type: " ++ transportType)
  | some parser =>
    match parsers.translator contentName with
    | none => .error ("unknown content name: " ++ contentName)
    | some translator => .ok (parser, translator)

def writeGingleTransportInfo (tinfo : TransportInfo) : Except String (List XmlElement) := do
  let (parser, translator) ←
    parsers.parserToWrite tinfo.description.transportType tinfo.contentName
  tinfo.description.candidates.mapM (parser.writeGingleCandidate · translator)

def writeGingleTransportInfos (tinfos : List TransportInfo) :
    Except String (List XmlElement) := do
  return (← tinfos.mapM parsers.writeGingleTransportInfo).flatten

def writeJingleTransportInfo (tinfo : TransportInfo) : Except String XmlElement := do
  let (parser, translator) ←
    parsers.parserToWrite tinfo.description.transportType tinfo.contentName
  parser.writeTransportDescription tinfo.description translator

def writeJingleContent (name : String) (childElems : List XmlElement) : XmlElement :=
  let contentElem : XmlElement := { name := qnJingleContent }
  (contentElem.setAttr qnJingleContentName name |>.setAttr qnCreator lnInitiator)
    |>.addXmlChildren childElems

def writeJingleTransportInfos (tinfos : List TransportInfo) : Except String (List XmlElement) :=
  tinfos.mapM fun tinfo => do
    return writeJingleContent tinfo.contentName [← parsers.writeJingleTransportInfo tinfo]

def writeContentInfo (protocol : SignalingProtocol) (content : ContentInfo Description) :
    Except String XmlElement :=
  match parsers.content content.type with
  | none => .error ("unknown content type: " ++ content.type)
  | some parser => parser.writeContent protocol content.description

def isWritable (protocol : SignalingProtocol) (content : ContentInfo Description) : Bool :=
  (parsers.content content.type).elim false (·.isWritable protocol content.description)

/-- Audio and video are merged into one description. -/
def writeGingleContentInfos (contents : List (ContentInfo Description)) :
    Except String (List XmlElement) :=
  let single := fun content : ContentInfo Description =>
    if content.rejected then
      .error "Gingle protocol may not reject individual contents."
    else do return [← parsers.writeContentInfo .gingle content]
  let merged := fun audio video : ContentInfo Description =>
    if audio.type = nsJingleRtp && video.type = nsJingleRtp then
      if audio.rejected || video.rejected then
        .error "Gingle protocol may not reject individual contents."
      else do
        let audioElem ← parsers.writeContentInfo .gingle audio
        let videoElem ← parsers.writeContentInfo .gingle video
        return [audioElem.copyXmlChildren videoElem]
    else .error "Gingle protocol may only have one content."
  match contents with
  | [] => .error "Gingle protocol may only have one content."
  | [content] => single content
  | [first, second] =>
    if parsers.isWritable .gingle second then merged first second else single first
  | audio :: video :: _ => merged audio video

def writeJinglePair (tinfos : List TransportInfo) (content : ContentInfo Description) :
    Except String XmlElement :=
  match getTransportInfoByContentName tinfos content.name with
  | none => .error ("No transport for content: " ++ content.name)
  | some tinfo => do
    let elem ← parsers.writeContentInfo .jingle content
    let transElem ← parsers.writeJingleTransportInfo tinfo
    return writeJingleContent content.name [elem, transElem]

def kept (contents : List (ContentInfo Description)) : List (ContentInfo Description) :=
  contents.filter (!·.rejected)

def writeJingleContents (contents : List (ContentInfo Description))
    (tinfos : List TransportInfo) : Except String (List XmlElement) :=
  (kept contents).mapM (parsers.writeJinglePair tinfos)

def writeJingleContentInfos (contents : List (ContentInfo Description)) :
    Except String (List XmlElement) :=
  (kept contents).mapM fun content => do
    return writeJingleContent content.name [← parsers.writeContentInfo .jingle content]

def writeJingleGroupInfo (contents : List (ContentInfo Description))
    (groups : List ContentGroup) : List XmlElement :=
  if groups = [] then []
  else
    let pairElem : XmlElement := { name := qnJingleDraftGroup }
    [(pairElem.setAttr qnJingleDraftGroupType groupTypeBundle).addXmlChildren
      (contents.map fun content =>
        XmlElement.setAttr { name := qnJingleContent } qnJingleContentName content.name)]

def writeContentMessage (protocol : SignalingProtocol) (contents : List (ContentInfo Description))
    (tinfos : List TransportInfo) (groups : List ContentGroup) :
    Except String (List XmlElement) := do
  if protocol = .gingle then
    let contentElems ← parsers.writeGingleContentInfos contents
    let transElems ← parsers.writeGingleTransportInfos tinfos
    return contentElems ++ transElems
  else
    let contentElems ← parsers.writeJingleContents contents tinfos
    return contentElems ++ writeJingleGroupInfo contents groups

def writeSessionInitiate (protocol : SignalingProtocol)
    (contents : List (ContentInfo Description)) (tinfos : List TransportInfo)
    (groups : List ContentGroup) : Except String (List XmlElement) :=
  parsers.writeContentMessage protocol contents tinfos groups

def writeSessionAccept (protocol : SignalingProtocol)
    (contents : List (ContentInfo Description)) (tinfos : List TransportInfo)
    (groups : List ContentGroup) : Except String (List XmlElement) :=
  parsers.writeContentMessage protocol contents tinfos groups

def writeDescriptionInfo (protocol : SignalingProtocol)
    (contents : List (ContentInfo Description)) : Except String (List XmlElement) :=
  if protocol = .gingle then parsers.writeGingleContentInfos contents
  else parsers.writeJingleContentInfos contents

end Write

end Parsers

end Libjingle
