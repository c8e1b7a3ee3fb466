import Libjingle.Xml.XmlElement

/-! `XmlParser` and `XmppStanzaParser`, which turn what expat finds in the input into the
header of a stream and its stanzas. The parsers call the engine back, which does not
interfere while they run, so that the callbacks of an input are a list. -/

namespace Libjingle

inductive ExpatEvent
  | startElement (name : String) (atts : List (String × String))
  | endElement (name : String)
  | characterData (text : String)
  | xmlDecl (version encoding : Option String) (standalone : Int)
  deriving DecidableEq, Repr

/-- The library that is under the parser, with what `XML_Parse` calls back and returns. -/
structure Expat where
  State : Type
  initial : State
  parse : State → List UInt8 → State × List ExpatEvent × Bool

structure XmlnsStack where
  xmlns : List (String × String) := []
  depths : List Nat := []
  deriving DecidableEq, Repr

namespace XmlnsStack

variable (st : XmlnsStack)

def pushFrame : XmlnsStack := { st with depths := st.depths ++ [st.xmlns.length] }

def popFrame : XmlnsStack :=
  { xmlns := st.xmlns.take (st.depths.getLast?.getD 0), depths := st.depths.dropLast }

def addXmlns (pre ns : String) : XmlnsStack := { st with xmlns := st.xmlns ++ [(pre, ns)] }

def startsWithXml (pre : String) : Bool :=
  pre.toList.take 3 |>.map Char.toLower |> (· = ['x', 'm', 'l'])

def nsForPrefix (pre : String) : Option String :=
  if startsWithXml pre then
    if pre = "xml" then some "http://www.w3.org/XML/1998/namespace"
    else if pre = "xmlns" then some "http://www.w3.org/2000/xmlns/"
    else none
  else match st.xmlns.reverse.find? (·.1 = pre) with
    | some (_, ns) => some ns
    | none => if pre = "" then some "" else none

/-- A name without a namespace that is declared is the empty name. -/
def resolveQName (qname : String) (isAttr : Bool) : QName :=
  match qname.toList.span (· ≠ ':') with
  | (pre, _ :: rest) =>
    (st.nsForPrefix (String.ofList pre)).elim ⟨"", ""⟩ fun ns => ⟨ns, String.ofList rest⟩
  | (_, []) =>
    if isAttr then ⟨"", qname⟩
    else (st.nsForPrefix "").elim ⟨"", ""⟩ fun ns => ⟨ns, qname⟩

end XmlnsStack

/-- The elements that are open, the innermost first, and the element that is complete. -/
structure XmlBuilder where
  parents : List XmlElement := []
  root : Option XmlElement := none

namespace XmlBuilder

def buildAttrs (st : XmlnsStack) (e : XmlElement) (seen : List QName) :
    List (String × String) → Option XmlElement
  | [] => some e
  | (att, value) :: atts =>
    let attName := st.resolveQName att true
    if attName = ⟨"", ""⟩ ∨ (attName.ns ≠ "" ∧ attName ∈ seen) then none
    else buildAttrs st (e.addAttr attName value)
      (if attName.ns ≠ "" then attName :: seen else seen) atts

def buildElement (st : XmlnsStack) (name : String) (atts : List (String × String)) :
    Option XmlElement :=
  if st.resolveQName name false = ⟨"", ""⟩ then none
  else buildAttrs st { name := st.resolveQName name false } [] atts

def startElement (b : XmlBuilder) (e : XmlElement) : XmlBuilder :=
  { b with parents := e :: b.parents }

def endElement (b : XmlBuilder) : XmlBuilder :=
  match b.parents with
  | e :: parent :: parents => { b with parents := parent.addElement e :: parents }
  | [e] => { parents := [], root := some e }
  | [] => b

def characterData (b : XmlBuilder) (text : String) : XmlBuilder :=
  match b.parents with
  | e :: parents => { b with parents := e.addText text :: parents }
  | [] => b

end XmlBuilder

structure XmlParser (expat : Expat) where
  expat : expat.State := expat.initial
  xmlns : XmlnsStack := {}
  raisedError : Bool := false
  sentError : Bool := false

structure XmppStanzaParser (expat : Expat) where
  parser : XmlParser expat := {}
  depth : Int := 0
  builder : XmlBuilder := {}

/-- The calls of `XmppStanzaParseHandler`. -/
inductive StanzaEvent
  | startStream (stream : XmlElement)
  | stanza (stanza : XmlElement)
  | endStream
  | xmlError

namespace XmppStanzaParser

variable {expat : Expat} (p : XmppStanzaParser expat)

def raiseError : XmppStanzaParser expat :=
  { p with parser := { p.parser with raisedError := true } }

def setXmlns (xmlns : XmlnsStack) : XmppStanzaParser expat :=
  { p with parser := { p.parser with xmlns } }

/-- `XmppStanzaParser::Reset` resets all of its parts. -/
def reset (_ : XmppStanzaParser expat) : XmppStanzaParser expat := {}

/-- The namespaces that the attributes declare. A namespace with a prefix must not be
empty. -/
def startNamespaces (st : XmlnsStack) : List (String × String) → XmlnsStack × Bool
  | [] => (st, true)
  | (att, value) :: atts =>
    if att = "xmlns" then startNamespaces (st.addXmlns "" value) atts
    else if att.toList.take 6 = "xmlns:".toList then
      if value = "" then (st, false)
      else startNamespaces (st.addXmlns (String.ofList (att.toList.drop 6)) value) atts
    else startNamespaces st atts

def incomingStartElement (name : String) (atts : List (String × String)) :
    XmppStanzaParser expat × List StanzaEvent :=
  match startNamespaces p.parser.xmlns.pushFrame atts with
  | (xmlns, false) => ((p.setXmlns xmlns).raiseError, [])
  | (xmlns, true) =>
    let q := { p.setXmlns xmlns with depth := p.depth + 1 }
    match XmlBuilder.buildElement xmlns name atts with
    | none => (q.raiseError, [])
    | some e =>
      if p.depth = 0 then (q, [.startStream e])
      else ({ q with builder := q.builder.startElement e }, [])

def incomingEndElement : XmppStanzaParser expat × List StanzaEvent :=
  let q := { p.setXmlns p.parser.xmlns.popFrame with depth := p.depth - 1 }
  if q.depth = 0 then (q, [.endStream])
  else
    let builder := q.builder.endElement
    match builder.root with
    | some e =>
      if q.depth = 1 then ({ q with builder := { builder with root := none } }, [.stanza e])
      else ({ q with builder }, [])
    | none => ({ q with builder }, [])

def incomingCharacterData (text : String) : XmppStanzaParser expat :=
  if p.depth > 1 then { p with builder := p.builder.characterData text } else p

/-- The declaration must be for XML 1.0 in UTF-8, and not for a document that stands alone. -/
def acceptsXmlDecl (version encoding : Option String) (standalone : Int) : Bool :=
  version.all (· = "1.0") && standalone ≠ 0 &&
    encoding.all fun enc => (enc.toList.take 5).map Char.toLower = "utf-8".toList

/-- The callbacks of `XmlParser`, which does nothing any more after an error. -/
def incoming (event : ExpatEvent) : XmppStanzaParser expat × List StanzaEvent :=
  if p.parser.raisedError then (p, [])
  else match event with
    | .startElement name atts => p.incomingStartElement name atts
    | .endElement _ => p.incomingEndElement
    | .characterData text => (p.incomingCharacterData text, [])
    | .xmlDecl version encoding standalone =>
      (if acceptsXmlDecl version encoding standalone then p else p.raiseError, [])

def incomingAll : XmppStanzaParser expat → List ExpatEvent →
    XmppStanzaParser expat × List StanzaEvent
  | p, [] => (p, [])
  | p, event :: events =>
    let (q, first) := p.incoming event
    let (r, rest) := incomingAll q events
    (r, first ++ rest)

def parse (bytes : List UInt8) : XmppStanzaParser expat × List StanzaEvent :=
  if p.parser.sentError then (p, [])
  else
    let (state, events, ok) := expat.parse p.parser.expat bytes
    let (q, calls) := incomingAll { p with parser := { p.parser with expat := state } } events
    let q := if ok then q else q.raiseError
    if q.parser.raisedError then
      ({ q with parser := { q.parser with sentError := true } }, calls ++ [.xmlError])
    else (q, calls)

end XmppStanzaParser

end Libjingle
