import Mathlib.Tactic.Common

/-! `XmlElement`: the trees that stanzas are made of. A child is a text or an element.
The parsers and writers look at the attributes and the children of one element at a
time, so that nothing here recurses into a tree. -/

namespace Libjingle

structure QName where
  ns : String
  localPart : String
  deriving DecidableEq, Repr

def QName.merged (name : QName) : String :=
  if name.ns = "" then name.localPart else name.ns ++ ":" ++ name.localPart

structure XmlElement where
  name : QName
  attrs : List (QName × String) := []
  children : List (String ⊕ XmlElement) := []
  deriving Repr

def qnXmlns : QName := ⟨"", "xmlns"⟩

namespace XmlElement

/-- The constructor that declares the namespace of the element to be the default. -/
def withNs (name : QName) : XmlElement := { name, attrs := [(qnXmlns, name.ns)] }

variable (e : XmlElement) (name : QName) (value : String)

/-- The first attribute with the name. -/
def attr? : Option String := (e.attrs.find? (·.1 = name)).map (·.2)

def attr : String := (e.attr? name).getD ""

def hasAttr : Bool := (e.attr? name).isSome

/-- The attribute must not be there yet. -/
def addAttr : XmlElement := { e with attrs := e.attrs ++ [(name, value)] }

def setAttrs (name : QName) (value : String) : List (QName × String) → List (QName × String)
  | [] => [(name, value)]
  | a :: attrs => if a.1 = name then (name, value) :: attrs else a :: setAttrs name value attrs

def setAttr : XmlElement := { e with attrs := setAttrs name value e.attrs }

/-- The children that are elements, as `FirstElement` and `NextElement` go through them. -/
def elements : List XmlElement := e.children.filterMap Sum.getRight?

def firstElement : Option XmlElement := e.elements.head?

def firstNamed : Option XmlElement := e.elements.find? (·.name = name)

/-- What `FirstNamed` and `NextNamed` go through. -/
def allNamed : List XmlElement := e.elements.filter (·.name = name)

def addElement (child : XmlElement) : XmlElement :=
  { e with children := e.children ++ [.inr child] }

def addText (text : String) : XmlElement :=
  if text = "" then e
  else match e.children.getLast? with
    | some (.inl last) => { e with children := e.children.dropLast ++ [.inl (last ++ text)] }
    | _ => { e with children := e.children ++ [.inl text] }

/-- `SetBodyText`. -/
def setBodyText (text : String) : XmlElement :=
  { e with children := if text = "" then [] else [.inl text] }

/-- The text of an element whose only child is a text. -/
def bodyText : String :=
  match e.children with
  | [.inl text] => text
  | _ => ""

/-- `TextNamed`. -/
def textNamed : String := (e.firstNamed name).elim "" bodyText

/-- `AddXmlChildren`. -/
def addXmlChildren (children : List XmlElement) : XmlElement :=
  children.foldl addElement e

/-- `CopyXmlChildren`, which leaves the texts behind. -/
def copyXmlChildren (source dest : XmlElement) : XmlElement :=
  dest.addXmlChildren source.elements

def addXmlAttrIfNonEmpty : XmlElement := if value = "" then e else e.addAttr name value

/-- `GetXmlAttr` of a text. -/
def getXmlAttr (default : String) : String :=
  if e.attr name = "" then default else e.attr name

/-- `GetXmlChild`, by the local part alone. -/
def getXmlChild (localPart : String) : Option XmlElement :=
  e.elements.find? (·.name.localPart = localPart)

def requireXmlChild (localPart : String) : Except String XmlElement :=
  match e.getXmlChild localPart with
  | some child => .ok child
  | none => .error
      ("element '" ++ e.name.merged ++ "' missing required child '" ++ localPart)

def requireXmlAttr : Except String String :=
  if e.hasAttr name then .ok (e.attr name)
  else .error ("element '" ++ e.name.merged ++ "' missing required attribute '" ++
    name.merged ++ "'")

variable {e name value}

@[simp] theorem name_addAttr : (e.addAttr name value).name = e.name := rfl

@[simp] theorem elements_addAttr : (e.addAttr name value).elements = e.elements := rfl

@[simp] theorem name_addElement {child : XmlElement} : (e.addElement child).name = e.name :=
  rfl

@[simp] theorem attr?_addElement {child : XmlElement} :
    (e.addElement child).attr? name = e.attr? name := rfl

@[simp] theorem elements_childless {attrs : List (QName × String)} :
    (mk name attrs []).elements = [] := rfl

@[simp] theorem elements_addElement {child : XmlElement} :
    (e.addElement child).elements = e.elements ++ [child] := by
  simp [elements, addElement]

theorem attr?_withNs {other : QName} : (withNs name).attr? other =
    if other = qnXmlns then some name.ns else none := by
  by_cases h : qnXmlns = other
  · simp [attr?, withNs, h]
  · simp [attr?, withNs, h, Ne.symm h]

theorem attr?_addAttr {other : QName} : (e.addAttr name value).attr? other =
    (e.attr? other).or (if other = name then some value else none) := by
  simp only [attr?, addAttr, List.find?_append, Option.map_or]
  by_cases h : name = other
  · simp [h]
  · simp [h, Ne.symm h]

theorem attr?_setAttr {other : QName} : (e.setAttr name value).attr? other =
    if other = name then some value else e.attr? other := by
  simp only [attr?, setAttr]
  induction e.attrs with
  | nil => by_cases h : name = other <;> simp [setAttrs, h, Ne.symm]
  | cons a attrs ih =>
    by_cases ha : a.1 = name
    · by_cases h : name = other
      · simp [setAttrs, ha, h]
      · simp [setAttrs, ha, h, Ne.symm h]
    · by_cases ho : a.1 = other
      · have hne : other ≠ name := fun h => ha (ho.trans h)
        simp [setAttrs, ho, hne]
      · simpa [setAttrs, ha, ho] using ih

@[simp] theorem name_setAttr : (e.setAttr name value).name = e.name := rfl

@[simp] theorem elements_setAttr : (e.setAttr name value).elements = e.elements := rfl

theorem addXmlChildren_eq (children : List XmlElement) :
    e.addXmlChildren children = { e with children := e.children ++ children.map .inr } := by
  unfold addXmlChildren
  induction children generalizing e with
  | nil => cases e; simp
  | cons child children ih => simp [ih, addElement]

@[simp] theorem name_addXmlChildren {children : List XmlElement} :
    (e.addXmlChildren children).name = e.name := by
  rw [addXmlChildren_eq]

@[simp] theorem attr?_addXmlChildren {children : List XmlElement} :
    (e.addXmlChildren children).attr? name = e.attr? name := by
  rw [addXmlChildren_eq]
  rfl

@[simp] theorem elements_addXmlChildren {children : List XmlElement} :
    (e.addXmlChildren children).elements = e.elements ++ children := by
  rw [addXmlChildren_eq]
  simp [elements, List.filterMap_map, Function.comp_def]

theorem getXmlAttr_empty : e.getXmlAttr name "" = e.attr name := by
  by_cases h : e.attr name = "" <;> simp [getXmlAttr, h]

end XmlElement

end Libjingle
