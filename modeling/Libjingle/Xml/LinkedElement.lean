import Mathlib.Data.List.InsertIdx
import Libjingle.Lib.LinkedChain
import Libjingle.Lib.Runs
import Libjingle.Xml.XmlElement

/-! `XmlElement` as it stands in memory: its attributes and children are linked by hand, with a
pointer to the last of each. The lists of the element are what the pointers lead through. -/

namespace Libjingle

structure LinkedElement where
  name : QName
  attrs : LinkedChain (QName × String) := {}
  children : LinkedChain (String ⊕ LinkedElement) := {}
  cdata : Bool := false

namespace LinkedElement

/-- The two constructors from a name. -/
def create (name : QName) (useDefaultNs : Bool) : LinkedElement :=
  if useDefaultNs then
    { name, attrs := ⟨[some ⟨(qnXmlns, name.ns), none⟩], some 0, some 0⟩ }
  else { name }

section Operations

variable (e : LinkedElement) (name : QName) (value text : String)

def withAttrs (attrs : LinkedChain (QName × String)) : LinkedElement := { e with attrs }

def withChildren (children : LinkedChain (String ⊕ LinkedElement)) : LinkedElement :=
  { e with children }

def findAttr : Option (Option (Option Nat × Nat)) := e.attrs.find fun attr => attr.1 = name

def hasAttr : Option Bool := (e.findAttr name).map Option.isSome

def setAttr : Option LinkedElement :=
  (e.findAttr name).bind fun found => (match found with
    | none => e.attrs.append (name, value)
    | some place => e.attrs.setValue place.2 (name, value)).map e.withAttrs

def clearAttr : Option LinkedElement :=
  (e.attrs.removeFirst fun attr => attr.1 = name).map e.withAttrs

/-- The assertion that the name is new fails otherwise. -/
def addAttr : Option LinkedElement :=
  (e.hasAttr name).bind fun has =>
    if has then none else (e.attrs.append (name, value)).map e.withAttrs

def clearAttributes : Option LinkedElement := e.attrs.clear.map e.withAttrs

def addElement (child : LinkedElement) : Option LinkedElement :=
  (e.children.append (.inr child)).map e.withChildren

/-- What `last_child_` points to. -/
def lastChild : Option (Option (Nat × (String ⊕ LinkedElement))) :=
  match e.children.last with
  | none => some none
  | some a => (e.children.cell? a).map fun cell => some (a, cell.value)

def appendText : Option LinkedElement :=
  e.lastChild.bind fun last => (match last with
    | some (a, .inl old) => e.children.setValue a (.inl (old ++ text))
    | _ => e.children.append (.inl text)).map e.withChildren

def addText : Option LinkedElement := if text = "" then some e else e.appendText text

def addParsedText : Option LinkedElement := if text.length = 0 then some e else e.appendText text

def clearChildren : Option LinkedElement := e.children.clear.map e.withChildren

def setBodyText : Option LinkedElement :=
  if text = "" then e.clearChildren
  else match e.children.first with
    | none => e.addText text
    | some a => (e.children.cell? a).bind fun cell =>
        if cell.value.isLeft ∧ e.children.last = some a then
          (e.children.setValue a (.inl text)).map e.withChildren
        else e.clearChildren.bind fun cleared => cleared.addText text

def insertChildAfter (predecessor : Option Nat) (next : String ⊕ LinkedElement) :
    Option LinkedElement :=
  (e.children.insertAfter predecessor next).map e.withChildren

def removeChildAfter (predecessor : Option Nat) : Option LinkedElement :=
  (e.children.removeAfter predecessor).map e.withChildren

def isNamed : String ⊕ LinkedElement → Bool
  | .inl _ => false
  | .inr child => child.name = name

def clearNamedChildren : Option LinkedElement :=
  (e.children.removeAll (isNamed name)).map e.withChildren

/-- `FirstNamed`, the address of the child. -/
def firstNamed : Option (Option Nat) := (e.children.find (isNamed name)).map (·.map Prod.snd)

/-- `NextNamed` of the child at an address. -/
def nextNamed (a : Nat) : Option (Option Nat) :=
  (e.children.cell? a).bind fun cell =>
    (e.children.search (isNamed name) e.children.cells.length (some a) cell.next).map
      (·.map Prod.snd)

def bodyText : Option String :=
  match e.children.first with
  | none => some ""
  | some a => (e.children.cell? a).map fun cell => match cell.value with
      | .inl text => if e.children.last = some a then text else ""
      | .inr _ => ""

end Operations

/-- `AddText` at a depth. -/
def addTextAt (text : String) : Nat → LinkedElement → Option LinkedElement
  | 0, e => e.addText text
  | depth + 1, e => e.lastChild.bind fun last => match last with
      | some (a, .inr child) => (addTextAt text depth child).bind fun child =>
          (e.children.setValue a (.inr child)).map e.withChildren
      | _ => none

theorem lt_of_child {e child : LinkedElement} {x : Nat × (String ⊕ LinkedElement)}
    (hx : x ∈ e.children.nodes) (hchild : x.2 = .inr child) : sizeOf child < sizeOf e := by
  have hlt := LinkedChain.sizeOf_lt_of_mem_nodes hx
  cases e
  simp only [hchild, Sum.inr.sizeOf_spec, LinkedElement.mk.sizeOf_spec] at hlt ⊢
  omega

/-- The copy constructor. -/
def copy (e : LinkedElement) : Option LinkedElement :=
  let copyChild (child : {x // x ∈ e.children.nodes}) : Option (String ⊕ LinkedElement) :=
    match _h : child.1.2 with
    | .inl text => some (.inl text)
    | .inr element => element.copy.map .inr
  (LinkedChain.build (e.attrs.nodes.map Prod.snd)).bind fun attrs =>
    (e.children.nodes.attach.mapM copyChild).bind fun children =>
      (LinkedChain.build children).map fun children => { e with attrs, children }
termination_by e
decreasing_by exact lt_of_child child.2 _h

/-- The element that the pointers make. -/
def value (e : LinkedElement) : XmlElement :=
  let childValue (child : {x // x ∈ e.children.nodes}) : String ⊕ XmlElement :=
    match _h : child.1.2 with
    | .inl text => .inl text
    | .inr element => .inr element.value
  ⟨e.name, e.attrs.nodes.map Prod.snd, e.children.nodes.attach.map childValue⟩
termination_by e
decreasing_by exact lt_of_child child.2 _h

/-- The pointers of the element, and of the elements inside it, are in order: both last
pointers lead to the last node, and no two attributes have one name. -/
inductive Sound : LinkedElement → Prop
  | intro {e attrs children} : e.attrs.Holds attrs → (attrs.map (·.2.1)).Nodup →
      e.children.Holds children → (∀ a child, (a, Sum.inr child) ∈ children → Sound child) →
      Sound e

section Values

variable {e : LinkedElement} {attrs : List (Nat × (QName × String))}
  {children : List (Nat × (String ⊕ LinkedElement))}

def childValue : String ⊕ LinkedElement → String ⊕ XmlElement := Sum.map id value

/-- The children as the pointers lead through them, and the ones among them that are elements. -/
def Inside (P : LinkedElement → Prop) (children : List (Nat × (String ⊕ LinkedElement))) : Prop :=
  ∀ a child, (a, Sum.inr child) ∈ children → P child

theorem value_eq (ha : e.attrs.Linked attrs) (hc : e.children.Linked children) :
    e.value = ⟨e.name, attrs.map Prod.snd, children.map (childValue ·.2)⟩ := by
  have hmap : (e.children.nodes.attach.map fun i => childValue i.1.2) =
      e.children.nodes.map (childValue ·.2) :=
    List.attach_map_val (f := fun x : Nat × (String ⊕ LinkedElement) => childValue x.2)
  rw [value, ha.nodes_eq, ← hc.nodes_eq, ← hmap]
  congr 1
  refine List.map_congr_left fun child _ => ?_
  simp only [childValue]
  split <;> rename_i heq <;> rw [heq] <;> rfl

theorem sound_withChildren (h : e.Sound) {chain : LinkedChain (String ⊕ LinkedElement)}
    (hc : chain.Holds children) (hs : Inside Sound children) : (e.withChildren chain).Sound ∧
      (e.withChildren chain).value =
        { e.value with children := children.map (childValue ·.2) } := by
  obtain ⟨ha, hnames, hold, -⟩ := h
  refine ⟨.intro ha hnames hc hs, ?_⟩
  rw [value_eq ha.toLinked hold.toLinked,
    value_eq (e := e.withChildren chain) ha.toLinked hc.toLinked]
  rfl

theorem sound_withAttrs (h : e.Sound) {chain : LinkedChain (QName × String)}
    (ha : chain.Holds attrs) (hnames : (attrs.map (·.2.1)).Nodup) :
    (e.withAttrs chain).Sound ∧
      (e.withAttrs chain).value = { e.value with attrs := attrs.map Prod.snd } := by
  obtain ⟨hold, -, hc, hs⟩ := h
  refine ⟨.intro ha hnames hc hs, ?_⟩
  rw [value_eq hold.toLinked hc.toLinked,
    value_eq (e := e.withAttrs chain) ha.toLinked hc.toLinked]
  rfl

theorem eq_nil_of_last {x : Nat × (String ⊕ LinkedElement)} (hc : e.children.Holds (x :: children))
    (hlast : e.children.last = some x.1) : children = [] := by
  rcases List.eq_nil_or_concat children with hnil | ⟨l, y, rfl⟩
  · exact hnil
  · have hy : some y.1 = some x.1 := by
      rw [← hlast, hc.last, List.concat_eq_append, ← List.cons_append]
      exact LinkedChain.ends_append_singleton.symm
    have hnodup := hc.nodup
    simp [Option.some.inj hy] at hnodup

theorem bodyText_eq (h : e.Sound) : e.bodyText = some e.value.bodyText := by
  obtain ⟨ha, -, hc, -⟩ := h
  rename_i attrs children
  rw [value_eq ha.toLinked hc.toLinked, bodyText, hc.leads.start]
  cases children with
  | nil => rfl
  | cons x children =>
    obtain ⟨next, hcell⟩ := hc.leads.cell List.mem_cons_self
    obtain ⟨a, text | child⟩ := x
    · by_cases hlast : e.children.last = some a
      · obtain rfl := eq_nil_of_last hc hlast
        simp [hcell, hlast, XmlElement.bodyText, childValue]
      · have hne : children ≠ [] := by
          rintro rfl
          exact hlast hc.last
        obtain ⟨y, ys, rfl⟩ := List.exists_cons_of_ne_nil hne
        simp [hcell, hlast, XmlElement.bodyText, childValue]
    · simp [hcell, XmlElement.bodyText, childValue]

end Values

end LinkedElement

end Libjingle
