import Libjingle.Xml.ElementEdits
import Libjingle.Xmpp.Constants

/-! The groups of a contact of the roster. How many there are and which one was returned last is
kept beside the element that the contact is made of. -/

namespace Libjingle

open LinkedElement LinkedChain

inductive XmppReturnStatus
  | ok
  | badArgument
  deriving DecidableEq, Repr

structure XmppRosterContact where
  rawXml : Option LinkedElement := none
  groupCount : Int := -1
  groupIndexReturned : Int := -1
  groupReturned : Option Nat := none

namespace XmppRosterContact

section Contact

variable (s : XmppRosterContact)

def resetGroupCache : XmppRosterContact :=
  { s with groupCount := -1, groupIndexReturned := -1, groupReturned := none }

/-- `SetXmlFromWire`, which takes a copy. -/
def setXmlFromWire (xml : Option LinkedElement) : Option XmppRosterContact :=
  match xml with
  | none => some { s.resetGroupCache with rawXml := none }
  | some e => e.copy.map fun e => { s.resetGroupCache with rawXml := some e }

def isItem (e : LinkedElement) : Bool :=
  e.name = qnRosterItem && e.hasAttr qnSubscription = some false && e.hasAttr qnAsk = some false

def setRawXml (xml : Option LinkedElement) : Option (XmppReturnStatus × XmppRosterContact) :=
  match xml.filter isItem with
  | none => some (.badArgument, s)
  | some e => e.copy.map fun e => (.ok, { s.resetGroupCache with rawXml := some e })

def countFrom (e : LinkedElement) : Nat → Option Nat → Option Nat
  | _, none => some 0
  | 0, some _ => none
  | fuel + 1, some a =>
      (e.nextNamed qnRosterGroup a).bind fun next => (countFrom e fuel next).map (· + 1)

def getGroupCount : Option (Nat × XmppRosterContact) :=
  match s.rawXml with
  | none => some (0, s)
  | some e =>
      if s.groupCount = -1 then
        (e.firstNamed qnRosterGroup).bind fun first =>
          (countFrom e e.children.cells.length first).bind fun count =>
            if count = 0 then none else some (count, { s with groupCount := count })
      else some (s.groupCount.toNat, s)

/-- The group that is `n` places after the one at an address. -/
def advance (e : LinkedElement) : Nat → Option Nat → Option (Option Nat)
  | 0, p => some p
  | n + 1, p => p.bind fun a => (e.nextNamed qnRosterGroup a).bind (advance e n)

/-- Where the group is, from the one returned last or from the first one. -/
def locate (e : LinkedElement) (index : Nat) : Option XmppRosterContact :=
  if 0 ≤ s.groupIndexReturned ∧ (index : Int) = s.groupIndexReturned + 1 then
    s.groupReturned.bind fun a => (e.nextNamed qnRosterGroup a).bind fun next => next.map fun a =>
      { s with groupReturned := some a, groupIndexReturned := s.groupIndexReturned + 1 }
  else if s.groupIndexReturned < 0 ∨ s.groupIndexReturned ≠ index then
    (e.firstNamed qnRosterGroup).bind fun first => (advance e index first).map fun found =>
      { s with groupReturned := found, groupIndexReturned := index }
  else some s

def bodyAt (e : LinkedElement) (a : Nat) : Option String :=
  (e.children.cell? a).bind fun cell => match cell.value with
    | .inl _ => none
    | .inr child => child.bodyText

def getGroup (index : Nat) : Option (String × XmppRosterContact) :=
  s.getGroupCount.bind fun counted =>
    if counted.1 ≤ index then some ("", counted.2)
    else s.rawXml.bind fun e => (counted.2.locate e index).bind fun located =>
      located.groupReturned.bind fun a => (bodyAt e a).map fun text => (text, located)

def isGroup (group : String) : String ⊕ LinkedElement → Bool
  | .inl _ => false
  | .inr child => child.name = qnRosterGroup && child.bodyText = some group

/-- `FindGroup`, the child and the one before it. -/
def findGroup (e : LinkedElement) (group : String) : Option (Option (Option Nat × Nat)) :=
  e.children.find (isGroup group)

def rawXmlSkeleton : LinkedElement := create qnRosterItem false

def addGroup (group : String) : Option (XmppReturnStatus × XmppRosterContact) :=
  if group = "" then some (.badArgument, s)
  else
    let e := s.rawXml.getD rawXmlSkeleton
    (findGroup e group).bind fun found =>
      if found.isSome then some (.ok, { s with rawXml := some e })
      else ((e.addElement (create qnRosterGroup false)).bind (addTextAt group 1)).map fun e =>
        (.ok, { s with rawXml := some e, groupCount := s.groupCount + 1 })

def removeGroup (group : String) : Option (XmppReturnStatus × XmppRosterContact) :=
  if group = "" then some (.badArgument, s)
  else match s.rawXml with
    | none => some (.ok, s)
    | some e => (findGroup e group).bind fun found => match found with
        | none => some (.ok, s)
        | some place => (e.removeChildAfter place.1).map fun e =>
            (.ok, { s with rawXml := some e }.resetGroupCache)

end Contact

/-- The groups among the children, as the pointers lead through them. -/
def groupNodes (e : LinkedElement) : List (Nat × (String ⊕ LinkedElement)) :=
  e.children.nodes.filter (isNamed qnRosterGroup ·.2)

def textOf : String ⊕ LinkedElement → String
  | .inl _ => ""
  | .inr child => child.value.bodyText

section Pointers

variable {e : LinkedElement} {i : Nat} {x : Nat × (String ⊕ LinkedElement)}

theorem firstNamed_eq (h : e.Sound) :
    e.firstNamed qnRosterGroup = some ((groupNodes e)[0]?.map Prod.fst) := by
  obtain ⟨-, -, hc, -⟩ := h
  have hfound := search_filter (isNamed qnRosterGroup) none hc.leads hc.length_le
  rw [groupNodes, hc.toLinked.nodes_eq, ← List.head?_eq_getElem?]
  exact hfound

theorem nextNamed_eq (h : e.Sound) (hx : (groupNodes e)[i]? = some x) :
    e.nextNamed qnRosterGroup x.1 = some ((groupNodes e)[i + 1]?.map Prod.fst) := by
  obtain ⟨-, -, hc, -⟩ := h
  rw [groupNodes, hc.toLinked.nodes_eq] at hx ⊢
  obtain ⟨l, r, rfl, hr⟩ := filter_split hx
  obtain ⟨m, -, -, next, hcell, hlead⟩ := leads_append.mp hc.leads
  have hlen : r.length ≤ e.children.cells.length := by
    have hle := hc.toLinked.length_le
    simp only [List.length_append, List.length_cons] at hle
    omega
  have hfound := search_filter (isNamed qnRosterGroup) (some x.1) hlead hlen
  rw [hr, List.head?_drop] at hfound
  rw [nextNamed, hcell]
  exact hfound

theorem countFrom_eq (h : e.Sound) {fuel : Nat} (hfuel : (groupNodes e).length - i ≤ fuel) :
    countFrom e fuel ((groupNodes e)[i]?.map Prod.fst) = some ((groupNodes e).length - i) := by
  induction fuel generalizing i with
  | zero =>
    have hle : (groupNodes e).length ≤ i := by omega
    rw [List.getElem?_eq_none hle]
    simp [countFrom, Nat.sub_eq_zero_of_le hle]
  | succ fuel ih =>
    cases hx : (groupNodes e)[i]? with
    | none =>
      have hle := List.getElem?_eq_none_iff.mp hx
      simp [countFrom, Nat.sub_eq_zero_of_le hle]
    | some x =>
      obtain ⟨hlt, -⟩ := List.getElem?_eq_some_iff.mp hx
      have hrest := @ih (i + 1) (by omega)
      simp only [countFrom, Option.map_some, nextNamed_eq h hx, Option.bind_some, hrest]
      exact congrArg some (by omega)

theorem advance_eq (h : e.Sound) {n : Nat} (hle : i + n ≤ (groupNodes e).length) :
    advance e n ((groupNodes e)[i]?.map Prod.fst) =
      some ((groupNodes e)[i + n]?.map Prod.fst) := by
  induction n generalizing i with
  | zero => rfl
  | succ n ih =>
    have hlt : i < (groupNodes e).length := by omega
    have hx := List.getElem?_eq_getElem hlt
    have hrest := @ih (i + 1) (by omega)
    rw [show i + 1 + n = i + (n + 1) by omega] at hrest
    rw [hx, advance, Option.map_some, Option.bind_some, nextNamed_eq h hx, Option.bind_some, hrest]

theorem bodyAt_eq (h : e.Sound) (hx : (groupNodes e)[i]? = some x) :
    bodyAt e x.1 = some (textOf x.2) := by
  have hmem := List.mem_of_getElem? hx
  obtain ⟨hnode, hnamed⟩ := List.mem_filter.mp hmem
  obtain ⟨next, hcell⟩ := cell?_of_mem_nodes hnode
  obtain ⟨-, -, hc, hs⟩ := h
  rw [hc.toLinked.nodes_eq] at hnode
  obtain ⟨a, text | child⟩ := x
  · cases hnamed
  · rw [bodyAt, hcell]
    exact bodyText_eq (hs a child hnode)

end Pointers

structure Cached (s : XmppRosterContact) (e : LinkedElement) : Prop where
  rawXml : s.rawXml = some e
  sound : e.Sound
  count : s.groupCount = -1 ∨ s.groupCount = (groupNodes e).length
  returned : s.groupIndexReturned = -1 ∨ ∃ (i : Nat) (x : Nat × (String ⊕ LinkedElement)),
    s.groupIndexReturned = i ∧ (groupNodes e)[i]? = some x ∧ s.groupReturned = some x.1

section Getters

variable {s : XmppRosterContact} {e : LinkedElement} {i : Nat}
  {x : Nat × (String ⊕ LinkedElement)}

theorem getGroupCount_eq (h : s.Cached e) (hne : groupNodes e ≠ []) :
    s.getGroupCount =
      some ((groupNodes e).length, { s with groupCount := (groupNodes e).length }) := by
  by_cases hcount : s.groupCount = -1
  · have hlen : (groupNodes e).length - 0 ≤ e.children.cells.length := by
      obtain ⟨-, -, hc, -⟩ := h.sound
      rw [groupNodes, hc.toLinked.nodes_eq]
      exact Nat.le_trans (List.length_filter_le ..) hc.length_le
    have hpos : (groupNodes e).length ≠ 0 := fun hzero => hne (List.length_eq_zero_iff.mp hzero)
    simp [getGroupCount, h.rawXml, hcount, firstNamed_eq h.sound, countFrom_eq h.sound hlen, hne]
  · have heq : s.groupCount = (groupNodes e).length := h.count.resolve_left hcount
    have hstate : { s with groupCount := (groupNodes e).length } = s := by rw [← heq]
    rw [hstate, getGroupCount, h.rawXml]
    simp only [if_neg hcount]
    rw [heq, Int.toNat_natCast]

theorem locate_spec (h : s.Cached e) (hx : (groupNodes e)[i]? = some x) :
    ∃ t, s.locate e i = some t ∧ t.Cached e ∧ t.groupReturned = some x.1 := by
  obtain ⟨hlt, -⟩ := List.getElem?_eq_some_iff.mp hx
  by_cases hnext : 0 ≤ s.groupIndexReturned ∧ (i : Int) = s.groupIndexReturned + 1
  · -- one place after the group returned last
    obtain ⟨j, y, hj, hy, hreturned⟩ := h.returned.resolve_left (by omega)
    have hi : i = j + 1 := by omega
    subst hi
    refine ⟨{ s with groupReturned := some x.1, groupIndexReturned := s.groupIndexReturned + 1 },
      ?_, ⟨h.rawXml, h.sound, h.count, .inr ⟨j + 1, x, ?_, hx, rfl⟩⟩, rfl⟩
    · rw [locate, if_pos hnext, hreturned, Option.bind_some, nextNamed_eq h.sound hy, hx]
      rfl
    · exact hnext.2.symm
  · by_cases hother : s.groupIndexReturned < 0 ∨ s.groupIndexReturned ≠ i
    · refine ⟨{ s with groupReturned := some x.1, groupIndexReturned := i }, ?_,
        ⟨h.rawXml, h.sound, h.count, .inr ⟨i, x, rfl, hx, rfl⟩⟩, rfl⟩
      have hfound := advance_eq h.sound (i := 0) (n := i) (by omega)
      rw [Nat.zero_add, hx] at hfound
      rw [locate, if_neg hnext, if_pos hother, firstNamed_eq h.sound, Option.bind_some, hfound]
      rfl
    · have hi : s.groupIndexReturned = i := by omega
      obtain ⟨j, y, hj, hy, hreturned⟩ := h.returned.resolve_left (by omega)
      obtain rfl : j = i := by omega
      obtain rfl : y = x := Option.some.inj (hy.symm.trans hx)
      exact ⟨s, by rw [locate, if_neg hnext, if_neg hother], h, hreturned⟩

theorem getGroup_spec (h : s.Cached e) (hx : (groupNodes e)[i]? = some x) :
    ∃ t, s.getGroup i = some (textOf x.2, t) ∧ t.Cached e := by
  obtain ⟨hlt, -⟩ := List.getElem?_eq_some_iff.mp hx
  have hcounted : Cached { s with groupCount := (groupNodes e).length } e :=
    ⟨h.rawXml, h.sound, .inr rfl, h.returned⟩
  have hcount := getGroupCount_eq h (List.ne_nil_of_length_pos (by omega))
  generalize { s with groupCount := ((groupNodes e).length : Int) } = u at hcounted hcount
  obtain ⟨t, hlocate, ht, hreturned⟩ := locate_spec hcounted hx
  refine ⟨t, ?_, ht⟩
  rw [getGroup, hcount, Option.bind_some, if_neg (Nat.not_le.mpr hlt), h.rawXml,
    Option.bind_some, hlocate, Option.bind_some, hreturned, Option.bind_some, bodyAt_eq h.sound hx]
  rfl

theorem getGroup_beyond (h : s.Cached e) (hne : groupNodes e ≠ [])
    (hle : (groupNodes e).length ≤ i) :
    s.getGroup i = some ("", { s with groupCount := (groupNodes e).length }) := by
  rw [getGroup, getGroupCount_eq h hne, Option.bind_some, if_pos hle]

end Getters

def xml (s : XmppRosterContact) : Option XmlElement := s.rawXml.map value

def groupsOf (xml : Option XmlElement) : List String :=
  xml.elim [] fun v => (v.allNamed qnRosterGroup).map XmlElement.bodyText

def Answers (s : XmppRosterContact) : Prop :=
  (∃ t, s.getGroupCount = some ((groupsOf s.xml).length, t)) ∧
    ∀ i text, (groupsOf s.xml)[i]? = some text → ∃ t, s.getGroup i = some (text, t)

theorem groupsOf_eq {e : LinkedElement} (h : e.Sound) :
    groupsOf (some e.value) = (groupNodes e).map (textOf ·.2) := by
  obtain ⟨ha, -, hc, -⟩ := h
  rename_i attrs children
  rw [value_eq ha.toLinked hc.toLinked, groupNodes, hc.toLinked.nodes_eq]
  simp only [groupsOf, Option.elim_some, XmlElement.allNamed, XmlElement.elements]
  clear hc
  induction children with
  | nil => rfl
  | cons x children ih =>
    obtain ⟨a, text | child⟩ := x
    · exact ih
    · by_cases hname : child.name = qnRosterGroup
      · simp only [List.map_cons, childValue, Sum.map_inr, List.filterMap_cons_some
          (show Sum.getRight? (Sum.inr child.value) = some child.value from rfl),
          List.filter_cons, name_value, hname, isNamed, decide_true, if_true]
        exact congrArg _ ih
      · simp only [List.map_cons, childValue, Sum.map_inr, List.filterMap_cons_some
          (show Sum.getRight? (Sum.inr child.value) = some child.value from rfl),
          List.filter_cons, name_value, hname, isNamed, decide_false]
        exact ih

theorem Cached.answers {s : XmppRosterContact} {e : LinkedElement} (h : s.Cached e)
    (hne : groupNodes e ≠ []) : s.Answers := by
  have hxml : groupsOf s.xml = (groupNodes e).map (textOf ·.2) := by
    rw [xml, h.rawXml]
    exact groupsOf_eq h.sound
  refine ⟨⟨_, by rw [hxml, List.length_map]; exact getGroupCount_eq h hne⟩, ?_⟩
  intro i text htext
  rw [hxml, List.getElem?_map] at htext
  obtain ⟨x, hx, rfl⟩ := Option.map_eq_some_iff.mp htext
  obtain ⟨t, ht, -⟩ := getGroup_spec h hx
  exact ⟨t, ht⟩

inductive Call where
  | addGroup (group : String)
  | removeGroup (group : String)
  | setRawXml (xml : Option Whole)
  | setXmlFromWire (xml : Option Whole)
  | getGroupCount
  | getGroup (index : Nat)

namespace Call

/-- There is no contact after a failed assertion or a read through a wrong pointer. -/
def apply : Call → XmppRosterContact → Option XmppRosterContact
  | addGroup group, s => (s.addGroup group).map Prod.snd
  | removeGroup group, s => (s.removeGroup group).map Prod.snd
  | setRawXml xml, s => (s.setRawXml (xml.map Subtype.val)).map Prod.snd
  | setXmlFromWire xml, s => s.setXmlFromWire (xml.map Subtype.val)
  | getGroupCount, s => s.getGroupCount.map Prod.snd
  | getGroup index, s => (s.getGroup index).map Prod.snd

def isGroupWith (group : String) : String ⊕ XmlElement → Bool
  | .inl _ => false
  | .inr child => child.name = qnRosterGroup && child.bodyText = group

def onXml : Call → Option XmlElement → Option XmlElement
  | addGroup group, x =>
      if group = "" ∨ group ∈ groupsOf x then x
      else some ((x.getD { name := qnRosterItem }).addElement
        { name := qnRosterGroup, children := [.inl group] })
  | removeGroup group, x =>
      if group = "" then x
      else x.map fun v => { v with children := v.children.eraseP (isGroupWith group) }
  | setRawXml xml, x => (((xml.map Subtype.val).filter isItem).map value).or x
  | setXmlFromWire xml, _ => xml.map (·.1.value)
  | getGroupCount, x => x
  | getGroup _, x => x

/-- A new group is added where the groups have been counted, and some group is left wherever
there is an element. -/
def Ready : Call → XmppRosterContact → Prop
  | addGroup group, s => group = "" ∨ group ∈ groupsOf s.xml ∨ s.groupCount ≠ -1
  | removeGroup group, s => group = "" ∨ group ∉ groupsOf s.xml ∨ 2 ≤ (groupsOf s.xml).length
  | setRawXml xml, _ => ∀ e, (xml.map Subtype.val).filter isItem = some e →
      groupsOf (some e.value) ≠ []
  | setXmlFromWire xml, _ => ∀ e, xml = some e → groupsOf (some e.1.value) ≠ []
  | getGroupCount, _ => True
  | getGroup _, _ => True

/-- The call goes through and makes of the element what it is to make of it, and both getters
answer with the groups afterwards. -/
def Right (call : Call) (s : XmppRosterContact) : Prop :=
  ∃ t, call.apply s = some t ∧ t.xml = call.onXml s.xml ∧ t.Answers

end Call

def Inv (s : XmppRosterContact) : Prop := s = {} ∨ ∃ e, s.Cached e ∧ groupNodes e ≠ []

section Steps

open Call

variable {s : XmppRosterContact} {e : LinkedElement} {group : String}

theorem answers_empty : Answers {} :=
  ⟨⟨_, rfl⟩, fun i text h => by simp [groupsOf, xml] at h⟩

theorem Inv.answers (h : s.Inv) : s.Answers := by
  rcases h with rfl | ⟨e, he, hne⟩
  · exact answers_empty
  · exact he.answers hne

theorem xml_eq (h : s.rawXml = some e) : s.xml = some e.value := by rw [xml, h]; rfl

theorem groupNodes_ne_iff (h : e.Sound) : groupNodes e ≠ [] ↔ groupsOf (some e.value) ≠ [] := by
  rw [groupsOf_eq h, ne_eq, ne_eq, List.map_eq_nil_iff]

theorem fresh_spec (h : e.Sound) :
    (Answers ⟨some e, -1, -1, none⟩ ↔ groupsOf (some e.value) ≠ []) ∧
      (groupsOf (some e.value) ≠ [] → Inv ⟨some e, -1, -1, none⟩) := by
  have hcached : Cached ⟨some e, -1, -1, none⟩ e := ⟨rfl, h, .inl rfl, .inl rfl⟩
  have hinv : groupsOf (some e.value) ≠ [] → Inv ⟨some e, -1, -1, none⟩ := fun hne =>
    .inr ⟨e, hcached, (groupNodes_ne_iff h).mpr hne⟩
  refine ⟨⟨fun hanswers hnil => ?_, fun hne => (hinv hne).answers⟩, hinv⟩
  have hempty : groupNodes e = [] := by
    by_contra hne
    exact (groupNodes_ne_iff h).mp hne hnil
  obtain ⟨t, ht⟩ := hanswers.1
  simp [getGroupCount, firstNamed_eq h, hempty, countFrom] at ht

theorem isGroup_eq {x : Nat × (String ⊕ LinkedElement)} (h : e.Sound) (hx : x ∈ e.children.nodes) :
    isGroup group x.2 = (isNamed qnRosterGroup x.2 && textOf x.2 = group) ∧
      isGroup group x.2 = isGroupWith group (childValue x.2) := by
  obtain ⟨-, -, hc, hs⟩ := h
  rw [hc.toLinked.nodes_eq] at hx
  obtain ⟨a, text | child⟩ := x
  · exact ⟨rfl, rfl⟩
  · have hbody := bodyText_eq (hs a child hx)
    constructor
    · by_cases heq : child.value.bodyText = group <;>
        simp [isGroup, isNamed, textOf, hbody, heq]
    · rw [Bool.eq_iff_iff]
      simp only [isGroup, isGroupWith, childValue, Sum.map_inr, name_value, hbody,
        Bool.and_eq_true, decide_eq_true_iff, Option.some.injEq]

theorem mem_groupsOf_iff (h : e.Sound) :
    group ∈ groupsOf (some e.value) ↔ ∃ x ∈ e.children.nodes, isGroup group x.2 = true := by
  rw [groupsOf_eq h, List.mem_map]
  constructor
  · rintro ⟨x, hx, htext⟩
    obtain ⟨hnode, hnamed⟩ := List.mem_filter.mp hx
    exact ⟨x, hnode, by rw [(isGroup_eq h hnode).1, hnamed]; simp [htext]⟩
  · rintro ⟨x, hnode, hx⟩
    rw [(isGroup_eq h hnode).1, Bool.and_eq_true] at hx
    exact ⟨x, List.mem_filter.mpr ⟨hnode, hx.1⟩, of_decide_eq_true hx.2⟩

theorem findGroup_spec (h : e.Sound) :
    (∃ l x r, e.children.Holds (l ++ x :: r) ∧ isGroup group x.2 = true ∧
      (∀ y ∈ l, isGroup group y.2 = false) ∧ group ∈ groupsOf (some e.value) ∧
        findGroup e group = some (some (ends l, x.1))) ∨
    group ∉ groupsOf (some e.value) ∧ findGroup e group = some none := by
  have hmem := @mem_groupsOf_iff e group h
  obtain ⟨-, -, hc, -⟩ := h
  rw [hc.toLinked.nodes_eq] at hmem
  rcases find_spec hc (isGroup group) with ⟨l, x, r, rfl, hnone, hx, hfound⟩ | ⟨hnone, hfound⟩
  · exact .inl ⟨l, x, r, hc, hx, hnone, hmem.mpr ⟨x, by simp, hx⟩, hfound⟩
  · refine .inr ⟨fun hgroup => ?_, hfound⟩
    obtain ⟨x, hx, hyes⟩ := hmem.mp hgroup
    rw [hnone x hx] at hyes
    cases hyes

theorem addGroup_new (h : e.Sound) (he : s.rawXml.getD rawXmlSkeleton = e) (hgroup : group ≠ "")
    (hnew : findGroup e group = some none) :
    ∃ d y, (Call.addGroup group).apply s =
        some { s with rawXml := some d, groupCount := s.groupCount + 1 } ∧ d.Sound ∧
      groupNodes d = groupNodes e ++ [y] ∧ d.value =
        e.value.addElement { name := qnRosterGroup, children := [.inl group] } := by
  obtain ⟨d, a, filled, hd, hsound, hnodes, hfilled, hvalue⟩ :=
    @addElement_addText e (create qnRosterGroup false) group h (sound_create qnRosterGroup false)
  have hadd : (create qnRosterGroup false).value.addText group =
      { name := qnRosterGroup, children := [.inl group] } := by
    rw [value_create, XmlElement.addText, if_neg hgroup]
    rfl
  rw [hadd] at hvalue hfilled
  refine ⟨d, (a, .inr filled), ?_, hsound, ?_, hvalue⟩
  · simp only [apply, XmppRosterContact.addGroup, if_neg hgroup, he, hnew, Option.bind_some,
      Option.isSome_none, Bool.false_eq_true, if_false, hd, Option.map_some]
  · have hname : isNamed qnRosterGroup (.inr filled) = true := by
      rw [isNamed, ← name_value, hfilled]
      exact decide_eq_true rfl
    rw [groupNodes, groupNodes, hnodes, List.filter_append]
    congr 1
    simp [hname]

def Steps (call : Call) (s : XmppRosterContact) : Prop :=
  ∃ t, call.apply s = some t ∧ t.xml = call.onXml s.xml ∧ (t.Answers ↔ call.Ready s) ∧
    (call.Ready s → t.Inv)

theorem steps_same {call : Call} (h : s.Inv) (happly : call.apply s = some s)
    (hxml : s.xml = call.onXml s.xml) (hready : call.Ready s) : Steps call s :=
  ⟨s, happly, hxml, iff_of_true h.answers hready, fun _ => h⟩

theorem steps_addGroup (h : s.Inv) : Steps (.addGroup group) s := by
  by_cases hgroup : group = ""
  · exact steps_same h (by simp [apply, XmppRosterContact.addGroup, hgroup])
      (by simp [onXml, hgroup]) (.inl hgroup)
  -- a group that is not there yet
  have hadded {e : LinkedElement} (he : e.Sound) (hraw : s.rawXml.getD rawXmlSkeleton = e)
      (hx : s.xml.getD { name := qnRosterItem } = e.value) (hnew : group ∉ groupsOf s.xml)
      (hnone : findGroup e group = some none) (hcache : s.groupCount ≠ -1 → s.Cached e) :
      Steps (.addGroup group) s := by
    obtain ⟨d, y, happly, hd, hnodes, hvalue⟩ := addGroup_new he hraw hgroup hnone
    refine ⟨_, happly, ?_, ?_⟩
    · rw [onXml, if_neg (not_or.mpr ⟨hgroup, hnew⟩), hx, ← hvalue]
      rfl
    by_cases hcount : s.groupCount = -1
    · have hready : ¬ (Call.addGroup group).Ready s := by
        rintro (heq | hmem | hne)
        · exact hgroup heq
        · exact hnew hmem
        · exact hne hcount
      refine ⟨iff_of_false (fun hanswers => ?_) hready, fun hyes => absurd hyes hready⟩
      obtain ⟨t, ht⟩ := hanswers.1
      rw [xml_eq (e := d) rfl, groupsOf_eq hd, hnodes] at ht
      simp [getGroupCount, hcount] at ht
    · have hcached := hcache hcount
      have hlen := hcached.count.resolve_left hcount
      have hcached' : Cached { s with rawXml := some d, groupCount := s.groupCount + 1 } d := by
        refine ⟨rfl, hd, .inr ?_, hcached.returned.imp_right ?_⟩
        · rw [hnodes, List.length_append, hlen]
          rfl
        · rintro ⟨i, x, hi, hx, hreturned⟩
          obtain ⟨hlt, -⟩ := List.getElem?_eq_some_iff.mp hx
          exact ⟨i, x, hi, by rw [hnodes, List.getElem?_append_left hlt, hx], hreturned⟩
      have hinv : Inv { s with rawXml := some d, groupCount := s.groupCount + 1 } :=
        .inr ⟨d, hcached', by rw [hnodes]; simp⟩
      exact ⟨iff_of_true hinv.answers (.inr (.inr hcount)), fun _ => hinv⟩
  rcases id h with rfl | ⟨e, he, hne⟩
  · exact hadded (sound_create qnRosterItem false) rfl value_create.symm
      (by simp [groupsOf, xml]) rfl (fun hcount => absurd rfl hcount)
  · have hraw : s.rawXml.getD rawXmlSkeleton = e := by rw [he.rawXml]; rfl
    rcases @findGroup_spec e group he.sound with ⟨l, x, r, -, -, -, hmem, hfound⟩ | ⟨hnew, hnone⟩
    · rw [← xml_eq he.rawXml] at hmem
      refine steps_same h ?_ (by simp [onXml, hmem]) (.inr (.inl hmem))
      simp only [apply, XmppRosterContact.addGroup, if_neg hgroup, hraw, hfound, Option.bind_some,
        Option.isSome_some, if_true, Option.map_some]
      rw [← he.rawXml]
    · rw [← xml_eq he.rawXml] at hnew
      exact hadded he.sound hraw (by rw [xml_eq he.rawXml]; rfl) hnew hnone fun _ => he

theorem steps_removeGroup (h : s.Inv) : Steps (.removeGroup group) s := by
  by_cases hgroup : group = ""
  · exact steps_same h (by simp [apply, XmppRosterContact.removeGroup, hgroup])
      (by simp [onXml, hgroup]) (.inl hgroup)
  rcases id h with rfl | ⟨e, he, hne⟩
  · exact steps_same h (by simp [apply, XmppRosterContact.removeGroup, hgroup])
      (by simp [onXml, xml]) (.inr (.inl (by simp [groupsOf, xml])))
  have hvalue := xml_eq he.rawXml
  rcases @findGroup_spec e group he.sound with ⟨l, x, r, hc, hx, hl, hmem, hfound⟩ | ⟨hnew, hnone⟩
  · obtain ⟨ha, hnames, hold, hs⟩ := id he.sound
    rename_i attrs children
    obtain rfl : children = l ++ x :: r := hold.toLinked.nodes_eq.symm.trans hc.toLinked.nodes_eq
    have hisGroup := fun y (hy : y ∈ e.children.nodes) => @isGroup_eq e group y he.sound hy
    rw [hc.toLinked.nodes_eq] at hisGroup
    have hnode := (hisGroup x (by simp)).1
    rw [hx, eq_comm, Bool.and_eq_true] at hnode
    have hnodes : groupNodes e =
        l.filter (isNamed qnRosterGroup ·.2) ++ x :: r.filter (isNamed qnRosterGroup ·.2) := by
      rw [groupNodes, hc.toLinked.nodes_eq, List.filter_append, List.filter_cons, if_pos hnode.1]
    obtain ⟨chain, hchain, hholds⟩ := removeAfter_spec hc
    have hsub : Inside Sound (l ++ r) := Inside.mono hs
      ((List.sublist_cons_self x r).append_left l).subset
    obtain ⟨hd, hdvalue⟩ := sound_withChildren he.sound hholds hsub
    have hdnodes : groupNodes (e.withChildren chain) =
        l.filter (isNamed qnRosterGroup ·.2) ++ r.filter (isNamed qnRosterGroup ·.2) := by
      have hnodes : (e.withChildren chain).children.nodes = l ++ r := hholds.toLinked.nodes_eq
      rw [groupNodes, hnodes, List.filter_append]
    have hready : groupsOf (some (e.withChildren chain).value) ≠ [] ↔
        (Call.removeGroup group).Ready s := by
      rw [Ready, hvalue, groupsOf_eq hd, groupsOf_eq he.sound, hdnodes, hnodes]
      rw [groupsOf_eq he.sound, hnodes] at hmem
      simp only [hgroup, hmem, not_true, false_or, ne_eq, ← List.length_eq_zero_iff,
        List.length_map, List.length_append, List.length_cons]
      omega
    obtain ⟨hanswers, hinv⟩ := fresh_spec hd
    refine ⟨⟨some (e.withChildren chain), -1, -1, none⟩, ?_, ?_, hanswers.trans hready,
      fun hyes => hinv (hready.mpr hyes)⟩
    · simp only [apply, XmppRosterContact.removeGroup, if_neg hgroup, he.rawXml, hfound,
        Option.bind_some, removeChildAfter, hchain, Option.map_some]
      rfl
    · have herase : e.value.children.eraseP (isGroupWith group) =
          (l ++ r).map (childValue ·.2) := by
        rw [value_eq ha.toLinked hc.toLinked, List.eraseP_map, List.eraseP_append_right]
        · have hx : isGroupWith group (childValue x.2) = true := by
            rw [← (hisGroup x (by simp)).2, hx]
          have hcomp : (isGroupWith group ∘ fun y : Nat × (String ⊕ LinkedElement) =>
            childValue y.2) x = true := hx
          rw [List.eraseP_cons_of_pos hcomp]
        · intro y hy hyes
          have hyes : isGroupWith group (childValue y.2) = true := hyes
          rw [← (hisGroup y (List.mem_append_left _ hy)).2, hl y hy] at hyes
          cases hyes
      rw [onXml, if_neg hgroup, hvalue, xml_eq (e := e.withChildren chain) rfl, hdvalue]
      simp only [Option.map_some, herase]
  · have hx : ∀ y ∈ e.value.children, isGroupWith group y ≠ true := by
      intro y hy hyes
      obtain ⟨ha, -, hc, -⟩ := id he.sound
      rw [value_eq ha.toLinked hc.toLinked] at hy
      obtain ⟨x, hx, rfl⟩ := List.mem_map.mp hy
      rw [← hc.toLinked.nodes_eq] at hx
      rw [← (isGroup_eq he.sound hx).2] at hyes
      exact hnew ((mem_groupsOf_iff he.sound).mpr ⟨x, hx, hyes⟩)
    refine steps_same h ?_ ?_ (.inr (.inl (hvalue ▸ hnew)))
    · simp only [apply, XmppRosterContact.removeGroup, if_neg hgroup, he.rawXml, hnone,
        Option.bind_some, Option.map_some]
    · rw [hvalue, onXml, if_neg hgroup, Option.map_some, List.eraseP_of_forall_not hx]
      cases e.value
      rfl

theorem steps_fresh {call : Call} (h : e.Sound) (hready : groupsOf (some e.value) ≠ [] ↔ call.Ready s)
    (happly : ∀ d, e.copy = some d → call.apply s = some ⟨some d, -1, -1, none⟩)
    (hxml : call.onXml s.xml = some e.value) : Steps call s := by
  obtain ⟨d, hcopy, hd, hvalue⟩ := copy_becomes h
  obtain ⟨hanswers, hinv⟩ := fresh_spec hd
  rw [hvalue] at hanswers hinv
  refine ⟨_, happly d hcopy, ?_, hanswers.trans hready, fun hyes => hinv (hready.mpr hyes)⟩
  rw [hxml, ← hvalue]
  rfl

theorem setRawXml_item {xml : Option LinkedElement} {d : LinkedElement}
    (hitem : xml.filter isItem = some e) (hcopy : e.copy = some d) :
    s.setRawXml xml = some (.ok, ⟨some d, -1, -1, none⟩) := by
  simp only [XmppRosterContact.setRawXml, hitem, hcopy, Option.map_some]
  rfl

theorem steps_setRawXml (h : s.Inv) (xml : Option Whole) : Steps (.setRawXml xml) s := by
  cases hitem : (xml.map Subtype.val).filter isItem with
  | none =>
    refine steps_same h ?_ ?_ ?_
    · simp only [apply, XmppRosterContact.setRawXml, hitem, Option.map_some]
    · rw [onXml, hitem]
      rfl
    · intro e he
      rw [hitem] at he
      cases he
  | some e =>
    obtain ⟨hmem, -⟩ := Option.filter_eq_some_iff.mp hitem
    obtain ⟨whole, -, rfl⟩ := Option.map_eq_some_iff.mp hmem
    refine steps_fresh whole.2 ⟨fun hne e he => ?_, fun hready => hready _ hitem⟩ (fun d hd => ?_) ?_
    · rw [hitem] at he
      exact Option.some.inj he ▸ hne
    · rw [apply, setRawXml_item hitem hd]
      rfl
    · rw [onXml, hitem]
      rfl

theorem steps_setXmlFromWire (xml : Option Whole) : Steps (.setXmlFromWire xml) s := by
  cases xml with
  | none =>
    have hready : (Call.setXmlFromWire none).Ready s := by
      intro e he
      cases he
    exact ⟨{}, rfl, rfl, iff_of_true answers_empty hready, fun _ => .inl rfl⟩
  | some whole =>
    refine steps_fresh whole.2 ⟨fun hne e he => ?_, fun hready => hready _ rfl⟩ (fun d hd => ?_) rfl
    · exact Option.some.inj he ▸ hne
    · simp only [apply, XmppRosterContact.setXmlFromWire, Option.map_some, hd]
      rfl

theorem steps_getters (h : s.Inv) : Steps .getGroupCount s ∧ ∀ i, Steps (.getGroup i) s := by
  have hsteps {call : Call} {t : XmppRosterContact} (hready : call.Ready s)
      (hsame : call.onXml s.xml = s.xml) (happly : call.apply s = some t) (ht : t.Inv)
      (hxml : t.xml = s.xml) : Steps call s :=
    ⟨t, happly, hxml.trans hsame.symm, iff_of_true ht.answers hready, fun _ => ht⟩
  rcases id h with rfl | ⟨e, he, hne⟩
  · exact ⟨hsteps trivial rfl rfl h rfl, fun i => hsteps trivial rfl rfl h rfl⟩
  · have hcounted : Cached { s with groupCount := (groupNodes e).length } e :=
      ⟨he.rawXml, he.sound, .inr rfl, he.returned⟩
    have hxml {t : XmppRosterContact} (ht : t.Cached e) : t.xml = s.xml :=
      (xml_eq ht.rawXml).trans (xml_eq he.rawXml).symm
    refine ⟨?_, fun i => ?_⟩
    · refine hsteps trivial rfl ?_ (.inr ⟨e, hcounted, hne⟩) (hxml hcounted)
      rw [apply, getGroupCount_eq he hne]
      rfl
    · cases hx : (groupNodes e)[i]? with
      | some x =>
        obtain ⟨t, ht, hcached⟩ := getGroup_spec he hx
        refine hsteps trivial rfl ?_ (.inr ⟨e, hcached, hne⟩) (hxml hcached)
        rw [apply, ht]
        rfl
      | none =>
        have hbeyond := getGroup_beyond he hne (List.getElem?_eq_none_iff.mp hx)
        refine hsteps trivial rfl ?_ (.inr ⟨e, hcounted, hne⟩) (hxml hcounted)
        rw [apply, hbeyond]
        rfl

theorem steps (h : s.Inv) (call : Call) : Steps call s := by
  cases call with
  | addGroup group => exact steps_addGroup h
  | removeGroup group => exact steps_removeGroup h
  | setRawXml xml => exact steps_setRawXml h xml
  | setXmlFromWire xml => exact steps_setXmlFromWire xml
  | getGroupCount => exact (steps_getters h).1
  | getGroup index => exact (steps_getters h).2 index

end Steps

def called (s : XmppRosterContact) (call : Call) : XmppRosterContact := (call.apply s).getD s

theorem groups_answered_iff (calls : List Call) :
    Runs.Along called (fun s call => call.Right s) {} calls ↔
      Runs.Along called (fun s call => call.Ready s) {} calls := by
  refine @Runs.along_iff _ _ _ _ _ Inv (fun s call h => ?_) (fun s call h hright => ?_) _
    (.inl rfl) calls
  · obtain ⟨t, happly, hxml, hanswers, -⟩ := steps h call
    constructor
    · rintro ⟨u, hu, -, hright⟩
      obtain rfl : t = u := Option.some.inj (happly.symm.trans hu)
      exact hanswers.mp hright
    · exact fun hready => ⟨t, happly, hxml, hanswers.mpr hready⟩
  · obtain ⟨t, happly, -, hanswers, hinv⟩ := steps h call
    obtain ⟨u, hu, -, hright⟩ := hright
    obtain rfl : t = u := Option.some.inj (happly.symm.trans hu)
    rw [called, happly]
    exact hinv (hanswers.mp hright)

/-- The first group of a new contact is not counted, and an item without groups fails the
assertion. -/
theorem groups_miscounted :
    (∃ s, (Call.addGroup "a").apply {} = some s ∧ groupsOf s.xml = ["a"] ∧
      s.getGroupCount = some (0, s)) ∧
    ∃ s, (Call.setRawXml (some ⟨create qnRosterItem false, sound_create ..⟩)).apply {} = some s ∧
      groupsOf s.xml = [] ∧ s.getGroupCount = none := by
  have hsound := sound_create qnRosterItem false
  constructor
  · obtain ⟨d, y, happly, hd, hnodes, hvalue⟩ := @addGroup_new {} (create qnRosterItem false) "a"
      hsound rfl (by decide) rfl
    refine ⟨_, happly, ?_, rfl⟩
    rw [xml_eq (e := d) rfl, hvalue, value_create]
    rfl
  · obtain ⟨d, hcopy, hd, hvalue⟩ := copy_becomes hsound
    have hnone : groupNodes d = [] := by
      by_contra hne
      have hgroups := (groupNodes_ne_iff hd).mp hne
      rw [hvalue] at hgroups
      exact (groupNodes_ne_iff hsound).mpr hgroups rfl
    have hitem : ((some (⟨create qnRosterItem false, hsound⟩ : Whole)).map Subtype.val).filter
        isItem = some (create qnRosterItem false) := rfl
    refine ⟨⟨some d, -1, -1, none⟩, ?_, ?_, ?_⟩
    · rw [Call.apply, setRawXml_item hitem hcopy]
      rfl
    · rw [xml_eq (e := d) rfl, groupsOf_eq hd, hnone]
      rfl
    · simp [getGroupCount, firstNamed_eq hd, hnone, countFrom]

end XmppRosterContact

end Libjingle
