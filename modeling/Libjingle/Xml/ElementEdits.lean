import Libjingle.Lib.Runs
import Libjingle.Xml.LinkedElement

/-! The edits of an element. Each changes the lists that the pointers make as it would change
lists, except that a child inserted behind the last one is not made the last one. -/

namespace Libjingle

namespace LinkedElement

open LinkedChain

/-- The call goes through, keeps the pointers in order and makes the element `v`. -/
def Becomes (result : Option LinkedElement) (v : XmlElement) : Prop :=
  ∃ d, result = some d ∧ d.Sound ∧ d.value = v

section Specs

variable {e child : LinkedElement} {name : QName} {text : String}

@[simp] theorem name_value : e.value.name = e.name := by rw [value]

@[simp] theorem value_create : (create name false).value = ⟨name, [], []⟩ :=
  @value_eq (create name false) [] [] holds_empty.toLinked holds_empty.toLinked

theorem Inside.append {P : LinkedElement → Prop} {l r : List (Nat × (String ⊕ LinkedElement))}
    (hl : Inside P l) (hr : Inside P r) : Inside P (l ++ r) := by
  intro a child hmem
  rcases List.mem_append.mp hmem with hmem | hmem
  · exact hl a child hmem
  · exact hr a child hmem

theorem Inside.mono {P : LinkedElement → Prop} {l r : List (Nat × (String ⊕ LinkedElement))}
    (h : Inside P r) (hsub : l ⊆ r) : Inside P l := fun a child hmem => h a child (hsub hmem)

theorem inside_singleton {P : LinkedElement → Prop} {a : Nat} {x : String ⊕ LinkedElement} :
    Inside P [(a, x)] ↔ ∀ child, x = .inr child → P child := by
  constructor
  · rintro h child rfl
    exact h a child List.mem_cons_self
  · intro h b child hmem
    obtain ⟨-, rfl⟩ := Prod.mk.inj (List.mem_singleton.mp hmem)
    exact h child rfl

theorem becomes_children (h : e.Sound) {r : Option (LinkedChain (String ⊕ LinkedElement))}
    {children : List (Nat × (String ⊕ LinkedElement))}
    (hr : ∃ chain, r = some chain ∧ chain.Holds children) (hs : Inside Sound children)
    {values : List (String ⊕ XmlElement)} (hvalues : children.map (childValue ·.2) = values) :
    Becomes (r.map e.withChildren) { e.value with children := values } := by
  obtain ⟨chain, rfl, hc⟩ := hr
  obtain ⟨hsound, hvalue⟩ := sound_withChildren h hc hs
  exact ⟨_, rfl, hsound, hvalues ▸ hvalue⟩

theorem becomes_attrs (h : e.Sound) {r : Option (LinkedChain (QName × String))}
    {attrs : List (Nat × (QName × String))} (hr : ∃ chain, r = some chain ∧ chain.Holds attrs)
    (hnames : (attrs.map (·.2.1)).Nodup) {values : List (QName × String)}
    (hvalues : attrs.map Prod.snd = values) :
    Becomes (r.map e.withAttrs) { e.value with attrs := values } := by
  obtain ⟨chain, rfl, ha⟩ := hr
  obtain ⟨hsound, hvalue⟩ := sound_withAttrs h ha hnames
  exact ⟨_, rfl, hsound, hvalues ▸ hvalue⟩

theorem addElement_becomes (h : e.Sound) (hchild : child.Sound) :
    Becomes (e.addElement child) (e.value.addElement child.value) := by
  have hsound := h
  obtain ⟨ha, -, hc, hs⟩ := h
  obtain ⟨chain, hchain, hholds⟩ := append_spec hc (.inr child)
  refine becomes_children hsound ⟨chain, hchain, hholds⟩
    (Inside.append hs (inside_singleton.mpr ?_)) ?_
  · rintro _ ⟨⟩
    exact hchild
  · rw [value_eq ha.toLinked hc.toLinked, List.map_append]
    rfl

theorem appendText_becomes (h : e.Sound) (htext : text ≠ "") :
    Becomes (e.appendText text) (e.value.addText text) := by
  have hsound := h
  obtain ⟨ha, -, hc, hs⟩ := h
  rename_i attrs children
  have hvalue := value_eq ha.toLinked hc.toLinked
  have hnew (h : ∀ old, (e.value.children.getLast? ≠ some (.inl old))) :
      Becomes ((e.children.append (.inl text)).map e.withChildren) (e.value.addText text) := by
    obtain ⟨chain, hchain, hholds⟩ := append_spec hc (.inl text)
    have hadd : e.value.addText text =
        { e.value with children := e.value.children ++ [.inl text] } := by
      unfold XmlElement.addText
      rw [if_neg htext]
      split
      · exact absurd ‹_› (h _)
      · rfl
    rw [hadd]
    refine becomes_children hsound ⟨chain, hchain, hholds⟩
      (Inside.append hs (inside_singleton.mpr (by rintro _ ⟨⟩))) ?_
    rw [hvalue, List.map_append]
    rfl
  rcases List.eq_nil_or_concat children with rfl | ⟨l, ⟨a, x⟩, rfl⟩
  · have hlast : e.lastChild = some none := by rw [lastChild, hc.last]; rfl
    rw [appendText, hlast]
    exact hnew fun old => by rw [hvalue]; simp
  · rw [List.concat_eq_append] at hc hs hvalue
    obtain ⟨next, hcell⟩ := hc.leads.cell (x := (a, x)) (by simp)
    have hlast : e.lastChild = some (some (a, x)) := by
      rw [lastChild, hc.last, ends_append_singleton]
      simp [hcell]
    rw [appendText, hlast]
    cases x with
    | inr element => exact hnew fun old => by rw [hvalue]; simp [childValue]
    | inl old =>
      have hadd : e.value.addText text = { e.value with
          children := e.value.children.dropLast ++ [.inl (old ++ text)] } := by
        unfold XmlElement.addText
        rw [if_neg htext]
        simp [hvalue, childValue]
      rw [hadd]
      obtain ⟨chain, hchain, hholds⟩ := setValue_spec (w := .inl (old ++ text)) hc
      refine becomes_children hsound ⟨chain, hchain, hholds⟩
        (Inside.append (Inside.mono hs (List.subset_append_left ..))
          (inside_singleton.mpr (by rintro _ ⟨⟩))) ?_
      simp [hvalue, childValue]

theorem addText_becomes (h : e.Sound) : Becomes (e.addText text) (e.value.addText text) := by
  by_cases htext : text = ""
  · rw [addText, if_pos htext, XmlElement.addText, if_pos htext]
    exact ⟨e, rfl, h, rfl⟩
  · rw [addText, if_neg htext]
    exact appendText_becomes h htext

theorem addParsedText_eq : e.addParsedText text = e.addText text := by
  simp [addParsedText, addText, String.length_eq_zero_iff]

theorem clearChildren_becomes (h : e.Sound) :
    Becomes e.clearChildren { e.value with children := [] } := by
  have hsound := h
  obtain ⟨-, -, hc, -⟩ := h
  exact becomes_children hsound (clear_spec hc) (fun _ _ hmem => absurd hmem List.not_mem_nil) rfl

theorem Becomes.bind {r : Option LinkedElement} {v w : XmlElement}
    {f : LinkedElement → Option LinkedElement} (h : Becomes r v)
    (hf : ∀ d : LinkedElement, d.Sound → d.value = v → Becomes (f d) w) : Becomes (r.bind f) w := by
  obtain ⟨d, rfl, hsound, hvalue⟩ := h
  exact hf d hsound hvalue

theorem setBodyText_becomes (h : e.Sound) :
    Becomes (e.setBodyText text) (e.value.setBodyText text) := by
  by_cases htext : text = ""
  · rw [setBodyText, if_pos htext, XmlElement.setBodyText, if_pos htext]
    exact clearChildren_becomes h
  · have hset : e.value.setBodyText text = { e.value with children := [.inl text] } := by
      rw [XmlElement.setBodyText, if_neg htext]
    have hadd (d : LinkedElement) (hd : d.Sound)
        (hvalue : d.value = { e.value with children := [] }) :
        Becomes (d.addText text) { e.value with children := [.inl text] } := by
      have hbecomes := @addText_becomes d text hd
      simpa [hvalue, XmlElement.addText, htext] using hbecomes
    rw [hset, setBodyText, if_neg htext]
    have hsound := h
    obtain ⟨ha, -, hc, hs⟩ := h
    rename_i attrs children
    have hvalue := value_eq ha.toLinked hc.toLinked
    rw [hc.leads.start]
    cases children with
    | nil =>
      refine hadd e hsound ?_
      rw [hvalue]
      rfl
    | cons x children =>
      obtain ⟨next, hcell⟩ := hc.leads.cell List.mem_cons_self
      simp only [List.head?_cons, Option.map_some, hcell, Option.bind_some]
      by_cases hbody : x.2.isLeft ∧ e.children.last = some x.1
      · rw [if_pos hbody]
        obtain ⟨old, hx⟩ := Sum.isLeft_iff.mp hbody.1
        have hnil := eq_nil_of_last hc hbody.2
        subst hnil
        obtain ⟨a, y⟩ := x
        obtain ⟨chain, hchain, hholds⟩ := setValue_spec (l := []) (w := .inl text) hc
        exact becomes_children hsound ⟨chain, hchain, hholds⟩
          (inside_singleton.mpr (by rintro _ ⟨⟩)) rfl
      · rw [if_neg hbody]
        exact (clearChildren_becomes hsound).bind hadd

theorem addElement_addText (h : e.Sound) (hchild : child.Sound) :
    ∃ d a filled, (e.addElement child).bind (addTextAt text 1) = some d ∧ d.Sound ∧
      d.children.nodes = e.children.nodes ++ [(a, .inr filled)] ∧
      filled.value = child.value.addText text ∧
      d.value = e.value.addElement (child.value.addText text) := by
  have hsound := h
  obtain ⟨ha, -, hc, hs⟩ := h
  rename_i attrs children
  obtain ⟨chain, hchain, hholds⟩ := append_spec hc (.inr child)
  obtain ⟨next, hcell⟩ := hholds.leads.cell (x := (e.children.cells.length, .inr child)) (by simp)
  obtain ⟨filled, hfilled, hfsound, hfvalue⟩ := @addText_becomes child text hchild
  obtain ⟨chain', hchain', hholds'⟩ := setValue_spec (w := .inr filled) hholds
  have hinside : Inside Sound (children ++ [(e.children.cells.length, .inr filled)]) := by
    refine Inside.append hs (inside_singleton.mpr ?_)
    rintro _ ⟨⟩
    exact hfsound
  obtain ⟨hd, hvalue⟩ := sound_withChildren hsound hholds' hinside
  refine ⟨e.withChildren chain', e.children.cells.length, filled, ?_, hd, ?_, hfvalue, ?_⟩
  · have hlast : (e.withChildren chain).lastChild =
        some (some (e.children.cells.length, .inr child)) := by
      have hends : chain.last = some e.children.cells.length := hholds.last.trans (by simp)
      simp [lastChild, withChildren, hends, hcell]
    rw [addElement, hchain]
    simp only [Option.map_some, Option.bind_some, addTextAt, hlast, hfilled]
    simp only [withChildren, hchain', Option.map_some]
  · rw [hc.toLinked.nodes_eq]
    exact hholds'.toLinked.nodes_eq
  · rw [hvalue, value_eq ha.toLinked hc.toLinked, ← hfvalue, List.map_append]
    rfl

theorem setAttrs_eq {name : QName} {value : String} {l : List (QName × String)}
    (h : ∀ a ∈ l, a.1 ≠ name) (r : List (QName × String)) :
    XmlElement.setAttrs name value (l ++ r) = l ++ XmlElement.setAttrs name value r := by
  induction l with
  | nil => rfl
  | cons a l ih =>
    obtain ⟨ha, hl⟩ := List.forall_mem_cons.mp h
    rw [List.cons_append, XmlElement.setAttrs, if_neg ha, ih hl]
    rfl

theorem setAttr_becomes {value : String} (h : e.Sound) :
    Becomes (e.setAttr name value) (e.value.setAttr name value) := by
  have hsound := h
  obtain ⟨ha, hnames, hc, -⟩ := h
  rename_i attrs children
  have hvalue := value_eq ha.toLinked hc.toLinked
  rcases find_spec ha fun attr => attr.1 = name with
    ⟨l, ⟨a, x⟩, r, rfl, hnone, hx, hfound⟩ | ⟨hnone, hfound⟩
  · obtain ⟨chain, hchain, hholds⟩ := setValue_spec (w := (name, value)) ha
    have hx : x.1 = name := of_decide_eq_true hx
    rw [setAttr, findAttr, hfound]
    refine becomes_attrs hsound ⟨chain, hchain, hholds⟩ ?_ ?_
    · simpa [hx] using hnames
    · have hl : ∀ y ∈ l.map Prod.snd, y.1 ≠ name := by
        intro y hy
        obtain ⟨z, hz, rfl⟩ := List.mem_map.mp hy
        exact of_decide_eq_false (hnone z hz)
      rw [hvalue]
      simp only [List.map_append, List.map_cons]
      rw [setAttrs_eq hl, XmlElement.setAttrs, if_pos hx]
  · obtain ⟨chain, hchain, hholds⟩ := append_spec ha (name, value)
    have hl : ∀ y ∈ attrs.map Prod.snd, y.1 ≠ name := by
      intro y hy
      obtain ⟨z, hz, rfl⟩ := List.mem_map.mp hy
      exact of_decide_eq_false (hnone z hz)
    rw [setAttr, findAttr, hfound]
    refine becomes_attrs hsound ⟨chain, hchain, hholds⟩ ?_ ?_
    · rw [List.map_append, List.nodup_append]
      refine ⟨hnames, by simp, fun a hmem b hb => ?_⟩
      obtain ⟨y, hy, rfl⟩ := List.mem_map.mp hmem
      obtain rfl : b = name := by simpa using hb
      exact hl y.2 (List.mem_map_of_mem hy)
    · rw [hvalue, ← List.append_nil (attrs.map Prod.snd), setAttrs_eq hl]
      simp [XmlElement.setAttrs]

theorem addAttr_becomes {value : String} (h : e.Sound) (hname : e.hasAttr name = some false) :
    Becomes (e.addAttr name value) (e.value.addAttr name value) := by
  have hsound := h
  obtain ⟨ha, hnames, hc, -⟩ := h
  rename_i attrs children
  obtain ⟨chain, hchain, hholds⟩ := append_spec ha (name, value)
  rw [addAttr, hname]
  refine becomes_attrs hsound ⟨chain, hchain, hholds⟩ ?_ ?_
  · rw [List.map_append, List.nodup_append]
    refine ⟨hnames, by simp, fun a hmem b hb => ?_⟩
    obtain ⟨y, hy, rfl⟩ := List.mem_map.mp hmem
    obtain rfl : b = name := by simpa using hb
    rcases find_spec ha fun attr => attr.1 = b with
      ⟨l, x, r, -, -, -, hfound⟩ | ⟨hnone, -⟩
    · rw [hasAttr, findAttr, hfound] at hname
      cases hname
    · exact of_decide_eq_false (hnone y hy)
  · rw [value_eq ha.toLinked hc.toLinked, List.map_append]
    rfl

theorem clearAttr_becomes (h : e.Sound) : Becomes (e.clearAttr name)
    { e.value with attrs := e.value.attrs.eraseP (·.1 = name) } := by
  have hsound := h
  obtain ⟨ha, hnames, hc, -⟩ := h
  refine becomes_attrs hsound (removeFirst_spec ha _) ?_ ?_
  · exact hnames.sublist (List.eraseP_sublist.map _)
  · rw [value_eq ha.toLinked hc.toLinked, List.eraseP_map]
    rfl

theorem clearAttributes_becomes (h : e.Sound) :
    Becomes e.clearAttributes { e.value with attrs := [] } := by
  have hsound := h
  obtain ⟨ha, -, -, -⟩ := h
  exact becomes_attrs hsound (clear_spec ha) List.nodup_nil rfl

def hasName (name : QName) : String ⊕ XmlElement → Bool
  | .inl _ => false
  | .inr child => child.name = name

theorem clearNamedChildren_becomes (h : e.Sound) : Becomes (e.clearNamedChildren name)
    { e.value with children := e.value.children.filter fun child => !hasName name child } := by
  have hsound := h
  obtain ⟨ha, -, hc, hs⟩ := h
  refine becomes_children hsound (removeAll_spec hc _)
    (Inside.mono hs (List.filter_subset_self ..)) ?_
  rw [value_eq ha.toLinked hc.toLinked, List.filter_map]
  congr 1
  refine List.filter_congr fun x _ => ?_
  obtain ⟨a, text | child⟩ := x
  · rfl
  · simp [childValue, isNamed, hasName]

end Specs

section Positions

variable {e : LinkedElement} {prev : Option Nat}

theorem insertIdx_at {α : Type*} (l r : List α) (x : α) :
    (l ++ r).insertIdx l.length x = l ++ x :: r := by
  induction l with
  | nil => rfl
  | cons y l ih => simp [ih]

theorem modify_at {α : Type*} (l r : List α) (x : α) (f : α → α) :
    (l ++ x :: r).modify l.length f = l ++ f x :: r := by
  induction l with
  | nil => rfl
  | cons y l ih => simp [ih]

/-- A child stands after the predecessor, or first where there is none. -/
def HasChildAfter (e : LinkedElement) (predecessor : Option Nat) : Prop :=
  (e.children.after predecessor).join ≠ none

instance : Decidable (e.HasChildAfter prev) := inferInstanceAs (Decidable (_ ≠ _))

theorem insertChildAfter_becomes {next : String ⊕ LinkedElement} (h : e.Sound)
    (hnext : ∀ child, next = .inr child → child.Sound) (hafter : e.HasChildAfter prev) :
    Becomes (e.insertChildAfter prev next)
      { e.value with
        children := e.value.children.insertIdx (e.children.place prev) (childValue next) } := by
  have hsound := h
  obtain ⟨ha, -, hc, hs⟩ := h
  obtain ⟨p, hp⟩ : ∃ p, e.children.after prev = some p := by
    by_contra hnone
    exact hafter (by rw [Option.eq_none_iff_forall_ne_some.mpr (not_exists.mp hnone)]; rfl)
  obtain ⟨l, r, rfl, rfl, rfl⟩ := exists_of_after hc.toLinked hp
  have hr : r ≠ [] := by
    rintro rfl
    exact hafter (by rw [hp]; rfl)
  obtain ⟨chain, hchain, hlinked, hlast⟩ := insertAfter_spec hc next
  refine becomes_children hsound ⟨chain, hchain, hlinked, ?_⟩
    (Inside.append (Inside.mono hs (List.subset_append_left ..))
      (l := l) (r := _ :: r) ?_) ?_
  · -- the last child is among those that were there
    obtain ⟨r, x, rfl⟩ := List.eq_nil_or_concat r |>.resolve_left hr
    rw [hlast, hc.last, List.concat_eq_append, ← List.cons_append, ← List.append_assoc,
      ← List.append_assoc, ends_append_singleton, ends_append_singleton]
  · intro a child hmem
    rcases List.mem_cons.mp hmem with heq | hmem
    · exact hnext child (Prod.mk.inj heq).2.symm
    · exact hs a child (List.mem_append_right _ hmem)
  · have hlen : l.length = (l.map (childValue ·.2)).length := List.length_map _ |>.symm
    rw [hc.toLinked.place_eq, value_eq ha.toLinked hc.toLinked, List.map_append, List.map_cons,
      List.map_append, hlen, insertIdx_at]

theorem not_sound_of_insert_end {next : String ⊕ LinkedElement} {d : LinkedElement}
    (h : e.Sound) (hd : e.insertChildAfter prev next = some d) (hafter : ¬ e.HasChildAfter prev) :
    ¬ d.Sound := by
  obtain ⟨-, -, hc, -⟩ := h
  obtain ⟨chain, hchain, rfl⟩ := Option.map_eq_some_iff.mp hd
  obtain ⟨p, hp, -⟩ := Option.bind_eq_some_iff.mp hchain
  obtain ⟨l, r, rfl, rfl, rfl⟩ := exists_of_after hc.toLinked hp
  have hr : r = [] := by
    rw [HasChildAfter, hp, not_not] at hafter
    cases r with
    | nil => rfl
    | cons x r => cases hafter
  subst hr
  obtain ⟨chain', hchain', hlinked, hlast⟩ := insertAfter_spec hc next
  obtain rfl : chain' = chain := Option.some.inj (hchain'.symm.trans hchain)
  rintro ⟨-, -, hd, -⟩
  have hfresh := hc.toLinked.not_mem
  have hends := hd.last
  rw [← hd.toLinked.nodes_eq] at hends
  have hnodes : (e.withChildren chain').children.nodes = _ := hlinked.nodes_eq
  rw [hnodes, ends_append_singleton] at hends
  have hold : e.children.last = some e.children.cells.length := hlast.symm.trans hends
  rw [hc.last, List.append_nil] at hold
  obtain ⟨x, hx, hxe⟩ := Option.map_eq_some_iff.mp hold
  rw [List.append_nil] at hfresh
  exact hfresh (hxe ▸ List.mem_map_of_mem (List.mem_of_getLast? hx))

theorem removeChildAfter_becomes (h : e.Sound) (hafter : e.HasChildAfter prev) :
    Becomes (e.removeChildAfter prev)
      { e.value with children := e.value.children.eraseIdx (e.children.place prev) } := by
  have hsound := h
  obtain ⟨ha, -, hc, hs⟩ := h
  obtain ⟨p, hp⟩ : ∃ p, e.children.after prev = some p := by
    by_contra hnone
    exact hafter (by rw [Option.eq_none_iff_forall_ne_some.mpr (not_exists.mp hnone)]; rfl)
  obtain ⟨l, r, rfl, rfl, rfl⟩ := exists_of_after hc.toLinked hp
  cases r with
  | nil => exact absurd (by rw [hp]; rfl) hafter
  | cons x r =>
    refine becomes_children hsound (removeAfter_spec hc) (Inside.mono hs ?_) ?_
    · exact ((List.sublist_cons_self x r).append_left l).subset
    · rw [hc.toLinked.place_eq, value_eq ha.toLinked hc.toLinked, List.map_append, List.map_append,
        List.map_cons, List.eraseIdx_append_of_length_le (by simp)]
      simp

theorem removeChildAfter_end (hafter : ¬ e.HasChildAfter prev) :
    e.removeChildAfter prev = none := by
  rw [HasChildAfter, not_not] at hafter
  rw [removeChildAfter, removeAfter]
  cases hread : e.children.after prev with
  | none => rfl
  | some p =>
    rw [hread] at hafter
    cases p with
    | none => rfl
    | some a => cases hafter

end Positions

section Copies

variable {e : LinkedElement}

def copyChild : String ⊕ LinkedElement → Option (String ⊕ LinkedElement)
  | .inl text => some (.inl text)
  | .inr element => element.copy.map .inr

theorem mapM_attach {α β : Type} (l : List α) (f : α → Option β) :
    (l.attach.mapM fun x => f x.1) = l.mapM f := by
  conv_rhs => rw [← List.attach_map_subtype_val l, List.mapM_map]
  rfl

theorem copy_eq : e.copy = (build (e.attrs.nodes.map Prod.snd)).bind fun attrs =>
    (e.children.nodes.mapM (copyChild ·.2)).bind fun children =>
      (build children).map fun children => { e with attrs, children } := by
  rw [copy, ← mapM_attach e.children.nodes (copyChild ·.2)]
  congr 1
  funext attrs
  congr 2
  funext child
  split <;> rename_i heq <;> rw [heq] <;> rfl

theorem copyChild_spec {x : String ⊕ LinkedElement}
    (h : ∀ child, x = .inr child → Becomes child.copy child.value) :
    ∃ y, copyChild x = some y ∧ childValue y = childValue x ∧
      ∀ child, y = .inr child → child.Sound := by
  cases x with
  | inl text => exact ⟨.inl text, rfl, rfl, by rintro _ ⟨⟩⟩
  | inr element =>
    obtain ⟨d, hd, hsound, hvalue⟩ := h element rfl
    refine ⟨.inr d, by rw [copyChild, hd]; rfl, congrArg Sum.inr hvalue, ?_⟩
    rintro _ ⟨⟩
    exact hsound

theorem copyChildren_spec {l : List (Nat × (String ⊕ LinkedElement))}
    (h : Inside (fun child => Becomes child.copy child.value) l) :
    ∃ copies, l.mapM (copyChild ·.2) = some copies ∧
      copies.map childValue = l.map (childValue ·.2) ∧
      ∀ child, Sum.inr child ∈ copies → child.Sound := by
  induction l with
  | nil => exact ⟨[], rfl, rfl, fun _ hmem => absurd hmem List.not_mem_nil⟩
  | cons x l ih =>
    obtain ⟨copies, hcopies, hvalues, hsound⟩ := ih (h.mono (List.subset_cons_self ..))
    obtain ⟨y, hy, hvalue, hchild⟩ := copyChild_spec (x := x.2) fun child heq =>
      h x.1 child (heq ▸ List.mem_cons_self)
    refine ⟨y :: copies, ?_, by rw [List.map_cons, List.map_cons, hvalue, hvalues], ?_⟩
    · rw [List.mapM_cons, hy, hcopies]
      rfl
    · intro child hmem
      rcases List.mem_cons.mp hmem with heq | hmem
      · exact hchild child heq.symm
      · exact hsound child hmem

theorem copy_becomes (h : e.Sound) : Becomes e.copy e.value := by
  induction h with
  | @intro e attrs children ha hnames hc hs ih =>
    obtain ⟨chain, attrs', hchain, hattrs, hsame⟩ := build_spec (e.attrs.nodes.map Prod.snd)
    rw [ha.toLinked.nodes_eq] at hsame
    obtain ⟨copies, hcopies, hvalues, hsound⟩ := copyChildren_spec ih
    obtain ⟨chain', children', hchain', hchildren, hsame'⟩ := build_spec copies
    refine ⟨{ e with attrs := chain, children := chain' }, ?_, .intro hattrs ?_ hchildren ?_, ?_⟩
    · rw [copy_eq, hchain, hc.toLinked.nodes_eq]
      simp only [Option.bind_some]
      rw [hcopies]
      simp only [Option.bind_some]
      rw [hchain']
      rfl
    · have heq : attrs'.map (·.2.1) = attrs.map (·.2.1) := by
        simpa [Function.comp_def] using congrArg (List.map Prod.fst) hsame
      rw [heq]
      exact hnames
    · intro a child hmem
      exact hsound child (hsame' ▸ List.mem_map_of_mem hmem)
    · rw [value_eq ha.toLinked hc.toLinked, ← hvalues, ← hsame, ← hsame', List.map_map]
      exact value_eq hattrs.toLinked hchildren.toLinked

end Copies

/-- An element whose pointers are in order, as one is handed over to another. -/
abbrev Whole := { e : LinkedElement // e.Sound }

inductive Edit where
  | addElement (child : Whole)
  | addText (text : String)
  | addParsedText (text : String)
  | setBodyText (text : String)
  | insertChildAfter (predecessor : Option Nat) (next : String ⊕ Whole)
  | removeChildAfter (predecessor : Option Nat)
  | clearNamedChildren (name : QName)
  | clearChildren
  | setAttr (name : QName) (value : String)
  | addAttr (name : QName) (value : String)
  | clearAttr (name : QName)
  | clearAttributes
  | copy
  /-- An edit of the child at an address. -/
  | inside (child : Nat) (edit : Edit)

namespace Edit

/-- A call that reads through no pointer or fails an assertion has no result. -/
def apply : Edit → LinkedElement → Option LinkedElement
  | addElement child, e => e.addElement child
  | addText text, e => e.addText text
  | addParsedText text, e => e.addParsedText text
  | setBodyText text, e => e.setBodyText text
  | insertChildAfter predecessor next, e =>
      e.insertChildAfter predecessor (next.map id Subtype.val)
  | removeChildAfter predecessor, e => e.removeChildAfter predecessor
  | clearNamedChildren name, e => e.clearNamedChildren name
  | clearChildren, e => e.clearChildren
  | setAttr name value, e => e.setAttr name value
  | addAttr name value, e => e.addAttr name value
  | clearAttr name, e => e.clearAttr name
  | clearAttributes, e => e.clearAttributes
  | copy, e => e.copy
  | inside a edit, e => (e.children.cell? a).bind fun cell => match cell.value with
      | .inl _ => none
      | .inr child => (apply edit child).bind fun child =>
          (e.children.setValue a (.inr child)).map e.withChildren

/-- What the edit does to the lists of the element, where a pointer to a child says which
place is meant. -/
def onLists : Edit → LinkedElement → XmlElement → XmlElement
  | addElement child, _, v => v.addElement child.1.value
  | addText text, _, v => v.addText text
  | addParsedText text, _, v => v.addText text
  | setBodyText text, _, v => v.setBodyText text
  | insertChildAfter predecessor next, e, v =>
      { v with
        children := v.children.insertIdx (e.children.place predecessor)
          (childValue (next.map id Subtype.val)) }
  | removeChildAfter predecessor, e, v =>
      { v with children := v.children.eraseIdx (e.children.place predecessor) }
  | clearNamedChildren name, _, v =>
      { v with children := v.children.filter fun child => !hasName name child }
  | clearChildren, _, v => { v with children := [] }
  | setAttr name value, _, v => v.setAttr name value
  | addAttr name value, _, v => v.addAttr name value
  | clearAttr name, _, v => { v with attrs := v.attrs.eraseP (·.1 = name) }
  | clearAttributes, _, v => { v with attrs := [] }
  | copy, _, v => v
  | inside a edit, e, v => match e.children.cell? a with
      | some ⟨.inr child, _⟩ =>
          { v with
            children := v.children.modify ((e.children.nodes.map Prod.fst).idxOf a)
              (Sum.map id (onLists edit child)) }
      | _ => v

/-- The calls that are made as they may be, and no child is inserted behind the last one. -/
def Ahead : Edit → LinkedElement → Prop
  | insertChildAfter predecessor _, e => e.HasChildAfter predecessor
  | removeChildAfter predecessor, e => e.HasChildAfter predecessor
  | addAttr name _, e => e.hasAttr name = some false
  | inside a edit, e => ∃ child next, e.children.cell? a = some ⟨.inr child, next⟩ ∧ edit.Ahead child
  | _, _ => True

def Kept (edit : Edit) (e : LinkedElement) : Prop :=
  Becomes (edit.apply e) (edit.onLists e e.value)

section Kept

variable {e child : LinkedElement} {a : Nat} {next : Option Nat}

theorem setChild_spec (h : e.Sound) (hcell : e.children.cell? a = some ⟨.inr child, next⟩) :
    child.Sound ∧ ∃ l r, (e.children.nodes.map Prod.fst).idxOf a = l.length ∧
      e.value.children = l ++ .inr child.value :: r ∧ ∀ child' : LinkedElement,
      ∃ chain, e.children.setValue a (.inr child') = some chain ∧
        ((e.withChildren chain).Sound ↔ child'.Sound) ∧ (e.withChildren chain).value =
          { e.value with children := l ++ .inr child'.value :: r } := by
  obtain ⟨ha, hnames, hc, hs⟩ := h
  obtain ⟨l, r, x, rfl⟩ := exists_split (hc.live a (by rw [hcell]; rfl))
  obtain ⟨next', hcell'⟩ := hc.leads.cell (x := (a, x)) (by simp)
  obtain rfl : x = .inr child := by
    rw [hcell] at hcell'
    exact (LinkedCell.mk.inj (Option.some.inj hcell')).1.symm
  refine ⟨hs a child (by simp), l.map (childValue ·.2), r.map (childValue ·.2), ?_, ?_, ?_⟩
  · rw [List.length_map]
    exact hc.toLinked.idxOf_eq
  · rw [value_eq ha.toLinked hc.toLinked, List.map_append]
    rfl
  · intro child'
    obtain ⟨chain, hchain, hholds⟩ := setValue_spec (w := .inr child') hc
    refine ⟨chain, hchain, ⟨?_, fun hchild => ?_⟩, ?_⟩
    · rintro ⟨-, -, hd, hsound⟩
      have hmem : (a, Sum.inr child') ∈ chain.nodes := by
        rw [hholds.toLinked.nodes_eq]
        simp
      have hnodes : chain.nodes = _ := hd.toLinked.nodes_eq
      exact hsound a child' (hnodes ▸ hmem)
    · refine .intro ha hnames hholds fun b y hmem => ?_
      rcases List.mem_append.mp hmem with hmem | hmem
      · exact hs b y (List.mem_append_left _ hmem)
      · rcases List.mem_cons.mp hmem with heq | hmem
        · obtain ⟨-, hy⟩ := Prod.mk.inj heq
          exact Sum.inr.inj hy ▸ hchild
        · exact hs b y (List.mem_append_right _ (List.mem_cons_of_mem _ hmem))
    · rw [value_eq (e := e.withChildren chain) ha.toLinked hholds.toLinked,
        value_eq ha.toLinked hc.toLinked, List.map_append]
      rfl

theorem kept_inside_iff (h : e.Sound) (hcell : e.children.cell? a = some ⟨.inr child, next⟩)
    (edit : Edit) : (Edit.inside a edit).Kept e ↔ edit.Kept child := by
  obtain ⟨-, l, r, hidx, hold, hset⟩ := setChild_spec h hcell
  have happly : (Edit.inside a edit).apply e = (edit.apply child).bind fun child' =>
      (e.children.setValue a (.inr child')).map e.withChildren := by
    simp [apply, hcell]
  have hlists : (Edit.inside a edit).onLists e e.value =
      { e.value with children := l ++ .inr (edit.onLists child child.value) :: r } := by
    rw [onLists, hcell]
    simp only [hidx, hold, modify_at]
    rfl
  rw [Kept, happly, hlists]
  constructor
  · rintro ⟨d, hd, hsound, hvalue⟩
    obtain ⟨child', hchild', hd⟩ := Option.bind_eq_some_iff.mp hd
    obtain ⟨chain, hchain, hiff, hnew⟩ := hset child'
    rw [hchain] at hd
    obtain rfl : e.withChildren chain = d := Option.some.inj hd
    rw [hnew] at hvalue
    have hlist := congrArg XmlElement.children hvalue
    simp only [List.append_cancel_left_eq, List.cons.injEq, Sum.inr.injEq, and_true] at hlist
    exact ⟨child', hchild', hiff.mp hsound, hlist⟩
  · rintro ⟨child', hchild', hsound, hvalue⟩
    obtain ⟨chain, hchain, hiff, hnew⟩ := hset child'
    rw [hchild', Option.bind_some, hchain, ← hvalue]
    exact ⟨_, rfl, hiff.mpr hsound, hnew⟩

theorem sound_of_whole {next : String ⊕ Whole} {child : LinkedElement}
    (h : next.map id Subtype.val = .inr child) : child.Sound := by
  cases next with
  | inl text => cases h
  | inr whole =>
    obtain rfl := Sum.inr.inj h
    exact whole.2

theorem kept_iff (edit : Edit) (h : e.Sound) : edit.Kept e ↔ edit.Ahead e := by
  induction edit generalizing e with
  | addElement child => exact iff_of_true (addElement_becomes h child.2) trivial
  | addText text => exact iff_of_true (addText_becomes h) trivial
  | addParsedText text =>
    refine iff_of_true ?_ trivial
    rw [Kept, apply, addParsedText_eq]
    exact addText_becomes h
  | setBodyText text => exact iff_of_true (setBodyText_becomes h) trivial
  | insertChildAfter predecessor next =>
    constructor
    · rintro ⟨d, hd, hsound, -⟩
      by_contra hafter
      exact not_sound_of_insert_end h hd hafter hsound
    · exact insertChildAfter_becomes h fun child hchild => sound_of_whole hchild
  | removeChildAfter predecessor =>
    constructor
    · rintro ⟨d, hd, -⟩
      by_contra hafter
      rw [apply, removeChildAfter_end hafter] at hd
      cases hd
    · exact removeChildAfter_becomes h
  | clearNamedChildren name => exact iff_of_true (clearNamedChildren_becomes h) trivial
  | clearChildren => exact iff_of_true (clearChildren_becomes h) trivial
  | setAttr name value => exact iff_of_true (setAttr_becomes h) trivial
  | addAttr name value =>
    constructor
    · rintro ⟨d, hd, -⟩
      obtain ⟨has, hhas, hd⟩ := Option.bind_eq_some_iff.mp hd
      cases has with
      | true => cases hd
      | false => exact hhas
    · exact addAttr_becomes h
  | clearAttr name => exact iff_of_true (clearAttr_becomes h) trivial
  | clearAttributes => exact iff_of_true (clearAttributes_becomes h) trivial
  | copy => exact iff_of_true (copy_becomes h) trivial
  | inside a edit ih =>
    constructor
    · intro hkept
      obtain ⟨d, hd, -⟩ := id hkept
      obtain ⟨⟨value, next⟩, hcell, hd⟩ := Option.bind_eq_some_iff.mp hd
      cases value with
      | inl text => cases hd
      | inr child =>
        obtain ⟨hsound, -⟩ := setChild_spec h hcell
        exact ⟨child, next, hcell, (ih hsound).mp ((kept_inside_iff h hcell edit).mp hkept)⟩
    · rintro ⟨child, next, hcell, hahead⟩
      obtain ⟨hsound, -⟩ := setChild_spec h hcell
      exact (kept_inside_iff h hcell edit).mpr ((ih hsound).mpr hahead)

end Kept

end Edit

theorem sound_create (name : QName) (useDefaultNs : Bool) : (create name useDefaultNs).Sound := by
  have hnone : Inside Sound [] := fun _ _ hmem => absurd hmem List.not_mem_nil
  cases useDefaultNs with
  | false => exact .intro holds_empty List.nodup_nil holds_empty hnone
  | true =>
    refine @Sound.intro _ [(0, (qnXmlns, name.ns))] [] ⟨⟨⟨rfl, none, rfl, rfl⟩, by simp, ?_⟩, rfl⟩
      (by simp) holds_empty hnone
    intro a ha
    cases a with
    | zero => simp
    | succ a => simp [create, cell?] at ha

/-- The element that an edit leaves, or the old one where it has no result. -/
def edited (e : LinkedElement) (edit : Edit) : LinkedElement := (edit.apply e).getD e

theorem edits_kept_iff (name : QName) (useDefaultNs : Bool) (edits : List Edit) :
    Runs.Along edited (fun e edit => edit.Kept e) (create name useDefaultNs) edits ↔
      Runs.Along edited (fun e edit => edit.Ahead e) (create name useDefaultNs) edits := by
  refine Runs.along_iff (fun e edit h => edit.kept_iff h) (fun e edit h hkept => ?_)
    (sound_create name useDefaultNs) edits
  obtain ⟨d, hd, hsound, -⟩ := hkept
  rw [edited, hd]
  exact hsound

/-- A text inserted into an empty element is lost when the next one is added. -/
theorem insert_loses_tail : ∃ e d,
    (Edit.insertChildAfter none (.inl "a")).apply (create ⟨"", "item"⟩ false) = some e ∧
      e.children.first = some 0 ∧ e.children.last = none ∧
      (Edit.addText "b").apply e = some d ∧ d.children.nodes = [(1, .inl "b")] :=
  ⟨_, _, rfl, rfl, rfl, rfl, rfl⟩

end LinkedElement

end Libjingle
