import Mathlib.Data.List.Basic
import Mathlib.Tactic.Common

/-! `Jid`: the three parts of an address, folded and checked one by one. A string is the list
of its bytes. -/

namespace Libjingle

structure Jid where
  nodeName : List UInt8 := []
  domainName : List UInt8 := []
  resourceName : List UInt8 := []
  deriving DecidableEq, Repr

namespace Jid

def isUpper (ch : UInt8) : Bool := 0x41 ≤ ch && ch ≤ 0x5A

def prepNodeAscii (ch : UInt8) : UInt8 × Bool :=
  if isUpper ch then (ch + 0x20, true)
  else if ch ≤ 0x17 || ch = 0x20 || ch = 0x22 || ch = 0x26 || ch = 0x27 || ch = 0x2F ||
    ch = 0x3A || ch = 0x3C || ch = 0x3E || ch = 0x40 || ch = 0x7F then (0, false)
  else (ch, true)

def prepResourceAscii (ch : UInt8) : UInt8 × Bool :=
  if ch ≤ 0x17 || ch = 0x7F then (0, false) else (ch, true)

def prepDomainLabelAscii (ch : UInt8) : UInt8 × Bool :=
  if isUpper ch then (ch + 0x20, true)
  else if ch ≤ 0x2C || ch = 0x2E || ch = 0x2F || (0x3A ≤ ch && ch ≤ 0x40) ||
    (0x5B ≤ ch && ch ≤ 0x60) || (0x7B ≤ ch && ch ≤ 0x7F) then (0, false)
  else (ch, true)

/-- `tolower` leaves what is not ASCII as it is. -/
def prepNodeChar (ch : UInt8) : UInt8 × Bool :=
  if ch ≤ 0x7F then prepNodeAscii ch else (ch, true)

def prepNodeFrom : List UInt8 → List UInt8 → Option (List UInt8)
  | result, [] => some result
  | result, ch :: rest =>
      if (prepNodeChar ch).2 then prepNodeFrom (result ++ [(prepNodeChar ch).1]) rest else none

def prepNode (node : List UInt8) : List UInt8 × Bool :=
  match prepNodeFrom [] node with
  | none => ([], false)
  | some result => if 1023 < result.length then ([], false) else (result, true)

/-- Whether a character is valid is looked up and not asked for. -/
def prepResource (resource : List UInt8) : List UInt8 × Bool :=
  let result := resource.map fun ch => if ch ≤ 0x7F then (prepResourceAscii ch).1 else ch
  if 1023 < result.length then ([], false) else (result, true)

def prepLabelChar (ch : UInt8) : UInt8 × Bool :=
  if ch ≤ 0x7F then prepDomainLabelAscii ch else (ch, true)

/-- The characters of a label, up to the first one that is not valid. -/
def prepLabelFrom : List UInt8 → List UInt8 → List UInt8 × Bool
  | buf, [] => (buf, true)
  | buf, ch :: rest =>
      if (prepLabelChar ch).2 then prepLabelFrom (buf ++ [(prepLabelChar ch).1]) rest
      else (buf ++ [(prepLabelChar ch).1], false)

def prepDomainLabel (label buf : List UInt8) : List UInt8 × Bool :=
  let startLen := buf.length
  let (buf, valid) := prepLabelFrom buf label
  let count := buf.length - startLen
  if !valid then (buf, false)
  else if count = 0 then (buf, false)
  else if 63 < count then (buf, false)
  else if buf[startLen]? = some 0x2D then (buf, false)
  else if buf[buf.length - 1]? = some 0x2D then (buf, false)
  else (buf, true)

/-- The labels of a domain, where `label` has been read of the current one. -/
def prepDomainFrom : List UInt8 → List UInt8 → List UInt8 → List UInt8 × Bool
  | label, [], buf => prepDomainLabel label buf
  | label, ch :: rest, buf =>
      if ch = 0x2E then
        let (buf, valid) := prepDomainLabel label buf
        if valid then prepDomainFrom [] rest (buf ++ [0x2E]) else (buf ++ [0x2E], false)
      else prepDomainFrom (label ++ [ch]) rest buf

def prepDomain (domain : List UInt8) : List UInt8 × Bool :=
  let (result, valid) := prepDomainFrom [] domain []
  if !valid then ([], false)
  else if 1023 < result.length then ([], false)
  else (result, true)

def validateOrReset (j : Jid) : Jid :=
  let (node, validNode) := prepNode j.nodeName
  let (domain, validDomain) := prepDomain j.domainName
  let (resource, validResource) := prepResource j.resourceName
  if !validNode || !validDomain || !validResource then {} else ⟨node, domain, resource⟩

/-- The parts that a string is cut into, at the first slash and the first at sign before it. -/
def cut (s : List UInt8) : Jid :=
  let slash := s.idxOf? 0x2F
  let domainEnd := slash.getD s.length
  let cutAt : Option Nat := (s.idxOf? 0x40).filter fun i => i < domainEnd
  let domainBegin := cutAt.elim 0 (· + 1)
  { nodeName := cutAt.elim [] s.take
    domainName := (s.drop domainBegin).take (domainEnd - domainBegin)
    resourceName := slash.elim [] fun i => s.drop (i + 1) }

def ofString (s : List UInt8) : Jid := if s = [] then {} else (cut s).validateOrReset

def ofParts (node domain resource : List UInt8) : Jid :=
  validateOrReset ⟨node, domain, resource⟩

def isValid (j : Jid) : Bool := !j.domainName.isEmpty

def isFull (j : Jid) : Bool := j.isValid && !j.resourceName.isEmpty

def str (j : Jid) : List UInt8 :=
  if !j.isValid then []
  else (if j.nodeName = [] then [] else j.nodeName ++ [0x40]) ++ j.domainName ++
    (if j.resourceName = [] then [] else 0x2F :: j.resourceName)

def bareJid (j : Jid) : Jid :=
  if !j.isValid then {}
  else if !j.isFull then j
  else ofParts j.nodeName j.domainName []

def bareEquals (a b : Jid) : Bool := b.nodeName = a.nodeName && b.domainName = a.domainName

def compare (a b : Jid) : Ordering :=
  (List.compareLex Ord.compare a.nodeName b.nodeName).then
    ((List.compareLex Ord.compare a.domainName b.domainName).then
      (List.compareLex Ord.compare a.resourceName b.resourceName))

section Characters

def lower (ch : UInt8) : UInt8 := if isUpper ch then ch + 0x20 else ch

def okNode (ch : UInt8) : Bool := (prepNodeChar ch).2

def okLabel (ch : UInt8) : Bool := (prepLabelChar ch).2

def mapResource (ch : UInt8) : UInt8 := if ch ≤ 0x7F then (prepResourceAscii ch).1 else ch

def isControl (ch : UInt8) : Bool := ch ≤ 0x1F || ch = 0x7F

variable {ch : UInt8}

theorem isUpper_lower : isUpper (lower ch) = false := by
  unfold lower isUpper
  grind

@[simp] theorem lower_lower : lower (lower ch) = lower ch := by
  conv_lhs => rw [lower, isUpper_lower]
  rfl

theorem prepNodeChar_fst (h : okNode ch = true) : (prepNodeChar ch).1 = lower ch := by
  unfold okNode prepNodeChar prepNodeAscii at h
  unfold prepNodeChar prepNodeAscii lower isUpper at *
  grind

theorem prepLabelChar_fst (h : okLabel ch = true) : (prepLabelChar ch).1 = lower ch := by
  unfold okLabel prepLabelChar prepDomainLabelAscii at h
  unfold prepLabelChar prepDomainLabelAscii lower isUpper at *
  grind

theorem lower_of_not_upper (h : isUpper ch = false) : lower ch = ch := by
  rw [lower, h]
  rfl

theorem lower_letter (h : isUpper ch = true) : 0x61 ≤ lower ch ∧ lower ch ≤ 0x7A := by
  rw [lower, h]
  unfold isUpper at h
  grind

theorem okNode_letter (h : 0x61 ≤ ch ∧ ch ≤ 0x7A) : okNode ch = true := by
  have hbad : (ch ≤ 0x17 || ch = 0x20 || ch = 0x22 || ch = 0x26 || ch = 0x27 || ch = 0x2F ||
      ch = 0x3A || ch = 0x3C || ch = 0x3E || ch = 0x40 || ch = 0x7F) = false := by
    simp only [UInt8.le_iff_toNat_le, ← UInt8.toNat_inj, Bool.or_eq_false_iff,
      decide_eq_false_iff_not] at h ⊢
    simp at h ⊢
    omega
  unfold okNode prepNodeChar prepNodeAscii
  rw [hbad]
  grind

theorem okLabel_letter (h : 0x61 ≤ ch ∧ ch ≤ 0x7A) : okLabel ch = true := by
  unfold okLabel prepLabelChar prepDomainLabelAscii isUpper
  grind

theorem ok_upper (h : isUpper ch = true) : okNode ch = true ∧ okLabel ch = true := by
  have hle : ch ≤ 0x7F := by
    unfold isUpper at h
    grind
  simp [okNode, okLabel, prepNodeChar, prepLabelChar, prepNodeAscii, prepDomainLabelAscii, hle, h]

@[simp] theorem okNode_lower : okNode (lower ch) = okNode ch := by
  by_cases h : isUpper ch = true
  · rw [okNode_letter (lower_letter h), (ok_upper h).1]
  · rw [lower_of_not_upper (Bool.eq_false_iff.mpr h)]

@[simp] theorem okLabel_lower : okLabel (lower ch) = okLabel ch := by
  by_cases h : isUpper ch = true
  · rw [okLabel_letter (lower_letter h), (ok_upper h).2]
  · rw [lower_of_not_upper (Bool.eq_false_iff.mpr h)]

theorem okLabel_bounds (h : okLabel ch = true) :
    isControl ch = false ∧ ch ≠ 0x40 ∧ ch ≠ 0x2F ∧ ch ≠ 0x2E := by
  unfold okLabel prepLabelChar prepDomainLabelAscii isUpper at h
  unfold isControl
  grind

theorem okNode_bounds (h : okNode ch = true) : ch ≠ 0x40 ∧ ch ≠ 0x2F ∧
    (isControl ch = true ↔ 0x18 ≤ ch ∧ ch ≤ 0x1F) := by
  unfold okNode prepNodeChar prepNodeAscii isUpper at h
  unfold isControl
  grind

theorem isControl_lower : isControl (lower ch) = isControl ch := by
  unfold isControl lower isUpper
  grind

theorem isControl_mapResource : isControl (mapResource ch) = isControl ch := by
  unfold isControl mapResource prepResourceAscii
  grind

theorem lower_eq_iff {c : UInt8} (hc : c < 0x41) : lower ch = c ↔ ch = c := by
  unfold lower isUpper
  grind

@[simp] theorem mapResource_mapResource : mapResource (mapResource ch) = mapResource ch := by
  unfold mapResource prepResourceAscii
  grind

end Characters

section Parts

theorem prepNodeFrom_eq (node result : List UInt8) :
    prepNodeFrom result node =
      if node.all okNode then some (result ++ node.map lower) else none := by
  induction node generalizing result with
  | nil => simp [prepNodeFrom]
  | cons ch node ih =>
    rw [prepNodeFrom]
    by_cases h : okNode ch = true
    · have hok : (prepNodeChar ch).2 = true := h
      rw [if_pos hok, ih, prepNodeChar_fst h]
      simp [h]
    · have hok : ¬ (prepNodeChar ch).2 = true := h
      rw [if_neg hok]
      simp [h]

theorem prepNode_eq (node : List UInt8) : prepNode node =
    if node.all okNode ∧ node.length ≤ 1023 then (node.map lower, true) else ([], false) := by
  rw [prepNode, prepNodeFrom_eq]
  by_cases h : node.all okNode = true
  · by_cases hlen : node.length ≤ 1023
    · simp [h, hlen]
    · simp [h, hlen, Nat.lt_of_not_le hlen]
  · simp [h]

theorem prepResource_eq (resource : List UInt8) : prepResource resource =
    if resource.length ≤ 1023 then (resource.map mapResource, true) else ([], false) := by
  by_cases hlen : resource.length ≤ 1023
  · simp only [prepResource, List.length_map, if_pos hlen, if_neg (Nat.not_lt.mpr hlen)]
    rfl
  · simp only [prepResource, List.length_map, if_neg hlen, if_pos (Nat.lt_of_not_le hlen)]

/-- The labels of a domain, where `label` has been read of the first one. -/
def labels : List UInt8 → List UInt8 → List (List UInt8)
  | label, [] => [label]
  | label, ch :: rest => if ch = 0x2E then label :: labels [] rest else labels (label ++ [ch]) rest

def okDomainLabel (label : List UInt8) : Bool :=
  label.all okLabel && label ≠ [] && label.length ≤ 63 && label.head? ≠ some 0x2D &&
    label.getLast? ≠ some 0x2D

theorem prepLabelFrom_eq {label : List UInt8} (h : label.all okLabel = true) (buf : List UInt8) :
    prepLabelFrom buf label = (buf ++ label.map lower, true) := by
  induction label generalizing buf with
  | nil => simp [prepLabelFrom]
  | cons ch label ih =>
    rw [List.all_cons, Bool.and_eq_true] at h
    have hok : (prepLabelChar ch).2 = true := h.1
    rw [prepLabelFrom, if_pos hok, ih h.2, prepLabelChar_fst h.1]
    simp

theorem prepLabelFrom_snd (label buf : List UInt8) :
    (prepLabelFrom buf label).2 = label.all okLabel := by
  induction label generalizing buf with
  | nil => rfl
  | cons ch label ih =>
    by_cases h : okLabel ch = true
    · have hok : (prepLabelChar ch).2 = true := h
      rw [prepLabelFrom, if_pos hok, ih]
      simp [h]
    · have hok : ¬ (prepLabelChar ch).2 = true := h
      rw [prepLabelFrom, if_neg hok]
      simp [h]

theorem lower_hyphen (ch : UInt8) : lower ch = 0x2D ↔ ch = 0x2D := lower_eq_iff (by decide)

theorem prepDomainLabel_eq {label : List UInt8} (h : okDomainLabel label = true)
    (buf : List UInt8) : prepDomainLabel label buf = (buf ++ label.map lower, true) := by
  simp only [okDomainLabel, Bool.and_eq_true, decide_eq_true_iff] at h
  obtain ⟨⟨⟨⟨hall, hne⟩, hlen⟩, hhead⟩, hlast⟩ := h
  have hpos : label.length ≠ 0 := fun h => hne (List.length_eq_zero_iff.mp h)
  have hfirst : (buf ++ label.map lower)[buf.length]? ≠ some 0x2D := by
    rw [List.getElem?_append_right (Nat.le_refl _), Nat.sub_self, ← List.head?_eq_getElem?,
      List.head?_map]
    intro heq
    obtain ⟨ch, hch, hlow⟩ := Option.map_eq_some_iff.mp heq
    exact hhead (by rw [hch, (lower_hyphen ch).mp hlow])
  have hend : (buf ++ label.map lower)[(buf ++ label.map lower).length - 1]? ≠ some 0x2D := by
    rw [← List.getLast?_eq_getElem?, List.getLast?_append_of_ne_nil _ (by simpa using hne),
      List.getLast?_map]
    intro heq
    obtain ⟨ch, hch, hlow⟩ := Option.map_eq_some_iff.mp heq
    exact hlast (by rw [hch, (lower_hyphen ch).mp hlow])
  have hcount : (buf ++ label.map lower).length - buf.length = label.length := by simp
  simp only [prepDomainLabel, prepLabelFrom_eq hall, hcount, Bool.not_true, Bool.false_eq_true,
    if_false, if_neg hpos, if_neg (Nat.not_lt.mpr hlen), if_neg hfirst, if_neg hend]

theorem prepDomainLabel_snd (label buf : List UInt8) :
    (prepDomainLabel label buf).2 = okDomainLabel label := by
  by_cases h : okDomainLabel label = true
  · rw [prepDomainLabel_eq h, h]
  · rw [Bool.eq_false_iff.mpr h, Bool.eq_false_iff]
    intro hyes
    apply h
    have hsnd := prepLabelFrom_snd label buf
    unfold prepDomainLabel at hyes
    by_cases hall : label.all okLabel = true
    · rw [prepLabelFrom_eq hall] at hyes
      simp only [Bool.not_true, Bool.false_eq_true, if_false, List.length_append, List.length_map,
        Nat.add_sub_cancel_left] at hyes
      split_ifs at hyes with hzero hlen hfirst hend
      have hne : label ≠ [] := fun hnil => hzero (by rw [hnil]; rfl)
      rw [List.getElem?_append_right (Nat.le_refl _), Nat.sub_self, ← List.head?_eq_getElem?,
        List.head?_map] at hfirst
      have hcount : buf.length + label.length = (buf ++ label.map lower).length := by simp
      rw [hcount, ← List.getLast?_eq_getElem?,
        List.getLast?_append_of_ne_nil _ (by simpa using hne), List.getLast?_map] at hend
      simp only [okDomainLabel, Bool.and_eq_true, decide_eq_true_iff]
      refine ⟨⟨⟨⟨hall, hne⟩, Nat.not_lt.mp hlen⟩, fun heq => hfirst ?_⟩, fun heq => hend ?_⟩
      · rw [heq]
        rfl
      · rw [heq]
        rfl
    · rw [Bool.eq_false_iff.mpr hall] at hsnd
      simp [hsnd] at hyes

theorem prepDomainFrom_eq {label rest : List UInt8} (h : (labels label rest).all okDomainLabel = true)
    (buf : List UInt8) :
    prepDomainFrom label rest buf = (buf ++ label.map lower ++ rest.map lower, true) := by
  induction rest generalizing label buf with
  | nil =>
    rw [prepDomainFrom, prepDomainLabel_eq (by simpa [labels] using h)]
    simp
  | cons ch rest ih =>
    rw [prepDomainFrom]
    rw [labels] at h
    by_cases hdot : ch = 0x2E
    · rw [if_pos hdot, List.all_cons, Bool.and_eq_true] at h
      simp only [if_pos hdot, prepDomainLabel_eq h.1, if_true, ih h.2]
      have hlow : lower ch = 0x2E := (lower_eq_iff (by decide)).mpr hdot
      simp [hlow]
    · rw [if_neg hdot] at h
      rw [if_neg hdot, ih h]
      simp

theorem prepDomainFrom_snd (label rest buf : List UInt8) :
    (prepDomainFrom label rest buf).2 = (labels label rest).all okDomainLabel := by
  induction rest generalizing label buf with
  | nil => simp [prepDomainFrom, labels, prepDomainLabel_snd]
  | cons ch rest ih =>
    rw [prepDomainFrom, labels]
    by_cases hdot : ch = 0x2E
    · simp only [if_pos hdot, List.all_cons, prepDomainLabel_snd]
      by_cases hlabel : okDomainLabel label = true
      · simp only [hlabel, if_true, Bool.true_and, ih]
      · simp [hlabel]
    · rw [if_neg hdot, if_neg hdot, ih]

def okDomain (domain : List UInt8) : Bool := (labels [] domain).all okDomainLabel

theorem prepDomain_eq (domain : List UInt8) : prepDomain domain =
    if okDomain domain ∧ domain.length ≤ 1023 then (domain.map lower, true) else ([], false) := by
  have hsnd := prepDomainFrom_snd [] domain []
  by_cases h : okDomain domain = true
  · have heq := prepDomainFrom_eq h []
    simp only [List.map_nil, List.append_nil, List.nil_append] at heq
    by_cases hlen : domain.length ≤ 1023
    · simp only [prepDomain, heq, Bool.not_true, Bool.false_eq_true, if_false, List.length_map,
        if_neg (Nat.not_lt.mpr hlen), h, hlen, and_self, if_true]
    · simp only [prepDomain, heq, Bool.not_true, Bool.false_eq_true, if_false, List.length_map,
        if_pos (Nat.lt_of_not_le hlen), h, hlen, and_false]
  · have hno : (prepDomainFrom [] domain []).2 = false := hsnd.trans (Bool.eq_false_iff.mpr h)
    simp [prepDomain, hno, h]

theorem labels_map (label rest : List UInt8) :
    labels (label.map lower) (rest.map lower) = (labels label rest).map (List.map lower) := by
  induction rest generalizing label with
  | nil => rfl
  | cons ch rest ih =>
    rw [List.map_cons, labels, labels]
    by_cases hdot : ch = 0x2E
    · have hlow : lower ch = 0x2E := (lower_eq_iff (by decide)).mpr hdot
      rw [if_pos hdot, if_pos hlow, List.map_cons, ← ih []]
      rfl
    · have hlow : lower ch ≠ 0x2E := fun heq => hdot ((lower_eq_iff (by decide)).mp heq)
      rw [if_neg hdot, if_neg hlow, ← ih (label ++ [ch])]
      simp

theorem okDomainLabel_map (label : List UInt8) :
    okDomainLabel (label.map lower) = okDomainLabel label := by
  have hmap {o : Option UInt8} : o.map lower = some 0x2D ↔ o = some 0x2D := by
    cases o with
    | none => simp
    | some ch => simp [lower_hyphen]
  have hall : (label.map lower).all okLabel = label.all okLabel := by
    rw [List.all_map]
    congr 1
    funext ch
    exact okLabel_lower
  simp only [okDomainLabel, hall, List.length_map, List.head?_map, List.getLast?_map, ne_eq,
    List.map_eq_nil_iff, hmap]

@[simp] theorem okDomain_map (domain : List UInt8) : okDomain (domain.map lower) = okDomain domain := by
  have hlabels := labels_map [] domain
  rw [List.map_nil] at hlabels
  rw [okDomain, hlabels, List.all_map, okDomain]
  congr 1
  funext label
  exact okDomainLabel_map label

theorem mem_labels {ch : UInt8} {label rest : List UInt8} (h : ch ∈ label ++ rest) :
    ch = 0x2E ∨ ∃ l ∈ labels label rest, ch ∈ l := by
  induction rest generalizing label with
  | nil => exact .inr ⟨label, by simp [labels], by simpa using h⟩
  | cons c rest ih =>
    rw [labels]
    by_cases hdot : c = 0x2E
    · rw [if_pos hdot]
      rcases List.mem_append.mp h with h | h
      · exact .inr ⟨label, List.mem_cons_self, h⟩
      · rcases List.mem_cons.mp h with rfl | h
        · exact .inl hdot
        · refine (@ih [] h).imp_right ?_
          rintro ⟨l, hl, hch⟩
          exact ⟨l, List.mem_cons_of_mem _ hl, hch⟩
    · rw [if_neg hdot]
      exact ih (by simpa using h)

theorem okDomain_bounds {domain : List UInt8} (h : okDomain domain = true) :
    domain ≠ [] ∧ ∀ ch ∈ domain, isControl ch = false ∧ ch ≠ 0x40 ∧ ch ≠ 0x2F := by
  constructor
  · rintro rfl
    cases h
  · intro ch hch
    rcases @mem_labels ch [] domain hch with rfl | ⟨label, hlabel, hch⟩
    · exact ⟨by decide, by decide, by decide⟩
    · have hok := List.all_eq_true.mp h label hlabel
      simp only [okDomainLabel, Bool.and_eq_true] at hok
      obtain ⟨hcontrol, hat, hslash, -⟩ := okLabel_bounds (List.all_eq_true.mp hok.1.1.1.1 ch hch)
      exact ⟨hcontrol, hat, hslash⟩

def Accepted (j : Jid) : Prop :=
  (j.nodeName.all okNode = true ∧ j.nodeName.length ≤ 1023) ∧
    (okDomain j.domainName = true ∧ j.domainName.length ≤ 1023) ∧ j.resourceName.length ≤ 1023

instance (j : Jid) : Decidable j.Accepted := inferInstanceAs (Decidable (_ ∧ _))

def folded (j : Jid) : Jid :=
  ⟨j.nodeName.map lower, j.domainName.map lower, j.resourceName.map mapResource⟩

theorem validateOrReset_eq (j : Jid) :
    j.validateOrReset = if j.Accepted then j.folded else {} := by
  simp only [validateOrReset, prepNode_eq, prepDomain_eq, prepResource_eq]
  by_cases hnode : j.nodeName.all okNode = true ∧ j.nodeName.length ≤ 1023
  · by_cases hdomain : okDomain j.domainName = true ∧ j.domainName.length ≤ 1023
    · by_cases hresource : j.resourceName.length ≤ 1023
      · have h : j.Accepted := ⟨hnode, hdomain, hresource⟩
        rw [if_pos hnode, if_pos hdomain, if_pos hresource, if_pos h]
        rfl
      · have h : ¬ j.Accepted := fun h => hresource h.2.2
        rw [if_pos hnode, if_pos hdomain, if_neg hresource, if_neg h]
        rfl
    · have h : ¬ j.Accepted := fun h => hdomain h.2.1
      rw [if_pos hnode, if_neg hdomain, if_neg h]
      simp
  · have h : ¬ j.Accepted := fun h => hnode h.1
    rw [if_neg hnode, if_neg h]
    simp

theorem Accepted.folded {j : Jid} (h : j.Accepted) : j.folded.Accepted := by
  obtain ⟨⟨hnode, hnodeLen⟩, ⟨hdomain, hdomainLen⟩, hresource⟩ := h
  refine ⟨⟨?_, by simpa [Jid.folded] using hnodeLen⟩, ⟨?_, by simpa [Jid.folded] using hdomainLen⟩,
    by simpa [Jid.folded] using hresource⟩
  · rw [Jid.folded, List.all_map]
    simpa [Function.comp_def] using hnode
  · rw [Jid.folded, okDomain_map]
    exact hdomain

theorem folded_folded (j : Jid) : j.folded.folded = j.folded := by
  simp [folded, Function.comp_def]

end Parts

/-- What a `Jid` is made from. -/
inductive Input where
  | string (s : List UInt8)
  | parts (node domain resource : List UInt8)

namespace Input

def construct : Input → Jid
  | string s => ofString s
  | parts node domain resource => ofParts node domain resource

def cut : Input → Jid
  | string s => Jid.cut s
  | parts node domain resource => ⟨node, domain, resource⟩

theorem construct_eq (i : Input) : i.construct = if i.cut.Accepted then i.cut.folded else {} := by
  cases i with
  | string s =>
    by_cases hs : s = []
    · subst hs
      rfl
    · simp only [construct, ofString, if_neg hs, validateOrReset_eq]
      rfl
  | parts node domain resource => exact validateOrReset_eq _

end Input

/-- The parts of a `Jid` that was taken, as they stand in it. -/
structure Normal (j : Jid) : Prop where
  accepted : j.Accepted
  folded : j.folded = j

theorem Input.normal (i : Input) : i.construct = {} ∨ i.construct.Normal := by
  rw [i.construct_eq]
  by_cases h : i.cut.Accepted
  · rw [if_pos h]
    exact .inr ⟨h.folded, folded_folded _⟩
  · rw [if_neg h]
    exact .inl rfl

section Normal

variable {j : Jid}

theorem Normal.validateOrReset (h : j.Normal) : j.validateOrReset = j := by
  rw [validateOrReset_eq, if_pos h.accepted, h.folded]

theorem Normal.isValid (h : j.Normal) : j.isValid = true := by
  have hne := (okDomain_bounds h.accepted.2.1.1).1
  simp [Jid.isValid, hne]

theorem Normal.separated (h : j.Normal) :
    ∀ ch ∈ j.nodeName ++ j.domainName, ch ≠ 0x40 ∧ ch ≠ 0x2F := by
  intro ch hch
  rcases List.mem_append.mp hch with hch | hch
  · have hok := okNode_bounds (List.all_eq_true.mp h.accepted.1.1 ch hch)
    exact ⟨hok.1, hok.2.1⟩
  · exact ((okDomain_bounds h.accepted.2.1.1).2 ch hch).2

theorem idxOf?_append {l : List UInt8} {c : UInt8} (h : c ∉ l) (r : List UInt8) :
    (l ++ r).idxOf? c = (r.idxOf? c).map (l.length + ·) := by
  induction l with
  | nil => cases h : r.idxOf? c <;> simp [h]
  | cons x l ih =>
    rw [List.mem_cons, not_or] at h
    rw [List.cons_append, List.idxOf?_cons, ih h.2]
    have hne : (x == c) = false := beq_false_of_ne (Ne.symm h.1)
    rw [hne]
    cases r.idxOf? c with
    | none => rfl
    | some i => simp [Nat.add_right_comm]

theorem Normal.cut_str (h : j.Normal) : Jid.cut j.str = j := by
  have hsep := h.separated
  have hvalid := h.isValid
  obtain ⟨node, domain, resource⟩ := j
  simp only [List.mem_append] at hsep
  have hat : ∀ c ∈ domain, c ≠ 0x40 := fun c hc => (hsep c (.inr hc)).1
  have hnodeAt : (0x40 : UInt8) ∉ node := fun hc => (hsep _ (.inl hc)).1 rfl
  -- the part before the domain, and what is behind it
  have hcut (front : List UInt8) (hfront : (0x2F : UInt8) ∉ front) (begin_ : Option Nat)
      (hbegin : (((front ++ domain ++ (if resource = [] then [] else 0x2F :: resource)).idxOf?
        0x40).filter fun i => i < (front ++ domain).length) = begin_)
      (hlen : begin_.elim 0 (· + 1) = front.length) :
      Jid.cut (front ++ domain ++ (if resource = [] then [] else 0x2F :: resource)) =
        ⟨begin_.elim [] front.take, domain, resource⟩ := by
    have hslash : (0x2F : UInt8) ∉ front ++ domain := by
      intro hc
      rcases List.mem_append.mp hc with hc | hc
      · exact hfront hc
      · exact (hsep _ (.inr hc)).2 rfl
    have htake : begin_.elim [] (front ++ domain ++
        (if resource = [] then [] else 0x2F :: resource)).take = begin_.elim [] front.take := by
      cases begin_ with
      | none => rfl
      | some i =>
        have hi : i ≤ front.length := by
          simp only [Option.elim_some] at hlen
          omega
        simp only [Option.elim_some]
        rw [List.append_assoc, List.take_append_of_le_length hi]
    by_cases hres : resource = []
    · subst hres
      simp only [if_true, List.append_nil] at hbegin htake ⊢
      have hnone : (front ++ domain).idxOf? 0x2F = none := by
        rw [List.idxOf?_eq_none_iff]
        exact hslash
      simp only [Jid.cut, hnone, Option.getD_none, hbegin, hlen, htake, Option.elim_none]
      simp
    · simp only [if_neg hres] at hbegin htake ⊢
      have hsome : (front ++ domain ++ 0x2F :: resource).idxOf? 0x2F =
          some (front ++ domain).length := by
        rw [idxOf?_append hslash]
        simp [List.idxOf?_cons]
      simp only [Jid.cut, hsome, Option.getD_some, hbegin, hlen, htake, Option.elim_some]
      rw [List.append_assoc, List.drop_left, List.length_append, Nat.add_sub_cancel_left,
        List.take_left, ← List.append_assoc, ← List.length_append, List.drop_append]
      simp
  rw [Jid.str, hvalid]
  simp only [Bool.not_true, Bool.false_eq_true, if_false]
  by_cases hnode : node = []
  · subst hnode
    have hbegin : (([] ++ domain ++ (if resource = [] then [] else 0x2F :: resource)).idxOf?
        0x40).filter (fun i => i < ([] ++ domain).length) = none := by
      rw [List.nil_append, idxOf?_append fun hc => hat _ hc rfl, Option.filter_eq_none_iff]
      intro i hi
      obtain ⟨k, -, rfl⟩ := Option.map_eq_some_iff.mp hi
      simp
    simpa using hcut [] List.not_mem_nil none hbegin rfl
  · have hfront : (0x2F : UInt8) ∉ node ++ [0x40] := by
      intro hc
      rcases List.mem_append.mp hc with hc | hc
      · exact (hsep _ (.inl hc)).2 rfl
      · simp at hc
    have hbegin : ((node ++ [0x40] ++ domain ++
        (if resource = [] then [] else 0x2F :: resource)).idxOf? 0x40).filter
          (fun i => i < (node ++ [0x40] ++ domain).length) = some node.length := by
      have hfound : (node ++ [0x40] ++ domain ++
          (if resource = [] then [] else 0x2F :: resource)).idxOf? 0x40 = some node.length := by
        rw [List.append_assoc, List.append_assoc, idxOf?_append hnodeAt]
        simp [List.idxOf?_cons]
      rw [hfound]
      simp
    have hjid := hcut (node ++ [0x40]) hfront (some node.length) hbegin (by simp)
    simpa [hnode] using hjid

theorem Normal.ofString_str (h : j.Normal) : ofString j.str = j := by
  have hne : j.str ≠ [] := by
    have hvalid := h.isValid
    have hdomain : j.domainName ≠ [] := by
      rintro heq
      rw [Jid.isValid, heq] at hvalid
      cases hvalid
    simp [Jid.str, hvalid, hdomain]
  rw [ofString, if_neg hne, h.cut_str, h.validateOrReset]

theorem Normal.bareJid_eq (h : j.Normal) : j.bareJid = ⟨j.nodeName, j.domainName, []⟩ := by
  have hvalid := h.isValid
  by_cases hfull : j.isFull = true
  · have hnormal : Normal ⟨j.nodeName, j.domainName, []⟩ := by
      refine ⟨⟨h.accepted.1, h.accepted.2.1, Nat.zero_le _⟩, ?_⟩
      have hfolded := h.folded
      simp only [Jid.folded] at hfolded ⊢
      rw [← hfolded]
      simp [Function.comp_def]
    simp only [Jid.bareJid, hvalid, hfull, Bool.not_true, Bool.false_eq_true, if_false]
    exact hnormal.validateOrReset
  · have hnone : j.resourceName = [] := by
      by_contra hne
      apply hfull
      simp [isFull, hvalid, hne]
    simp only [Jid.bareJid, hvalid, Bool.eq_false_iff.mpr hfull, Bool.not_true, Bool.not_false,
      Bool.false_eq_true, if_false, if_true]
    cases j
    simp only at hnone
    rw [hnone]

end Normal

section Order

variable {a b c : Jid}

theorem compare_eq_iff : a.compare b = .eq ↔ a = b := by
  simp only [compare, Ordering.then_eq_eq, Std.LawfulEqCmp.compare_eq_iff_eq]
  cases a
  cases b
  simp

/-- The order of the three parts, one after another. -/
def order : Jid → Jid → Ordering :=
  compareLex (compareOn nodeName) (compareLex (compareOn domainName) (compareOn resourceName))

instance : Std.TransCmp order :=
  inferInstanceAs (Std.TransCmp (compareLex (compareOn nodeName)
    (compareLex (compareOn domainName) (compareOn resourceName))))

theorem compare_swap : b.compare a = (a.compare b).swap :=
  @Std.OrientedCmp.eq_swap Jid order _ b a

theorem compare_trans (hab : (a.compare b).isLE = true) (hbc : (b.compare c).isLE = true) :
    (a.compare c).isLE = true :=
  @Std.TransCmp.isLE_trans Jid order _ a b c hab hbc

end Order

/-- Empty, or of three parts without a control character, of which the first two have no
separator, and what its string is read as. -/
def Canonical (j : Jid) : Prop :=
  j = {} ∨ j.isValid = true ∧
    (∀ ch ∈ j.nodeName ++ j.domainName ++ j.resourceName, isControl ch = false) ∧
    (∀ ch ∈ j.nodeName ++ j.domainName, ch ≠ 0x40 ∧ ch ≠ 0x2F) ∧ ofString j.str = j

/-- No character of the node that the table leaves out, and no control character in the
resource. -/
def ControlFree (j : Jid) : Prop :=
  (∀ ch ∈ j.nodeName, ¬ (0x18 ≤ ch ∧ ch ≤ 0x1F)) ∧ ∀ ch ∈ j.resourceName, isControl ch = false

theorem controls_of_accepted {j : Jid} (h : j.Accepted) :
    (∀ ch ∈ j.folded.nodeName ++ j.folded.domainName ++ j.folded.resourceName,
      isControl ch = false) ↔ j.ControlFree := by
  have hnode : ∀ ch ∈ j.nodeName, (isControl ch = true ↔ 0x18 ≤ ch ∧ ch ≤ 0x1F) :=
    fun ch hch => (okNode_bounds (List.all_eq_true.mp h.1.1 ch hch)).2.2
  have hdomain : ∀ ch ∈ j.domainName, isControl ch = false :=
    fun ch hch => ((okDomain_bounds h.2.1.1).2 ch hch).1
  simp only [folded, List.mem_append, List.mem_map]
  constructor
  · intro hall
    refine ⟨fun ch hch hbad => ?_, fun ch hch => ?_⟩
    · have hfree := hall (lower ch) (.inl (.inl ⟨ch, hch, rfl⟩))
      rw [isControl_lower, (hnode ch hch).mpr hbad] at hfree
      cases hfree
    · rw [← isControl_mapResource]
      exact hall (mapResource ch) (.inr ⟨ch, hch, rfl⟩)
  · rintro ⟨hfree, hresource⟩ _ ((⟨ch, hch, rfl⟩ | ⟨ch, hch, rfl⟩) | ⟨ch, hch, rfl⟩)
    · rw [isControl_lower, Bool.eq_false_iff]
      exact fun hbad => hfree ch hch ((hnode ch hch).mp hbad)
    · rw [isControl_lower]
      exact hdomain ch hch
    · rw [isControl_mapResource]
      exact hresource ch hch

theorem canonical_construct_iff (i : Input) :
    i.construct.Canonical ↔ (i.cut.Accepted → i.cut.ControlFree) := by
  rcases id i.normal with hempty | hnormal
  · have hnot : ¬ i.cut.Accepted := by
      intro h
      have hne := (okDomain_bounds h.2.1.1).1
      rw [i.construct_eq, if_pos h] at hempty
      have hdomain := congrArg Jid.domainName hempty
      exact hne (List.map_eq_nil_iff.mp hdomain)
    exact iff_of_true (.inl hempty) fun h => absurd h hnot
  · have hvalid := hnormal.isValid
    by_cases h : i.cut.Accepted
    · have hcontrols := controls_of_accepted h
      rw [← if_pos (t := i.cut.folded) (e := {}) h, ← i.construct_eq] at hcontrols
      constructor
      · rintro (hempty | ⟨-, hfree, -⟩) -
        · rw [hempty] at hvalid
          cases hvalid
        · exact hcontrols.mp hfree
      · intro hfree
        exact .inr ⟨hvalid, hcontrols.mpr (hfree h), hnormal.separated, hnormal.ofString_str⟩
    · rw [i.construct_eq, if_neg h] at hvalid
      cases hvalid

theorem bareEquals_iff {a b : Jid} (ha : a.Normal) (hb : b.Normal) :
    a.bareEquals b = true ↔ a.bareJid = b.bareJid := by
  rw [ha.bareJid_eq, hb.bareJid_eq]
  simp only [bareEquals, Bool.and_eq_true, decide_eq_true_iff, Jid.mk.injEq, and_true]
  exact and_congr eq_comm eq_comm

end Jid

end Libjingle
