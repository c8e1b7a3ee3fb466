import Libjingle.Client.PresenceDecoding

/-! A status that is written to a presence stanza is filled from it again. -/

namespace Libjingle

open RosterHandler

namespace ByteElement

variable {e child : ByteElement} {f : ByteElement → ByteElement}

@[simp] theorem onLast_addElement : (e.addElement child).onLast f = some (e.addElement (f child)) := by
  simp [onLast, addElement]

def ofElements (name : QName) (elements : List ByteElement) : ByteElement :=
  { name, children := elements.map .inr }

theorem firstNamed_ofElements {name other : QName} {elements : List ByteElement} :
    (ofElements name elements).firstNamed other = elements.find? (·.name = other) := by
  have helements : (elements.map (Sum.inr (α := List UInt8))).filterMap Sum.getRight? = elements := by
    induction elements with
    | nil => rfl
    | cons e elements ih => simp [ih]
  rw [firstNamed, ofElements, helements]

theorem addElement_ofElements {name : QName} {elements : List ByteElement} :
    (ofElements name elements).addElement child = ofElements name (elements ++ [child]) := by
  simp [ofElements, addElement]

theorem bodyText_text (name : QName) (text : List UInt8) :
    (({ name } : ByteElement).addText text).bodyText = text := by
  by_cases h : text = []
  · simp [addText, bodyText, h]
  · simp [addText, bodyText, h]

@[simp] theorem name_text (name : QName) (text : List UInt8) :
    (({ name } : ByteElement).addText text).name = name := by
  by_cases h : text = [] <;> simp [addText, h]

end ByteElement

namespace PresenceOutTask

open ByteElement

def textElement (name : QName) (text : List UInt8) : ByteElement :=
  ({ name } : ByteElement).addText text

def capsElement (s : Status) : ByteElement :=
  (((ByteElement.withNs qnCapsC).addAttr qnNode s.capsNode).addAttr qnVer s.version).addAttr qnExt
    (capsExt s)

/-- The children of a presence that is available, in order. -/
def elements (stamp : List UInt8) (s : Status) : List ByteElement :=
  (if s.showState ≠ .online ∧ s.showState ≠ .offline then
    [textElement qnShow (showText s.showState)] else []) ++
  [textElement qnStatus s.status] ++
  (if s.nick ≠ [] then [textElement qnNickname s.nick] else []) ++
  [textElement qnPriority (stringBytes (toStringInt s.priority))] ++
  (if s.knowCapabilities then [capsElement s] else []) ++
  [(ByteElement.withNs qnDelayX).addAttr qnStamp stamp]

section Written

variable {s : Status} {stamp : List UInt8}

theorem addTextElement_eq (name : QName) (es : List ByteElement) (other : QName)
    (text : List UInt8) :
    addTextElement (ofElements name es) other text =
      some (ofElements name (es ++ [textElement other text])) := by
  rw [addTextElement, onLast_addElement, addElement_ofElements]
  rfl

theorem addCapabilities_eq (name : QName) (es : List ByteElement) :
    addCapabilities .standard s (ofElements name es) =
      some (ofElements name (es ++ if s.knowCapabilities then [capsElement s] else [])) := by
  cases h : s.knowCapabilities with
  | false => simp [addCapabilities, h]
  | true => simp [addCapabilities, h, ← addElement_ofElements, capsElement]

theorem translateStatus_eq (h : s.available = true) :
    translateStatus .standard stamp s = some (ofElements qnPresence (elements stamp s)) := by
  have hnil : ({ name := qnPresence } : ByteElement) = ofElements qnPresence [] := rfl
  simp only [translateStatus, h, hnil, elements]
  by_cases hshow : s.showState ≠ .online ∧ s.showState ≠ .offline <;> by_cases hnick : s.nick ≠ [] <;>
    simp [hshow, hnick, addTextElement_eq, addCapabilities_eq, addElement_ofElements]

theorem find_optional (c : Prop) [Decidable c] (e : ByteElement) (name : QName) :
    (if c then [e] else []).find? (·.name = name) = if c ∧ e.name = name then some e else none := by
  by_cases hc : c <;> by_cases hname : e.name = name <;> simp [hc, hname]

theorem find_one (e : ByteElement) (name : QName) :
    [e].find? (·.name = name) = if e.name = name then some e else none := by
  by_cases hname : e.name = name <;> simp [hname]

theorem find_elements (name : QName) :
    (ofElements qnPresence (elements stamp s)).firstNamed name =
      ((((((if (s.showState ≠ .online ∧ s.showState ≠ .offline) ∧ qnShow = name then
          some (textElement qnShow (showText s.showState)) else none).or
        (if qnStatus = name then some (textElement qnStatus s.status) else none)).or
        (if s.nick ≠ [] ∧ qnNickname = name then some (textElement qnNickname s.nick) else none)).or
        (if qnPriority = name then
          some (textElement qnPriority (stringBytes (toStringInt s.priority))) else none)).or
        (if s.knowCapabilities = true ∧ qnCapsC = name then some (capsElement s) else none)).or
        (if qnDelayX = name then some ((ByteElement.withNs qnDelayX).addAttr qnStamp stamp)
          else none)) := by
  rw [firstNamed_ofElements, elements]
  simp only [List.find?_append, find_optional, find_one, textElement, name_text]
  rfl

theorem firstNamed_show : (ofElements qnPresence (elements stamp s)).firstNamed qnShow =
    if s.showState ≠ .online ∧ s.showState ≠ .offline then
      some (textElement qnShow (showText s.showState)) else none := by
  rw [find_elements]
  simp +decide

theorem firstNamed_status : (ofElements qnPresence (elements stamp s)).firstNamed qnStatus =
    some (textElement qnStatus s.status) := by
  rw [find_elements]
  simp +decide

theorem firstNamed_nickname : (ofElements qnPresence (elements stamp s)).firstNamed qnNickname =
    if s.nick ≠ [] then some (textElement qnNickname s.nick) else none := by
  rw [find_elements]
  simp +decide

theorem firstNamed_capsC : (ofElements qnPresence (elements stamp s)).firstNamed qnCapsC =
    if s.knowCapabilities = true then some (capsElement s) else none := by
  rw [find_elements]
  simp +decide

theorem listContainsToken_capsExt : listContainsToken (capsExt s) voiceV1 = s.voiceCapability ∧
    listContainsToken (capsExt s) videoV1 = s.videoCapability := by
  rw [capsExt]
  cases s.voiceCapability <;> cases s.pmucCapability <;> cases s.videoCapability <;>
    cases s.cameraCapability <;> decide

theorem attr_capsElement : (capsElement s).attr qnNode = s.capsNode ∧
    (capsElement s).attr qnVer = s.version ∧ (capsElement s).attr qnExt = capsExt s := by
  simp +decide [capsElement, ByteElement.attr, addAttr, ByteElement.withNs]

theorem showOf_written (h : s.showState ≠ .none) (h' : s.showState ≠ .offline) :
    showOf (ofElements qnPresence (elements stamp s)) = s.showState := by
  rw [showOf, firstNamed_show]
  cases hshow : s.showState with
  | none => exact absurd hshow h
  | offline => exact absurd hshow h'
  | online => simp
  | xa | away | dnd | chat => simp +decide

end Written

structure Same (s t : Status) : Prop where
  available : t.available = s.available
  showState : t.showState = s.showState
  status : t.status = s.status
  nick : t.nick = s.nick
  knowCapabilities : t.knowCapabilities = s.knowCapabilities
  capsNode : s.knowCapabilities = true → t.capsNode = s.capsNode
  version : s.knowCapabilities = true → t.version = s.version
  voice : s.knowCapabilities = true → t.voiceCapability = s.voiceCapability
  video : s.knowCapabilities = true → t.videoCapability = s.videoCapability

section Filled

variable {s : Status} {stamp : List UInt8} {sender : Jid}

theorem statusOf_written (h : s.status.length ≤ 300) (t : Status) :
    statusOf (ofElements qnPresence (elements stamp s)) t = { t with status := s.status } := by
  simp only [statusOf, firstNamed_status, Option.elim_some, textElement, bodyText_text]
  rw [truncated, if_neg (by omega)]

theorem nickOf_written (t : Status) (h : t.nick = []) :
    nickOf (ofElements qnPresence (elements stamp s)) t = { t with nick := s.nick } := by
  rw [nickOf, firstNamed_nickname]
  by_cases hnick : s.nick = []
  · simp [hnick, ← h]
  · simp [hnick, textElement, bodyText_text]

theorem sentTimeOf_eq (stanza : ByteElement) (t : Status) :
    ∃ time, sentTimeOf stanza t = { t with sentTime := time } := by
  cases h : stanza.firstNamed qnDelayX with
  | none => exact ⟨t.sentTime, by simp [sentTimeOf, h]⟩
  | some delay => exact ⟨delay.attr qnStamp, by simp [sentTimeOf, h]⟩

theorem standardCapabilities_written (t : Status) (hvoice : t.voiceCapability = false)
    (hvideo : t.videoCapability = false) :
    standardCapabilities (ofElements qnPresence (elements stamp s)) t =
      if s.knowCapabilities = true then
        { t with
          knowCapabilities := true
          capsNode := s.capsNode
          version := s.version
          voiceCapability := s.voiceCapability
          videoCapability := s.videoCapability }
      else t := by
  rw [standardCapabilities, firstNamed_capsC]
  obtain ⟨hnode, hver, hext⟩ := attr_capsElement (s := s)
  obtain ⟨hvoice', hvideo'⟩ := listContainsToken_capsExt (s := s)
  by_cases hknow : s.knowCapabilities = true
  · simp [hknow, hnode, hver, hext, hvoice, hvideo, hvoice', hvideo']
  · simp [hknow]

theorem available_round_trip (stamp : List UInt8) (sender : Jid) (h : s.available = true) (hnone : s.showState ≠ .none)
    (hoffline : s.showState ≠ .offline) (hstatus : s.status.length ≤ 300) :
    ∃ e t, translateStatus .standard stamp s = some e ∧
      fillStatus .standard sender e {} = some t ∧ Same s t := by
  have htype : (ofElements qnPresence (elements stamp s)).attr qnType ≠ strUnavailable := by
    have hattr : (ofElements qnPresence (elements stamp s)).attr qnType = [] := rfl
    rw [hattr]
    decide
  let stanza := ofElements qnPresence (elements stamp s)
  let shown : Status :=
    { jid := sender, available := true, status := s.status, showState := s.showState }
  have hfill : fillStatus .standard sender stanza {} =
      some (nickOf stanza (sentTimeOf stanza (standardCapabilities stanza shown))) := by
    simp only [fillStatus, stanza, if_neg htype, statusOf_written hstatus,
      showOf_written hnone hoffline]
    rfl
  obtain ⟨time, htime⟩ := sentTimeOf_eq stanza (standardCapabilities stanza shown)
  have hcaps : standardCapabilities stanza shown = _ := standardCapabilities_written shown rfl rfl
  refine ⟨stanza, _, translateStatus_eq h, hfill, ?_⟩
  rw [htime, hcaps]
  by_cases hknow : s.knowCapabilities = true
  · rw [if_pos hknow, nickOf_written _ rfl]
    exact ⟨h.symm, rfl, rfl, rfl, hknow.symm, fun _ => rfl, fun _ => rfl, fun _ => rfl, fun _ => rfl⟩
  · rw [if_neg hknow, nickOf_written _ rfl]
    have hfalse : s.knowCapabilities = false := by simpa using hknow
    exact ⟨h.symm, rfl, rfl, rfl, hfalse.symm, fun h => absurd h hknow, fun h => absurd h hknow,
      fun h => absurd h hknow, fun h => absurd h hknow⟩

end Filled

/-- A status that is written and filled again keeps its availability, and one that is available
keeps its show, its texts and its capabilities. -/
theorem presence_round_trip (stamp : List UInt8) (sender : Jid) (s : Status)
    (hshow : s.available = true → s.showState ∈ [.away, .xa, .dnd, .online, .chat])
    (hstatus : s.available = true → s.status.length ≤ 300) :
    ∃ e t, translateStatus .standard stamp s = some e ∧
      fillStatus .standard sender e {} = some t ∧ t.available = s.available ∧
      (s.available = true → Same s t) := by
  cases h : s.available with
  | false =>
    refine ⟨_, _, by simp only [translateStatus, h]; rfl, rfl, rfl, fun hs => by cases hs⟩
  | true =>
    have hmem := hshow h
    have hnone : s.showState ≠ .none := by
      rintro hs
      simp [hs] at hmem
    have hoffline : s.showState ≠ .offline := by
      rintro hs
      simp [hs] at hmem
    obtain ⟨e, t, he, ht, hsame⟩ :=
      available_round_trip stamp sender h hnone hoffline (hstatus h)
    exact ⟨e, t, he, ht, hsame.available.trans h, fun _ => hsame⟩

def busy : Status :=
  { available := true, showState := .dnd, status := stringBytes "in a call"
    knowCapabilities := true, voiceCapability := true, cameraCapability := true
    capsNode := stringBytes "node", version := stringBytes "1" }

theorem busy_round_trip :
    ∃ e t, translateStatus .standard (stringBytes "20130101T00:00:00") busy = some e ∧
      fillStatus .standard {} e {} = some t ∧ Same busy t := by
  obtain ⟨e, t, he, ht, -, hsame⟩ := presence_round_trip (stringBytes "20130101T00:00:00") {} busy
    (fun _ => by decide) (fun _ => by decide)
  exact ⟨e, t, he, ht, hsame rfl⟩

end PresenceOutTask

end Libjingle
