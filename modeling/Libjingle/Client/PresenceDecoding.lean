import Mathlib.Data.List.TakeDrop
import Libjingle.Client.Status

/-! What `FillStatus` makes of a presence stanza: the capabilities that the extensions list as
whole words, and the status text cut between two characters. -/

namespace Libjingle

namespace RosterHandler

/-- Nothing but a space stands next to what is between the two lists. -/
def Bounded (a b : List UInt8) : Prop :=
  (∀ c ∈ a.getLast?, isXmlSpace c = true) ∧ ∀ c ∈ b.head?, isXmlSpace c = true

def IsWord (list token : List UInt8) : Prop := ∃ a b, list = a ++ token ++ b ∧ Bounded a b

/-- The first place where the token stands is a whole word. -/
def FirstIsWord (list token : List UInt8) : Prop :=
  ∃ a b, list = a ++ token ++ b ∧ (∀ a' b', list = a' ++ token ++ b' → a.length ≤ a'.length) ∧
    Bounded a b

def encode (cs : List Char) : List UInt8 := cs.flatMap String.utf8EncodeChar

/-- The characters that fit in 300 bytes; the next one does not. -/
def Longest (cs : List Char) (t : List UInt8) : Prop :=
  ∃ pre c post, cs = pre ++ c :: post ∧ t = encode pre ∧ t.length ≤ 300 ∧
    300 < t.length + (String.utf8EncodeChar c).length

structure StatusKept (text t : List UInt8) : Prop where
  short : text.length ≤ 300 → t = text
  long : ∀ cs, text = encode cs → 300 < text.length → Longest cs t

def ext (stanza : ByteElement) : List UInt8 :=
  (stanza.firstNamed qnCapsC).elim [] (·.attr qnExt)

def statusText (stanza : ByteElement) : List UInt8 :=
  (stanza.firstNamed qnStatus).elim [] (·.bodyText)

structure Right (stanza : ByteElement) (s : Status) : Prop where
  voice : s.voiceCapability = true ↔ IsWord (ext stanza) voiceV1
  video : s.videoCapability = true ↔ IsWord (ext stanza) videoV1
  status : StatusKept (statusText stanza) s.status

section Words

variable {list token : List UInt8} {i : Nat}

theorem isPrefixOf_append (token b : List UInt8) : token.isPrefixOf (token ++ b) = true :=
  List.isPrefixOf_iff_prefix.mpr ⟨b, rfl⟩

theorem find_some (h : find list token = some i) :
    ∃ a b, list = a ++ token ++ b ∧ a.length = i ∧
      ∀ a' b', list = a' ++ token ++ b' → a.length ≤ a'.length := by
  obtain ⟨hi, hmem, hfirst⟩ := List.find?_range_eq_some.mp h
  have hlen : i < list.length + 1 := List.mem_range.mp hmem
  obtain ⟨b, hb⟩ := List.isPrefixOf_iff_prefix.mp hi
  have htake : (list.take i).length = i := by simp; omega
  refine ⟨list.take i, b, by rw [List.append_assoc, hb, List.take_append_drop], htake, ?_⟩
  intro a' b' heq
  rw [htake]
  by_contra hlt
  have hnot := hfirst a'.length (by omega)
  rw [heq, List.append_assoc, List.drop_left, isPrefixOf_append] at hnot
  cases hnot

theorem find_none (h : find list token = none) (a b : List UInt8) : list ≠ a ++ token ++ b := by
  rintro rfl
  have hlen : a.length < (a ++ token ++ b).length + 1 := by
    rw [List.length_append, List.length_append]
    omega
  have hnot := List.find?_range_eq_none.mp h a.length hlen
  rw [List.append_assoc, List.drop_left, isPrefixOf_append] at hnot
  cases hnot

theorem boundaryBefore_iff (a b : List UInt8) :
    boundaryBefore (a ++ b) a.length = true ↔ ∀ c ∈ a.getLast?, isXmlSpace c = true := by
  rcases List.eq_nil_or_concat a with rfl | ⟨a, c, rfl⟩
  · simp [boundaryBefore]
  · have hget : (a ++ [c] ++ b)[(a ++ [c]).length - 1]? = some c := by simp
    rw [List.concat_eq_append, boundaryBefore, hget]
    simp

theorem boundaryAfter_iff (a token b : List UInt8) :
    boundaryAfter (a ++ token ++ b) token a.length = true ↔
      ∀ c ∈ b.head?, isXmlSpace c = true := by
  cases b with
  | nil =>
    simp [boundaryAfter]
  | cons c b =>
    have hget : (a ++ token ++ c :: b)[a.length + token.length]? = some c := by
      rw [List.getElem?_append_right (by simp)]
      simp
    have hne : ¬ a.length = (a ++ token ++ c :: b).length - token.length := by
      simp only [List.length_append, List.length_cons]
      omega
    rw [boundaryAfter, hget, decide_eq_false hne]
    simp

theorem listContainsToken_iff (list : List UInt8) (htoken : token ≠ []) :
    listContainsToken list token = true ↔ FirstIsWord list token := by
  cases hfind : find list token with
  | none =>
    constructor
    · intro h
      simp [listContainsToken, hfind] at h
    · rintro ⟨a, b, heq, -⟩
      exact absurd heq (find_none hfind a b)
  | some i =>
    obtain ⟨a, b, rfl, rfl, hfirst⟩ := find_some hfind
    have hbefore := boundaryBefore_iff a (token ++ b)
    have hafter := boundaryAfter_iff a token b
    rw [← List.append_assoc] at hbefore
    have hbounded : listContainsToken (a ++ token ++ b) token = true ↔ Bounded a b := by
      simp only [listContainsToken, hfind, ne_eq, htoken, not_false_eq_true, decide_true,
        Bool.true_and, Bool.and_eq_true, hbefore, hafter, Bounded]
    rw [hbounded]
    constructor
    · exact fun h => ⟨a, b, rfl, hfirst, h⟩
    · rintro ⟨a', b', heq, hfirst', h⟩
      have hlen : a.length = a'.length :=
        Nat.le_antisymm (hfirst a' b' heq) (hfirst' a b rfl)
      rw [List.append_assoc, List.append_assoc] at heq
      obtain ⟨rfl, hrest⟩ := List.append_inj heq hlen
      rwa [List.append_cancel_left hrest]

theorem FirstIsWord.isWord (h : FirstIsWord list token) : IsWord list token := by
  obtain ⟨a, b, heq, -, hbounded⟩ := h
  exact ⟨a, b, heq, hbounded⟩

end Words

section Characters

theorem isUtf8FirstByte_ascii : ∀ v < 128, isUtf8FirstByte (UInt8.ofNat v) = true := by decide

theorem isUtf8FirstByte_lead :
    (∀ v < 32, isUtf8FirstByte (UInt8.ofNat (v + 0xC0)) = true) ∧
    (∀ v < 16, isUtf8FirstByte (UInt8.ofNat (v + 0xE0)) = true) ∧
    ∀ v < 8, isUtf8FirstByte (UInt8.ofNat (v + 0xF0)) = true := by decide

theorem isUtf8FirstByte_trail : ∀ v < 64, isUtf8FirstByte (UInt8.ofNat (v + 0x80)) = false := by
  decide

theorem utf8EncodeChar_marked (c : Char) :
    Pieces.Marked isUtf8FirstByte (String.utf8EncodeChar c) := by
  have htrail : ∀ v, isUtf8FirstByte (UInt8.ofNat (v % 64 + 0x80)) = false :=
    fun v => isUtf8FirstByte_trail _ (Nat.mod_lt _ (by omega))
  obtain ⟨htwo, hthree, hfour⟩ := isUtf8FirstByte_lead
  rw [String.utf8EncodeChar]
  split_ifs with h1 h2 h3
  · exact ⟨_, _, rfl, isUtf8FirstByte_ascii _ (by omega), by simp⟩
  · exact ⟨_, _, rfl, htwo _ (Nat.mod_lt _ (by omega)), by simpa using htrail _⟩
  · exact ⟨_, _, rfl, hthree _ (Nat.mod_lt _ (by omega)),
      List.forall_mem_cons.mpr ⟨htrail _, List.forall_mem_cons.mpr ⟨htrail _, by simp⟩⟩⟩
  · exact ⟨_, _, rfl, hfour _ (Nat.mod_lt _ (by omega)), List.forall_mem_cons.mpr ⟨htrail _,
      List.forall_mem_cons.mpr ⟨htrail _, List.forall_mem_cons.mpr ⟨htrail _, by simp⟩⟩⟩⟩

theorem truncated_kept (text : List UInt8) : StatusKept text (truncated text) where
  short h := by simp [truncated, Nat.not_lt.mpr h]
  long cs heq hlong := by
    have hflat : text = (cs.map String.utf8EncodeChar).flatten := by
      rw [heq, encode, List.flatMap_def]
    have hmarked : ∀ piece ∈ cs.map String.utf8EncodeChar, Pieces.Marked isUtf8FirstByte piece := by
      intro piece hpiece
      obtain ⟨c, -, rfl⟩ := List.mem_map.mp hpiece
      exact utf8EncodeChar_marked c
    obtain ⟨pre, piece, post, hcs, hmark, hle, hlt⟩ :=
      Pieces.lastMark_spec hmarked (n := 300) (by rw [← hflat]; exact hlong)
    obtain ⟨before, rest, rfl, rfl, hrest⟩ := List.map_eq_append_iff.mp hcs
    obtain ⟨c, after, rfl, rfl, -⟩ := List.map_eq_cons_iff.mp hrest
    have hcut : truncated text = encode before := by
      rw [truncated, if_pos hlong, hflat, hmark, hcs, List.flatten_append, List.take_left, encode,
        List.flatMap_def]
    have hlen : (encode before).length = (before.map String.utf8EncodeChar).flatten.length := by
      rw [encode, List.flatMap_def]
    rw [hcut]
    exact ⟨before, c, after, rfl, rfl, hlen ▸ hle, hlen ▸ hlt⟩

theorem statusKept_nil_iff (text : List UInt8) :
    StatusKept text [] ↔ text = [] ∨ 300 < text.length ∧ ∀ cs, text ≠ encode cs := by
  constructor
  · intro h
    by_cases hlen : text.length ≤ 300
    · exact .inl (h.short hlen).symm
    · refine .inr ⟨by omega, fun cs hcs => ?_⟩
      obtain ⟨pre, c, post, -, -, -, hnext⟩ := h.long cs hcs (by omega)
      have hsize : (String.utf8EncodeChar c).length ≤ 4 := by
        rw [String.length_utf8EncodeChar]
        exact Char.utf8Size_le_four c
      simp only [List.length_nil] at hnext
      omega
  · rintro (rfl | ⟨hlong, hinvalid⟩)
    · exact ⟨fun _ => rfl, fun _ _ h => by simp at h⟩
    · exact ⟨fun h => by omega, fun cs hcs => absurd hcs (hinvalid cs)⟩

end Characters

def HasVoip (stanza : ByteElement) : Prop :=
  ∃ td caps, stanza.firstNamed qnTuentiData = some td ∧ td.firstNamed qnTuentiCaps = some caps ∧
    (caps.firstNamed qnTuentiVoice).isSome = true

/-- The stanzas that are decoded as they are meant. -/
def Decodes (build : Build) (stanza : ByteElement) : Prop :=
  if stanza.attr qnType = strUnavailable then
    ¬ IsWord (ext stanza) voiceV1 ∧ ¬ IsWord (ext stanza) videoV1 ∧
      (statusText stanza = [] ∨
        300 < (statusText stanza).length ∧ ∀ cs, statusText stanza ≠ encode cs)
  else match build with
    | .standard =>
        (IsWord (ext stanza) voiceV1 → FirstIsWord (ext stanza) voiceV1) ∧
          (IsWord (ext stanza) videoV1 → FirstIsWord (ext stanza) videoV1)
    | .tuenti =>
        (∀ td, stanza.firstNamed qnTuentiData = some td →
            (td.firstNamed qnTuentiCaps).isSome = true) ∧
          (HasVoip stanza ↔ IsWord (ext stanza) voiceV1) ∧ ¬ IsWord (ext stanza) videoV1

section Filled

variable {sender : Jid} {stanza : ByteElement} {s : Status}

@[simp] theorem kept_nickOf : (nickOf stanza s).voiceCapability = s.voiceCapability ∧
    (nickOf stanza s).videoCapability = s.videoCapability ∧ (nickOf stanza s).status = s.status := by
  cases h : stanza.firstNamed qnNickname <;> simp [nickOf, h]

@[simp] theorem kept_sentTimeOf : (sentTimeOf stanza s).voiceCapability = s.voiceCapability ∧
    (sentTimeOf stanza s).videoCapability = s.videoCapability ∧
    (sentTimeOf stanza s).status = s.status := by
  cases h : stanza.firstNamed qnDelayX <;> simp [sentTimeOf, h]

theorem kept_statusOf : (statusOf stanza s).voiceCapability = s.voiceCapability ∧
    (statusOf stanza s).videoCapability = s.videoCapability := by
  cases h : stanza.firstNamed qnStatus <;> simp [statusOf, h]

theorem status_statusOf (h : s.status = []) :
    (statusOf stanza s).status = truncated (statusText stanza) := by
  cases hstatus : stanza.firstNamed qnStatus with
  | none => simp [statusOf, statusText, hstatus, truncated, h]
  | some e => simp [statusOf, statusText, hstatus]

theorem standardCapabilities_spec (stanza : ByteElement) (hvoice : s.voiceCapability = false)
    (hvideo : s.videoCapability = false) :
    (standardCapabilities stanza s).voiceCapability = listContainsToken (ext stanza) voiceV1 ∧
    (standardCapabilities stanza s).videoCapability = listContainsToken (ext stanza) videoV1 ∧
    (standardCapabilities stanza s).status = s.status := by
  cases hcaps : stanza.firstNamed qnCapsC with
  | none =>
    have hvoiceNil : listContainsToken [] voiceV1 = false := by decide
    have hvideoNil : listContainsToken [] videoV1 = false := by decide
    simp [standardCapabilities, ext, hcaps, hvoice, hvideo, hvoiceNil, hvideoNil]
  | some caps => simp [standardCapabilities, ext, hcaps, hvoice, hvideo]

theorem tuentiCapabilities_none : tuentiCapabilities stanza s = none ↔
    ∃ td, stanza.firstNamed qnTuentiData = some td ∧ td.firstNamed qnTuentiCaps = none := by
  cases htd : stanza.firstNamed qnTuentiData with
  | none => simp [tuentiCapabilities, htd]
  | some td =>
    cases hcaps : td.firstNamed qnTuentiCaps with
    | none => simp [tuentiCapabilities, htd, hcaps]
    | some caps =>
      cases hvoip : (caps.firstNamed qnTuentiVoice).isSome <;>
        simp [tuentiCapabilities, htd, hcaps, hvoip]

theorem tuentiCapabilities_some {t : Status} (hvoice : s.voiceCapability = false)
    (h : tuentiCapabilities stanza s = some t) :
    (t.voiceCapability = true ↔ HasVoip stanza) ∧ t.videoCapability = s.videoCapability ∧
      t.status = s.status := by
  cases htd : stanza.firstNamed qnTuentiData with
  | none =>
    simp only [tuentiCapabilities, htd, Option.some.injEq] at h
    simp [← h, hvoice, HasVoip, htd]
  | some td =>
    cases hcaps : td.firstNamed qnTuentiCaps with
    | none => simp [tuentiCapabilities, htd, hcaps] at h
    | some caps =>
      cases hvoip : (caps.firstNamed qnTuentiVoice).isSome with
      | false =>
        simp [tuentiCapabilities, htd, hcaps, hvoip] at h
        simp [← h, hvoice, HasVoip, htd, hcaps, hvoip]
      | true =>
        simp [tuentiCapabilities, htd, hcaps, hvoip] at h
        simp [← h, HasVoip, htd, hcaps, hvoip]

end Filled

theorem voiceV1_ne_nil : voiceV1 ≠ [] := by decide

theorem videoV1_ne_nil : videoV1 ≠ [] := by decide

theorem word_iff {list token : List UInt8} (htoken : token ≠ []) {b : Bool}
    (hb : b = listContainsToken list token) :
    (b = true ↔ IsWord list token) ↔ (IsWord list token → FirstIsWord list token) := by
  have hfirst := listContainsToken_iff list htoken
  rw [hb, hfirst]
  exact ⟨fun h => h.mpr, fun h => ⟨FirstIsWord.isWord, h⟩⟩

/-- A presence stanza is decoded as it is meant to be exactly if its extensions name a
capability first where they name it as a word, and if the data of the other build has its
capabilities. -/
theorem fillStatus_right_iff (build : Build) (sender : Jid) (stanza : ByteElement) :
    (∃ s, fillStatus build sender stanza {} = some s ∧ Right stanza s) ↔ Decodes build stanza := by
  by_cases hgone : stanza.attr qnType = strUnavailable
  · rw [Decodes.eq_def, if_pos hgone]
    simp only [fillStatus, if_pos hgone, Option.some.injEq, exists_eq_left']
    rw [← statusKept_nil_iff]
    constructor
    · intro h
      exact ⟨by simpa using h.voice, by simpa using h.video, h.status⟩
    · rintro ⟨hvoice, hvideo, hstatus⟩
      exact ⟨by simpa using hvoice, by simpa using hvideo, hstatus⟩
  · rw [Decodes.eq_def, if_neg hgone]
    let start : Status := { jid := sender, available := true }
    let shown : Status := { statusOf stanza start with showState := showOf stanza }
    obtain ⟨hvoice, hvideo⟩ : shown.voiceCapability = false ∧ shown.videoCapability = false :=
      kept_statusOf
    have hstatus : shown.status = truncated (statusText stanza) := status_statusOf rfl
    have hkept := truncated_kept (statusText stanza)
    cases build with
    | standard =>
      obtain ⟨hv, hd, hs⟩ := standardCapabilities_spec stanza hvoice hvideo
      have hfill : fillStatus .standard sender stanza {} =
          some (nickOf stanza (sentTimeOf stanza (standardCapabilities stanza shown))) := by
        simp [fillStatus, hgone, shown, start]
      rw [hfill]
      simp only [Option.some.injEq, exists_eq_left']
      rw [← word_iff voiceV1_ne_nil hv, ← word_iff videoV1_ne_nil hd]
      constructor
      · intro h
        exact ⟨by simpa using h.voice, by simpa using h.video⟩
      · rintro ⟨hword, hword'⟩
        refine ⟨by simpa using hword, by simpa using hword', ?_⟩
        simpa [hs, hstatus] using hkept
    | tuenti =>
      cases hcaps : tuentiCapabilities stanza shown with
      | none =>
        have hfill : fillStatus .tuenti sender stanza {} = none := by
          simp [fillStatus, hgone, shown, start] at hcaps ⊢
          simp [hcaps]
        obtain ⟨td, htd, hnone⟩ := tuentiCapabilities_none.mp hcaps
        rw [hfill]
        constructor
        · rintro ⟨s, hs, -⟩
          cases hs
        · rintro ⟨hsome, -⟩
          have hbad := hsome td htd
          simp [hnone] at hbad
      | some t =>
        have hfill : fillStatus .tuenti sender stanza {} =
            some (nickOf stanza (sentTimeOf stanza t)) := by
          simp [fillStatus, hgone, shown, start] at hcaps ⊢
          simp [hcaps]
        obtain ⟨hv, hd, hs⟩ := tuentiCapabilities_some hvoice hcaps
        have hsome : ∀ td, stanza.firstNamed qnTuentiData = some td →
            (td.firstNamed qnTuentiCaps).isSome = true := by
          intro td htd
          cases hc : td.firstNamed qnTuentiCaps with
          | none =>
            have hbad : tuentiCapabilities stanza shown = none :=
              tuentiCapabilities_none.mpr ⟨td, htd, hc⟩
            simp [hcaps] at hbad
          | some caps => rfl
        rw [hfill]
        simp only [Option.some.injEq, exists_eq_left']
        constructor
        · intro h
          refine ⟨hsome, ?_, ?_⟩
          · rw [← hv]
            simpa using h.voice
          · have hnot := h.video
            simpa [hd, hvideo] using hnot
        · rintro ⟨-, hword, hnot⟩
          refine ⟨?_, ?_, ?_⟩
          · rw [← hv] at hword
            simpa using hword
          · simpa [hd, hvideo] using hnot
          · simpa [hs, hstatus] using hkept

/-- The extensions name the voice in another word before its own. -/
def shadowed : ByteElement :=
  ({ name := qnPresence } : ByteElement).addElement
    ((ByteElement.withNs qnCapsC).addAttr qnExt (stringBytes "xvoice-v1 voice-v1"))

def bareData : ByteElement :=
  ({ name := qnPresence } : ByteElement).addElement (.withNs qnTuentiData)

theorem shadowed_voice_missed :
    (¬ ∃ s, fillStatus .standard {} shadowed {} = some s ∧ Right shadowed s) ∧
      ¬ ∃ s, fillStatus .tuenti {} bareData {} = some s ∧ Right bareData s := by
  constructor
  · rintro ⟨s, hs, hright⟩
    have hword : IsWord (ext shadowed) voiceV1 :=
      ⟨stringBytes "xvoice-v1 ", [], by decide, fun c hc => by cases hc; rfl,
        fun c hc => by cases hc⟩
    have hvoice := hright.voice.mpr hword
    have hfalse : (fillStatus .standard {} shadowed {}).map Status.voiceCapability = some false := by
      decide
    simp [hs, hvoice] at hfalse
  · rintro ⟨s, hs, -⟩
    have hnone : fillStatus .tuenti {} bareData {} = none := by decide
    simp [hs] at hnone

end RosterHandler

end Libjingle
