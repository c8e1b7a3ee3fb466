import Libjingle.Media.OfferedIds

/-! Which codecs and header extensions an answer has. A codec of ours is negotiated for each of
theirs that it matches, so that the answer has it under their id. -/

namespace Libjingle

section Codecs

open IsCodec

variable {C : Type} [IsCodec C]

def preference (c : C) : Int := (codec c).preference

def feedbackOf (c : C) : FeedbackParams := (codec c).feedbackParams

/-- A codec for retransmissions is negotiated only if theirs says for which codec it is. -/
def isNegotiable (ours theirs : C) : Bool :=
  !isRtxCodec ours || (getParam theirs kCodecParamAssociatedPayloadType).isSome

structure Negotiated (ours theirs c : C) : Prop where
  id : IsCodec.id c = IsCodec.id theirs
  name : (codec c).name = (codec ours).name
  preference : preference c = preference ours

def CommonFeedback (ours theirs c : C) : Prop :=
  feedbackOf c = (feedbackOf ours).intersect (feedbackOf theirs)

/-- The answered codecs are those of theirs that match one of ours, each of them once. -/
def IsIntersection (ours theirs answered : List C) : Prop :=
  ∃ pairs : List (C × C), (∀ p ∈ pairs, p.1 ∈ ours ∧ isMatch p.1 p.2 = true) ∧
    (pairs.map (·.2)).Perm (theirs.filter fun c => ours.any (isMatch · c)) ∧
    (pairs.Pairwise fun p q => preference q.1 ≤ preference p.1) ∧
    List.Forall₂ (fun p c => Negotiated p.1 p.2 c ∧ CommonFeedback p.1 p.2 c) pairs answered

/-- The codecs that are matched, in the order of our preference. One that only one of ours matches
is answered once. -/
structure Negotiation (ours theirs answered : List C) (pairs : List (C × C)) : Prop where
  entries : List.Forall₂ (fun p c => Negotiated p.1 p.2 c) pairs answered
  sound : ∀ p ∈ pairs, p.1 ∈ ours ∧ p.2 ∈ theirs ∧ isMatch p.1 p.2 = true ∧
    isNegotiable p.1 p.2 = true
  complete : ∀ a ∈ ours, ∀ b ∈ theirs, isMatch a b = true → isNegotiable a b = true →
    b ∈ pairs.map (·.2)
  once : (theirs.map IsCodec.id).Nodup → ∀ b ∈ theirs, ours.countP (isMatch · b) = 1 →
    answered.countP (fun c => IsCodec.id c = IsCodec.id b) ≤ 1
  ordered : pairs.Pairwise fun p q => preference q.1 ≤ preference p.1
  feedback : ((∀ a b : C, assign a b = b) ∨
      ours.Pairwise fun a b => preference b ≤ preference a) →
    List.Forall₂ (fun p c => CommonFeedback p.1 p.2 c) pairs answered

def negotiatedPairs (ours theirs : List C) : List (C × C) :=
  ours.flatMap fun a => (theirs.filter fun b => isMatch a b && isNegotiable a b).map (Prod.mk a)

def negotiatedOf (p : C × C) : C := (negotiateCodec p.1 p.2).getD p.1

theorem mem_negotiatedPairs {ours theirs : List C} {p : C × C} :
    p ∈ negotiatedPairs ours theirs ↔ p.1 ∈ ours ∧ p.2 ∈ theirs ∧ isMatch p.1 p.2 = true ∧
      isNegotiable p.1 p.2 = true := by
  rw [negotiatedPairs, List.mem_flatMap]
  constructor
  · rintro ⟨a, ha, hp⟩
    obtain ⟨b, hb, rfl⟩ := List.mem_map.mp hp
    obtain ⟨hmem, hboth⟩ := List.mem_filter.mp hb
    obtain ⟨hmatch, hnegotiable⟩ := Bool.and_eq_true_iff.mp hboth
    exact ⟨ha, hmem, hmatch, hnegotiable⟩
  · rintro ⟨ha, hb, hmatch, hnegotiable⟩
    refine ⟨p.1, ha, List.mem_map.mpr ⟨p.2, List.mem_filter.mpr ⟨hb, ?_⟩, rfl⟩⟩
    rw [hmatch, hnegotiable]
    rfl

variable [LawfulCodec C]

theorem negotiateCodec_spec (ours theirs : C) :
    if isNegotiable ours theirs then
      ∃ c, negotiateCodec ours theirs = some c ∧ Negotiated ours theirs c ∧
        CommonFeedback ours theirs c
    else negotiateCodec ours theirs = none := by
  have hname : (codec (intersectFeedbackParams ours theirs)).name = (codec ours).name := by
    rw [intersectFeedbackParams, LawfulCodec.codec_setCodec]
  have hrtx : isRtxCodec (intersectFeedbackParams ours theirs) = isRtxCodec ours := by
    rw [isRtxCodec, hname, isRtxCodec]
  rw [negotiateCodec, hrtx, isNegotiable]
  cases hours : isRtxCodec ours with
  | false =>
    refine ⟨_, rfl, ⟨?_, ?_, ?_⟩, ?_⟩ <;>
      simp [IsCodec.id, preference, CommonFeedback, feedbackOf, setId, intersectFeedbackParams,
        LawfulCodec.codec_setCodec]
  | true =>
    cases hapt : getParam theirs kCodecParamAssociatedPayloadType with
    | none => simp
    | some apt =>
      refine ⟨_, rfl, ⟨?_, ?_, ?_⟩, ?_⟩ <;>
        simp [IsCodec.id, preference, CommonFeedback, feedbackOf, setId, setParam,
          intersectFeedbackParams, LawfulCodec.codec_setCodec]

theorem negotiateCodecs_eq (ours theirs : List C) :
    negotiateCodecs ours theirs = (negotiatedPairs ours theirs).map negotiatedOf := by
  have hone : ∀ (a : C) (l : List C),
      (l.filter (isMatch a)).filterMap (negotiateCodec a) =
        ((l.filter fun b => isMatch a b && isNegotiable a b).map (Prod.mk a)).map negotiatedOf := by
    intro a l
    induction l with
    | nil => rfl
    | cons b l ih =>
      have hspec := negotiateCodec_spec a b
      rw [List.filter_cons, List.filter_cons]
      by_cases hmatch : isMatch a b = true
      · by_cases hnegotiable : isNegotiable a b = true
        · rw [if_pos hnegotiable] at hspec
          obtain ⟨c, hc, -⟩ := hspec
          rw [if_pos hmatch, if_pos (by rw [hmatch, hnegotiable]; rfl), List.filterMap_cons, hc,
            List.map_cons, List.map_cons, ih, negotiatedOf, hc]
          rfl
        · rw [if_neg hnegotiable] at hspec
          rw [if_pos hmatch, if_neg (by simp [hnegotiable]), List.filterMap_cons, hspec, ih]
      · rw [if_neg hmatch, if_neg (by simp [hmatch]), ih]
  rw [negotiateCodecs, negotiatedPairs, List.map_flatMap]
  exact List.flatMap_congr fun a _ => hone a theirs

theorem negotiated_negotiatedOf {ours theirs : List C} {p : C × C}
    (h : p ∈ negotiatedPairs ours theirs) :
    Negotiated p.1 p.2 (negotiatedOf p) ∧ CommonFeedback p.1 p.2 (negotiatedOf p) := by
  have hspec := negotiateCodec_spec p.1 p.2
  rw [if_pos (mem_negotiatedPairs.mp h).2.2.2] at hspec
  obtain ⟨c, hc, hnegotiated, hfeedback⟩ := hspec
  rw [negotiatedOf, hc]
  exact ⟨hnegotiated, hfeedback⟩

/-- The pairs in the order in which the codecs are sorted. -/
def sortedPairs (ours theirs : List C) : List (C × C) :=
  (negotiatedPairs ours theirs).insertionSort fun p q => preference q.1 ≤ preference p.1

theorem map_sortedPairs (ours theirs : List C) : (sortedPairs ours theirs).map negotiatedOf =
    (negotiateCodecs ours theirs).insertionSort
      fun a b => (codec a).preference ≥ (codec b).preference := by
  rw [negotiateCodecs_eq, sortedPairs]
  refine List.map_insertionSort _ _ _ _ fun p hp q hq => ?_
  rw [ge_iff_le, ← preference, ← preference, (negotiated_negotiatedOf hp).1.preference,
    (negotiated_negotiatedOf hq).1.preference]

omit [LawfulCodec C] in
theorem sortedPairs_perm (ours theirs : List C) :
    (sortedPairs ours theirs).Perm (negotiatedPairs ours theirs) := List.perm_insertionSort _ _

omit [LawfulCodec C] in
theorem forall₂_zipWith_assign {R : C × C → C → Prop} {pairs : List (C × C)} {slots : List C}
    (hlength : slots.length = pairs.length)
    (h : ∀ p ∈ pairs, ∀ slot, R p (assign slot (negotiatedOf p))) :
    List.Forall₂ R pairs (List.zipWith assign slots (pairs.map negotiatedOf)) := by
  induction pairs generalizing slots with
  | nil =>
    rw [List.map_nil, List.zipWith_nil_right]
    exact .nil
  | cons p pairs ih =>
    cases slots with
    | nil => cases hlength
    | cons slot slots =>
      rw [List.map_cons, List.zipWith_cons_cons]
      exact .cons (h p List.mem_cons_self slot)
        (ih (Nat.succ.inj hlength) fun q hq => h q (List.mem_cons_of_mem _ hq))

theorem forall₂_sortCodecs {R : C × C → C → Prop} {ours theirs : List C}
    (h : ∀ p ∈ sortedPairs ours theirs, ∀ slot, R p (assign slot (negotiatedOf p))) :
    List.Forall₂ R (sortedPairs ours theirs) (sortCodecs (negotiateCodecs ours theirs)) := by
  rw [sortCodecs, ← map_sortedPairs]
  refine forall₂_zipWith_assign ?_ h
  rw [negotiateCodecs_eq, List.length_map, (sortedPairs_perm ours theirs).length_eq]

theorem zipWith_assign_self (l : List C) : List.zipWith assign l l = l := by
  induction l with
  | nil => rfl
  | cons c l ih => rw [List.zipWith_cons_cons, LawfulCodec.assign_self, ih]

theorem negotiated_assign {a b c : C} (h : Negotiated a b c) (slot : C) :
    Negotiated a b (assign slot c) where
  id := (LawfulCodec.id_assign slot c).trans h.id
  name := (LawfulCodec.name_assign slot c).trans h.name
  preference := (LawfulCodec.preference_assign slot c).trans h.preference

omit [LawfulCodec C] in
theorem countP_negotiatedPairs {ours theirs : List C} (hnodup : (theirs.map IsCodec.id).Nodup)
    {b : C} (hb : b ∈ theirs) :
    (negotiatedPairs ours theirs).countP (fun p => IsCodec.id p.2 = IsCodec.id b) ≤
      ours.countP (isMatch · b) := by
  have hsame : ∀ c ∈ theirs, IsCodec.id c = IsCodec.id b → c = b := fun c hc heq =>
    List.inj_on_of_nodup_map hnodup hc hb heq
  have honly : (theirs.countP fun c => IsCodec.id c = IsCodec.id b) ≤ 1 := by
    have hcount := List.nodup_iff_count_le_one.mp hnodup (IsCodec.id b)
    rw [List.count, List.countP_map] at hcount
    exact hcount
  induction ours with
  | nil => exact Nat.zero_le _
  | cons a ours ih =>
    rw [negotiatedPairs, List.flatMap_cons, List.countP_append, List.countP_map, List.countP_cons]
    rw [negotiatedPairs] at ih
    have hfirst : (theirs.filter fun c => isMatch a c && isNegotiable a c).countP
        ((fun p : C × C => decide (IsCodec.id p.2 = IsCodec.id b)) ∘ Prod.mk a) ≤
          if isMatch a b = true then 1 else 0 := by
      by_cases hmatch : isMatch a b = true
      · rw [if_pos hmatch]
        exact le_trans (List.filter_sublist.countP_le) honly
      · rw [if_neg hmatch, Nat.le_zero, List.countP_eq_zero]
        intro c hc heq
        obtain ⟨hc, hboth⟩ := List.mem_filter.mp hc
        rw [hsame c hc (of_decide_eq_true heq)] at hboth
        exact hmatch (Bool.and_eq_true_iff.mp hboth).1
    omega

omit [LawfulCodec C] in
theorem pairwise_negotiatedPairs {ours theirs : List C}
    (h : ours.Pairwise fun a b => preference b ≤ preference a) :
    (negotiatedPairs ours theirs).Pairwise fun p q => preference q.1 ≤ preference p.1 := by
  induction ours with
  | nil => exact .nil
  | cons a ours ih =>
    obtain ⟨hfirst, hrest⟩ := List.pairwise_cons.mp h
    rw [negotiatedPairs, List.flatMap_cons, List.pairwise_append]
    refine ⟨?_, ih hrest, ?_⟩
    · rw [List.pairwise_map]
      exact List.pairwise_of_forall fun _ _ => le_refl _
    · intro p hp q hq
      obtain ⟨b, -, rfl⟩ := List.mem_map.mp hp
      exact hfirst q.1 (mem_negotiatedPairs.mp hq).1

theorem negotiation_sortCodecs (ours theirs : List C) :
    Negotiation ours theirs (sortCodecs (negotiateCodecs ours theirs))
      (sortedPairs ours theirs) := by
  have hmem : ∀ p, p ∈ sortedPairs ours theirs ↔ p ∈ negotiatedPairs ours theirs := fun p =>
    (sortedPairs_perm ours theirs).mem_iff
  have hentries : List.Forall₂ (fun p c => Negotiated p.1 p.2 c) (sortedPairs ours theirs)
      (sortCodecs (negotiateCodecs ours theirs)) :=
    forall₂_sortCodecs fun p hp slot =>
      negotiated_assign (negotiated_negotiatedOf ((hmem p).mp hp)).1 slot
  refine ⟨hentries, fun p hp => mem_negotiatedPairs.mp ((hmem p).mp hp), ?_, ?_, ?_, ?_⟩
  · intro a ha b hb hmatch hnegotiable
    have hp : (a, b) ∈ sortedPairs ours theirs :=
      (hmem _).mpr (mem_negotiatedPairs.mpr ⟨ha, hb, hmatch, hnegotiable⟩)
    exact List.mem_map.mpr ⟨(a, b), hp, rfl⟩
  · intro hnodup b hb hone
    have hcount : ∀ (pairs : List (C × C)) (answered : List C),
        List.Forall₂ (fun p c => Negotiated p.1 p.2 c) pairs answered →
          answered.countP (fun c => IsCodec.id c = IsCodec.id b) =
            pairs.countP fun p => IsCodec.id p.2 = IsCodec.id b := by
      intro pairs answered hall
      induction hall with
      | nil => rfl
      | cons hpc _ ih => rw [List.countP_cons, List.countP_cons, ih, hpc.id]
    rw [hcount _ _ hentries, (sortedPairs_perm ours theirs).countP_eq, ← hone]
    exact countP_negotiatedPairs hnodup hb
  · have htotal : Std.Total fun p q : C × C => preference q.1 ≤ preference p.1 :=
      ⟨fun p q => le_total _ _⟩
    have htrans : IsTrans (C × C) fun p q => preference q.1 ≤ preference p.1 :=
      ⟨fun p q r hpq hqr => le_trans hqr hpq⟩
    exact List.pairwise_insertionSort _ _
  · rintro (hcopies | hsorted)
    · refine forall₂_sortCodecs fun p hp slot => ?_
      rw [hcopies]
      exact (negotiated_negotiatedOf ((hmem p).mp hp)).2
    · have hsame : sortedPairs ours theirs = negotiatedPairs ours theirs :=
        (pairwise_negotiatedPairs hsorted).insertionSort_eq
      rw [sortCodecs, ← map_sortedPairs, hsame, negotiateCodecs_eq, zipWith_assign_self]
      rw [List.forall₂_map_right_iff, List.forall₂_same]
      exact fun p hp => (negotiated_negotiatedOf hp).2

end Codecs

section Extensions

variable {ours theirs : List RtpHeaderExtension}

/-- The extensions of theirs whose URI ours have too. -/
def commonExtensions (ours theirs : List RtpHeaderExtension) : List RtpHeaderExtension :=
  theirs.filter fun ext => ours.any (·.uri = ext.uri)

/-- The first extension of theirs for each URI that both have. -/
structure ExtensionsNegotiated (ours theirs answered : List RtpHeaderExtension) : Prop where
  first : ∀ ext, ext ∈ answered ↔ findByUri theirs ext.uri = some ext ∧
    ∃ own ∈ ours, own.uri = ext.uri
  distinct : (ours.map (·.uri)).Nodup → (theirs.map (·.uri)).Nodup →
    answered.Perm (commonExtensions ours theirs)

theorem uri_of_findByUri {uri : String} {ext : RtpHeaderExtension}
    (h : findByUri theirs uri = some ext) : ext.uri = uri := by
  have hfound := List.find?_some h
  exact of_decide_eq_true hfound

theorem findByUri_of_mem (hnodup : (theirs.map (·.uri)).Nodup) {ext : RtpHeaderExtension}
    (h : ext ∈ theirs) : findByUri theirs ext.uri = some ext := by
  cases hfound : findByUri theirs ext.uri with
  | none => exact absurd (decide_eq_true rfl) (List.find?_eq_none.mp hfound ext h)
  | some found =>
    have hsame := List.inj_on_of_nodup_map hnodup (List.mem_of_find?_eq_some hfound) h
      (uri_of_findByUri hfound)
    rw [hsame]

theorem mem_negotiateRtpHeaderExtensions {ext : RtpHeaderExtension} :
    ext ∈ negotiateRtpHeaderExtensions ours theirs ↔ findByUri theirs ext.uri = some ext ∧
      ∃ own ∈ ours, own.uri = ext.uri := by
  rw [negotiateRtpHeaderExtensions, List.mem_filterMap]
  constructor
  · rintro ⟨own, hown, hfound⟩
    have huri := uri_of_findByUri hfound
    rw [huri]
    exact ⟨hfound, own, hown, rfl⟩
  · rintro ⟨hfound, own, hown, huri⟩
    exact ⟨own, hown, huri ▸ hfound⟩

theorem uri_negotiateRtpHeaderExtensions :
    ((negotiateRtpHeaderExtensions ours theirs).map (·.uri)).Sublist (ours.map (·.uri)) := by
  induction ours with
  | nil => exact List.Sublist.refl _
  | cons own ours ih =>
    rw [negotiateRtpHeaderExtensions, List.filterMap_cons]
    cases hfound : findByUri theirs own.uri with
    | none => exact ih.cons _
    | some ext =>
      dsimp only
      rw [List.map_cons, List.map_cons, uri_of_findByUri hfound]
      exact ih.cons_cons _

theorem extensionsNegotiated (ours theirs : List RtpHeaderExtension) :
    ExtensionsNegotiated ours theirs (negotiateRtpHeaderExtensions ours theirs) := by
  refine ⟨fun ext => mem_negotiateRtpHeaderExtensions, fun hours htheirs => ?_⟩
  have hnodup : (negotiateRtpHeaderExtensions ours theirs).Nodup :=
    List.Nodup.of_map _ (hours.sublist uri_negotiateRtpHeaderExtensions)
  have hcommon : (commonExtensions ours theirs).Nodup :=
    (List.Nodup.of_map _ htheirs).sublist List.filter_sublist
  refine (List.perm_ext_iff_of_nodup hnodup hcommon).mpr fun ext => ?_
  rw [mem_negotiateRtpHeaderExtensions, commonExtensions, List.mem_filter, List.any_eq_true]
  constructor
  · rintro ⟨hfound, own, hown, huri⟩
    exact ⟨List.mem_of_find?_eq_some hfound, own, hown, decide_eq_true huri⟩
  · rintro ⟨hmem, own, hown, huri⟩
    exact ⟨findByUri_of_mem htheirs hmem, own, hown, of_decide_eq_true huri⟩

end Extensions

namespace MediaSessionDescriptionFactory

variable {f : MediaSessionDescriptionFactory} {rng : RandomGenerator} {rounds : Nat}
  {offer : MediaSessionDescription} {options : MediaSessionOptions}
  {current : Option MediaSessionDescription}

/-- Our audio codecs, those for comfort noise only where voice activity is detected. -/
def ourAudioCodecs (f : MediaSessionDescriptionFactory) (options : MediaSessionOptions) :
    List AudioCodec :=
  if options.vadEnabled then f.audioCodecs else stripCNCodecs f.audioCodecs

/-- The codecs and the extensions of an offered and an answered description are as they should be
with ours. -/
def AnswersWith (P : ∀ (C : Type) [IsCodec C], List C → List C → List C → Prop)
    (E : List RtpHeaderExtension → List RtpHeaderExtension → List RtpHeaderExtension → Prop)
    (f : MediaSessionDescriptionFactory) (options : MediaSessionOptions) :
    MediaDescription → MediaDescription → Prop
  | .audio d, .audio a => P AudioCodec (ourAudioCodecs f options) d.codecs a.codecs ∧
      E f.audioRtpExtensions d.rtpHeaderExtensions a.rtpHeaderExtensions
  | .video d, .video a => P VideoCodec f.videoCodecs d.codecs a.codecs ∧
      E f.videoRtpExtensions d.rtpHeaderExtensions a.rtpHeaderExtensions
  | .data d, .data a => P DataCodec f.dataCodecs d.codecs a.codecs ∧
      E [] d.rtpHeaderExtensions a.rtpHeaderExtensions
  | _, _ => False

/-- A content answers the first one of a kind in the offer, and has its name. -/
def Answering (R : MediaDescription → MediaDescription → Prop) (offer : MediaSessionDescription)
    (content : MediaContentInfo) : Prop :=
  ∃ type offered, getFirstMediaContent offer.contents type = some offered ∧
    offered.name = content.name ∧
      ∃ d m, mediaDescription offered = some d ∧ mediaDescription content = some m ∧ R d m

section Run

variable {R : MediaDescription → MediaDescription → Prop}

theorem answering_withCryptos
    (hcryptos : ∀ d m (cryptos : List CryptoParams), R d (m.setCryptos cryptos) ↔ R d m)
    (cryptos : List CryptoParams) (content : MediaContentInfo) :
    Answering R offer (withCryptos cryptos content) = Answering R offer content := by
  rw [Answering, Answering, name_withCryptos, mediaDescription_withCryptos]
  refine propext (exists_congr fun type => exists_congr fun offered => and_congr_right fun _ =>
    and_congr_right fun _ => exists_congr fun d => ?_)
  cases mediaDescription content with
  | none => simp
  | some m =>
    constructor
    · rintro ⟨_, hd, hm, hR⟩
      obtain rfl := Option.some.inj hm
      exact ⟨m, hd, rfl, (hcryptos d m cryptos).mp hR⟩
    · rintro ⟨_, hd, hm, hR⟩
      obtain rfl := Option.some.inj hm
      exact ⟨_, hd, rfl, (hcryptos d m cryptos).mpr hR⟩

theorem answering_answerContent {type : MediaType}
    {s s' : MediaSessionDescription × List StreamParams} {n k : Nat}
    (hbandwidth : ∀ d m, R d (setBandwidth options m) ↔ R d m)
    (hanswer : ∀ policy streams d m n k,
      f.answerDescription rng rounds offer options current policy streams d n = .ok (m, k) →
        R d m.1)
    (hs : ∀ content ∈ s.1.contents, Answering R offer content)
    (h : f.answerContent rng rounds offer options current type s n = .ok (s', k)) :
    ∀ content ∈ s'.1.contents, Answering R offer content := by
  rcases answerContent_adds h with ⟨-, rfl⟩ | ⟨content, offered, _, media, _, _, hfound, hoffered,
    hmedia, rejected, added, hadded, hcontents⟩
  · exact hs
  · have hsome : (mediaDescription content).isSome := by
      rw [hoffered]
      rfl
    have hR : R offered added := by
      rcases hadded with rfl | rfl
      · exact hanswer _ _ _ _ _ _ hmedia
      · exact (hbandwidth _ _).mpr (hanswer _ _ _ _ _ _ hmedia)
    intro other hother
    rw [hcontents] at hother
    rcases List.mem_append.mp hother with hold | hlast
    · exact hs other hold
    · rw [List.mem_singleton.mp hlast]
      exact ⟨type, content, hfound, rfl, offered, added, hoffered,
        mediaDescription_of_type hsome rfl rfl, hR⟩

/-- What holds of each answered description, whatever its cryptos and its bandwidth, holds of the
contents of an answer. -/
theorem answering_createAnswer
    (hcryptos : ∀ d m (cryptos : List CryptoParams), R d (m.setCryptos cryptos) ↔ R d m)
    (hbandwidth : ∀ d m, R d (setBandwidth options m) ↔ R d m)
    (hanswer : ∀ policy streams d m n k,
      f.answerDescription rng rounds offer options current policy streams d n = .ok (m, k) →
        R d m.1) {n k : Nat} {answer : MediaSessionDescription}
    (h : f.createAnswer rng rounds offer options current n = .ok (answer, k)) :
    ∀ content ∈ answer.contents, Answering R offer content := by
  obtain ⟨s₁, s₂, s₃, _, _, _, haudio, hvideo, hdata, hend⟩ := createAnswer_runs h
  have h₁ := answering_answerContent hbandwidth hanswer
    (fun content hcontent => absurd hcontent List.not_mem_nil) haudio
  have h₂ := answering_answerContent hbandwidth hanswer h₁ hvideo
  have h₃ := answering_answerContent hbandwidth hanswer h₂ hdata
  rcases hend with rfl | ⟨group, hbundle⟩
  · exact h₃
  · intro content hcontent
    have hsame := map_contents_bundle (@answering_withCryptos offer R hcryptos) hbundle
    have hmem : Answering R offer content ∈ s₃.1.contents.map (Answering R offer) := by
      rw [← hsame]
      exact List.mem_map_of_mem hcontent
    obtain ⟨before, hbefore, heq⟩ := List.mem_map.mp hmem
    rw [← heq]
    exact h₃ before hbefore

end Run

theorem createMediaContentAnswer_lists {C : Type} [IsCodec C] {type : MediaType}
    {d : MediaContentDescriptionImpl C} {codecs : List C} {policy : SecurePolicy}
    {cryptos : Option (List CryptoParams)} {extensions : List RtpHeaderExtension}
    {streams : List StreamParams} {legacy bundleEnabled : Bool} {n k : Nat}
    {result : MediaContentDescriptionImpl C × List StreamParams}
    (h : createMediaContentAnswer rng rounds type d options codecs policy cryptos extensions
      streams legacy bundleEnabled n = .ok (result, k)) :
    result.1.codecs = IsCodec.sortCodecs (negotiateCodecs codecs d.codecs) ∧
      result.1.rtpHeaderExtensions =
        negotiateRtpHeaderExtensions extensions d.rtpHeaderExtensions := by
  obtain ⟨_, _, -, h⟩ := Draw.bind_ok.mp h
  obtain ⟨_, _, -, h⟩ := Draw.bind_ok.mp h
  obtain ⟨next, _, hnext, h⟩ := Draw.bind_ok.mp h
  obtain ⟨rfl, -⟩ := Draw.pure_ok.mp h
  exact ⟨rfl, addStreamParams_same (φ := (·.rtpHeaderExtensions)) (fun _ _ _ => rfl) hnext⟩

section Answers

variable {P : ∀ (C : Type) [IsCodec C], List C → List C → List C → Prop}
  {E : List RtpHeaderExtension → List RtpHeaderExtension → List RtpHeaderExtension → Prop}

theorem answersWith_answerDescription
    (hP : ∀ (C : Type) [IsCodec C] [LawfulCodec C] (ours theirs : List C),
      P C ours theirs (IsCodec.sortCodecs (negotiateCodecs ours theirs)))
    (hE : ∀ ours theirs, E ours theirs (negotiateRtpHeaderExtensions ours theirs))
    {policy : SecurePolicy} {streams : List StreamParams} {d : MediaDescription} {n k : Nat}
    {m : MediaDescription × List StreamParams}
    (h : f.answerDescription rng rounds offer options current policy streams d n = .ok (m, k)) :
    AnswersWith P E f options d m.1 := by
  cases d with
  | audio d =>
    obtain ⟨answer, _, hanswer, h⟩ := Draw.bind_ok.mp h
    obtain ⟨rfl, -⟩ := Draw.pure_ok.mp h
    obtain ⟨hcodecs, hextensions⟩ := createMediaContentAnswer_lists hanswer
    rw [AnswersWith, hcodecs, hextensions]
    exact ⟨hP AudioCodec _ _, hE _ _⟩
  | video d =>
    obtain ⟨answer, _, hanswer, h⟩ := Draw.bind_ok.mp h
    obtain ⟨rfl, -⟩ := Draw.pure_ok.mp h
    obtain ⟨hcodecs, hextensions⟩ := createMediaContentAnswer_lists hanswer
    rw [AnswersWith, hcodecs, hextensions]
    exact ⟨hP VideoCodec _ _, hE _ _⟩
  | data d =>
    obtain ⟨answer, _, hanswer, h⟩ := Draw.bind_ok.mp h
    obtain ⟨rfl, -⟩ := Draw.pure_ok.mp h
    obtain ⟨hcodecs, hextensions⟩ := createMediaContentAnswer_lists hanswer
    rw [AnswersWith, hcodecs, hextensions]
    exact ⟨hP DataCodec _ _, hE _ _⟩

theorem answersWith_createAnswer
    (hP : ∀ (C : Type) [IsCodec C] [LawfulCodec C] (ours theirs : List C),
      P C ours theirs (IsCodec.sortCodecs (negotiateCodecs ours theirs)))
    (hE : ∀ ours theirs, E ours theirs (negotiateRtpHeaderExtensions ours theirs))
    {n k : Nat} {answer : MediaSessionDescription}
    (h : f.createAnswer rng rounds offer options current n = .ok (answer, k)) :
    ∀ content ∈ answer.contents, Answering (AnswersWith P E f options) offer content := by
  refine answering_createAnswer ?_ ?_ (fun _ _ _ _ _ _ => answersWith_answerDescription hP hE) h
  · intro d m cryptos
    cases d <;> cases m <;> exact Iff.rfl
  · intro d m
    cases d <;> cases m <;> exact Iff.rfl

end Answers

def AnswersIntersection (f : MediaSessionDescriptionFactory) (options : MediaSessionOptions)
    (offer answer : MediaSessionDescription) : Prop :=
  ∀ content ∈ answer.contents, Answering (AnswersWith (fun _ _ => IsIntersection)
    (fun ours theirs answered => answered.Perm (commonExtensions ours theirs)) f options)
      offer content

/-- Each content of an answer has the codecs of the offer that are negotiated with ours. -/
def AnswersNegotiated (f : MediaSessionDescriptionFactory) (options : MediaSessionOptions)
    (offer answer : MediaSessionDescription) : Prop :=
  ∀ content ∈ answer.contents, Answering (AnswersWith
    (fun _ _ ours theirs answered => ∃ pairs, Negotiation ours theirs answered pairs)
      ExtensionsNegotiated f options) offer content

def videoFactory (codecs : List VideoCodec) : MediaSessionDescriptionFactory where
  videoCodecs := codecs
  transportDescFactory := some {}

def videoOffer (codecs : List VideoCodec) : MediaSessionDescription where
  contents := [⟨cnVideo, nsJingleRtp, false, some (.video { codecs })⟩]
  transportInfos := [⟨cnVideo, { transportType := nsGingleP2p }⟩]

def videoCodec (id : Int) (name : String) (preference : Int) : VideoCodec :=
  { id, name, preference }

theorem length_of_isIntersection {C : Type} [IsCodec C] {ours theirs answered : List C}
    (h : IsIntersection ours theirs answered) :
    answered.length = theirs.countP fun c => ours.any (IsCodec.isMatch · c) := by
  obtain ⟨pairs, -, hperm, -, hall⟩ := h
  have hlength := hperm.length_eq
  rw [List.length_map, ← List.countP_eq_length_filter] at hlength
  rw [← hall.length_eq, hlength]

def codecCount (content : MediaContentInfo) : Nat :=
  (listed (fun _ => []) (·.codecEntries) content).2.length

theorem codecCount_of_answersIntersection {ours theirs : List VideoCodec}
    {answer : MediaSessionDescription} {count : Nat}
    (h : AnswersIntersection (videoFactory ours) options (videoOffer theirs) answer)
    (hcount : answer.contents.map codecCount = [count]) :
    count = theirs.countP fun c => ours.any (IsCodec.isMatch · c) := by
  obtain ⟨content, hcontent, rfl⟩ := List.map_eq_singleton_iff.mp hcount
  obtain ⟨type, offered, hfirst, -, d, m, hd, hm, hanswers⟩ :=
    h content (by rw [hcontent]; exact List.mem_singleton.mpr rfl)
  obtain rfl := List.mem_singleton.mp (List.mem_of_find?_eq_some hfirst)
  obtain rfl : MediaDescription.video { codecs := theirs } = d := Option.some.inj hd
  cases m with
  | audio a => exact absurd hanswers id
  | data a => exact absurd hanswers id
  | video a =>
    have hlength := length_of_isIntersection hanswers.1
    rw [← show codecCount content = a.codecs.length by
      rw [codecCount, listed, hm]
      exact List.length_map _] at hlength
    exact hlength

end MediaSessionDescriptionFactory

end Libjingle
