import Libjingle.Media.RtxOffers

/-! Whether the codecs for retransmissions in offers and answers are for codecs that are there. -/

namespace Libjingle

open UsedIds IsCodec

section Codecs

variable {C : Type} [IsCodec C]

def RtxRefers (codecs : List C) : Prop :=
  ∀ x ∈ codecs, isRtxCodec x = true → ∃ y ∈ codecs, associatedId x = some (IsCodec.id y)

/-- The codec that an offered one for retransmissions is for is negotiated with it. -/
def RtxNegotiated (ours theirs : List C) : Prop :=
  ∀ p ∈ negotiatedPairs ours theirs, isRtxCodec p.1 = true →
    ∃ q ∈ negotiatedPairs ours theirs, associatedId p.2 = some (IsCodec.id q.2)

def negotiatedApt (p : C × C) : Option Int :=
  if isRtxCodec p.1 then associatedId p.2 else associatedId p.1

/-- As the codecs are sorted the parameters of a place stay there. -/
def RtxNegotiatedInPlace (ours theirs : List C) : Prop :=
  ∀ e ∈ (negotiatedPairs ours theirs).zip (sortedPairs ours theirs), isRtxCodec e.2.1 = true →
    ∃ q ∈ negotiatedPairs ours theirs, negotiatedApt e.1 = some (IsCodec.id q.2)

variable {ours theirs : List C}

theorem isRtxCodec_of_name {c d : C} (h : (codec c).name = (codec d).name) :
    isRtxCodec c = isRtxCodec d := by
  rw [isRtxCodec, h, isRtxCodec]

theorem exists_sortedPair {q : C × C} (hq : q ∈ negotiatedPairs ours theirs) :
    ∃ e ∈ (negotiatedPairs ours theirs).zip (sortedPairs ours theirs), e.2 = q := by
  have hperm := sortedPairs_perm ours theirs
  have hsnd : ((negotiatedPairs ours theirs).zip (sortedPairs ours theirs)).map Prod.snd =
      sortedPairs ours theirs := List.map_snd_zip hperm.length_eq.le
  have hmem := hperm.mem_iff.mpr hq
  rw [← hsnd] at hmem
  exact List.mem_map.mp hmem

variable [LawfulCodec C]

theorem associatedId_negotiatedOf {p : C × C} (h : p ∈ negotiatedPairs ours theirs) :
    associatedId (negotiatedOf p) = negotiatedApt p := by
  have hrtx : isRtxCodec (intersectFeedbackParams p.1 p.2) = isRtxCodec p.1 :=
    isRtxCodec_of_name (by rw [intersectFeedbackParams, LawfulCodec.codec_setCodec])
  have hnegotiable := (mem_negotiatedPairs.mp h).2.2.2
  rw [negotiatedOf, negotiateCodec, hrtx, negotiatedApt]
  cases hours : isRtxCodec p.1 with
  | false =>
    simp [associatedId, getParam, intersectFeedbackParams, LawfulCodec.codec_setCodec]
  | true =>
    rw [isNegotiable, hours] at hnegotiable
    obtain ⟨apt, hapt⟩ := Option.isSome_iff_exists.mp hnegotiable
    simp [associatedId, hapt]

theorem sortCodecs_negotiateCodecs (ours theirs : List C) :
    sortCodecs (negotiateCodecs ours theirs) =
      ((negotiatedPairs ours theirs).zip (sortedPairs ours theirs)).map fun e =>
        assign (negotiatedOf e.1) (negotiatedOf e.2) := by
  rw [sortCodecs, ← map_sortedPairs, negotiateCodecs_eq, List.zipWith_map, List.zip_eq_zipWith,
    List.map_zipWith]

/-- The codecs of an answer refer to one another if and only if the assigned ones name an id of
theirs that is negotiated. -/
theorem rtxRefers_sortCodecs : RtxRefers (sortCodecs (negotiateCodecs ours theirs)) ↔
    ∀ e ∈ (negotiatedPairs ours theirs).zip (sortedPairs ours theirs), isRtxCodec e.2.1 = true →
      ∃ q ∈ negotiatedPairs ours theirs,
        associatedId (assign (negotiatedOf e.1) (negotiatedOf e.2)) = some (IsCodec.id q.2) := by
  have hperm := sortedPairs_perm ours theirs
  have hpairs : ∀ e ∈ (negotiatedPairs ours theirs).zip (sortedPairs ours theirs),
      e.2 ∈ negotiatedPairs ours theirs := fun e he =>
    hperm.mem_iff.mp (List.of_mem_zip he).2
  have hentry : ∀ e ∈ (negotiatedPairs ours theirs).zip (sortedPairs ours theirs),
      IsCodec.id (assign (negotiatedOf e.1) (negotiatedOf e.2)) = IsCodec.id e.2.2 ∧
        isRtxCodec (assign (negotiatedOf e.1) (negotiatedOf e.2)) = isRtxCodec e.2.1 := by
    intro e he
    have hnegotiated := (negotiated_negotiatedOf (hpairs e he)).1
    exact ⟨(LawfulCodec.id_assign _ _).trans hnegotiated.id,
      isRtxCodec_of_name ((LawfulCodec.name_assign _ _).trans hnegotiated.name)⟩
  rw [RtxRefers, sortCodecs_negotiateCodecs, List.forall_mem_map]
  refine forall₂_congr fun e he => ?_
  rw [(hentry e he).2]
  refine imp_congr_right fun _ => ?_
  constructor
  · rintro ⟨y, hy, hid⟩
    obtain ⟨e', he', rfl⟩ := List.mem_map.mp hy
    exact ⟨e'.2, hpairs e' he', hid.trans (congrArg some (hentry e' he').1)⟩
  · rintro ⟨q, hq, hid⟩
    obtain ⟨e', he', rfl⟩ := exists_sortedPair hq
    exact ⟨_, List.mem_map_of_mem he', hid.trans (congrArg some (hentry e' he').1.symm)⟩

theorem rtxRefers_of_copies (hcopies : ∀ a b : C, assign a b = b) :
    RtxRefers (sortCodecs (negotiateCodecs ours theirs)) ↔ RtxNegotiated ours theirs := by
  have hperm := sortedPairs_perm ours theirs
  have hapt : ∀ p ∈ negotiatedPairs ours theirs, isRtxCodec p.1 = true → ∀ slot,
      associatedId (assign slot (negotiatedOf p)) = associatedId p.2 := by
    intro p hp hrtx slot
    rw [hcopies, associatedId_negotiatedOf hp, negotiatedApt, if_pos hrtx]
  rw [rtxRefers_sortCodecs]
  constructor
  · intro h p hp hrtx
    obtain ⟨e, he, rfl⟩ := exists_sortedPair hp
    rw [← hapt e.2 hp hrtx]
    exact h e he hrtx
  · intro h e he hrtx
    have hp := hperm.mem_iff.mp (List.of_mem_zip he).2
    rw [hapt e.2 hp hrtx]
    exact h e.2 hp hrtx

theorem rtxRefers_of_kept (hkept : ∀ (a b : C) (key : String),
      getParam (assign a b) key = getParam a key) :
    RtxRefers (sortCodecs (negotiateCodecs ours theirs)) ↔ RtxNegotiatedInPlace ours theirs := by
  rw [rtxRefers_sortCodecs]
  refine forall₂_congr fun e he => ?_
  rw [associatedId, hkept, ← associatedId, associatedId_negotiatedOf (List.of_mem_zip he).1]

end Codecs

def MediaDescription.RtxAttached (f : MediaSessionDescriptionFactory)
    (current : Option MediaSessionDescription) : MediaDescription → Prop
  | .audio d => Libjingle.RtxAttached
      (MediaSessionDescriptionFactory.currentOf current .audio (·.audioCodecs)) f.audioCodecs
      d.codecs
  | .video d => Libjingle.RtxAttached
      (MediaSessionDescriptionFactory.currentOf current .video (·.videoCodecs)) f.videoCodecs
      d.codecs
  | .data d => Libjingle.RtxAttached
      (MediaSessionDescriptionFactory.currentOf current .data (·.dataCodecs)) f.dataCodecs
      d.codecs

def MediaDescription.RtxRefers : MediaDescription → Prop
  | .audio d => Libjingle.RtxRefers d.codecs
  | .video d => Libjingle.RtxRefers d.codecs
  | .data d => Libjingle.RtxRefers d.codecs

def Describes (Q : MediaDescription → Prop) (sdesc : MediaSessionDescription) : Prop :=
  ∀ content ∈ sdesc.contents, ∀ d, mediaDescription content = some d → Q d

namespace MediaSessionDescriptionFactory

section Condition

variable (f : MediaSessionDescriptionFactory) (current : Option MediaSessionDescription)

/-- The current codecs of a kind with their ids, and the ids that are used by then. -/
def audioIds : List AudioCodec × UsedIds :=
  numbered usedPayloadTypes (currentOf current .audio (·.audioCodecs))

def videoIds : List VideoCodec × UsedIds :=
  numbered (audioIds current).2 (currentOf current .video (·.videoCodecs))

def dataIds : List DataCodec × UsedIds :=
  numbered (videoIds current).2 (currentOf current .data (·.dataCodecs))

def usedAfter {C : Type} [IsCodec C] (reference offered : List C) (used : UsedIds) : UsedIds :=
  (findCodecsToOffer reference offered used).elim used (·.2)

def usedByAudio : UsedIds := usedAfter f.audioCodecs (audioIds current).1 (dataIds current).2

def usedByVideo : UsedIds := usedAfter f.videoCodecs (videoIds current).1 (usedByAudio f current)

/-- Codecs for comfort noise are there only if voice activity is detected. -/
def staysAudio (options : MediaSessionOptions) (name : String) : Bool :=
  options.vadEnabled || !stricmpEq name kComfortNoiseCodecName

structure SupportsRtx (f : MediaSessionDescriptionFactory) : Prop where
  audio : AptsRefer f.audioCodecs
  video : AptsRefer f.videoCodecs
  data : AptsRefer f.dataCodecs

structure OffersRtx (options : MediaSessionOptions) : Prop where
  audio : options.hasAudio = true → RtxFollows usedPayloadTypes (dataIds current).2
    (staysAudio options) (currentOf current .audio (·.audioCodecs)) f.audioCodecs
  video : options.hasVideo = true → RtxFollows (audioIds current).2 (usedByAudio f current)
    (fun _ => true) (currentOf current .video (·.videoCodecs)) f.videoCodecs
  data : options.hasData = true → RtxFollows (videoIds current).2 (usedByVideo f current)
    (fun _ => true) (currentOf current .data (·.dataCodecs)) f.dataCodecs
  in_place : options.hasData = true → ∀ codecs used,
    findCodecsToOffer f.dataCodecs (dataIds current).1 (usedByVideo f current) =
      some (codecs, used) →
        SortsInPlace (currentOf current .data (·.dataCodecs)) f.dataCodecs codecs

end Condition

variable {f : MediaSessionDescriptionFactory} {rng : RandomGenerator} {rounds : Nat}
  {options : MediaSessionOptions} {current : Option MediaSessionDescription}

theorem bounded_usedPayloadTypes : Bounded usedPayloadTypes := ⟨rfl, by decide, by decide⟩

theorem bounded_dataIds : Bounded (dataIds current).2 :=
  bounded_numbered (bounded_numbered (bounded_numbered bounded_usedPayloadTypes _) _) _

theorem bounded_usedAfter {C : Type} [IsCodec C] [LawfulCodec C] {reference offered : List C}
    {used : UsedIds} (h : Bounded used) : Bounded (usedAfter reference offered used) := by
  unfold usedAfter
  cases hfound : findCodecsToOffer reference offered used with
  | none => exact h
  | some found => exact bounded_findCodecsToOffer h hfound

theorem usedAfter_found {C : Type} [IsCodec C] {reference offered codecs : List C}
    {used used' : UsedIds} (h : findCodecsToOffer reference offered used = some (codecs, used')) :
    usedAfter reference offered used = used' := by
  rw [usedAfter, h]
  rfl

theorem getCodecsToOffer_some {audio : List AudioCodec} {video : List VideoCodec}
    {data : List DataCodec} (h : f.getCodecsToOffer current = some (audio, video, data)) :
    (∃ used, findCodecsToOffer f.audioCodecs (audioIds current).1 (dataIds current).2 =
        some (audio, used)) ∧
      (∃ used, findCodecsToOffer f.videoCodecs (videoIds current).1 (usedByAudio f current) =
        some (video, used)) ∧
      ∃ used, findCodecsToOffer f.dataCodecs (dataIds current).1 (usedByVideo f current) =
        some (data, used) := by
  unfold getCodecsToOffer at h
  dsimp only at h
  obtain ⟨⟨a, used₁⟩, ha, h⟩ := Option.bind_eq_some_iff.mp h
  obtain ⟨⟨v, used₂⟩, hv, h⟩ := Option.bind_eq_some_iff.mp h
  obtain ⟨⟨d, used₃⟩, hd, h⟩ := Option.bind_eq_some_iff.mp h
  cases h
  have hfirst : usedByAudio f current = used₁ := usedAfter_found ha
  have hsecond : usedByVideo f current = used₂ := by
    rw [usedByVideo, hfirst]
    exact usedAfter_found hv
  rw [hfirst, hsecond]
  exact ⟨⟨_, ha⟩, ⟨_, hv⟩, _, hd⟩

section Offer

variable {Q : MediaDescription → Prop}

theorem codecs_createMediaContentOffer {C : Type} [IsCodec C] {type : MediaType} {codecs : List C}
    {policy : SecurePolicy} {cryptos : Option (List CryptoParams)} {suites : List String}
    {extensions : List RtpHeaderExtension} {legacy : Bool} {streams : List StreamParams}
    {protocol : String} {n k : Nat} {d : MediaContentDescriptionImpl C × List StreamParams}
    (h : createMediaContentOffer rng rounds type options codecs policy cryptos suites extensions
      legacy streams protocol n = .ok (d, k)) : d.1.codecs = sortCodecs codecs := by
  obtain ⟨_, _, -, h⟩ := Draw.bind_ok.mp h
  obtain ⟨_, _, -, h⟩ := Draw.bind_ok.mp h
  obtain ⟨_, _, -, h⟩ := Draw.bind_ok.mp h
  obtain ⟨rfl, -⟩ := Draw.pure_ok.mp h
  rfl

theorem describes_offerContent {wanted : Bool} {name type : String}
    {create : List StreamParams → Draw (MediaDescription × List StreamParams)} {n k : Nat}
    {s s' : MediaSessionDescription × List StreamParams}
    (hcreate : wanted = true → ∀ streams n d k, create streams n = .ok (d, k) → Q d.1)
    (hs : Describes Q s.1)
    (h : f.offerContent rng options current wanted name type create s n = .ok (s', k)) :
    Describes Q s'.1 := by
  have hspec := offerContent_spec h
  cases wanted with
  | false =>
    obtain rfl := hspec
    exact hs
  | true =>
    obtain ⟨d, _, _, hd, -, hcontents⟩ := hspec
    intro content hcontent m hm
    rw [hcontents] at hcontent
    rcases List.mem_append.mp hcontent with hold | hlast
    · exact hs content hold m hm
    · obtain rfl := List.mem_singleton.mp hlast
      have hsome : some d.1 = some m := by
        rw [← hm, mediaDescription]
        split
        · rfl
        · rename_i hmedia
          rw [mediaDescription, if_neg hmedia] at hm
          cases hm
      obtain rfl := Option.some.inj hsome
      exact hcreate rfl _ _ _ _ hd

theorem describes_bundle (hQ : ∀ (d : MediaDescription) (cryptos : List CryptoParams),
      Q (d.setCryptos cryptos) ↔ Q d) {group : ContentGroup} {sdesc result : MediaSessionDescription}
    (h : Describes Q sdesc) (hbundle : bundle group sdesc = some result) : Describes Q result := by
  have hsame := map_contents_bundle (φ := fun content : MediaContentInfo =>
    ∀ d, mediaDescription content = some d → Q d) (fun cryptos content => by
      rw [mediaDescription_withCryptos]
      cases mediaDescription content with
      | none => simp
      | some d => simp [hQ]) hbundle
  intro content hcontent
  have hmem := List.mem_map_of_mem (f := fun content : MediaContentInfo =>
    ∀ d, mediaDescription content = some d → Q d) hcontent
  rw [hsame] at hmem
  obtain ⟨before, hbefore, heq⟩ := List.mem_map.mp hmem
  exact heq ▸ h before hbefore

theorem describes_createOffer (hQ : ∀ (d : MediaDescription) (cryptos : List CryptoParams),
      Q (d.setCryptos cryptos) ↔ Q d) {offer : MediaSessionDescription} {n k : Nat}
    (haudio : options.hasAudio = true → ∀ codecs used,
      findCodecsToOffer f.audioCodecs (audioIds current).1 (dataIds current).2 =
          some (codecs, used) → ∀ d : AudioContentDescription,
        d.codecs = sortCodecs (codecs.filter fun c => staysAudio options c.name) → Q (.audio d))
    (hvideo : options.hasVideo = true → ∀ codecs used,
      findCodecsToOffer f.videoCodecs (videoIds current).1 (usedByAudio f current) =
          some (codecs, used) → ∀ d : VideoContentDescription,
        d.codecs = sortCodecs codecs → Q (.video d))
    (hdata : options.hasData = true → ∀ codecs used,
      findCodecsToOffer f.dataCodecs (dataIds current).1 (usedByVideo f current) =
          some (codecs, used) → ∀ d : DataContentDescription,
        d.codecs = sortCodecs codecs → Q (.data d))
    (h : f.createOffer rng rounds options current n = .ok (offer, k)) : Describes Q offer := by
  obtain ⟨factory, _, -, h⟩ := Draw.bind_ok.mp h
  obtain ⟨⟨audio, video, data⟩, _, hfound, h⟩ := Draw.bind_ok.mp h
  obtain ⟨s₁, _, h₁, h⟩ := Draw.bind_ok.mp h
  obtain ⟨s₂, _, h₂, h⟩ := Draw.bind_ok.mp h
  obtain ⟨s₃, _, h₃, h⟩ := Draw.bind_ok.mp h
  obtain ⟨⟨_, haudios⟩, ⟨_, hvideos⟩, _, hdatas⟩ := getCodecsToOffer_some
    (Draw.orElse_ok.mp hfound).1
  have hstrip : (if options.vadEnabled = true then audio else stripCNCodecs audio) =
      audio.filter fun c => staysAudio options c.name := by
    cases hvad : options.vadEnabled with
    | false => simp [stripCNCodecs, staysAudio, hvad]
    | true => simp [staysAudio, hvad]
  have hfirst : Describes Q s₁.1 := by
    refine describes_offerContent (fun hwanted streams n d k hd => ?_)
      (fun content hcontent => absurd hcontent List.not_mem_nil) h₁
    obtain ⟨a, _, ha, hd⟩ := Draw.bind_ok.mp hd
    obtain ⟨rfl, -⟩ := Draw.pure_ok.mp hd
    refine haudio hwanted audio _ haudios _ ?_
    rw [← hstrip]
    exact codecs_createMediaContentOffer ha
  have hsecond : Describes Q s₂.1 := by
    refine describes_offerContent (fun hwanted streams n d k hd => ?_) hfirst h₂
    obtain ⟨v, _, hv, hd⟩ := Draw.bind_ok.mp hd
    obtain ⟨rfl, -⟩ := Draw.pure_ok.mp hd
    exact hvideo hwanted video _ hvideos _ (codecs_createMediaContentOffer hv)
  have hthird : Describes Q s₃.1 := by
    refine describes_offerContent (fun hwanted streams n d k hd => ?_) hsecond h₃
    unfold offerData at hd
    split at hd
    · obtain ⟨c, _, hc, hd⟩ := Draw.bind_ok.mp hd
      obtain ⟨rfl, -⟩ := Draw.pure_ok.mp hd
      exact hdata hwanted data _ hdatas _ (codecs_createMediaContentOffer hc)
    · obtain ⟨c, _, hc, hd⟩ := Draw.bind_ok.mp hd
      obtain ⟨rfl, -⟩ := Draw.pure_ok.mp hd
      exact hdata hwanted data _ hdatas _ (codecs_createMediaContentOffer hc)
  split at h
  · exact describes_bundle hQ hthird (Draw.orElse_ok.mp h).1
  · obtain ⟨rfl, -⟩ := Draw.pure_ok.mp h
    exact hthird

theorem staysAudio_rtx {c : AudioCodec} (h : isRtxCodec c = true) :
    staysAudio options (codec c).name = true := by
  have hname : (cString (codec c).name).map Char.toLower =
      (cString kRtxCodecName).map Char.toLower := of_decide_eq_true h
  have hne : stricmpEq (codec c).name kComfortNoiseCodecName = false := by
    rw [stricmpEq, hname]
    decide
  rw [staysAudio, hne, Bool.not_false, Bool.or_true]

theorem rtxAttached_createOffer (hsupports : SupportsRtx f) (h : OffersRtx f current options)
    {offer : MediaSessionDescription} {n k : Nat}
    (hoffer : f.createOffer rng rounds options current n = .ok (offer, k)) :
    Describes (·.RtxAttached f current) offer := by
  have hall : ∀ {C : Type} [IsCodec C] (codecs : List C),
      (codecs.filter fun _ => true) = codecs := fun codecs =>
    List.filter_eq_self.mpr fun _ _ => rfl
  have hused : Bounded (usedByAudio f current) := bounded_usedAfter bounded_dataIds
  refine describes_createOffer (fun d cryptos => by cases d <;> exact Iff.rfl) ?_ ?_ ?_ hoffer
  · intro hwanted codecs used hfound d hd
    have hattached := rtxAttached_findCodecsToOffer hsupports.audio bounded_dataIds
      (fun _ hc => staysAudio_rtx hc) (h.audio hwanted) hfound
    rw [MediaDescription.RtxAttached, hd]
    exact rtxAttached_sortCodecs (.inl fun _ _ => rfl) hattached
  · intro hwanted codecs used hfound d hd
    have hattached := rtxAttached_findCodecsToOffer hsupports.video hused (fun _ _ => rfl)
      (h.video hwanted) hfound
    rw [hall] at hattached
    rw [MediaDescription.RtxAttached, hd]
    exact rtxAttached_sortCodecs (.inl fun _ _ => rfl) hattached
  · intro hwanted codecs used hfound d hd
    have hattached := rtxAttached_findCodecsToOffer hsupports.data (bounded_usedAfter hused)
      (fun _ _ => rfl) (h.data hwanted) hfound
    rw [hall] at hattached
    rw [MediaDescription.RtxAttached, hd]
    exact rtxAttached_sortCodecs (h.in_place hwanted codecs used hfound) hattached

end Offer

section Answer

variable {offer : MediaSessionDescription} {R : MediaDescription → MediaDescription → Prop}

def IsAnswered (R : MediaDescription → MediaDescription → Prop) (d : MediaDescription)
    (sdesc : MediaSessionDescription) : Prop :=
  ∃ content ∈ sdesc.contents, ∃ m, mediaDescription content = some m ∧ R d m

theorem isAnswered_answerContent {type : MediaType}
    {s s' : MediaSessionDescription × List StreamParams} {n k : Nat}
    (hbandwidth : ∀ d m, R d (setBandwidth options m) ↔ R d m)
    (hanswer : ∀ policy streams d m n k,
      f.answerDescription rng rounds offer options current policy streams d n = .ok (m, k) →
        R d m.1)
    (h : f.answerContent rng rounds offer options current type s n = .ok (s', k)) :
    (∀ content d, getFirstMediaContent offer.contents type = some content →
      mediaDescription content = some d → IsAnswered R d s'.1) ∧
        ∀ d, IsAnswered R d s.1 → IsAnswered R d s'.1 := by
  rcases answerContent_adds h with ⟨hnone, rfl⟩ | ⟨content, offered, _, media, _, _, hfound,
    hoffered, hmedia, rejected, added, hadded, hcontents⟩
  · refine ⟨fun content d hfound => ?_, fun d hd => hd⟩
    rw [hnone] at hfound
    cases hfound
  · have hsome : (mediaDescription content).isSome := by
      rw [hoffered]
      rfl
    have hR : R offered added := by
      rcases hadded with rfl | rfl
      · exact hanswer _ _ _ _ _ _ hmedia
      · exact (hbandwidth _ _).mpr (hanswer _ _ _ _ _ _ hmedia)
    refine ⟨fun other d hother hd => ?_, ?_⟩
    · obtain rfl := Option.some.inj (hfound.symm.trans hother)
      obtain rfl := Option.some.inj (hoffered.symm.trans hd)
      refine ⟨⟨content.name, content.type, rejected, some added⟩, ?_, added,
        mediaDescription_of_type hsome rfl rfl, hR⟩
      rw [hcontents]
      exact List.mem_append_right _ List.mem_cons_self
    · rintro d ⟨other, hother, hrest⟩
      refine ⟨other, ?_, hrest⟩
      rw [hcontents]
      exact List.mem_append_left _ hother

theorem isAnswered_bundle (hcryptos : ∀ d m (cryptos : List CryptoParams),
      R d (m.setCryptos cryptos) ↔ R d m) {group : ContentGroup}
    {sdesc result : MediaSessionDescription} {d : MediaDescription} (h : IsAnswered R d sdesc)
    (hbundle : bundle group sdesc = some result) : IsAnswered R d result := by
  have hsame := map_contents_bundle (φ := fun content : MediaContentInfo =>
    ∃ m, mediaDescription content = some m ∧ R d m) (fun cryptos content => by
      rw [mediaDescription_withCryptos]
      cases mediaDescription content with
      | none => simp
      | some m => simp [hcryptos]) hbundle
  obtain ⟨content, hcontent, hanswered⟩ := h
  have hmem := List.mem_map_of_mem (f := fun content : MediaContentInfo =>
    ∃ m, mediaDescription content = some m ∧ R d m) hcontent
  rw [← hsame] at hmem
  obtain ⟨after, hafter, heq⟩ := List.mem_map.mp hmem
  exact ⟨after, hafter, heq ▸ hanswered⟩

theorem isAnswered_createAnswer
    (hcryptos : ∀ d m (cryptos : List CryptoParams), R d (m.setCryptos cryptos) ↔ R d m)
    (hbandwidth : ∀ d m, R d (setBandwidth options m) ↔ R d m)
    (hanswer : ∀ policy streams d m n k,
      f.answerDescription rng rounds offer options current policy streams d n = .ok (m, k) →
        R d m.1) {n k : Nat} {answer : MediaSessionDescription}
    (h : f.createAnswer rng rounds offer options current n = .ok (answer, k)) {type : MediaType}
    {content : MediaContentInfo} {d : MediaDescription}
    (hfound : getFirstMediaContent offer.contents type = some content)
    (hd : mediaDescription content = some d) : IsAnswered R d answer := by
  obtain ⟨s₁, s₂, s₃, _, _, _, haudio, hvideo, hdata, hend⟩ := createAnswer_runs h
  obtain ⟨hfirst, -⟩ := isAnswered_answerContent hbandwidth hanswer haudio
  obtain ⟨hsecond, hkeeps⟩ := isAnswered_answerContent hbandwidth hanswer hvideo
  obtain ⟨hthird, hkeeps'⟩ := isAnswered_answerContent hbandwidth hanswer hdata
  have hanswered : IsAnswered R d s₃.1 := by
    cases type with
    | audio => exact hkeeps' d (hkeeps d (hfirst content d hfound hd))
    | video => exact hkeeps' d (hsecond content d hfound hd)
    | data => exact hthird content d hfound hd
  rcases hend with rfl | ⟨group, hbundle⟩
  · exact hanswered
  · exact isAnswered_bundle hcryptos hanswered hbundle

/-- For the codecs of an offered description those for retransmissions are negotiated with
theirs. -/
def AnswersRtx (f : MediaSessionDescriptionFactory) (options : MediaSessionOptions) :
    MediaDescription → Prop
  | .audio d => RtxNegotiated (ourAudioCodecs f options) d.codecs
  | .video d => RtxNegotiated f.videoCodecs d.codecs
  | .data d => RtxNegotiatedInPlace f.dataCodecs d.codecs

def IsNegotiatedFor (f : MediaSessionDescriptionFactory) (options : MediaSessionOptions) :
    MediaDescription → MediaDescription → Prop :=
  AnswersWith (fun _ _ ours theirs answered => answered = sortCodecs (negotiateCodecs ours theirs))
    (fun _ _ _ => True) f options

theorem rtxRefers_iff_answersRtx {d m : MediaDescription} (h : IsNegotiatedFor f options d m) :
    m.RtxRefers ↔ AnswersRtx f options d := by
  cases d with
  | audio d =>
    cases m with
    | audio a =>
      rw [MediaDescription.RtxRefers, h.1]
      exact rtxRefers_of_copies fun _ _ => rfl
    | video a => exact absurd h id
    | data a => exact absurd h id
  | video d =>
    cases m with
    | audio a => exact absurd h id
    | video a =>
      rw [MediaDescription.RtxRefers, h.1]
      exact rtxRefers_of_copies fun _ _ => rfl
    | data a => exact absurd h id
  | data d =>
    cases m with
    | audio a => exact absurd h id
    | video a => exact absurd h id
    | data a =>
      rw [MediaDescription.RtxRefers, h.1]
      exact rtxRefers_of_kept fun _ _ _ => rfl

theorem rtxRefers_createAnswer {n k : Nat} {answer : MediaSessionDescription}
    (h : f.createAnswer rng rounds offer options current n = .ok (answer, k)) :
    Describes MediaDescription.RtxRefers answer ↔ ∀ type content d,
      getFirstMediaContent offer.contents type = some content →
        mediaDescription content = some d → AnswersRtx f options d := by
  have hcryptos : ∀ d m (cryptos : List CryptoParams),
      IsNegotiatedFor f options d (m.setCryptos cryptos) ↔ IsNegotiatedFor f options d m := by
    intro d m cryptos
    cases d <;> cases m <;> exact Iff.rfl
  have hbandwidth : ∀ d m,
      IsNegotiatedFor f options d (setBandwidth options m) ↔ IsNegotiatedFor f options d m := by
    intro d m
    cases d <;> cases m <;> exact Iff.rfl
  have hanswer : ∀ policy streams d m n k,
      f.answerDescription rng rounds offer options current policy streams d n = .ok (m, k) →
        IsNegotiatedFor f options d m.1 := fun _ _ _ _ _ _ hm =>
    answersWith_answerDescription
      (P := fun _ _ ours theirs answered => answered = sortCodecs (negotiateCodecs ours theirs))
      (E := fun _ _ _ => True) (fun _ _ _ _ _ => rfl) (fun _ _ => trivial) hm
  constructor
  · intro hrefers type content d hfound hd
    obtain ⟨answered, hmem, m, hm, hnegotiated⟩ :=
      isAnswered_createAnswer hcryptos hbandwidth hanswer h hfound hd
    exact (rtxRefers_iff_answersRtx hnegotiated).mp (hrefers answered hmem m hm)
  · intro hcondition content hcontent m hm
    obtain ⟨type, offered, hfound, -, d, other, hd, hother, hnegotiated⟩ :=
      answering_createAnswer hcryptos hbandwidth hanswer h content hcontent
    obtain rfl := Option.some.inj (hm.symm.trans hother)
    exact (rtxRefers_iff_answersRtx hnegotiated).mpr (hcondition type offered d hfound hd)

end Answer

def rtxVideoCodec (id : Int) (apt : String) : VideoCodec :=
  { id, name := kRtxCodecName
    params := ({} : CodecParameterMap).insert kCodecParamAssociatedPayloadType apt }

def videoOptions : MediaSessionOptions := { hasAudio := false, hasVideo := true }

def videoCodecsOf (sdesc : MediaSessionDescription) : List (List VideoCodec) :=
  sdesc.contents.map fun content => (mediaDescription content).elim [] (·.videoCodecs)

theorem not_describes_of_video {Q : MediaDescription → Prop} {sdesc : MediaSessionDescription}
    {codecs : List VideoCodec} (hne : codecs ≠ []) (hcodecs : videoCodecsOf sdesc = [codecs])
    (hQ : ∀ d : VideoContentDescription, d.codecs = codecs → ¬ Q (.video d)) :
    ¬ Describes Q sdesc := by
  intro h
  have hmem : codecs ∈ videoCodecsOf sdesc := hcodecs ▸ List.mem_cons_self
  obtain ⟨content, hcontent, hd⟩ := List.mem_map.mp hmem
  cases hmedia : mediaDescription content with
  | none =>
    rw [hmedia] at hd
    exact hne hd.symm
  | some d =>
    rw [hmedia] at hd
    cases d with
    | audio d => exact hne hd.symm
    | data d => exact hne hd.symm
    | video d => exact hQ d hd (h content hcontent _ hmedia)

def collidingDescription : MediaSessionDescription where
  contents := [⟨cnAudio, nsJingleRtp, false, some (.audio { codecs := [{ id := 100, name := "opus" }] })⟩,
    ⟨cnVideo, nsJingleRtp, false,
      some (.video { codecs := [videoCodec 100 "H264" 0, rtxVideoCodec 101 "100"] })⟩]

def rtxCodecs : List VideoCodec :=
  [videoCodec 96 "VP8" 0, rtxVideoCodec 97 "96", videoCodec 100 "H264" 0, rtxVideoCodec 101 "100"]

theorem supportsRtx_video {codecs : List VideoCodec} (h : AptsRefer codecs) :
    SupportsRtx (videoFactory codecs) :=
  ⟨fun _ hr => absurd hr List.not_mem_nil, h, fun _ hr => absurd hr List.not_mem_nil⟩

theorem offersRtx_rtxCodecs : OffersRtx (videoFactory rtxCodecs) none videoOptions := by
  refine ⟨(fun h => by cases h), fun _ => ⟨fun _ hr => absurd hr List.not_mem_nil, ?_, ?_⟩,
    (fun h => by cases h), (fun h => by cases h)⟩
  · intro r hr hrtx _
    refine ⟨fun _ _ _ => rfl, .inl ?_⟩
    simp only [videoFactory, rtxCodecs, List.mem_cons, List.not_mem_nil, or_false] at hr
    rcases hr with rfl | rfl | rfl | rfl
    · cases hrtx
    · exact ⟨videoCodec 96 "VP8" 0, by decide +kernel, [], _, rfl, rfl, rfl⟩
    · cases hrtx
    · exact ⟨videoCodec 100 "H264" 0, by decide +kernel,
        [videoCodec 96 "VP8" 0, rtxVideoCodec 97 "96"], _, rfl, by decide +kernel,
        by decide +kernel⟩
  · decide +kernel

end MediaSessionDescriptionFactory

end Libjingle
