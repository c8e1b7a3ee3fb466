import Libjingle.Media.CryptoAgreement

/-! Which contents an answer has. It has one for the first content of each kind in the offer,
those of audio first, then video and data. -/

namespace Libjingle

def mediaTypeOf (content : MediaContentInfo) : Option MediaType :=
  (mediaDescription content).map (·.type)

def shape (content : MediaContentInfo) : String × Option MediaType × Bool :=
  (content.name, mediaTypeOf content, content.rejected)

/-- Exactly the contents that are not rejected have a transport info. -/
def HasTransports (sdesc : MediaSessionDescription) : Prop :=
  sdesc.transportInfos.map (·.contentName) =
    (sdesc.contents.filter fun content => !content.rejected).map (·.name)

structure SameShape (sdesc result : MediaSessionDescription) : Prop where
  contents : result.contents.map shape = sdesc.contents.map shape
  transports : result.transportInfos.map (·.contentName) =
    sdesc.transportInfos.map (·.contentName)

namespace MediaSessionDescriptionFactory

def answerShape (options : MediaSessionOptions) (content : MediaContentInfo) :
    String × Option MediaType × Bool :=
  (content.name, mediaTypeOf content, isRejected options content)

structure Mirrors (options : MediaSessionOptions) (offer answer : MediaSessionDescription) : Prop where
  contents : answer.contents.map shape = offer.contents.map (answerShape options)
  transports : HasTransports answer

/-- At most one content of each kind, those of audio first, then video and data. -/
def InMediaOrder (offer : MediaSessionDescription) : Prop :=
  (offer.contents.map mediaTypeOf).Sublist [some .audio, some .video, some .data]

end MediaSessionDescriptionFactory

section Bundle

variable {sdesc result : MediaSessionDescription} {contents : List MediaContentInfo}
  {cryptos : List CryptoParams}

theorem SameShape.refl (sdesc : MediaSessionDescription) : SameShape sdesc sdesc := ⟨rfl, rfl⟩

theorem SameShape.trans {other : MediaSessionDescription} (h : SameShape sdesc result)
    (h' : SameShape result other) : SameShape sdesc other :=
  ⟨h'.contents.trans h.contents, h'.transports.trans h.transports⟩

theorem filter_rejected_of_shape {contents' : List MediaContentInfo}
    (h : contents'.map shape = contents.map shape) :
    (contents'.filter fun content => !content.rejected).map (·.name) =
      (contents.filter fun content => !content.rejected).map (·.name) := by
  have hnames : ∀ l : List MediaContentInfo,
      (l.filter fun content => !content.rejected).map (·.name) =
        ((l.map shape).filter fun s => !s.2.2).map (·.1) := by
    intro l
    rw [List.filter_map, List.map_map]
    rfl
  rw [hnames, hnames, h]

theorem SameShape.hasTransports (h : SameShape sdesc result) (hs : HasTransports sdesc) :
    HasTransports result := by
  rw [HasTransports, h.transports, filter_rejected_of_shape h.contents]
  exact hs

theorem shape_withCryptos (cryptos : List CryptoParams) (content : MediaContentInfo) :
    shape (withCryptos cryptos content) = shape content := by
  have hrejected : (withCryptos cryptos content).rejected = content.rejected := by
    rw [withCryptos]
    split
    · rfl
    · rfl
  rw [shape, shape, mediaTypeOf, mediaTypeOf, name_withCryptos, hrejected,
    mediaDescription_withCryptos, Option.map_map]
  congr 2
  exact congrArg (fun g => (mediaDescription content).map g)
    (funext fun _ => MediaDescription.type_setCryptos)

theorem transports_updateCryptoParamsForBundle {group : ContentGroup}
    (h : updateCryptoParamsForBundle group sdesc = some result) :
    result.transportInfos = sdesc.transportInfos := by
  unfold updateCryptoParamsForBundle at h
  cases hgroup : group.contentNames with
  | nil =>
    rw [hgroup] at h
    cases h
  | cons first names =>
    rw [hgroup] at h
    obtain ⟨cryptos, -, h⟩ := Option.bind_eq_some_iff.mp h
    split at h
    · cases h
      rfl
    · obtain ⟨common, -, h⟩ := Option.bind_eq_some_iff.mp h
      split at h
      · cases h
      · obtain ⟨contents, -, h⟩ := Option.bind_eq_some_iff.mp h
        cases h
        rfl

theorem sameShape_bundle {group : ContentGroup} (h : bundle group sdesc = some result) :
    SameShape sdesc result := by
  refine ⟨map_contents_bundle shape_withCryptos h, ?_⟩
  obtain ⟨shared, hshared, h⟩ := Option.bind_eq_some_iff.mp h
  obtain ⟨first, -, hshared⟩ := Option.bind_eq_some_iff.mp hshared
  obtain ⟨selected, -, hshared⟩ := Option.bind_eq_some_iff.mp hshared
  rw [transports_updateCryptoParamsForBundle h]
  cases hshared
  rw [List.map_map]
  refine List.map_congr_left fun info _ => ?_
  change (shareCredentials group selected info).contentName = info.contentName
  rw [shareCredentials]
  split
  · rfl
  · rfl

end Bundle

namespace MediaSessionDescriptionFactory

/-- In a list that has at most one content for each of the types, and in their order, the first
contents of the types are all. -/
theorem filterMap_getFirstMediaContent {contents : List MediaContentInfo} {types : List MediaType}
    (hnodup : types.Nodup) (h : (contents.map mediaTypeOf).Sublist (types.map some)) :
    types.filterMap (getFirstMediaContent contents) = contents := by
  induction types generalizing contents with
  | nil =>
    rw [List.map_nil, List.sublist_nil, List.map_eq_nil_iff] at h
    rw [h, List.filterMap_nil]
  | cons type types ih =>
    obtain ⟨hfirst, hrest⟩ := List.nodup_cons.mp hnodup
    cases contents with
    | nil => simp [getFirstMediaContent]
    | cons content contents =>
      rw [List.map_cons, List.map_cons] at h
      have hof : ∀ (c : MediaContentInfo) (t : MediaType),
          isMediaContentOfType c t = true ↔ mediaTypeOf c = some t := by
        intro c t
        rw [isMediaContentOfType_iff, mediaTypeOf, Option.map_eq_some_iff]
      by_cases htype : mediaTypeOf content = some type
      · rw [htype] at h
        have hsub := List.cons_sublist_cons.mp h
        have hothers : types.filterMap (getFirstMediaContent (content :: contents)) =
            types.filterMap (getFirstMediaContent contents) := by
          refine List.filterMap_congr fun other hother => ?_
          have hne : ¬ isMediaContentOfType content other = true := by
            rw [hof, htype]
            rintro ⟨⟩
            exact hfirst hother
          exact List.find?_cons_of_neg hne
        have hfound : getFirstMediaContent (content :: contents) type = some content :=
          List.find?_cons_of_pos ((hof content type).mpr htype)
        rw [List.filterMap_cons, hfound]
        dsimp only
        rw [hothers, ih hrest hsub]
      · have hsub : (mediaTypeOf content :: contents.map mediaTypeOf).Sublist (types.map some) := by
          rcases List.sublist_cons_iff.mp h with h | ⟨rest, heq, -⟩
          · exact h
          · exact absurd (List.cons.inj heq).1 htype
        have hnone : getFirstMediaContent (content :: contents) type = none := by
          refine List.find?_eq_none.mpr fun other hother => ?_
          rw [hof]
          intro hother'
          have hmem : mediaTypeOf other ∈ (content :: contents).map mediaTypeOf :=
            List.mem_map_of_mem hother
          obtain ⟨t, ht, hsome⟩ := List.mem_map.mp (hsub.subset hmem)
          rw [hother'] at hsome
          cases hsome
          exact hfirst ht
        rw [List.filterMap_cons, hnone]
        exact ih hrest hsub

theorem sublist_filterMap_getFirstMediaContent (contents : List MediaContentInfo)
    (types : List MediaType) :
    ((types.filterMap (getFirstMediaContent contents)).map mediaTypeOf).Sublist
      (types.map some) := by
  induction types with
  | nil => simp
  | cons type types ih =>
    rw [List.filterMap_cons]
    cases hfirst : getFirstMediaContent contents type with
    | none => exact ih.cons _
    | some content =>
      have htype : mediaTypeOf content = some type := by
        have hof := List.find?_some hfirst
        obtain ⟨media, hmedia, rfl⟩ := isMediaContentOfType_iff.mp hof
        rw [mediaTypeOf, hmedia]
        rfl
      dsimp only
      rw [List.map_cons, htype]
      exact ih.cons_cons _

variable {f : MediaSessionDescriptionFactory} {rng : RandomGenerator} {rounds : Nat}
  {offer : MediaSessionDescription} {options : MediaSessionOptions}
  {current : Option MediaSessionDescription}

theorem protocol_createMediaContentAnswer {C : Type} [IsCodec C] {type : MediaType}
    {offer : MediaContentDescriptionImpl C} {codecs : List C} {policy : SecurePolicy}
    {cryptos : Option (List CryptoParams)} {extensions : List RtpHeaderExtension}
    {streams : List StreamParams} {legacy bundleEnabled : Bool} {n k : Nat}
    {result : MediaContentDescriptionImpl C × List StreamParams}
    (h : createMediaContentAnswer rng rounds type offer options codecs policy cryptos extensions
      streams legacy bundleEnabled n = .ok (result, k)) : result.1.protocol = offer.protocol := by
  obtain ⟨_, _, -, h⟩ := Draw.bind_ok.mp h
  obtain ⟨_, _, -, h⟩ := Draw.bind_ok.mp h
  obtain ⟨next, _, hnext, h⟩ := Draw.bind_ok.mp h
  obtain ⟨rfl, -⟩ := Draw.pure_ok.mp h
  exact (sameSecurity_addStreamParams hnext).protocol

theorem kept_answerDescription {policy : SecurePolicy} {streams : List StreamParams}
    {media : MediaDescription} {n k : Nat} {result : MediaDescription × List StreamParams}
    (h : f.answerDescription rng rounds offer options current policy streams media n =
      .ok (result, k)) :
    result.1.type = media.type ∧ result.1.media.protocol = media.media.protocol := by
  cases media with
  | audio d =>
    obtain ⟨answer, _, hanswer, h⟩ := Draw.bind_ok.mp h
    obtain ⟨rfl, -⟩ := Draw.pure_ok.mp h
    exact ⟨rfl, protocol_createMediaContentAnswer hanswer⟩
  | video d =>
    obtain ⟨answer, _, hanswer, h⟩ := Draw.bind_ok.mp h
    obtain ⟨rfl, -⟩ := Draw.pure_ok.mp h
    exact ⟨rfl, protocol_createMediaContentAnswer hanswer⟩
  | data d =>
    obtain ⟨answer, _, hanswer, h⟩ := Draw.bind_ok.mp h
    obtain ⟨rfl, -⟩ := Draw.pure_ok.mp h
    exact ⟨rfl, protocol_createMediaContentAnswer hanswer⟩

structure Mirrored (options : MediaSessionOptions) (contents : List MediaContentInfo)
    (sdesc : MediaSessionDescription) : Prop where
  contents : sdesc.contents.map shape = contents.map (answerShape options)
  transports : HasTransports sdesc

theorem mirrored_addContent {contents : List MediaContentInfo} {content answered : MediaContentInfo}
    {sdesc : MediaSessionDescription} {infos : List SessionDescription.TransportInfo}
    (h : Mirrored options contents sdesc) (hshape : shape answered = answerShape options content)
    (hinfos : infos.map (·.contentName) = sdesc.transportInfos.map (·.contentName) ++
      if answered.rejected then [] else [answered.name]) :
    Mirrored options (contents ++ [content])
      (addContent answered { sdesc with transportInfos := infos }) := by
  refine ⟨?_, ?_⟩
  · rw [addContent, List.map_append, List.map_append, h.contents, List.map_singleton,
      List.map_singleton, hshape]
  · have htransports := h.transports
    rw [HasTransports] at htransports ⊢
    rw [addContent, List.filter_append, List.map_append, ← htransports, hinfos]
    cases hrejected : answered.rejected with
    | true => simp [hrejected]
    | false => simp [hrejected]

variable (options) in
theorem shape_answered {content : MediaContentInfo} {offered media : MediaDescription}
    (hoffered : mediaDescription content = some offered) (htype : media.type = offered.type) :
    shape ⟨content.name, content.type, isRejected options content, some media⟩ =
      answerShape options content := by
  have hmedia : mediaDescription (⟨content.name, content.type, isRejected options content, some media⟩ :
      MediaContentInfo) = some media := by
    have hcontent : (mediaDescription content).isSome := by
      rw [hoffered]
      rfl
    exact mediaDescription_of_type hcontent rfl rfl
  rw [shape, answerShape, mediaTypeOf, mediaTypeOf, hmedia, hoffered, Option.map_some,
    Option.map_some, htype]

theorem addTransportAnswer_eq {type : MediaType} {info : SessionDescription.TransportInfo}
    {sdesc result : MediaSessionDescription} (hfirst : type = .audio → sdesc.transportInfos = [])
    (h : addTransportAnswer type info sdesc = some result) :
    result = { sdesc with transportInfos := sdesc.transportInfos ++ [info] } := by
  rw [addTransportAnswer] at h
  by_cases htype : type = .audio
  · have hadd : addTransportInfo info sdesc =
        some { sdesc with transportInfos := sdesc.transportInfos ++ [info] } := by
      rw [addTransportInfo, hfirst htype]
      rfl
    rw [if_pos htype, hadd] at h
    exact (Option.some.inj h).symm
  · rw [if_neg htype, addTransportInfo] at h
    split at h
    · cases h
    · exact (Option.some.inj h).symm

theorem answerContent_adds {type : MediaType}
    {s s' : MediaSessionDescription × List StreamParams} {n k : Nat}
    (h : f.answerContent rng rounds offer options current type s n = .ok (s', k)) :
    (getFirstMediaContent offer.contents type = none ∧ s' = s) ∨
      ∃ content offered policy media m l,
        getFirstMediaContent offer.contents type = some content ∧
        mediaDescription content = some offered ∧
        f.answerDescription rng rounds offer options current policy s.2 offered m =
          .ok ((media, s'.2), l) ∧
        ∃ rejected added, (added = media ∨ added = setBandwidth options media) ∧
          s'.1.contents = s.1.contents ++ [⟨content.name, content.type, rejected, some added⟩] := by
  unfold answerContent at h
  cases hfound : getFirstMediaContent offer.contents type with
  | none =>
    rw [hfound] at h
    exact .inl ⟨rfl, (Draw.pure_ok.mp h).1.symm⟩
  | some content =>
    rw [hfound] at h
    obtain ⟨transport, _, -, h⟩ := Draw.bind_ok.mp h
    obtain ⟨offered, _, hoffered, h⟩ := Draw.bind_ok.mp h
    obtain ⟨⟨media, streams⟩, _, hmedia, h⟩ := Draw.bind_ok.mp h
    have hoffered := (Draw.orElse_ok.mp hoffered).1
    suffices hadds : s'.2 = streams ∧ ∃ rejected added,
        (added = media ∨ added = setBandwidth options media) ∧
          s'.1.contents = s.1.contents ++ [⟨content.name, content.type, rejected, some added⟩] by
      obtain ⟨rfl, hadds⟩ := hadds
      exact .inr ⟨content, offered, _, media, _, _, rfl, hoffered, hmedia, hadds⟩
    dsimp only at h
    split at h
    · obtain ⟨rfl, -⟩ := Draw.pure_ok.mp h
      exact ⟨rfl, true, media, .inl rfl, rfl⟩
    · obtain ⟨next, _, hnext, h⟩ := Draw.bind_ok.mp h
      obtain ⟨rfl, -⟩ := Draw.pure_ok.mp h
      refine ⟨rfl, false, _, .inr rfl, ?_⟩
      have hnext := (Draw.orElse_ok.mp hnext).1
      have hinfo : ∀ {sdesc : MediaSessionDescription} {info : SessionDescription.TransportInfo},
          addTransportInfo info s.1 = some sdesc → sdesc.contents = s.1.contents := by
        intro sdesc info hinfo
        rw [addTransportInfo] at hinfo
        split at hinfo
        · cases hinfo
        · cases hinfo
          rfl
      have hsame : next.contents = s.1.contents := by
        rw [addTransportAnswer] at hnext
        split at hnext
        · obtain rfl := Option.some.inj hnext
          cases hadded : addTransportInfo ⟨content.name, transport⟩ s.1 with
          | none => rfl
          | some sdesc => exact hinfo hadded
        · exact hinfo hnext
      rw [addContent, hsame]

theorem createAnswer_runs {n k : Nat} {answer : MediaSessionDescription}
    (h : f.createAnswer rng rounds offer options current n = .ok (answer, k)) :
    ∃ s₁ s₂ s₃ n₁ n₂ n₃,
      f.answerContent rng rounds offer options current .audio
        ({}, getCurrentStreamParams current) n = .ok (s₁, n₁) ∧
      f.answerContent rng rounds offer options current .video s₁ n₁ = .ok (s₂, n₂) ∧
      f.answerContent rng rounds offer options current .data s₂ n₂ = .ok (s₃, n₃) ∧
      (answer = s₃.1 ∨ ∃ group, bundle group s₃.1 = some answer) := by
  obtain ⟨s₁, _, haudio, h⟩ := Draw.bind_ok.mp h
  obtain ⟨s₂, _, hvideo, h⟩ := Draw.bind_ok.mp h
  obtain ⟨s₃, _, hdata, h⟩ := Draw.bind_ok.mp h
  refine ⟨s₁, s₂, s₃, _, _, _, haudio, hvideo, hdata, ?_⟩
  dsimp only at h
  cases hgroup : getGroupByName offer.groups groupTypeBundle with
  | none =>
    rw [hgroup] at h
    exact .inl (Draw.pure_ok.mp h).1.symm
  | some offerBundle =>
    rw [hgroup] at h
    cases henabled : options.bundleEnabled with
    | false =>
      rw [henabled] at h
      exact .inl (Draw.pure_ok.mp h).1.symm
    | true =>
      rw [henabled] at h
      dsimp only at h
      split at h
      · exact .inr ⟨_, (Draw.orElse_ok.mp h).1⟩
      · exact .inl (Draw.pure_ok.mp h).1.symm

theorem mirrored_answerContent {type : MediaType} {contents : List MediaContentInfo}
    {s s' : MediaSessionDescription × List StreamParams} {n k : Nat}
    (hs : Mirrored options contents s.1) (hfirst : type = .audio → s.1.transportInfos = [])
    (h : f.answerContent rng rounds offer options current type s n = .ok (s', k)) :
    Mirrored options (contents ++ (getFirstMediaContent offer.contents type).toList) s'.1 := by
  unfold answerContent at h
  cases hfound : getFirstMediaContent offer.contents type with
  | none =>
    rw [hfound] at h
    obtain ⟨rfl, -⟩ := Draw.pure_ok.mp h
    rw [Option.toList_none, List.append_nil]
    exact hs
  | some content =>
    rw [hfound] at h
    obtain ⟨transport, _, -, h⟩ := Draw.bind_ok.mp h
    obtain ⟨offered, _, hoffered, h⟩ := Draw.bind_ok.mp h
    obtain ⟨⟨media, streams⟩, _, hanswer, h⟩ := Draw.bind_ok.mp h
    obtain ⟨hoffered, -⟩ := Draw.orElse_ok.mp hoffered
    obtain ⟨htype, hprotocol⟩ := kept_answerDescription hanswer
    have hkind : offered.type = type := by
      have hof := List.find?_some hfound
      rw [isMediaContentOfType, hoffered, Option.any_some] at hof
      exact of_decide_eq_true hof
    have hrejected : isRejected options content = (!wants options type || content.rejected ||
        !isMediaProtocolSupported type media.media.protocol) := by
      rw [isRejected, hoffered, Option.any_some, hkind, hprotocol]
    dsimp only at h
    rw [← hrejected] at h
    rw [Option.toList_some]
    by_cases hno : isRejected options content = true
    · rw [if_pos hno] at h
      obtain ⟨rfl, -⟩ := Draw.pure_ok.mp h
      have hshape := shape_answered options hoffered htype
      rw [hno] at hshape
      refine mirrored_addContent hs hshape ?_
      simp
    · rw [if_neg hno] at h
      obtain ⟨next, _, hnext, h⟩ := Draw.bind_ok.mp h
      obtain ⟨rfl, -⟩ := Draw.pure_ok.mp h
      rw [addTransportAnswer_eq hfirst (Draw.orElse_ok.mp hnext).1]
      have hshape := shape_answered options hoffered
        ((media_setBandwidth options media).1.trans htype)
      rw [Bool.eq_false_iff.mpr hno] at hshape
      refine mirrored_addContent hs hshape ?_
      simp

theorem mirrored_createAnswer {n k : Nat} {answer : MediaSessionDescription}
    (h : f.createAnswer rng rounds offer options current n = .ok (answer, k)) :
    Mirrored options (answeredContents offer) answer := by
  obtain ⟨s₁, s₂, s₃, _, _, _, haudio, hvideo, hdata, hend⟩ := createAnswer_runs h
  have hempty : Mirrored options [] {} := ⟨rfl, rfl⟩
  have h₁ := mirrored_answerContent hempty (fun _ => rfl) haudio
  have h₂ := mirrored_answerContent h₁ (fun htype => by cases htype) hvideo
  have h₃ := mirrored_answerContent h₂ (fun htype => by cases htype) hdata
  have hcontents : [] ++ (getFirstMediaContent offer.contents .audio).toList ++
      (getFirstMediaContent offer.contents .video).toList ++
        (getFirstMediaContent offer.contents .data).toList = answeredContents offer := by
    rw [answeredContents]
    cases haudio : getFirstMediaContent offer.contents .audio <;>
      cases hvideo : getFirstMediaContent offer.contents .video <;>
        cases hdata : getFirstMediaContent offer.contents .data <;>
          simp [haudio, hvideo, hdata]
  rw [hcontents] at h₃
  have hbundled : SameShape s₃.1 answer := by
    rcases hend with rfl | ⟨group, hbundle⟩
    · exact .refl _
    · exact sameShape_bundle hbundle
  exact ⟨hbundled.contents.trans h₃.contents, hbundled.hasTransports h₃.transports⟩

/-- An answer mirrors the offer exactly when the offer has its contents in the order of the
kinds, and one of each kind at most. -/
theorem mirrors_iff (f : MediaSessionDescriptionFactory) (rng : RandomGenerator) (rounds : Nat)
    (offer : MediaSessionDescription) (options : MediaSessionOptions)
    (current : Option MediaSessionDescription) {n k : Nat} {answer : MediaSessionDescription}
    (h : f.createAnswer rng rounds offer options current n = .ok (answer, k)) :
    Mirrors options offer answer ↔ InMediaOrder offer := by
  obtain ⟨hcontents, htransports⟩ := mirrored_createAnswer h
  constructor
  · intro hmirrors
    have hshapes := hcontents.symm.trans hmirrors.contents
    have hkinds : (answeredContents offer).map mediaTypeOf = offer.contents.map mediaTypeOf := by
      have hkinds := congrArg (List.map fun s : String × Option MediaType × Bool => s.2.1) hshapes
      rw [List.map_map, List.map_map] at hkinds
      exact hkinds
    rw [InMediaOrder, ← hkinds]
    exact sublist_filterMap_getFirstMediaContent offer.contents [.audio, .video, .data]
  · intro horder
    have hall : answeredContents offer = offer.contents :=
      filterMap_getFirstMediaContent (by decide) horder
    rw [hall] at hcontents
    exact ⟨hcontents, htransports⟩

theorem mirrors_iff_audio : ∃ answer k, securingFactory.createAnswer zeroGenerator 1 audioOffer {}
    none 0 = .ok (answer, k) ∧ Mirrors {} audioOffer answer := by
  have hsome : (securingFactory.createAnswer zeroGenerator 1 audioOffer {} none 0).toOption.isSome := by
    decide +kernel
  cases hanswer : securingFactory.createAnswer zeroGenerator 1 audioOffer {} none 0 with
  | error stop =>
    rw [hanswer] at hsome
    cases hsome
  | ok result =>
    have horder : InMediaOrder audioOffer := by
      rw [InMediaOrder]
      decide
    exact ⟨result.1, result.2, rfl, (mirrors_iff _ _ _ _ _ _ hanswer).mpr horder⟩

/-- An offer whose video comes before its audio. -/
def videoFirstOffer : MediaSessionDescription where
  contents := [⟨cnVideo, nsJingleRtp, false, some (.video {})⟩,
    ⟨cnAudio, nsJingleRtp, false, some (.audio {})⟩]
  transportInfos := [⟨cnVideo, { transportType := nsGingleP2p }⟩,
    ⟨cnAudio, { transportType := nsGingleP2p }⟩]

/-- Audio is answered before video. -/
theorem audio_answered_first : ∃ answer k, securingFactory.createAnswer zeroGenerator 2
    videoFirstOffer { hasVideo := true } none 0 = .ok (answer, k) ∧
      ¬ Mirrors { hasVideo := true } videoFirstOffer answer := by
  have hnames : ((securingFactory.createAnswer zeroGenerator 2 videoFirstOffer { hasVideo := true }
      none 0).toOption.map fun result => result.1.contents.map (·.name)) =
        some [cnAudio, cnVideo] := by
    decide +kernel
  cases hanswer : securingFactory.createAnswer zeroGenerator 2 videoFirstOffer { hasVideo := true }
      none 0 with
  | error stop =>
    rw [hanswer] at hnames
    cases hnames
  | ok result =>
    rw [hanswer] at hnames
    refine ⟨result.1, result.2, rfl, fun hmirrors => ?_⟩
    have hshapes := congrArg (List.map fun s : String × Option MediaType × Bool => s.1)
      hmirrors.contents
    rw [List.map_map, List.map_map] at hshapes
    have hsame : result.1.contents.map (·.name) = [cnVideo, cnAudio] := hshapes
    have hfirst : result.1.contents.map (·.name) = [cnAudio, cnVideo] := Option.some.inj hnames
    rw [hfirst] at hsame
    exact absurd hsame (by decide)

end MediaSessionDescriptionFactory

end Libjingle
