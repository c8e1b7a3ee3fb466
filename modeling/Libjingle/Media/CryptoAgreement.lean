import Libjingle.Lib.Paired
import Libjingle.Media.CryptoSelection

/-! When both sides can use the cryptos of an answer. -/

namespace Libjingle

open Paired (exists_of_mem_left exists_of_mem_right forall₂_mem)
open SrtpFilter (Agree Readable parseKeyParams)

def isBundled (sdesc : MediaSessionDescription) (name : String) : Bool :=
  sdesc.groups.any fun group => group.semantics = groupTypeBundle && group.hasContentName name

def Secured (offer answer : MediaSessionDescription) (content : MediaContentInfo) : Prop :=
  ∃ crypto, cryptosOf content = [crypto] ∧
    (∃ offered ∈ offer.contents, offered.name = content.name ∧
      (∃ c ∈ cryptosOf offered, c.tag = crypto.tag ∧ c.cipherSuite = crypto.cipherSuite) ∧
      Agree Base64.decodeStrict (cryptosOf offered) [crypto]) ∧
    (isMediaContentOfType content .audio = false ∨ isBundled answer content.name = true →
      crypto.cipherSuite = csAesCm128HmacSha1_80)

structure SdesAgreement (offer answer : MediaSessionDescription) : Prop where
  secured : ∀ content ∈ answer.contents, cryptosOf content ≠ [] → Secured offer answer content
  bundled : BundledAlike answer

namespace MediaSessionDescriptionFactory

section Selection

variable (f : MediaSessionDescriptionFactory) (offer : MediaSessionDescription)
  (options : MediaSessionOptions) (current : Option MediaSessionDescription)

/-- There is no SDES where both sides have DTLS. -/
def sdesPolicy (contentName : String) : SecurePolicy :=
  if (getTransportDescription contentName (some offer)).any (·.identityFingerprint.isSome) &&
      f.transportDescFactory.any (·.isSecure) then .disabled
  else f.secure

def answeredContents : List MediaContentInfo :=
  [MediaType.audio, .video, .data].filterMap (getFirstMediaContent offer.contents)

def selection (content : MediaContentInfo) : Option CryptoParams :=
  (mediaDescription content).bind fun media => selectedCrypto media.type media.media.cryptos
    (f.sdesPolicy offer content.name) (offersBundle offer options)

def isRejected (content : MediaContentInfo) : Bool :=
  (mediaDescription content).any fun media => !wants options media.type || content.rejected ||
    !isMediaProtocolSupported media.type media.media.protocol

def bundledContents : List MediaContentInfo :=
  match getGroupByName offer.groups groupTypeBundle, options.bundleEnabled with
  | some group, true => (answeredContents offer).filter fun content =>
      !isRejected options content && group.hasContentName content.name
  | _, _ => []

/-- The content whose crypto a content gets, which is the first one of those that are bundled. -/
def sourceOf (content : MediaContentInfo) : MediaContentInfo :=
  match bundledContents offer options with
  | first :: _ =>
    if content ∈ bundledContents offer options ∧ (f.selection offer options first).isSome then first
    else content
  | [] => content

def currentCryptosOf (content : MediaContentInfo) : List CryptoParams :=
  ((mediaDescription content).bind fun media => currentCryptos current media.type).getD []

/-- The current crypto that is taken for a selected one has a key that can be read. -/
def CurrentReadable (content : MediaContentInfo) (selected : CryptoParams) : Prop :=
  ∀ found, findMatchingCrypto (currentCryptosOf current content) selected = some found →
    (parseKeyParams Base64.decodeStrict found.keyParams).isSome

/-- If nothing is selected for the first bundled content, nothing is for the others. Otherwise
every content was offered what is selected for the content whose crypto it gets. -/
structure Negotiable : Prop where
  alike : ∀ first rest, bundledContents offer options = first :: rest →
    f.selection offer options first = none → ∀ content ∈ rest, f.selection offer options content = none
  readable : ∀ content ∈ answeredContents offer, ∀ selected,
    f.selection offer options (f.sourceOf offer options content) = some selected →
      Readable Base64.decodeStrict (cryptosOf content) selected ∧
        CurrentReadable current (f.sourceOf offer options content) selected

/-- What a content is answered with. Its crypto is selected for the content `source`. -/
structure Answers (source content answered : MediaContentInfo) : Prop where
  name : answered.name = content.name
  rejected : answered.rejected = isRejected options content
  audio : isMediaContentOfType answered .audio = isMediaContentOfType content .audio
  isMedia : (mediaDescription answered).isSome
  cryptos : SelectedFrom (currentCryptosOf current source) (f.selection offer options source)
    (cryptosOf answered)

structure Answered (contents : List MediaContentInfo) (answer : MediaSessionDescription) : Prop where
  contents : List.Forall₂ (fun content => f.Answers offer options current content content) contents
    answer.contents
  groups : answer.groups = []
  transports : ∀ answered ∈ answer.contents, answered.rejected = false →
    (getTransportInfoByContentName answer.transportInfos answered.name).isSome

end Selection

variable {f : MediaSessionDescriptionFactory} {rng : RandomGenerator} {rounds : Nat}
  {offer : MediaSessionDescription} {options : MediaSessionOptions}
  {current : Option MediaSessionDescription}

theorem secure_createTransportAnswer {name : String} {n k : Nat}
    {transport : SessionDescription.TransportDescription}
    (h : f.createTransportAnswer rng offer options current name n = .ok (transport, k)) :
    (if transport.identityFingerprint.isSome then .disabled else f.secure) =
      f.sdesPolicy offer name := by
  obtain ⟨factory, _, hfactory, h⟩ := Draw.bind_ok.mp h
  have hsecure := factory.secure_createAnswer rng h
  rw [sdesPolicy, hsecure, (Draw.orElse_ok.mp hfactory).1, Option.any_some]

theorem answerDescription_spec (hkeys : GivesKeys rng) {policy : SecurePolicy}
    {streams : List StreamParams} {media : MediaDescription} {n k : Nat}
    {result : MediaDescription × List StreamParams}
    (h : f.answerDescription rng rounds offer options current policy streams media n =
      .ok (result, k)) :
    result.1.type = media.type ∧ result.1.media.protocol = media.media.protocol ∧
      SelectedFrom ((currentCryptos current media.type).getD [])
        (selectedCrypto media.type media.media.cryptos policy (offersBundle offer options))
        result.1.media.cryptos := by
  cases media with
  | audio d =>
    obtain ⟨answer, _, hanswer, h⟩ := Draw.bind_ok.mp h
    obtain ⟨rfl, -⟩ := Draw.pure_ok.mp h
    exact ⟨rfl, createMediaContentAnswer_spec hkeys hanswer⟩
  | video d =>
    obtain ⟨answer, _, hanswer, h⟩ := Draw.bind_ok.mp h
    obtain ⟨rfl, -⟩ := Draw.pure_ok.mp h
    exact ⟨rfl, createMediaContentAnswer_spec hkeys hanswer⟩
  | data d =>
    obtain ⟨answer, _, hanswer, h⟩ := Draw.bind_ok.mp h
    obtain ⟨rfl, -⟩ := Draw.pure_ok.mp h
    exact ⟨rfl, createMediaContentAnswer_spec hkeys hanswer⟩

theorem media_setBandwidth (options : MediaSessionOptions) (media : MediaDescription) :
    (setBandwidth options media).type = media.type ∧
      (setBandwidth options media).media.cryptos = media.media.cryptos := by
  cases media <;> exact ⟨rfl, rfl⟩

theorem mediaDescription_of_type {content answered : MediaContentInfo} {media : MediaDescription}
    (hcontent : (mediaDescription content).isSome) (htype : answered.type = content.type)
    (hmedia : answered.description = some media) : mediaDescription answered = some media := by
  have hoffered : isMediaContent content = true := by
    by_contra hno
    rw [mediaDescription, if_neg hno] at hcontent
    cases hcontent
  have his : isMediaContent answered = true := by
    rw [isMediaContent, htype]
    exact hoffered
  rw [mediaDescription, if_pos his, hmedia]

theorem answers_of_description {content : MediaContentInfo} {offered media : MediaDescription}
    (hoffered : mediaDescription content = some offered) (htype : media.type = offered.type)
    (hcryptos : SelectedFrom ((currentCryptos current offered.type).getD [])
      (selectedCrypto offered.type offered.media.cryptos (f.sdesPolicy offer content.name)
        (offersBundle offer options)) media.media.cryptos) :
    f.Answers offer options current content content
      ⟨content.name, content.type, isRejected options content, some media⟩ := by
  have hmedia : mediaDescription (⟨content.name, content.type, isRejected options content, some media⟩ :
      MediaContentInfo) = some media := by
    have hcontent : (mediaDescription content).isSome := by
      rw [hoffered]
      rfl
    exact mediaDescription_of_type hcontent rfl rfl
  refine ⟨rfl, rfl, ?_, ?_, ?_⟩
  · rw [isMediaContentOfType, isMediaContentOfType, hmedia, hoffered, Option.any_some,
      Option.any_some, htype]
  · rw [hmedia]
    rfl
  · rw [currentCryptosOf, selection, cryptosOf, hmedia, hoffered]
    exact hcryptos

theorem addTransportAnswer_spec {type : MediaType} {info : SessionDescription.TransportInfo}
    {sdesc result : MediaSessionDescription} (h : addTransportAnswer type info sdesc = some result) :
    result.contents = sdesc.contents ∧ result.groups = sdesc.groups ∧ ∀ name,
      (getTransportInfoByContentName sdesc.transportInfos name).isSome ∨ name = info.contentName →
        (getTransportInfoByContentName result.transportInfos name).isSome := by
  by_cases hsecond : (getTransportInfoByContentName sdesc.transportInfos info.contentName).isSome
  · have hadd : addTransportInfo info sdesc = none := if_pos hsecond
    rw [addTransportAnswer, hadd] at h
    split_ifs at h
    obtain rfl := Option.some.inj h
    refine ⟨rfl, rfl, fun name hname => ?_⟩
    rcases hname with hname | rfl
    · exact hname
    · exact hsecond
  · have hadd : addTransportInfo info sdesc =
        some { sdesc with transportInfos := sdesc.transportInfos ++ [info] } := if_neg hsecond
    have hresult : some { sdesc with transportInfos := sdesc.transportInfos ++ [info] } =
        some result := by
      rw [addTransportAnswer, hadd] at h
      split_ifs at h <;> exact h
    obtain rfl := Option.some.inj hresult
    exact ⟨rfl, rfl, fun name hname => getTransportInfoByContentName_append hname⟩

theorem Answered.append {contents : List MediaContentInfo} {content answered : MediaContentInfo}
    {sdesc next : MediaSessionDescription} (hs : f.Answered offer options current contents sdesc)
    (hcontents : next.contents = sdesc.contents) (hgroups : next.groups = sdesc.groups)
    (hkept : ∀ name, (getTransportInfoByContentName sdesc.transportInfos name).isSome →
      (getTransportInfoByContentName next.transportInfos name).isSome)
    (hanswers : f.Answers offer options current content content answered)
    (htransport : answered.rejected = false →
      (getTransportInfoByContentName next.transportInfos answered.name).isSome) :
    f.Answered offer options current (contents ++ [content]) (addContent answered next) := by
  refine ⟨?_, hgroups.trans hs.groups, fun other hother hrejected => ?_⟩
  · rw [addContent, hcontents]
    exact List.rel_append hs.contents (.cons hanswers .nil)
  · rcases List.mem_append.mp hother with hold | hnew
    · rw [hcontents] at hold
      exact hkept _ (hs.transports other hold hrejected)
    · rw [List.mem_singleton.mp hnew] at hrejected ⊢
      exact htransport hrejected

theorem answerContent_spec (hkeys : GivesKeys rng) {type : MediaType} {contents : List MediaContentInfo}
    {s s' : MediaSessionDescription × List StreamParams} {n k : Nat}
    (hs : f.Answered offer options current contents s.1)
    (h : f.answerContent rng rounds offer options current type s n = .ok (s', k)) :
    f.Answered offer options current
      (contents ++ (getFirstMediaContent offer.contents type).toList) s'.1 := by
  unfold answerContent at h
  cases hfirst : getFirstMediaContent offer.contents type with
  | none =>
    rw [hfirst] at h
    obtain ⟨rfl, -⟩ := Draw.pure_ok.mp h
    rw [Option.toList_none, List.append_nil]
    exact hs
  | some content =>
    rw [hfirst] at h
    obtain ⟨transport, _, htransport, h⟩ := Draw.bind_ok.mp h
    obtain ⟨offered, _, hoffered, h⟩ := Draw.bind_ok.mp h
    obtain ⟨⟨media, streams⟩, _, hanswer, h⟩ := Draw.bind_ok.mp h
    obtain ⟨hoffered, -⟩ := Draw.orElse_ok.mp hoffered
    rw [secure_createTransportAnswer htransport] at hanswer
    obtain ⟨htype, hprotocol, hcryptos⟩ := answerDescription_spec hkeys hanswer
    have hkind : offered.type = type := by
      have hfound := List.find?_some hfirst
      rw [isMediaContentOfType, hoffered, Option.any_some] at hfound
      exact of_decide_eq_true hfound
    have hrejected : isRejected options content = (!wants options type || content.rejected ||
        !isMediaProtocolSupported type media.media.protocol) := by
      rw [isRejected, hoffered, Option.any_some, hkind, hprotocol]
    dsimp only at h
    rw [← hrejected] at h
    rw [Option.toList_some]
    by_cases hno : isRejected options content = true
    · rw [if_pos hno] at h
      obtain ⟨rfl, -⟩ := Draw.pure_ok.mp h
      have hanswers := answers_of_description hoffered htype hcryptos
      rw [hno] at hanswers
      exact hs.append rfl rfl (fun _ hname => hname) hanswers nofun
    · have hno' : isRejected options content = false := Bool.eq_false_iff.mpr hno
      rw [if_neg hno] at h
      obtain ⟨next, _, hnext, h⟩ := Draw.bind_ok.mp h
      obtain ⟨rfl, -⟩ := Draw.pure_ok.mp h
      obtain ⟨hcontents, hgroups, hinfos⟩ := addTransportAnswer_spec (Draw.orElse_ok.mp hnext).1
      obtain ⟨hbandwidthType, hbandwidthCryptos⟩ := media_setBandwidth options media
      rw [← hbandwidthCryptos] at hcryptos
      have hanswers := answers_of_description hoffered (hbandwidthType.trans htype) hcryptos
      rw [hno'] at hanswers
      exact hs.append hcontents hgroups (fun name hname => hinfos name (.inl hname)) hanswers
        fun _ => hinfos _ (.inr rfl)

theorem mem_answeredContents {content : MediaContentInfo} (h : content ∈ answeredContents offer) :
    content ∈ offer.contents := by
  obtain ⟨type, -, hfirst⟩ := List.mem_filterMap.mp h
  exact List.mem_of_find?_eq_some hfirst

theorem eq_of_name {Description : Type} {contents : List (ContentInfo Description)}
    {a b : ContentInfo Description} (hnames : (contents.map (·.name)).Nodup) (ha : a ∈ contents)
    (hb : b ∈ contents) (h : a.name = b.name) : a = b := by
  have hfind := findContentInfoByName_of_mem hnames ha
  rw [h, findContentInfoByName_of_mem hnames hb] at hfind
  exact (Option.some.inj hfind).symm

theorem isMediaContentOfType_iff {content : MediaContentInfo} {type : MediaType} :
    isMediaContentOfType content type = true ↔
      ∃ media, mediaDescription content = some media ∧ media.type = type := by
  rw [isMediaContentOfType]
  cases mediaDescription content with
  | none => simp
  | some media => simp

theorem isMediaContentOfType_of_first {contents : List MediaContentInfo} {type : MediaType}
    {content : MediaContentInfo} (h : getFirstMediaContent contents type = some content) :
    isMediaContentOfType content type = true := by
  have hfound := List.find?_some h
  exact hfound

theorem nodup_answeredContents (hnames : (offer.contents.map (·.name)).Nodup) :
    ((answeredContents offer).map (·.name)).Nodup := by
  rw [answeredContents, List.map_filterMap]
  refine List.Nodup.filterMap ?_ (by decide)
  intro type type' name hname hname'
  obtain ⟨content, hfirst, rfl⟩ := Option.map_eq_some_iff.mp hname
  obtain ⟨content', hfirst', hsame⟩ := Option.map_eq_some_iff.mp hname'
  obtain rfl := eq_of_name hnames (List.mem_of_find?_eq_some hfirst')
    (List.mem_of_find?_eq_some hfirst) hsame
  have hkind := isMediaContentOfType_of_first hfirst
  have hkind' := isMediaContentOfType_of_first hfirst'
  obtain ⟨media, hmedia, rfl⟩ := isMediaContentOfType_iff.mp hkind
  obtain ⟨media', hmedia', rfl⟩ := isMediaContentOfType_iff.mp hkind'
  rw [hmedia] at hmedia'
  rw [Option.some.inj hmedia']

structure Concluded (f : MediaSessionDescriptionFactory) (offer : MediaSessionDescription)
    (options : MediaSessionOptions) (current : Option MediaSessionDescription)
    (answer : MediaSessionDescription) : Prop where
  contents : List.Forall₂ (fun content =>
    f.Answers offer options current (f.sourceOf offer options content) content)
      (answeredContents offer) answer.contents
  alike : BundledAlike answer ↔ ∀ first rest, bundledContents offer options = first :: rest →
    f.selection offer options first = none → ∀ content ∈ rest, f.selection offer options content = none
  bundles : answer.groups ≠ [] → offersBundle offer options = true

theorem concluded_of_answered {answer : MediaSessionDescription}
    (hs : f.Answered offer options current (answeredContents offer) answer)
    (hnone : bundledContents offer options = []) : f.Concluded offer options current answer := by
  have hsource : ∀ content, f.sourceOf offer options content = content := by
    intro content
    rw [sourceOf, hnone]
  refine ⟨?_, ⟨fun _ first rest hcons => ?_, fun _ group hgroup => ?_⟩, fun hne => ?_⟩
  · simp only [hsource]
    exact hs.contents
  · rw [hnone] at hcons
    cases hcons
  · rw [hs.groups] at hgroup
    exact absurd hgroup List.not_mem_nil
  · exact absurd hs.groups hne

theorem selection_none_iff {source content answered : MediaContentInfo}
    (h : f.Answers offer options current source content answered) :
    f.selection offer options source = none ↔ cryptosOf answered = [] := by
  have hcryptos := h.cryptos
  cases hselected : f.selection offer options source with
  | none =>
    rw [hselected] at hcryptos
    exact iff_of_true rfl hcryptos
  | some selected =>
    rw [hselected] at hcryptos
    obtain ⟨crypto, hone, -⟩ := hcryptos
    rw [hone]
    exact iff_of_false nofun nofun

theorem Answers.withCryptos {source content answered : MediaContentInfo} {crypto : CryptoParams}
    {names : List String} (h : f.Answers offer options current content content answered)
    (hmem : answered.name ∈ names) (hcryptos : SelectedFrom (currentCryptosOf current source)
      (f.selection offer options source) [crypto]) :
    f.Answers offer options current source content (withCryptosAt names [crypto] answered) := by
  have hat : withCryptosAt names [crypto] answered = Libjingle.withCryptos [crypto] answered :=
    if_pos hmem
  rw [hat]
  refine ⟨name_withCryptos.trans h.name, ?_, ?_, ?_, ?_⟩
  · rw [← h.rejected, Libjingle.withCryptos]
    split_ifs <;> rfl
  · rw [← h.audio, isMediaContentOfType, isMediaContentOfType, mediaDescription_withCryptos]
    cases mediaDescription answered with
    | none => rfl
    | some media => rw [Option.map_some, Option.any_some, Option.any_some, MediaDescription.type_setCryptos]
  · rw [mediaDescription_withCryptos, Option.isSome_map]
    exact h.isMedia
  · rw [cryptosOf_withCryptos h.isMedia]
    exact hcryptos

section Bundle

variable {offerBundle : ContentGroup} {answer : MediaSessionDescription}

def isAnswerBundled (offerBundle : ContentGroup) (content : MediaContentInfo) : Bool :=
  !content.rejected && offerBundle.hasContentName content.name

theorem bundled_pairs (hgroup : getGroupByName offer.groups groupTypeBundle = some offerBundle)
    (henabled : options.bundleEnabled = true)
    (hs : f.Answered offer options current (answeredContents offer) answer) :
    List.Forall₂ (fun content => f.Answers offer options current content content)
      (bundledContents offer options) (answer.contents.filter (isAnswerBundled offerBundle)) := by
  have hbundled : bundledContents offer options = (answeredContents offer).filter fun content =>
      !isRejected options content && offerBundle.hasContentName content.name := by
    rw [bundledContents, hgroup, henabled]
  rw [hbundled]
  refine List.rel_filter (fun content answered h => ?_) hs.contents
  show _ ↔ (!answered.rejected && offerBundle.hasContentName answered.name) = true
  rw [h.rejected, h.name]

theorem map_name_answered (hs : f.Answered offer options current (answeredContents offer) answer) :
    answer.contents.map (·.name) = (answeredContents offer).map (·.name) := by
  have hnames : ∀ contents answered : List MediaContentInfo,
      List.Forall₂ (fun content => f.Answers offer options current content content) contents answered →
        answered.map (·.name) = contents.map (·.name) := by
    intro contents answered h
    induction h with
    | nil => rfl
    | cons hab _ ih => rw [List.map_cons, List.map_cons, hab.name, ih]
  exact hnames _ _ hs.contents

theorem mem_answerBundle (hnames : (answer.contents.map (·.name)).Nodup)
    {answered : MediaContentInfo} (hmem : answered ∈ answer.contents) :
    answered.name ∈ (answerBundle offerBundle answer.contents).contentNames ↔
      isAnswerBundled offerBundle answered = true := by
  rw [answerBundle, contentNames_bundleGroupOf, List.mem_map]
  constructor
  · rintro ⟨other, hother, hname⟩
    obtain ⟨hother, hbundled⟩ := List.mem_filter.mp hother
    obtain rfl := eq_of_name hnames hother hmem hname
    exact hbundled
  · exact fun h => ⟨answered, List.mem_filter.mpr ⟨hmem, h⟩, rfl⟩

theorem mem_bundledContents (hgroup : getGroupByName offer.groups groupTypeBundle = some offerBundle)
    (henabled : options.bundleEnabled = true) {content answered : MediaContentInfo}
    (hmem : content ∈ answeredContents offer)
    (h : f.Answers offer options current content content answered) :
    content ∈ bundledContents offer options ↔ isAnswerBundled offerBundle answered = true := by
  have hbundled : bundledContents offer options = (answeredContents offer).filter fun content =>
      !isRejected options content && offerBundle.hasContentName content.name := by
    rw [bundledContents, hgroup, henabled]
  rw [hbundled, List.mem_filter, isAnswerBundled, h.rejected, h.name]
  exact and_iff_right hmem

theorem concluded_of_bundle (hgroup : getGroupByName offer.groups groupTypeBundle = some offerBundle)
    (henabled : options.bundleEnabled = true) (hnames : (offer.contents.map (·.name)).Nodup)
    (hs : f.Answered offer options current (answeredContents offer) answer)
    {first : MediaContentInfo} {rest : List MediaContentInfo}
    (hcons : bundledContents offer options = first :: rest) {result : MediaSessionDescription}
    (h : bundle (answerBundle offerBundle answer.contents) answer = some result) :
    f.Concluded offer options current result := by
  have hnames' : (answer.contents.map (·.name)).Nodup := by
    rw [map_name_answered hs]
    exact nodup_answeredContents hnames
  have hbundles := bundle_spec hnames' h
  have hpairs := bundled_pairs hgroup henabled hs
  have hoffers : offersBundle offer options = true := by
    rw [offersBundle, hgroup, henabled]
    rfl
  obtain ⟨firstAnswered, restAnswered, hfirst, hrest, hfilter⟩ :
      ∃ firstAnswered restAnswered, f.Answers offer options current first first firstAnswered ∧
        List.Forall₂ (fun content => f.Answers offer options current content content) rest restAnswered ∧
        answer.contents.filter (isAnswerBundled offerBundle) = firstAnswered :: restAnswered := by
    rw [hcons] at hpairs
    cases hfilter : answer.contents.filter (isAnswerBundled offerBundle) with
    | nil =>
      rw [hfilter] at hpairs
      cases hpairs
    | cons firstAnswered restAnswered =>
      rw [hfilter] at hpairs
      obtain ⟨hfirst, hrest⟩ := List.forall₂_cons.mp hpairs
      exact ⟨firstAnswered, restAnswered, hfirst, hrest, rfl⟩
  have hfirstMem : firstAnswered ∈ answer.contents := by
    have hin : firstAnswered ∈ answer.contents.filter (isAnswerBundled offerBundle) := by
      rw [hfilter]
      exact List.mem_cons_self
    exact (List.mem_filter.mp hin).1
  obtain ⟨firstName, names, cryptos, hgroupNames, hfound, hcontents⟩ := hbundles.contents
  have hfirstName : firstAnswered.name = firstName := by
    have hhead : (answerBundle offerBundle answer.contents).contentNames.head? =
        (answer.contents.filter (isAnswerBundled offerBundle)).head?.map (·.name) :=
      head?_bundleGroupOf
    rw [hgroupNames, hfilter] at hhead
    exact (Option.some.inj hhead).symm
  have hcryptos : cryptosOf firstAnswered = cryptos :=
    cryptosOf_of_getCryptosByName hnames' hfirstMem (hfirstName ▸ hfound)
  have htransports : ∀ name ∈ (answerBundle offerBundle answer.contents).contentNames,
      (getTransportInfoByContentName answer.transportInfos name).isSome := by
    intro name hname
    rw [answerBundle, contentNames_bundleGroupOf] at hname
    obtain ⟨answered, hanswered, rfl⟩ := List.mem_map.mp hname
    obtain ⟨hmem, hbundled⟩ := List.mem_filter.mp hanswered
    refine hs.transports answered hmem ?_
    have hnot := (Bool.and_eq_true_iff.mp hbundled).1
    simpa using hnot
  by_cases hempty : cryptos = []
  · rw [if_pos hempty] at hcontents
    have hnone : f.selection offer options first = none :=
      (selection_none_iff hfirst).mpr (hcryptos.trans hempty)
    have hsource : ∀ content, f.sourceOf offer options content = content := by
      intro content
      rw [sourceOf, hcons]
      simp [hnone]
    have hnotSome : ¬ (f.selection offer options first).isSome := by
      rw [hnone]
      exact nofun
    refine ⟨?_, ⟨fun halike first' rest' hcons' _ content hcontent => ?_, fun hall => ?_⟩,
      fun _ => hoffers⟩
    · simp only [hsource, hcontents]
      exact hs.contents
    · obtain ⟨rfl, rfl⟩ := List.cons.inj (hcons.symm.trans hcons')
      obtain ⟨answered, hanswered, hanswers⟩ := exists_of_mem_left hrest hcontent
      have hin : answered ∈ answer.contents.filter (isAnswerBundled offerBundle) := by
        rw [hfilter]
        exact List.mem_cons_of_mem _ hanswered
      obtain ⟨hmem, hbundled⟩ := List.mem_filter.mp hin
      have hfirstBundled : isAnswerBundled offerBundle firstAnswered = true := by
        have hinFirst : firstAnswered ∈ answer.contents.filter (isAnswerBundled offerBundle) := by
          rw [hfilter]
          exact List.mem_cons_self
        exact (List.mem_filter.mp hinFirst).2
      have hgroupMem : answerBundle offerBundle answer.contents ∈ result.groups := by
        rw [hbundles.groups]
        exact List.mem_append_right _ List.mem_cons_self
      have hsame := (halike _ hgroupMem ContentGroup.semantics_foldl answered (hcontents ▸ hmem)
        firstAnswered (hcontents ▸ hfirstMem) ((mem_answerBundle hnames' hmem).mpr hbundled)
        ((mem_answerBundle hnames' hfirstMem).mpr hfirstBundled)).1
      rw [selection_none_iff hanswers, hsame, hcryptos, hempty]
    · refine alike_of_bundles hbundles hnames' hs.groups htransports ?_
      intro _ _ _ _ answered hmem hin
      have hin' : answered ∈ answer.contents.filter (isAnswerBundled offerBundle) :=
        List.mem_filter.mpr ⟨hmem, (mem_answerBundle hnames' hmem).mp hin⟩
      rw [hfilter] at hin'
      rcases List.mem_cons.mp hin' with rfl | hanswered
      · exact hcryptos.trans hempty
      · obtain ⟨content, hcontent, hanswers⟩ := exists_of_mem_right hrest hanswered
        exact (selection_none_iff hanswers).mp (hall first rest hcons hnone content hcontent)
  · rw [if_neg hempty] at hcontents
    obtain ⟨common, hsublist, hne, -, hcontents⟩ := hcontents
    have hselected : f.selection offer options first ≠ none := by
      intro hnone
      exact hempty (hcryptos ▸ (selection_none_iff hfirst).mp hnone)
    have hsome : (f.selection offer options first).isSome := Option.isSome_iff_ne_none.mpr hselected
    obtain ⟨crypto, hone⟩ : ∃ crypto, cryptos = [crypto] := by
      have hfrom := hfirst.cryptos
      obtain ⟨selected, hselected⟩ := Option.isSome_iff_exists.mp hsome
      rw [hselected, hcryptos] at hfrom
      obtain ⟨crypto, hone, -⟩ := hfrom
      exact ⟨crypto, hone⟩
    have hcommon : common = [crypto] := by
      rw [hone] at hsublist
      rcases List.sublist_singleton.mp hsublist with hnil | hsame
      · exact absurd hnil hne
      · exact hsame
    refine ⟨?_, ⟨fun _ first' rest' hcons' hnone => ?_, fun _ => ?_⟩, fun _ => hoffers⟩
    · rw [hcontents, hcommon]
      refine List.forall₂_map_right_iff.mpr ((forall₂_mem hs.contents).imp ?_)
      intro content answered ⟨hcontent, hmem, hanswers⟩
      by_cases hin : answered.name ∈ (answerBundle offerBundle answer.contents).contentNames
      · have hbundled : content ∈ bundledContents offer options :=
          (mem_bundledContents hgroup henabled hcontent hanswers).mpr
            ((mem_answerBundle hnames' hmem).mp hin)
        have hsource : f.sourceOf offer options content = first := by
          rw [sourceOf, hcons]
          rw [hcons] at hbundled
          exact if_pos ⟨hbundled, hsome⟩
        rw [hsource]
        refine hanswers.withCryptos hin ?_
        rw [← hone, ← hcryptos]
        exact hfirst.cryptos
      · have hbundled : content ∉ bundledContents offer options := fun hbundled =>
          hin ((mem_answerBundle hnames' hmem).mpr
            ((mem_bundledContents hgroup henabled hcontent hanswers).mp hbundled))
        have hsource : f.sourceOf offer options content = content := by
          rw [sourceOf, hcons]
          rw [hcons] at hbundled
          exact if_neg fun h => hbundled h.1
        rw [hsource, withCryptosAt, if_neg hin]
        exact hanswers
    · obtain ⟨rfl, -⟩ := List.cons.inj (hcons.symm.trans hcons')
      exact absurd hnone hselected
    · refine alike_of_bundles hbundles hnames' hs.groups htransports ?_
      intro other others hother hnone
      obtain ⟨rfl, -⟩ := List.cons.inj (hgroupNames.symm.trans hother)
      rw [hfound] at hnone
      exact absurd (Option.some.inj hnone) hempty

end Bundle

theorem answered_nil : f.Answered offer options current [] {} :=
  ⟨.nil, rfl, fun _ h => absurd h List.not_mem_nil⟩

theorem concluded_createAnswer (hkeys : GivesKeys rng) (hnames : (offer.contents.map (·.name)).Nodup)
    {n k : Nat} {answer : MediaSessionDescription}
    (h : f.createAnswer rng rounds offer options current n = .ok (answer, k)) :
    f.Concluded offer options current answer := by
  obtain ⟨s₁, _, haudio, h⟩ := Draw.bind_ok.mp h
  obtain ⟨s₂, _, hvideo, h⟩ := Draw.bind_ok.mp h
  obtain ⟨⟨answer', streams⟩, _, hdata, h⟩ := Draw.bind_ok.mp h
  have h₁ := answerContent_spec hkeys answered_nil haudio
  have h₂ := answerContent_spec hkeys h₁ hvideo
  have h₃ := answerContent_spec hkeys h₂ hdata
  have hcontents : [] ++ (getFirstMediaContent offer.contents .audio).toList ++
      (getFirstMediaContent offer.contents .video).toList ++
        (getFirstMediaContent offer.contents .data).toList = answeredContents offer := by
    rw [answeredContents]
    cases haudio : getFirstMediaContent offer.contents .audio <;>
      cases hvideo : getFirstMediaContent offer.contents .video <;>
        cases hdata : getFirstMediaContent offer.contents .data <;>
          simp [haudio, hvideo, hdata]
  rw [hcontents] at h₃
  dsimp only at h h₃
  cases hgroup : getGroupByName offer.groups groupTypeBundle with
  | none =>
    rw [hgroup] at h
    obtain ⟨rfl, -⟩ := Draw.pure_ok.mp h
    refine concluded_of_answered h₃ ?_
    rw [bundledContents, hgroup]
  | some offerBundle =>
    cases henabled : options.bundleEnabled with
    | false =>
      rw [hgroup, henabled] at h
      obtain ⟨rfl, -⟩ := Draw.pure_ok.mp h
      refine concluded_of_answered h₃ ?_
      rw [bundledContents, hgroup, henabled]
    | true =>
      rw [hgroup, henabled] at h
      dsimp only at h
      have hpairs := bundled_pairs hgroup henabled h₃
      have hhead : (answerBundle offerBundle answer'.contents).firstContentName =
          (answer'.contents.filter (isAnswerBundled offerBundle)).head?.map (·.name) :=
        head?_bundleGroupOf
      cases hcons : bundledContents offer options with
      | nil =>
        rw [hcons] at hpairs
        rw [List.forall₂_nil_left_iff.mp hpairs] at hhead
        rw [hhead, if_neg (by simp)] at h
        obtain ⟨rfl, -⟩ := Draw.pure_ok.mp h
        exact concluded_of_answered h₃ hcons
      | cons first rest =>
        rw [hcons] at hpairs
        obtain ⟨answered, others, -, -, hfilter⟩ := List.forall₂_cons_left_iff.mp hpairs
        rw [hfilter] at hhead
        rw [if_pos (by rw [hhead]; rfl)] at h
        exact concluded_of_bundle hgroup henabled hnames h₃ hcons (Draw.orElse_ok.mp h).1

theorem suite_of_selection {content : MediaContentInfo} {selected : CryptoParams}
    (h : f.selection offer options content = some selected) :
    isSupportedSuite selected.cipherSuite = true ∧
      (isMediaContentOfType content .audio = false ∨ offersBundle offer options = true →
        selected.cipherSuite = csAesCm128HmacSha1_80) := by
  obtain ⟨media, hmedia, h⟩ := Option.bind_eq_some_iff.mp h
  unfold selectedCrypto at h
  split_ifs at h
  have hselectable : isSelectable media.type (offersBundle offer options) selected = true :=
    List.find?_some h
  simp only [isSelectable, Bool.or_eq_true, Bool.and_eq_true, decide_eq_true_eq,
    Bool.not_eq_true'] at hselectable
  rcases hselectable with hsuite | ⟨⟨hsuite, htype⟩, hbundle⟩
  · exact ⟨by simp [isSupportedSuite, hsuite], fun _ => hsuite⟩
  · refine ⟨by simp [isSupportedSuite, hsuite], fun hor => ?_⟩
    rw [isMediaContentOfType, hmedia, Option.any_some, htype, hbundle] at hor
    exact absurd hor (by decide)

theorem sourceOf_cases (content : MediaContentInfo) :
    f.sourceOf offer options content = content ∨ offersBundle offer options = true := by
  unfold sourceOf
  cases hcons : bundledContents offer options with
  | nil => exact .inl rfl
  | cons first rest =>
    refine .inr ?_
    unfold bundledContents at hcons
    unfold offersBundle
    cases hgroup : getGroupByName offer.groups groupTypeBundle with
    | none =>
      rw [hgroup] at hcons
      cases hcons
    | some group =>
      cases henabled : options.bundleEnabled with
      | false =>
        rw [hgroup, henabled] at hcons
        cases hcons
      | true => rfl

theorem secured_iff (hnames : (offer.contents.map (·.name)).Nodup) {answer : MediaSessionDescription}
    {source content answered : MediaContentInfo} (hmem : content ∈ offer.contents)
    (h : f.Answers offer options current source content answered)
    (hsource : source = content ∨ offersBundle offer options = true)
    (hbundles : answer.groups ≠ [] → offersBundle offer options = true) :
    (cryptosOf answered ≠ [] → Secured offer answer answered) ↔
      ∀ selected, f.selection offer options source = some selected →
        Readable Base64.decodeStrict (cryptosOf content) selected ∧
          CurrentReadable current source selected := by
  have hfrom := h.cryptos
  cases hselected : f.selection offer options source with
  | none =>
    rw [(selection_none_iff h).mp hselected]
    exact iff_of_true (fun hne => absurd rfl hne) nofun
  | some selected =>
    rw [hselected] at hfrom
    obtain ⟨crypto, hone, htag, hsuite, hkey⟩ := hfrom
    obtain ⟨hsupported, hsuite80⟩ := suite_of_selection hselected
    have hagree : Agree Base64.decodeStrict (cryptosOf content) [crypto] ↔
        Readable Base64.decodeStrict (cryptosOf content) crypto ∧
          (parseKeyParams Base64.decodeStrict crypto.keyParams).isSome := by
      rw [← hsuite] at hsupported
      exact SrtpFilter.agree_iff hsupported
    have hreadable : Readable Base64.decodeStrict (cryptosOf content) crypto ↔
        Readable Base64.decodeStrict (cryptosOf content) selected := by
      unfold Readable
      rw [isMatch_congr htag hsuite]
    rw [hreadable, hkey] at hagree
    constructor
    · intro hsecured other hother
      obtain rfl := Option.some.inj hother
      have hne : cryptosOf answered ≠ [] := by
        rw [hone]
        exact List.cons_ne_nil _ _
      obtain ⟨crypto', hone', ⟨offered, hoffered, hname, -, hoffer⟩, -⟩ := hsecured hne
      obtain ⟨rfl, -⟩ := List.cons.inj (hone.symm.trans hone')
      obtain rfl := eq_of_name hnames hoffered hmem (hname.trans h.name)
      exact hagree.mp hoffer
    · intro hall _
      obtain ⟨hoffered, hcurrent⟩ := hall selected rfl
      obtain ⟨found, hfound, -⟩ := hoffered
      have hmatch := SrtpFilter.isMatch_suite (List.find?_some hfound)
      refine ⟨crypto, hone, ⟨content, hmem, h.name.symm, ⟨found, List.mem_of_find?_eq_some hfound,
        hmatch.1.symm.trans htag.symm, hmatch.2.symm.trans hsuite.symm⟩,
        hagree.mpr (hall selected rfl)⟩, fun hor => ?_⟩
      rw [hsuite]
      have hbundled : isBundled answer answered.name = true → offersBundle offer options = true := by
        intro hin
        refine hbundles fun hnil => ?_
        rw [isBundled, hnil] at hin
        cases hin
      refine hsuite80 ?_
      rcases hor with haudio | hin
      · rcases hsource with rfl | hoffers
        · exact .inl (h.audio.symm.trans haudio)
        · exact .inr hoffers
      · exact .inr (hbundled hin)

theorem agreement_of_concluded (hnames : (offer.contents.map (·.name)).Nodup)
    {answer : MediaSessionDescription} (h : f.Concluded offer options current answer) :
    SdesAgreement offer answer ↔ f.Negotiable offer options current := by
  constructor
  · intro hagreement
    refine ⟨h.alike.mp hagreement.bundled, fun content hcontent selected hselected => ?_⟩
    obtain ⟨answered, hmem, hanswers⟩ := exists_of_mem_left h.contents hcontent
    exact (secured_iff hnames (mem_answeredContents hcontent) hanswers (sourceOf_cases content)
      h.bundles).mp (hagreement.secured answered hmem) selected hselected
  · intro hnegotiable
    refine ⟨fun answered hmem => ?_, h.alike.mpr hnegotiable.alike⟩
    obtain ⟨content, hcontent, hanswers⟩ := exists_of_mem_right h.contents hmem
    exact (secured_iff hnames (mem_answeredContents hcontent) hanswers (sourceOf_cases content)
      h.bundles).mpr (hnegotiable.readable content hcontent)

/-- The contents of an offer that are bundled are alike, and both sides can use the cryptos of an
answer just if what was selected had been offered for each content that gets it. -/
theorem sdes_agreement (f : MediaSessionDescriptionFactory) (rng : RandomGenerator) (rounds : Nat)
    (options : MediaSessionOptions) (current : Option MediaSessionDescription) :
    (∀ n k offer, f.createOffer rng rounds options current n = .ok (offer, k) → BundledAlike offer) ∧
      (GivesKeys rng → ∀ offer : MediaSessionDescription, (offer.contents.map (·.name)).Nodup →
        ∀ n k answer, f.createAnswer rng rounds offer options current n = .ok (answer, k) →
          (SdesAgreement offer answer ↔ f.Negotiable offer options current)) :=
  ⟨fun _ _ _ h => alike_createOffer h, fun hkeys _ hnames _ _ _ h =>
    agreement_of_concluded hnames (concluded_createAnswer hkeys hnames h)⟩

theorem length_zeros (_ len : Nat) (bytes : List UInt8)
    (h : some (List.replicate len 0) = some bytes) : bytes.length = len := by
  rw [← Option.some.inj h]
  exact List.length_replicate

/-- A generator of zeros, and of ids that count. -/
def zeroGenerator : RandomGenerator where
  generate _ len := some (List.replicate len 0)
  length_generate := length_zeros
  id n := UInt32.ofNat (n + 1)

theorem givesKeys_zeroGenerator : GivesKeys zeroGenerator := fun _ => rfl

def securingFactory : MediaSessionDescriptionFactory where
  secure := .enabled
  transportDescFactory := some {}

def offeredCrypto (tag : Int) (cipherSuite : String) : CryptoParams where
  tag := tag
  cipherSuite := cipherSuite
  keyParams := "inline:AAAAAAAAAAAAAAAAAAAAAAAAAAAAAAAAAAAAAAAA"

def audioOffer : MediaSessionDescription where
  contents := [⟨cnAudio, nsJingleRtp, false,
    some (.audio { cryptos := [offeredCrypto 1 csAesCm128HmacSha1_80] })⟩]
  transportInfos := [⟨cnAudio, { transportType := nsGingleP2p }⟩]

theorem negotiable_audioOffer : securingFactory.Negotiable audioOffer {} none := by
  refine ⟨fun first rest hcons => ?_, fun content hcontent selected hselected => ?_⟩
  · cases hcons
  · obtain rfl : content = audioOffer.contents.head (by decide) := by
      have hone : answeredContents audioOffer = [audioOffer.contents.head (by decide)] := by decide
      rw [hone] at hcontent
      exact List.mem_singleton.mp hcontent
    obtain rfl : offeredCrypto 1 csAesCm128HmacSha1_80 = selected := by
      have hone : securingFactory.selection audioOffer {} (securingFactory.sourceOf audioOffer {}
          (audioOffer.contents.head (by decide))) = some (offeredCrypto 1 csAesCm128HmacSha1_80) := by
        decide
      exact Option.some.inj (hone.symm.trans hselected)
    exact ⟨⟨offeredCrypto 1 csAesCm128HmacSha1_80, by decide, by decide +kernel⟩, nofun⟩

theorem sdes_agreement_audio : ∃ answer k, securingFactory.createAnswer zeroGenerator 1 audioOffer {}
    none 0 = .ok (answer, k) ∧ SdesAgreement audioOffer answer := by
  have hsome : (securingFactory.createAnswer zeroGenerator 1 audioOffer {} none 0).toOption.isSome := by
    decide +kernel
  cases hanswer : securingFactory.createAnswer zeroGenerator 1 audioOffer {} none 0 with
  | error stop =>
    rw [hanswer] at hsome
    cases hsome
  | ok result =>
    exact ⟨result.1, result.2, rfl, ((sdes_agreement securingFactory zeroGenerator 1 {} none).2
      givesKeys_zeroGenerator audioOffer (by decide) 0 result.2 result.1 hanswer).mpr
        negotiable_audioOffer⟩

def mixedOffer : MediaSessionDescription where
  contents := [⟨cnAudio, nsJingleRtp, false, some (.audio { cryptos :=
      [offeredCrypto 1 csAesCm128HmacSha1_32, offeredCrypto 2 csAesCm128HmacSha1_80] })⟩,
    ⟨cnVideo, nsJingleRtp, false,
      some (.video { cryptos := [offeredCrypto 1 csAesCm128HmacSha1_80] })⟩]
  transportInfos := [⟨cnAudio, { transportType := nsGingleP2p }⟩,
    ⟨cnVideo, { transportType := nsGingleP2p }⟩]
  groups := [{ semantics := groupTypeBundle, contentNames := [cnAudio, cnVideo], nodup := by decide }]

/-- Video is answered with the tag of audio, which it was not offered. -/
theorem mixed_tags : ∃ answer k, securingFactory.createAnswer zeroGenerator 2 mixedOffer
    { hasVideo := true, bundleEnabled := true } none 0 = .ok (answer, k) ∧
      ¬ SdesAgreement mixedOffer answer := by
  have hsome : (securingFactory.createAnswer zeroGenerator 2 mixedOffer
      { hasVideo := true, bundleEnabled := true } none 0).toOption.isSome := by
    decide +kernel
  cases hanswer : securingFactory.createAnswer zeroGenerator 2 mixedOffer
      { hasVideo := true, bundleEnabled := true } none 0 with
  | error stop =>
    rw [hanswer] at hsome
    cases hsome
  | ok result =>
    refine ⟨result.1, result.2, rfl, fun hagreement => ?_⟩
    have hnames : (mixedOffer.contents.map (·.name)).Nodup := by decide
    have hnegotiable := (agreement_of_concluded hnames
      (concluded_createAnswer givesKeys_zeroGenerator hnames hanswer)).mp hagreement
    have hvideo : mixedOffer.contents[1] ∈ answeredContents mixedOffer := by decide
    obtain ⟨⟨found, hfound, -⟩, -⟩ := hnegotiable.readable _ hvideo
      (offeredCrypto 2 csAesCm128HmacSha1_80) (by decide)
    have hnone : (cryptosOf mixedOffer.contents[1]).find?
        ((offeredCrypto 2 csAesCm128HmacSha1_80).isMatch ·) = none := by decide
    rw [hnone] at hfound
    cases hfound

end MediaSessionDescriptionFactory

end Libjingle
