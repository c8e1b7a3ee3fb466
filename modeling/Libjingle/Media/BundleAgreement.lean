import Libjingle.Media.MediaSessionDescriptionFactory

/-! What bundling does to a description. -/

namespace Libjingle

def cryptosOf (content : MediaContentInfo) : List CryptoParams :=
  (mediaDescription content).elim [] (·.media.cryptos)

def credentialsOf (sdesc : MediaSessionDescription) (name : String) : Option (String × String) :=
  (getTransportInfoByContentName sdesc.transportInfos name).map fun info =>
    (info.description.iceUfrag, info.description.icePwd)

def BundledAlike (sdesc : MediaSessionDescription) : Prop :=
  ∀ group ∈ sdesc.groups, group.semantics = groupTypeBundle →
    ∀ a ∈ sdesc.contents, ∀ b ∈ sdesc.contents, a.name ∈ group.contentNames →
      b.name ∈ group.contentNames → cryptosOf a = cryptosOf b ∧ ∃ credentials,
        credentialsOf sdesc a.name = some credentials ∧ credentialsOf sdesc b.name = some credentials

def withCryptos (cryptos : List CryptoParams) (content : MediaContentInfo) : MediaContentInfo :=
  if isMediaContent content then
    { content with description := content.description.map (·.setCryptos cryptos) }
  else content

variable {cryptos : List CryptoParams} {content : MediaContentInfo}
  {contents : List MediaContentInfo} {group : ContentGroup} {sdesc : MediaSessionDescription}

@[simp] theorem name_withCryptos : (withCryptos cryptos content).name = content.name := by
  unfold withCryptos
  split_ifs <;> rfl

@[simp] theorem mediaDescription_withCryptos : mediaDescription (withCryptos cryptos content) =
    (mediaDescription content).map (·.setCryptos cryptos) := by
  by_cases hmedia : isMediaContent content = true
  · have hsame : isMediaContent { content with
        description := content.description.map (·.setCryptos cryptos) } = true := hmedia
    rw [withCryptos, if_pos hmedia, mediaDescription, if_pos hsame, mediaDescription, if_pos hmedia]
  · rw [withCryptos, if_neg hmedia, mediaDescription, if_neg hmedia]
    rfl

theorem cryptosOf_withCryptos (h : (mediaDescription content).isSome) :
    cryptosOf (withCryptos cryptos content) = cryptos := by
  obtain ⟨media, hmedia⟩ := Option.isSome_iff_exists.mp h
  simp [cryptosOf, hmedia]

section Same

variable {β : Type} {φ : MediaContentInfo → β}
  (hφ : ∀ cryptos content, φ (withCryptos cryptos content) = φ content)

include hφ

theorem map_setCryptosByName {name : String} {result : List MediaContentInfo}
    (h : setCryptosByName name cryptos contents = some result) :
    result.map φ = contents.map φ := by
  induction contents generalizing result with
  | nil =>
    cases h
    rfl
  | cons content contents ih =>
    rw [setCryptosByName] at h
    by_cases hname : content.name = name
    · rw [if_pos hname] at h
      by_cases hmedia : isMediaContent content = true
      · rw [if_pos hmedia] at h
        obtain ⟨description, hdescription, rfl⟩ := Option.map_eq_some_iff.mp h
        have hset := hφ cryptos content
        rw [withCryptos, if_pos hmedia, hdescription, Option.map_some] at hset
        rw [List.map_cons, List.map_cons, hset]
      · rw [if_neg hmedia] at h
        cases h
        rfl
    · rw [if_neg hname] at h
      obtain ⟨rest, hrest, rfl⟩ := Option.map_eq_some_iff.mp h
      rw [List.map_cons, List.map_cons, ih hrest]

theorem map_setCryptosByNames {names : List String} {result : List MediaContentInfo}
    (h : setCryptosByNames cryptos names contents = some result) :
    result.map φ = contents.map φ := by
  induction names generalizing contents with
  | nil =>
    cases h
    rfl
  | cons name names ih =>
    obtain ⟨next, hnext, h⟩ := Option.bind_eq_some_iff.mp h
    rw [ih h, map_setCryptosByName hφ hnext]

theorem map_updateCryptoParamsForBundle {result : MediaSessionDescription}
    (h : updateCryptoParamsForBundle group sdesc = some result) :
    result.contents.map φ = sdesc.contents.map φ := by
  unfold updateCryptoParamsForBundle at h
  cases hgroup : group.contentNames with
  | nil =>
    rw [hgroup] at h
    cases h
  | cons first names =>
    rw [hgroup] at h
    obtain ⟨cryptos, -, h⟩ := Option.bind_eq_some_iff.mp h
    by_cases hempty : cryptos = []
    · rw [if_pos hempty] at h
      cases h
      rfl
    · rw [if_neg hempty] at h
      obtain ⟨common, -, h⟩ := Option.bind_eq_some_iff.mp h
      by_cases hnone : common = []
      · rw [if_pos hnone] at h
        cases h
      · rw [if_neg hnone] at h
        obtain ⟨contents, hset, h⟩ := Option.bind_eq_some_iff.mp h
        cases h
        exact map_setCryptosByNames hφ hset

theorem map_contents_bundle {result : MediaSessionDescription}
    (h : bundle group sdesc = some result) : result.contents.map φ = sdesc.contents.map φ := by
  obtain ⟨shared, hshared, h⟩ := Option.bind_eq_some_iff.mp h
  obtain ⟨first, -, hshared⟩ := Option.bind_eq_some_iff.mp hshared
  obtain ⟨selected, -, hshared⟩ := Option.bind_eq_some_iff.mp hshared
  rw [map_updateCryptoParamsForBundle hφ h]
  cases hshared
  rfl

end Same

theorem withCryptos_twice :
    withCryptos cryptos (withCryptos cryptos content) = withCryptos cryptos content := by
  by_cases hmedia : isMediaContent content = true
  · have hsame : isMediaContent { content with
        description := content.description.map (·.setCryptos cryptos) } = true := hmedia
    have htwice : ∀ o : Option MediaDescription,
        (o.map (·.setCryptos cryptos)).map (·.setCryptos cryptos) = o.map (·.setCryptos cryptos) := by
      intro o
      cases o with
      | none => rfl
      | some d => cases d <;> rfl
    rw [withCryptos, withCryptos, if_pos hmedia, if_pos hsame, htwice]
  · rw [withCryptos, withCryptos, if_neg hmedia, if_neg hmedia]

def withCryptosAt (names : List String) (cryptos : List CryptoParams) (content : MediaContentInfo) :
    MediaContentInfo := if content.name ∈ names then withCryptos cryptos content else content

@[simp] theorem name_withCryptosAt {names : List String} :
    (withCryptosAt names cryptos content).name = content.name := by
  unfold withCryptosAt
  split_ifs
  · exact name_withCryptos
  · rfl

theorem map_name_withCryptosAt {names : List String} :
    (contents.map (withCryptosAt names cryptos)).map (·.name) = contents.map (·.name) := by
  rw [List.map_map]
  exact List.map_congr_left fun _ _ => name_withCryptosAt

theorem withCryptosAt_of_notMem {names : List String}
    (h : ∀ content ∈ contents, content.name ∉ names) :
    contents.map (withCryptosAt names cryptos) = contents := by
  conv_rhs => rw [← List.map_id contents]
  exact List.map_congr_left fun content hcontent => if_neg (h content hcontent)

theorem setCryptosByName_eq {name : String} {result : List MediaContentInfo}
    (hnames : (contents.map (·.name)).Nodup)
    (h : setCryptosByName name cryptos contents = some result) :
    result = contents.map (withCryptosAt [name] cryptos) := by
  induction contents generalizing result with
  | nil => exact (Option.some.inj h).symm
  | cons content contents ih =>
    obtain ⟨hfirst, hrest⟩ := List.nodup_cons.mp hnames
    by_cases hname : content.name = name
    · have hothers : contents.map (withCryptosAt [name] cryptos) = contents := by
        refine withCryptosAt_of_notMem fun other hother hmem => hfirst ?_
        have hsame : content.name = other.name := hname.trans (List.mem_singleton.mp hmem).symm
        exact List.mem_map.mpr ⟨other, hother, hsame.symm⟩
      have hat : withCryptosAt [name] cryptos content = withCryptos cryptos content :=
        if_pos (List.mem_singleton.mpr hname)
      rw [List.map_cons, hothers, hat]
      rw [setCryptosByName, if_pos hname] at h
      by_cases hmedia : isMediaContent content = true
      · rw [if_pos hmedia] at h
        obtain ⟨description, hdescription, rfl⟩ := Option.map_eq_some_iff.mp h
        rw [withCryptos, if_pos hmedia, hdescription]
        rfl
      · rw [if_neg hmedia] at h
        rw [withCryptos, if_neg hmedia]
        exact (Option.some.inj h).symm
    · have hat : withCryptosAt [name] cryptos content = content :=
        if_neg fun hmem => hname (List.mem_singleton.mp hmem)
      rw [setCryptosByName, if_neg hname] at h
      obtain ⟨others, hothers, rfl⟩ := Option.map_eq_some_iff.mp h
      rw [List.map_cons, hat, ih hrest hothers]

theorem withCryptosAt_cons {name : String} {names : List String} :
    withCryptosAt names cryptos (withCryptosAt [name] cryptos content) =
      withCryptosAt (name :: names) cryptos content := by
  by_cases hname : content.name = name
  · have hat : withCryptosAt [name] cryptos content = withCryptos cryptos content :=
      if_pos (List.mem_singleton.mpr hname)
    have hcons : withCryptosAt (name :: names) cryptos content = withCryptos cryptos content :=
      if_pos (List.mem_cons.mpr (.inl hname))
    rw [hat, hcons]
    unfold withCryptosAt
    split_ifs
    · exact withCryptos_twice
    · rfl
  · have hat : withCryptosAt [name] cryptos content = content :=
      if_neg fun hmem => hname (List.mem_singleton.mp hmem)
    rw [hat]
    simp [withCryptosAt, hname]

theorem setCryptosByNames_eq {names : List String} {result : List MediaContentInfo}
    (hnames : (contents.map (·.name)).Nodup)
    (h : setCryptosByNames cryptos names contents = some result) :
    result = contents.map (withCryptosAt names cryptos) := by
  induction names generalizing contents with
  | nil =>
    rw [withCryptosAt_of_notMem fun _ _ => List.not_mem_nil]
    exact (Option.some.inj h).symm
  | cons name names ih =>
    obtain ⟨next, hnext, h⟩ := Option.bind_eq_some_iff.mp h
    have hset := setCryptosByName_eq hnames hnext
    have hnames' : (next.map (·.name)).Nodup := by
      rw [hset, map_name_withCryptosAt]
      exact hnames
    rw [ih hnames' h, hset, List.map_map]
    exact List.map_congr_left fun _ _ => withCryptosAt_cons

theorem commonCryptos_spec {names : List String} {common result : List CryptoParams}
    (h : commonCryptos contents names common = some result) :
    result.Sublist common ∧ ∀ name ∈ names, (getCryptosByName contents name).isSome := by
  induction names generalizing common with
  | nil =>
    obtain rfl := Option.some.inj h
    exact ⟨List.Sublist.refl _, fun _ hname => absurd hname List.not_mem_nil⟩
  | cons name names ih =>
    obtain ⟨found, hfound, h⟩ := Option.bind_eq_some_iff.mp h
    obtain ⟨hsublist, hsome⟩ := ih h
    refine ⟨hsublist.trans List.filter_sublist, fun other hother => ?_⟩
    rcases List.mem_cons.mp hother with rfl | hother
    · rw [hfound]
      rfl
    · exact hsome other hother

theorem findContentInfoByName_of_mem {Description : Type}
    {contents : List (ContentInfo Description)} {content : ContentInfo Description}
    (hnames : (contents.map (·.name)).Nodup) (h : content ∈ contents) :
    findContentInfoByName contents content.name = some content := by
  induction contents with
  | nil => exact absurd h List.not_mem_nil
  | cons other contents ih =>
    obtain ⟨hfirst, hrest⟩ := List.nodup_cons.mp hnames
    rcases List.mem_cons.mp h with rfl | hmem
    · exact List.find?_cons_of_pos (by simp)
    · have hne : ¬ other.name = content.name := by
        intro heq
        exact hfirst (List.mem_map.mpr ⟨content, hmem, heq.symm⟩)
      rw [findContentInfoByName, List.find?_cons_of_neg (by simpa using hne)]
      exact ih hrest hmem

theorem getCryptosByName_of_mem (hnames : (contents.map (·.name)).Nodup) (h : content ∈ contents) :
    getCryptosByName contents content.name =
      (mediaDescription content).map (·.media.cryptos) := by
  rw [getCryptosByName, findContentInfoByName_of_mem hnames h]
  rfl

structure Bundles (group : ContentGroup) (sdesc result : MediaSessionDescription) : Prop where
  groups : result.groups = sdesc.groups ++ [group]
  credentials : ∃ credentials, ∀ name ∈ group.contentNames,
    (getTransportInfoByContentName sdesc.transportInfos name).isSome →
      credentialsOf result name = some credentials
  contents : ∃ first names cryptos, group.contentNames = first :: names ∧
    getCryptosByName sdesc.contents first = some cryptos ∧
    if cryptos = [] then result.contents = sdesc.contents
    else ∃ common : List CryptoParams, common.Sublist cryptos ∧ common ≠ [] ∧
      (∀ name ∈ group.contentNames, (getCryptosByName sdesc.contents name).isSome) ∧
      result.contents = sdesc.contents.map (withCryptosAt group.contentNames common)

theorem credentialsOf_updateTransportInfoForBundle {result : MediaSessionDescription}
    (h : updateTransportInfoForBundle group sdesc = some result) :
    ∃ credentials, ∀ name ∈ group.contentNames,
      (getTransportInfoByContentName sdesc.transportInfos name).isSome →
        credentialsOf result name = some credentials := by
  obtain ⟨first, hfirst, h⟩ := Option.bind_eq_some_iff.mp h
  obtain ⟨selected, hselected, h⟩ := Option.bind_eq_some_iff.mp h
  obtain rfl := Option.some.inj h
  refine ⟨(selected.description.iceUfrag, selected.description.icePwd), fun name hname hsome => ?_⟩
  obtain ⟨info, hinfo⟩ := Option.isSome_iff_exists.mp hsome
  have hkept : ∀ info : SessionDescription.TransportInfo,
      (shareCredentials group selected info).contentName = info.contentName := by
    intro info
    unfold shareCredentials
    split_ifs <;> rfl
  have hcomp : ((fun info : SessionDescription.TransportInfo => decide (info.contentName = name)) ∘
      shareCredentials group selected) = fun info => decide (info.contentName = name) := by
    funext info
    simp [hkept]
  have hfind : getTransportInfoByContentName
      (sdesc.transportInfos.map (shareCredentials group selected)) name =
        some (shareCredentials group selected info) := by
    rw [getTransportInfoByContentName, List.find?_map, hcomp]
    rw [getTransportInfoByContentName] at hinfo
    rw [hinfo]
    rfl
  rw [credentialsOf, hfind]
  have hinfoName : info.contentName = name := by simpa using List.find?_some hinfo
  by_cases hself : info.contentName = selected.contentName
  · have hselectedName : selected.contentName = first := by simpa using List.find?_some hselected
    have hsame : info = selected := by
      have hnameFirst : name = first := hinfoName.symm.trans (hself.trans hselectedName)
      rw [hnameFirst, hselected] at hinfo
      exact (Option.some.inj hinfo).symm
    rw [shareCredentials, if_neg fun h => h.2 hself, hsame]
    rfl
  · have hin : group.hasContentName info.contentName = true := by
      rw [hinfoName]
      exact List.contains_iff_mem.mpr hname
    rw [shareCredentials, if_pos ⟨hin, hself⟩]
    rfl

theorem bundle_spec {result : MediaSessionDescription}
    (hnames : (sdesc.contents.map (·.name)).Nodup) (h : bundle group sdesc = some result) :
    Bundles group sdesc result := by
  obtain ⟨shared, hshared, h⟩ := Option.bind_eq_some_iff.mp h
  have hcredentials := credentialsOf_updateTransportInfoForBundle hshared
  have hcontents : shared.contents = sdesc.contents ∧ shared.groups = sdesc.groups ++ [group] := by
    obtain ⟨first, -, hshared⟩ := Option.bind_eq_some_iff.mp hshared
    obtain ⟨selected, -, hshared⟩ := Option.bind_eq_some_iff.mp hshared
    obtain rfl := Option.some.inj hshared
    exact ⟨rfl, rfl⟩
  have htransports : result.transportInfos = shared.transportInfos ∧
      result.groups = shared.groups ∧ ∃ first names cryptos, group.contentNames = first :: names ∧
        getCryptosByName shared.contents first = some cryptos ∧
        if cryptos = [] then result.contents = shared.contents
        else ∃ common : List CryptoParams, common.Sublist cryptos ∧ common ≠ [] ∧
          (∀ name ∈ names, (getCryptosByName shared.contents name).isSome) ∧
          setCryptosByNames common (first :: names) shared.contents = some result.contents := by
    unfold updateCryptoParamsForBundle at h
    cases hgroup : group.contentNames with
    | nil =>
      rw [hgroup] at h
      cases h
    | cons first names =>
      rw [hgroup] at h
      obtain ⟨cryptos, hcryptos, h⟩ := Option.bind_eq_some_iff.mp h
      by_cases hempty : cryptos = []
      · rw [if_pos hempty] at h
        obtain rfl := Option.some.inj h
        exact ⟨rfl, rfl, first, names, cryptos, rfl, hcryptos, by rw [if_pos hempty]⟩
      · rw [if_neg hempty] at h
        obtain ⟨common, hcommon, h⟩ := Option.bind_eq_some_iff.mp h
        obtain ⟨hsublist, hsome⟩ := commonCryptos_spec hcommon
        by_cases hnone : common = []
        · rw [if_pos hnone] at h
          cases h
        · rw [if_neg hnone] at h
          obtain ⟨contents, hset, h⟩ := Option.bind_eq_some_iff.mp h
          obtain rfl := Option.some.inj h
          refine ⟨rfl, rfl, first, names, cryptos, rfl, hcryptos, ?_⟩
          rw [if_neg hempty]
          exact ⟨common, hsublist, hnone, hsome, hset⟩
  obtain ⟨hinfos, hgroups, first, names, cryptos, hgroup, hfirst, hrest⟩ := htransports
  rw [hcontents.1] at hfirst hrest
  refine ⟨hgroups.trans hcontents.2, ?_, first, names, cryptos, hgroup, hfirst, ?_⟩
  · unfold credentialsOf at hcredentials ⊢
    rw [hinfos]
    exact hcredentials
  · by_cases hempty : cryptos = []
    · rw [if_pos hempty] at hrest ⊢
      exact hrest
    · rw [if_neg hempty] at hrest ⊢
      obtain ⟨common, hsublist, hnone, hsome, hset⟩ := hrest
      refine ⟨common, hsublist, hnone, ?_, ?_⟩
      · rw [hgroup]
        intro name hname
        rcases List.mem_cons.mp hname with rfl | hname
        · rw [hfirst]
          rfl
        · exact hsome name hname
      · rw [hgroup]
        exact setCryptosByNames_eq hnames hset

theorem alike_of_bundles {result : MediaSessionDescription} (h : Bundles group sdesc result)
    (hnames : (sdesc.contents.map (·.name)).Nodup) (hgroups : sdesc.groups = [])
    (htransports : ∀ name ∈ group.contentNames,
      (getTransportInfoByContentName sdesc.transportInfos name).isSome)
    (hempty : ∀ first names, group.contentNames = first :: names →
      getCryptosByName sdesc.contents first = some [] →
        ∀ content ∈ sdesc.contents, content.name ∈ group.contentNames → cryptosOf content = []) :
    BundledAlike result := by
  intro other hother _ a ha b hb hina hinb
  rw [h.groups, hgroups] at hother
  obtain rfl := List.mem_singleton.mp hother
  obtain ⟨credentials, hcredentials⟩ := h.credentials
  refine ⟨?_, credentials, hcredentials _ hina (htransports _ hina),
    hcredentials _ hinb (htransports _ hinb)⟩
  obtain ⟨first, names, cryptos, hgroup, hfirst, hcontents⟩ := h.contents
  by_cases hnone : cryptos = []
  · rw [if_pos hnone] at hcontents
    rw [hnone] at hfirst
    rw [hcontents] at ha hb
    rw [hempty first names hgroup hfirst a ha hina, hempty first names hgroup hfirst b hb hinb]
  · rw [if_neg hnone] at hcontents
    obtain ⟨common, -, -, hsome, hcontents⟩ := hcontents
    have hcommon : ∀ content ∈ result.contents, content.name ∈ other.contentNames →
        cryptosOf content = common := by
      intro content hcontent hin
      rw [hcontents] at hcontent
      obtain ⟨before, hbefore, rfl⟩ := List.mem_map.mp hcontent
      rw [name_withCryptosAt] at hin
      have hmedia := hsome _ hin
      rw [getCryptosByName_of_mem hnames hbefore, Option.isSome_map] at hmedia
      rw [withCryptosAt, if_pos hin]
      exact cryptosOf_withCryptos hmedia
    rw [hcommon a ha hina, hcommon b hb hinb]

section Offer

variable {rng : RandomGenerator} {rounds : Nat}

theorem createMediaCryptos_ne_nil {suites : List String} {tag : Int} {n k : Nat}
    {cryptos : List CryptoParams} (hsuites : suites ≠ [])
    (h : createMediaCryptos rng suites tag n = .ok (cryptos, k)) : cryptos ≠ [] := by
  cases suites with
  | nil => exact absurd rfl hsuites
  | cons suite suites =>
    obtain ⟨_, _, -, h⟩ := Draw.bind_ok.mp h
    obtain ⟨_, _, -, h⟩ := Draw.bind_ok.mp h
    obtain ⟨_, _, -, h⟩ := Draw.bind_ok.mp h
    obtain ⟨rfl, -⟩ := Draw.pure_ok.mp h
    exact List.cons_ne_nil _ _

theorem offerCryptos_spec {policy : SecurePolicy} {current : Option (List CryptoParams)}
    {suites : List String} {n k : Nat} {cryptos : List CryptoParams}
    (h : offerCryptos rng policy current suites n = .ok (cryptos, k)) :
    (policy = .disabled → cryptos = []) ∧
      (policy ≠ .disabled → suites ≠ [] → cryptos ≠ []) := by
  by_cases hpolicy : policy = .disabled
  · rw [offerCryptos, if_pos hpolicy] at h
    obtain ⟨rfl, -⟩ := Draw.pure_ok.mp h
    exact ⟨fun _ => rfl, fun hne => absurd hpolicy hne⟩
  · rw [offerCryptos, if_neg hpolicy] at h
    refine ⟨fun hd => absurd hd hpolicy, fun _ hsuites => ?_⟩
    by_cases hcurrent : current.getD [] = []
    · rw [if_pos hcurrent] at h
      exact createMediaCryptos_ne_nil hsuites h
    · rw [if_neg hcurrent] at h
      obtain ⟨rfl, -⟩ := Draw.pure_ok.mp h
      exact hcurrent

theorem createMediaContentOffer_cryptos {C : Type} [IsCodec C] {type : MediaType}
    {options : MediaSessionOptions} {codecs : List C} {policy : SecurePolicy}
    {current : Option (List CryptoParams)} {suites : List String}
    {extensions : List RtpHeaderExtension} {legacy : Bool} {streams : List StreamParams}
    {protocol : String} {n k : Nat} {d : MediaContentDescriptionImpl C × List StreamParams}
    (h : createMediaContentOffer rng rounds type options codecs policy current suites extensions
      legacy streams protocol n = .ok (d, k)) :
    (policy = .disabled → d.1.cryptos = []) ∧
      (policy ≠ .disabled → suites ≠ [] → d.1.cryptos ≠ []) := by
  obtain ⟨_, _, -, h⟩ := Draw.bind_ok.mp h
  obtain ⟨cryptos, _, hcryptos, h⟩ := Draw.bind_ok.mp h
  obtain ⟨_, _, -, h⟩ := Draw.bind_ok.mp h
  obtain ⟨rfl, -⟩ := Draw.pure_ok.mp h
  exact offerCryptos_spec hcryptos

end Offer

namespace MediaSessionDescriptionFactory

variable {f : MediaSessionDescriptionFactory} {rng : RandomGenerator} {rounds : Nat}
  {options : MediaSessionOptions} {current : Option MediaSessionDescription}

/-- The contents of an offer have transports, and cryptos or not as the policy says. Only data
may have none. -/
structure Offered (f : MediaSessionDescriptionFactory) (names : List String)
    (sdesc : MediaSessionDescription) : Prop where
  contentNames : sdesc.contents.map (·.name) = names
  groups : sdesc.groups = []
  transports : ∀ name ∈ names, (getTransportInfoByContentName sdesc.transportInfos name).isSome
  disabled : f.secure = .disabled → ∀ content ∈ sdesc.contents, cryptosOf content = []
  secured : f.secure ≠ .disabled → ∀ content ∈ sdesc.contents, content.name ≠ cnData →
    cryptosOf content ≠ []

theorem getTransportInfoByContentName_append {infos : List SessionDescription.TransportInfo}
    {info : SessionDescription.TransportInfo} {name : String}
    (h : (getTransportInfoByContentName infos name).isSome ∨ name = info.contentName) :
    (getTransportInfoByContentName (infos ++ [info]) name).isSome := by
  rw [getTransportInfoByContentName, List.find?_isSome]
  rcases h with h | rfl
  · obtain ⟨found, hmem, hname⟩ := List.find?_isSome.mp h
    exact ⟨found, List.mem_append_left _ hmem, hname⟩
  · exact ⟨info, List.mem_append_right _ (List.mem_singleton.mpr rfl), by simp⟩

/-- A description that is created has cryptos or not as the policy says. -/
def Creates (f : MediaSessionDescriptionFactory) (name : String)
    (create : List StreamParams → Draw (MediaDescription × List StreamParams)) : Prop :=
  ∀ streams n d k, create streams n = .ok (d, k) →
    (f.secure = .disabled → d.1.media.cryptos = []) ∧
      (f.secure ≠ .disabled → name ≠ cnData → d.1.media.cryptos ≠ [])

theorem offered_offerContent {names : List String} {wanted : Bool} {name type : String}
    {create : List StreamParams → Draw (MediaDescription × List StreamParams)} {n k : Nat}
    {s s' : MediaSessionDescription × List StreamParams} (hs : Offered f names s.1)
    (htype : type = nsJingleRtp ∨ type = nsJingleDraftSctp) (hcreate : Creates f name create)
    (h : f.offerContent rng options current wanted name type create s n = .ok (s', k)) :
    Offered f (names ++ if wanted then [name] else []) s'.1 := by
  cases wanted with
  | false =>
    obtain ⟨rfl, -⟩ := Draw.pure_ok.mp h
    simpa using hs
  | true =>
    rw [offerContent, if_pos rfl] at h
    obtain ⟨d, _, hd, h⟩ := Draw.bind_ok.mp h
    obtain ⟨offer, _, hoffer, h⟩ := Draw.bind_ok.mp h
    obtain ⟨rfl, -⟩ := Draw.pure_ok.mp h
    obtain ⟨factory, _, -, hoffer⟩ := Draw.bind_ok.mp hoffer
    obtain ⟨description, _, -, hoffer⟩ := Draw.bind_ok.mp hoffer
    have hadd := (Draw.orElse_ok.mp hoffer).1
    unfold addTransportInfo at hadd
    split at hadd
    · cases hadd
    · obtain rfl := Option.some.inj hadd
      obtain ⟨hdisabled, hsecured⟩ := hcreate _ _ _ _ hd
      have hmedia : cryptosOf ⟨name, type, false, some d.1⟩ = d.1.media.cryptos := by
        have his : isMediaContent ⟨name, type, false, some d.1⟩ = true := by
          rcases htype with rfl | rfl <;> rfl
        rw [cryptosOf, mediaDescription, if_pos his]
        rfl
      refine ⟨?_, hs.groups, ?_, ?_, ?_⟩
      · simp [addContent, hs.contentNames]
      · intro other hother
        refine getTransportInfoByContentName_append ?_
        rcases List.mem_append.mp hother with hold | hnew
        · exact .inl (hs.transports other hold)
        · exact .inr (List.mem_singleton.mp hnew)
      · intro hpolicy content hcontent
        rcases List.mem_append.mp hcontent with hold | hnew
        · exact hs.disabled hpolicy content hold
        · rw [List.mem_singleton.mp hnew, hmedia]
          exact hdisabled hpolicy
      · intro hpolicy content hcontent hname
        rcases List.mem_append.mp hcontent with hold | hnew
        · exact hs.secured hpolicy content hold hname
        · rw [List.mem_singleton.mp hnew] at hname ⊢
          rw [hmedia]
          exact hsecured hpolicy hname

theorem creates_offerAudio {secureTransport : Bool} {codecs : List AudioCodec}
    {extensions : List RtpHeaderExtension} :
    Creates f cnAudio (f.offerAudio rng rounds options current secureTransport codecs extensions) := by
  intro streams n d k h
  obtain ⟨audio, _, haudio, h⟩ := Draw.bind_ok.mp h
  obtain ⟨rfl, -⟩ := Draw.pure_ok.mp h
  obtain ⟨hdisabled, hsecured⟩ := createMediaContentOffer_cryptos haudio
  exact ⟨hdisabled, fun hpolicy _ => hsecured hpolicy (List.cons_ne_nil _ _)⟩

theorem creates_offerVideo {secureTransport : Bool} {codecs : List VideoCodec}
    {extensions : List RtpHeaderExtension} :
    Creates f cnVideo (f.offerVideo rng rounds options current secureTransport codecs extensions) := by
  intro streams n d k h
  obtain ⟨video, _, hvideo, h⟩ := Draw.bind_ok.mp h
  obtain ⟨rfl, -⟩ := Draw.pure_ok.mp h
  obtain ⟨hdisabled, hsecured⟩ := createMediaContentOffer_cryptos hvideo
  exact ⟨hdisabled, fun hpolicy _ => hsecured hpolicy (List.cons_ne_nil _ _)⟩

theorem creates_offerData {secureTransport : Bool} {codecs : List DataCodec} :
    Creates f cnData (f.offerData rng rounds options current secureTransport codecs) := by
  intro streams n d k h
  refine ⟨fun hpolicy => ?_, fun _ hname => absurd rfl hname⟩
  unfold offerData at h
  by_cases hsctp : options.dataChannelType = .sctp
  · rw [if_pos hsctp] at h
    obtain ⟨data, _, hdata, h⟩ := Draw.bind_ok.mp h
    obtain ⟨rfl, -⟩ := Draw.pure_ok.mp h
    exact (createMediaContentOffer_cryptos hdata).1 rfl
  · rw [if_neg hsctp] at h
    obtain ⟨data, _, hdata, h⟩ := Draw.bind_ok.mp h
    obtain ⟨rfl, -⟩ := Draw.pure_ok.mp h
    exact (createMediaContentOffer_cryptos hdata).1 hpolicy

theorem contentNames_bundleGroupOf {contents : List MediaContentInfo} {name : String} :
    name ∈ (bundleGroupOf contents).contentNames ↔ name ∈ contents.map (·.name) := by
  rw [bundleGroupOf, ContentGroup.mem_foldl_addContentName]
  simp

theorem head?_foldl_addContentName {names : List String} :
    (names.foldl ContentGroup.addContentName group).contentNames.head? =
      group.contentNames.head?.or names.head? := by
  induction names generalizing group with
  | nil => simp
  | cons name names ih =>
    rw [List.foldl_cons, ih]
    cases hgroup : group.contentNames with
    | nil => simp [ContentGroup.addContentName, hgroup]
    | cons first others =>
      unfold ContentGroup.addContentName
      split_ifs <;> simp [hgroup]

theorem head?_bundleGroupOf {contents : List MediaContentInfo} :
    (bundleGroupOf contents).contentNames.head? = contents.head?.map (·.name) := by
  rw [bundleGroupOf, head?_foldl_addContentName, List.head?_map]
  rfl

theorem offerContent_spec {wanted : Bool} {name type : String}
    {create : List StreamParams → Draw (MediaDescription × List StreamParams)} {n k : Nat}
    {s s' : MediaSessionDescription × List StreamParams}
    (h : f.offerContent rng options current wanted name type create s n = .ok (s', k)) :
    if wanted then ∃ d m l, create s.2 m = .ok (d, l) ∧ s'.2 = d.2 ∧
      s'.1.contents = s.1.contents ++ [⟨name, type, false, some d.1⟩]
    else s' = s := by
  cases wanted with
  | false => exact (Draw.pure_ok.mp h).1.symm
  | true =>
    rw [offerContent, if_pos rfl] at h
    obtain ⟨d, _, hd, h⟩ := Draw.bind_ok.mp h
    obtain ⟨offer, _, hoffer, h⟩ := Draw.bind_ok.mp h
    obtain ⟨rfl, -⟩ := Draw.pure_ok.mp h
    obtain ⟨factory, _, -, hoffer⟩ := Draw.bind_ok.mp hoffer
    obtain ⟨description, _, -, hoffer⟩ := Draw.bind_ok.mp hoffer
    have hadd := (Draw.orElse_ok.mp hoffer).1
    unfold addTransportInfo at hadd
    split at hadd
    · cases hadd
    · obtain rfl := Option.some.inj hadd
      exact ⟨d, _, _, hd, rfl, rfl⟩

theorem contents_offerContent {wanted : Bool} {name type : String}
    {create : List StreamParams → Draw (MediaDescription × List StreamParams)} {n k : Nat}
    {s s' : MediaSessionDescription × List StreamParams}
    (h : f.offerContent rng options current wanted name type create s n = .ok (s', k)) :
    s'.1.contents = s.1.contents ∨ ∃ content, s'.1.contents = s.1.contents ++ [content] := by
  have hspec := offerContent_spec h
  cases wanted with
  | false => exact .inl (congrArg (·.1.contents) hspec)
  | true =>
    obtain ⟨d, _, _, -, -, hcontents⟩ := hspec
    exact .inr ⟨_, hcontents⟩

theorem cryptosOf_of_getCryptosByName {cryptos : List CryptoParams}
    (hnames : (contents.map (·.name)).Nodup) (hmem : content ∈ contents)
    (h : getCryptosByName contents content.name = some cryptos) : cryptosOf content = cryptos := by
  rw [getCryptosByName_of_mem hnames hmem] at h
  obtain ⟨media, hmedia, rfl⟩ := Option.map_eq_some_iff.mp h
  rw [cryptosOf, hmedia]
  rfl

theorem alike_createOffer {n k : Nat} {offer : MediaSessionDescription}
    (h : f.createOffer rng rounds options current n = .ok (offer, k)) : BundledAlike offer := by
  obtain ⟨factory, _, -, h⟩ := Draw.bind_ok.mp h
  obtain ⟨⟨audioCodecs, videoCodecs, dataCodecs⟩, _, -, h⟩ := Draw.bind_ok.mp h
  obtain ⟨s₁, _, haudio, h⟩ := Draw.bind_ok.mp h
  obtain ⟨s₂, _, hvideo, h⟩ := Draw.bind_ok.mp h
  obtain ⟨s₃, _, hdata, h⟩ := Draw.bind_ok.mp h
  have hstart : Offered f [] {} := ⟨rfl, rfl, fun _ h => absurd h List.not_mem_nil,
    fun _ _ h => absurd h List.not_mem_nil, fun _ _ h => absurd h List.not_mem_nil⟩
  have h₁ := offered_offerContent hstart (.inl rfl) creates_offerAudio haudio
  have h₂ := offered_offerContent h₁ (.inl rfl) creates_offerVideo hvideo
  have htype : (if options.dataChannelType = .sctp then nsJingleDraftSctp else nsJingleRtp) =
      nsJingleRtp ∨ (if options.dataChannelType = .sctp then nsJingleDraftSctp else nsJingleRtp) =
        nsJingleDraftSctp := by
    by_cases hsctp : options.dataChannelType = .sctp
    · exact .inr (if_pos hsctp)
    · exact .inl (if_neg hsctp)
  have h₃ := offered_offerContent h₂ htype creates_offerData hdata
  have hnames : (s₃.1.contents.map (·.name)).Nodup := by
    rw [h₃.contentNames]
    cases options.hasAudio <;> cases options.hasVideo <;> cases options.hasData <;> decide
  by_cases hbundle : options.bundleEnabled = true
  · rw [if_pos hbundle] at h
    have hbundled := (Draw.orElse_ok.mp h).1
    refine alike_of_bundles (bundle_spec hnames hbundled) hnames h₃.groups ?_ ?_
    · intro name hname
      rw [contentNames_bundleGroupOf, h₃.contentNames] at hname
      exact h₃.transports name hname
    · intro first names hgroup hfirst content hcontent _
      by_cases hpolicy : f.secure = .disabled
      · exact h₃.disabled hpolicy content hcontent
      · have hhead : s₃.1.contents.head?.map (·.name) = some first := by
          rw [← head?_bundleGroupOf, hgroup]
          rfl
        obtain ⟨found, hfound, hname⟩ := Option.map_eq_some_iff.mp hhead
        have hmem : found ∈ s₃.1.contents := List.mem_of_head? hfound
        have hnone : cryptosOf found = [] :=
          cryptosOf_of_getCryptosByName hnames hmem (hname.symm ▸ hfirst)
        cases hold : s₂.1.contents with
        | nil =>
          rcases contents_offerContent hdata with hsame | ⟨only, hsame⟩
          · rw [hsame, hold] at hcontent
            exact absurd hcontent List.not_mem_nil
          · rw [hsame, hold] at hcontent hfound
            rw [List.mem_singleton.mp hcontent, Option.some.inj hfound]
            exact hnone
        | cons head rest =>
          have hsame : found = head := by
            rcases contents_offerContent hdata with hsame | ⟨only, hsame⟩ <;>
              rw [hsame, hold] at hfound <;> exact (Option.some.inj hfound).symm
          have hhead : head ∈ s₂.1.contents := by
            rw [hold]
            exact List.mem_cons_self
          have hnot : head.name ≠ cnData := by
            intro heq
            have hin : head.name ∈ s₂.1.contents.map (·.name) := List.mem_map_of_mem hhead
            rw [h₂.contentNames, heq] at hin
            revert hin
            cases options.hasAudio <;> cases options.hasVideo <;> decide
          exact absurd (hsame ▸ hnone) (h₂.secured hpolicy head hhead hnot)
  · rw [if_neg hbundle] at h
    obtain ⟨rfl, -⟩ := Draw.pure_ok.mp h
    intro group hgroup
    rw [h₃.groups] at hgroup
    exact absurd hgroup List.not_mem_nil

end MediaSessionDescriptionFactory

end Libjingle
