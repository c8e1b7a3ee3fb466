import Libjingle.P2p.Session
import Libjingle.P2p.SessionDescription

/-! Muxing: the contents of a bundle group share the transport of the first of them.
Each side decides it from its two descriptions. -/

namespace Libjingle

namespace Muxing

structure TransportChannelProxy where
  component : Int
  impl : Option (String × Int) := none
  deriving DecidableEq, Repr

structure TransportProxy where
  contentName : String
  transport : String
  negotiated : Bool := false
  candidatesAllocated : Bool := false
  channels : List TransportChannelProxy := []
  deriving DecidableEq, Repr

end Muxing

open Muxing

variable {Description : Type}

/-- What `MaybeEnableMuxingSupport` uses of a session. The channels that the transports
have are their names and components. Gatherings counts `OnCandidatesAllocationDone`. -/
structure MuxingSession (Description : Type) where
  state : Session.State := .init
  localDescription : Option (SessionDescription Description) := none
  remoteDescription : Option (SessionDescription Description) := none
  transports : List TransportProxy := []
  transportChannels : List (String × Int) := []
  gatherings : Nat := 0
  deriving DecidableEq, Repr

namespace MuxingSession

variable (s : MuxingSession Description)

def getTransportProxy (contentName : String) : Option TransportProxy :=
  s.transports.find? (·.contentName = contentName)

/-- A channel that the target has no counterpart for is left without one. -/
def setupMux (target proxy : TransportProxy) : TransportProxy :=
  if proxy.transport = target.transport then proxy
  else { proxy with
    channels := proxy.channels.map fun channel => { channel with
      impl := if (target.transport, channel.component) ∈ s.transportChannels then
          some (target.transport, channel.component)
        else none }
    transport := target.transport
    candidatesAllocated := target.candidatesAllocated }

/-- The selected proxy does not change on the way, as it is its own target. -/
def setSelectedProxy (contentName : String) (muxedGroup : ContentGroup) :
    Bool × MuxingSession Description :=
  match s.getTransportProxy contentName with
  | none => (false, s)
  | some selectedProxy =>
    (true, { s with
      transports := s.transports.map fun proxy =>
        if muxedGroup.hasContentName proxy.contentName then s.setupMux selectedProxy proxy
        else proxy })

def isCandidateAllocationDone : Bool := s.transports.all (·.candidatesAllocated)

def maybeCandidateAllocationDone : MuxingSession Description :=
  if s.isCandidateAllocationDone then { s with gatherings := s.gatherings + 1 } else s

/-- Nothing is returned where a null pointer is used. -/
def maybeEnableMuxingSupport : Option (Bool × MuxingSession Description) :=
  if (s.state = .sentInitiate ∨ s.state = .receivedInitiateAck ∨ s.state = .receivedInitiate) ∧
      (s.localDescription.isNone ∨ s.remoteDescription.isNone) then some (false, s)
  else if s.transports.any (!·.negotiated) then some (false, s)
  else do
    let localDescription ← s.localDescription
    let remoteDescription ← s.remoteDescription
    match getGroupByName localDescription.groups groupTypeBundle,
        getGroupByName remoteDescription.groups groupTypeBundle with
    | some localGroup, some _ =>
      match localGroup.firstContentName with
      | none => some (true, s)
      | some contentName =>
        let content ← findContentInfoByName localDescription.contents contentName
        let (selected, muxed) := s.setSelectedProxy content.name localGroup
        if selected = false then some (false, muxed)
        else if s.isCandidateAllocationDone then some (true, muxed)
        else some (true, muxed.maybeCandidateAllocationDone)
    | _, _ => some (true, s)

def Share (c d : String) : Prop :=
  ∃ p ∈ s.transports, ∃ q ∈ s.transports,
    p.contentName = c ∧ q.contentName = d ∧ p.transport = q.transport

instance (c d : String) : Decidable (s.Share c d) :=
  inferInstanceAs (Decidable (∃ p ∈ s.transports, ∃ q ∈ s.transports,
    p.contentName = c ∧ q.contentName = d ∧ p.transport = q.transport))

/-- A session that has both descriptions, and a negotiated transport for each content of
the local one. Its bundle group lists contents. -/
structure Negotiated (localDescription remoteDescription : SessionDescription Description) :
    Prop where
  local_description : s.localDescription = some localDescription
  remote_description : s.remoteDescription = some remoteDescription
  names : (s.transports.map TransportProxy.contentName).Nodup
  proxies : ∀ content ∈ localDescription.contents,
    content.name ∈ s.transports.map TransportProxy.contentName
  negotiated : ∀ proxy ∈ s.transports, proxy.negotiated = true
  unmuxed : ∀ proxy ∈ s.transports, proxy.transport = proxy.contentName
  bundled : ∀ group, getGroupByName localDescription.groups groupTypeBundle = some group →
    ∀ name ∈ group.contentNames, ∃ content ∈ localDescription.contents, content.name = name

end MuxingSession

/-- Both descriptions have a bundle group with the content. -/
def InBothBundles (offer answer : SessionDescription Description) (name : String) : Prop :=
  (∃ group, getGroupByName offer.groups groupTypeBundle = some group ∧ name ∈ group.contentNames) ∧
    ∃ group, getGroupByName answer.groups groupTypeBundle = some group ∧ name ∈ group.contentNames

structure BundleAgreed (offer answer : SessionDescription Description)
    (offerer answerer : MuxingSession Description) : Prop where
  agree : ∀ c d, c ≠ d → (offerer.Share c d ↔ answerer.Share c d)
  offerer_listed : ∀ c d, c ≠ d → offerer.Share c d → InBothBundles offer answer c
  answerer_listed : ∀ c d, c ≠ d → answerer.Share c d → InBothBundles offer answer c

/-- Two bundle groups list the same contents, in any order, unless each of them lists
at most one. -/
def SameBundles (offer answer : SessionDescription Description) : Prop :=
  ∀ offered answered, getGroupByName offer.groups groupTypeBundle = some offered →
    getGroupByName answer.groups groupTypeBundle = some answered →
      (∀ name, name ∈ offered.contentNames ↔ name ∈ answered.contentNames) ∨
        (offered.contentNames.length ≤ 1 ∧ answered.contentNames.length ≤ 1)

namespace MuxingSession

variable {s : MuxingSession Description} {offer answer : SessionDescription Description}

theorem contentName_setupMux (target proxy : TransportProxy) :
    (s.setupMux target proxy).contentName = proxy.contentName := by
  rw [setupMux]
  by_cases h : proxy.transport = target.transport <;> simp [h]

theorem transport_setupMux (target proxy : TransportProxy) :
    (s.setupMux target proxy).transport = target.transport := by
  rw [setupMux]
  by_cases h : proxy.transport = target.transport <;> simp [h]

theorem share_congr {t : MuxingSession Description} (h : t.transports = s.transports) (c d : String) :
    t.Share c d ↔ s.Share c d := by rw [Share, Share, h]

theorem transports_maybeCandidateAllocationDone :
    s.maybeCandidateAllocationDone.transports = s.transports := by
  rw [maybeCandidateAllocationDone]
  by_cases h : s.isCandidateAllocationDone = true <;> simp [h]

namespace Negotiated

variable (h : s.Negotiated offer answer)
include h

theorem not_share {c d : String} (hne : c ≠ d) : ¬ s.Share c d := by
  rintro ⟨p, hp, q, hq, rfl, rfl, htransport⟩
  rw [h.unmuxed p hp, h.unmuxed q hq] at htransport
  exact hne htransport

theorem proxy_of_listed {group : ContentGroup}
    (hgroup : getGroupByName offer.groups groupTypeBundle = some group) {name : String}
    (hname : name ∈ group.contentNames) :
    ∃ proxy ∈ s.transports, proxy.contentName = name ∧ proxy.transport = name := by
  obtain ⟨content, hcontent, rfl⟩ := h.bundled group hgroup name hname
  obtain ⟨proxy, hproxy, hsame⟩ := List.mem_map.mp (h.proxies content hcontent)
  exact ⟨proxy, hproxy, hsame, (h.unmuxed proxy hproxy).trans hsame⟩

theorem getTransportProxy_of_listed {group : ContentGroup}
    (hgroup : getGroupByName offer.groups groupTypeBundle = some group) {name : String}
    (hname : name ∈ group.contentNames) :
    ∃ proxy, s.getTransportProxy name = some proxy ∧ proxy.transport = name := by
  obtain ⟨listed, hlisted, hlistedName, -⟩ := h.proxy_of_listed hgroup hname
  cases hfind : s.getTransportProxy name with
  | none =>
    have hnone := List.find?_eq_none.mp hfind listed hlisted
    simp [hlistedName] at hnone
  | some proxy =>
    have hproxyName : proxy.contentName = name := by simpa using List.find?_some hfind
    exact ⟨proxy, rfl, (h.unmuxed proxy (List.mem_of_find?_eq_some hfind)).trans hproxyName⟩

theorem content_of_listed {group : ContentGroup}
    (hgroup : getGroupByName offer.groups groupTypeBundle = some group) {name : String}
    (hname : name ∈ group.contentNames) :
    ∃ content, findContentInfoByName offer.contents name = some content ∧ content.name = name := by
  obtain ⟨listed, hlisted, hlistedName⟩ := h.bundled group hgroup name hname
  cases hfind : findContentInfoByName offer.contents name with
  | none =>
    have hnone := List.find?_eq_none.mp hfind listed hlisted
    simp [hlistedName] at hnone
  | some content => exact ⟨content, rfl, by simpa using List.find?_some hfind⟩

/-- After the selection the listed contents are on the selected transport, and the
others keep their own. -/
theorem share_setSelectedProxy_iff {group : ContentGroup}
    (hgroup : getGroupByName offer.groups groupTypeBundle = some group) {name : String}
    (hname : name ∈ group.contentNames) {c d : String} (hne : c ≠ d) :
    (s.setSelectedProxy name group).2.Share c d ↔
      c ∈ group.contentNames ∧ d ∈ group.contentNames := by
  obtain ⟨selected, hselected, hown⟩ := h.getTransportProxy_of_listed hgroup hname
  have hmuxed : (s.setSelectedProxy name group).2.transports = s.transports.map fun proxy =>
      if group.hasContentName proxy.contentName then s.setupMux selected proxy else proxy := by
    rw [setSelectedProxy, hselected]
  have hcontentName : ∀ proxy : TransportProxy,
      (if group.hasContentName proxy.contentName then s.setupMux selected proxy
        else proxy).contentName = proxy.contentName := by
    intro proxy
    by_cases hlisted : group.hasContentName proxy.contentName = true
    · simp [hlisted, contentName_setupMux]
    · simp [hlisted]
  have htransport : ∀ proxy ∈ s.transports,
      (if group.hasContentName proxy.contentName then s.setupMux selected proxy
        else proxy).transport =
          if proxy.contentName ∈ group.contentNames then name else proxy.contentName := by
    intro proxy hproxy
    by_cases hlisted : proxy.contentName ∈ group.contentNames
    · simp [ContentGroup.hasContentName, hlisted, transport_setupMux, hown]
    · simp [ContentGroup.hasContentName, hlisted, h.unmuxed proxy hproxy]
  rw [Share, hmuxed]
  constructor
  · rintro ⟨p', hp', q', hq', rfl, rfl, hsame⟩
    obtain ⟨p, hp, rfl⟩ := List.mem_map.mp hp'
    obtain ⟨q, hq, rfl⟩ := List.mem_map.mp hq'
    rw [hcontentName, hcontentName] at hne ⊢
    rw [htransport p hp, htransport q hq] at hsame
    by_cases hc : p.contentName ∈ group.contentNames <;>
      by_cases hd : q.contentName ∈ group.contentNames
    · exact ⟨hc, hd⟩
    · rw [if_pos hc, if_neg hd] at hsame
      exact absurd (hsame ▸ hname) hd
    · rw [if_neg hc, if_pos hd] at hsame
      exact absurd (hsame ▸ hname) hc
    · rw [if_neg hc, if_neg hd] at hsame
      exact absurd hsame hne
  · rintro ⟨hc, hd⟩
    obtain ⟨p, hp, rfl, -⟩ := h.proxy_of_listed hgroup hc
    obtain ⟨q, hq, rfl, -⟩ := h.proxy_of_listed hgroup hd
    refine ⟨_, List.mem_map_of_mem hp, _, List.mem_map_of_mem hq, hcontentName p,
      hcontentName q, ?_⟩
    rw [htransport p hp, htransport q hq, if_pos hc, if_pos hd]

/-- The contents of the local bundle group share a transport if the other side has a
bundle group, whatever it lists. -/
theorem maybeEnableMuxingSupport :
    ∃ t, s.maybeEnableMuxingSupport = some (true, t) ∧ ∀ c d, c ≠ d →
      (t.Share c d ↔ ∃ group, getGroupByName offer.groups groupTypeBundle = some group ∧
        (getGroupByName answer.groups groupTypeBundle).isSome ∧
          c ∈ group.contentNames ∧ d ∈ group.contentNames) := by
  have hboth : ¬ ((s.state = .sentInitiate ∨ s.state = .receivedInitiateAck ∨
      s.state = .receivedInitiate) ∧
        (s.localDescription.isNone ∨ s.remoteDescription.isNone)) := by
    simp [h.local_description, h.remote_description]
  have hnegotiated : ¬ s.transports.any (!·.negotiated) = true := by
    simpa using h.negotiated
  rw [MuxingSession.maybeEnableMuxingSupport, if_neg hboth, if_neg hnegotiated,
    h.local_description, h.remote_description]
  dsimp only [bind, Option.bind]
  cases hlocal : getGroupByName offer.groups groupTypeBundle with
  | none => exact ⟨s, rfl, fun c d hne => iff_of_false (h.not_share hne) (by simp)⟩
  | some localGroup =>
    cases hremote : getGroupByName answer.groups groupTypeBundle with
    | none => exact ⟨s, rfl, fun c d hne => iff_of_false (h.not_share hne) (by simp)⟩
    | some remoteGroup =>
      dsimp only
      cases hfirst : localGroup.firstContentName with
      | none =>
        have hempty : localGroup.contentNames = [] := List.head?_eq_none_iff.mp hfirst
        exact ⟨s, rfl, fun c d hne => iff_of_false (h.not_share hne) (by simp [hempty])⟩
      | some name =>
        have hname : name ∈ localGroup.contentNames := List.mem_of_mem_head? hfirst
        obtain ⟨content, hcontent, hcontentName⟩ := h.content_of_listed hlocal hname
        have hselected : (s.setSelectedProxy name localGroup).1 = true := by
          obtain ⟨selected, hselected, -⟩ := h.getTransportProxy_of_listed hlocal hname
          rw [setSelectedProxy, hselected]
        have hshare : ∀ c d, c ≠ d → ((s.setSelectedProxy name localGroup).2.Share c d ↔
            ∃ group, some localGroup = some group ∧ (some remoteGroup).isSome ∧
              c ∈ group.contentNames ∧ d ∈ group.contentNames) := by
          intro c d hne
          rw [h.share_setSelectedProxy_iff hlocal hname hne]
          simp
        simp only [hcontent, hcontentName, hselected, Bool.true_eq_false, if_false]
        by_cases hdone : s.isCandidateAllocationDone = true
        · rw [if_pos hdone]
          exact ⟨_, rfl, hshare⟩
        · rw [if_neg hdone]
          refine ⟨_, rfl, fun c d hne => ?_⟩
          rw [share_congr transports_maybeCandidateAllocationDone]
          exact hshare c d hne

end Negotiated

end MuxingSession

variable {offer answer : SessionDescription Description}
  {offerer answerer : MuxingSession Description}

theorem length_le_one_of_alike {names : List String} (hnodup : names.Nodup)
    (h : ∀ c ∈ names, ∀ d ∈ names, c = d) : names.length ≤ 1 := by
  match names, hnodup, h with
  | [], _, _ => simp
  | [_], _, _ => simp
  | c :: d :: rest, hnodup, h =>
    have hsame := h c (by simp) d (by simp)
    simp [hsame] at hnodup

theorem alike_of_length_le_one {names : List String} (h : names.length ≤ 1) {c d : String}
    (hc : c ∈ names) (hd : d ∈ names) : c = d := by
  match names, h with
  | [_], _ => rw [List.mem_singleton.mp hc, List.mem_singleton.mp hd]

theorem same_pairs_iff {offered answered : ContentGroup} :
    (∀ c d, c ≠ d → ((c ∈ offered.contentNames ∧ d ∈ offered.contentNames) ↔
      (c ∈ answered.contentNames ∧ d ∈ answered.contentNames))) ↔
        (∀ name, name ∈ offered.contentNames ↔ name ∈ answered.contentNames) ∨
          (offered.contentNames.length ≤ 1 ∧ answered.contentNames.length ≤ 1) := by
  constructor
  · intro hpairs
    by_cases hpair : ∃ c d, c ≠ d ∧ c ∈ offered.contentNames ∧ d ∈ offered.contentNames
    · obtain ⟨c, d, hne, hc, hd⟩ := hpair
      obtain ⟨hc', hd'⟩ := (hpairs c d hne).mp ⟨hc, hd⟩
      refine .inl fun name => ?_
      by_cases hname : name = c
      · exact iff_of_true (hname ▸ hc) (hname ▸ hc')
      · have hiff := hpairs name c hname
        simpa [hc, hc'] using hiff
    · have halike : ∀ c ∈ offered.contentNames, ∀ d ∈ offered.contentNames, c = d := by
        intro c hc d hd
        by_contra hne
        exact hpair ⟨c, d, hne, hc, hd⟩
      have halike' : ∀ c ∈ answered.contentNames, ∀ d ∈ answered.contentNames, c = d := by
        intro c hc d hd
        by_contra hne
        exact hpair ⟨c, d, hne, (hpairs c d hne).mpr ⟨hc, hd⟩⟩
      exact .inr ⟨length_le_one_of_alike offered.nodup halike,
        length_le_one_of_alike answered.nodup halike'⟩
  · rintro (hsame | ⟨hoffered, hanswered⟩) c d hne
    · rw [hsame c, hsame d]
    · refine iff_of_false ?_ ?_
      · exact fun hboth => hne (alike_of_length_le_one hoffered hboth.1 hboth.2)
      · exact fun hboth => hne (alike_of_length_le_one hanswered hboth.1 hboth.2)

/-- Both sides decide, and they agree exactly on bundle groups that list the same. -/
theorem bundleAgreed_iff (ho : offerer.Negotiated offer answer)
    (ha : answerer.Negotiated answer offer) :
    ∃ offered answered, offerer.maybeEnableMuxingSupport = some (true, offered) ∧
      answerer.maybeEnableMuxingSupport = some (true, answered) ∧
      (BundleAgreed offer answer offered answered ↔ SameBundles offer answer) := by
  obtain ⟨offered, hoffered, hofferedShare⟩ := ho.maybeEnableMuxingSupport
  obtain ⟨answered, hanswered, hansweredShare⟩ := ha.maybeEnableMuxingSupport
  refine ⟨offered, answered, hoffered, hanswered, ?_⟩
  have hnone : (¬ ∃ offeredGroup answeredGroup,
      getGroupByName offer.groups groupTypeBundle = some offeredGroup ∧
        getGroupByName answer.groups groupTypeBundle = some answeredGroup) →
      (BundleAgreed offer answer offered answered ↔ SameBundles offer answer) := by
    intro hmissing
    have hofferedNot : ∀ c d, c ≠ d → ¬ offered.Share c d := by
      intro c d hne hshare
      obtain ⟨group, hgroup, hother, -⟩ := (hofferedShare c d hne).mp hshare
      obtain ⟨other, hother⟩ := Option.isSome_iff_exists.mp hother
      exact hmissing ⟨group, other, hgroup, hother⟩
    have hansweredNot : ∀ c d, c ≠ d → ¬ answered.Share c d := by
      intro c d hne hshare
      obtain ⟨group, hgroup, hother, -⟩ := (hansweredShare c d hne).mp hshare
      obtain ⟨other, hother⟩ := Option.isSome_iff_exists.mp hother
      exact hmissing ⟨other, group, hother, hgroup⟩
    refine iff_of_true ⟨fun c d hne => ?_, fun c d hne hshare => ?_, fun c d hne hshare => ?_⟩ ?_
    · exact iff_of_false (hofferedNot c d hne) (hansweredNot c d hne)
    · exact absurd hshare (hofferedNot c d hne)
    · exact absurd hshare (hansweredNot c d hne)
    · exact fun offeredGroup answeredGroup h h' =>
        absurd ⟨offeredGroup, answeredGroup, h, h'⟩ hmissing
  by_cases hgroups : ∃ offeredGroup answeredGroup,
      getGroupByName offer.groups groupTypeBundle = some offeredGroup ∧
        getGroupByName answer.groups groupTypeBundle = some answeredGroup
  · obtain ⟨offeredGroup, answeredGroup, hoffer, hanswer⟩ := hgroups
    have hofferedPairs : ∀ c d, c ≠ d → (offered.Share c d ↔
        c ∈ offeredGroup.contentNames ∧ d ∈ offeredGroup.contentNames) := by
      intro c d hne
      simp [hofferedShare c d hne, hoffer, hanswer]
    have hansweredPairs : ∀ c d, c ≠ d → (answered.Share c d ↔
        c ∈ answeredGroup.contentNames ∧ d ∈ answeredGroup.contentNames) := by
      intro c d hne
      simp [hansweredShare c d hne, hoffer, hanswer]
    have hsame : SameBundles offer answer ↔
        ∀ c d, c ≠ d → (offered.Share c d ↔ answered.Share c d) := by
      have hpairs : (∀ c d, c ≠ d → (offered.Share c d ↔ answered.Share c d)) ↔
          ∀ c d, c ≠ d → ((c ∈ offeredGroup.contentNames ∧ d ∈ offeredGroup.contentNames) ↔
            (c ∈ answeredGroup.contentNames ∧ d ∈ answeredGroup.contentNames)) :=
        forall_congr' fun c => forall_congr' fun d => forall_congr' fun hne => by
          rw [hofferedPairs c d hne, hansweredPairs c d hne]
      rw [hpairs, same_pairs_iff, SameBundles, hoffer, hanswer]
      simp
    rw [hsame]
    constructor
    · exact BundleAgreed.agree
    · intro hagree
      refine ⟨hagree, fun c d hne hshare => ?_, fun c d hne hshare => ?_⟩
      · have hanswered := (hagree c d hne).mp hshare
        exact ⟨⟨offeredGroup, hoffer, ((hofferedPairs c d hne).mp hshare).1⟩,
          answeredGroup, hanswer, ((hansweredPairs c d hne).mp hanswered).1⟩
      · have hoffered := (hagree c d hne).mpr hshare
        exact ⟨⟨offeredGroup, hoffer, ((hofferedPairs c d hne).mp hoffered).1⟩,
          answeredGroup, hanswer, ((hansweredPairs c d hne).mp hshare).1⟩
  · exact hnone hgroups

namespace Muxing

def content (name : String) : ContentInfo Unit := { name := name, type := "", description := () }

def bundling (group : ContentGroup) : SessionDescription Unit where
  contents := [content "audio", content "video"]
  groups := [group]

def bundleBoth : ContentGroup where
  semantics := groupTypeBundle
  contentNames := ["audio", "video"]
  nodup := by decide

def bundleAudio : ContentGroup where
  semantics := groupTypeBundle
  contentNames := ["audio"]
  nodup := by decide

def side (state : Session.State) (localDescription remoteDescription : SessionDescription Unit) :
    MuxingSession Unit where
  state := state
  localDescription := some localDescription
  remoteDescription := some remoteDescription
  transports := [⟨"audio", "audio", true, true, []⟩, ⟨"video", "video", true, true, []⟩]

theorem negotiated_side (state : Session.State) {group : ContentGroup}
    (hnames : ∀ name ∈ group.contentNames, name = "audio" ∨ name = "video")
    (remoteDescription : SessionDescription Unit) :
    (side state (bundling group) remoteDescription).Negotiated (bundling group)
      remoteDescription where
  local_description := rfl
  remote_description := rfl
  names := by simp [side]
  proxies := by simp [bundling, content, side]
  negotiated := by simp [side]
  unmuxed := by simp [side]
  bundled := by
    intro found hfound name hname
    have hgroup : found = group := List.mem_singleton.mp (List.mem_of_find?_eq_some hfound)
    rcases hnames name (hgroup ▸ hname) with rfl | rfl <;> simp [bundling, content]

theorem bundleAgreed_both :
    ∃ offered answered,
      (side .receivedInitiateAck (bundling bundleBoth)
        (bundling bundleBoth)).maybeEnableMuxingSupport = some (true, offered) ∧
      (side .receivedInitiate (bundling bundleBoth)
        (bundling bundleBoth)).maybeEnableMuxingSupport = some (true, answered) ∧
      BundleAgreed (bundling bundleBoth) (bundling bundleBoth) offered answered := by
  have hnames : ∀ name ∈ bundleBoth.contentNames, name = "audio" ∨ name = "video" := by
    simp [bundleBoth]
  obtain ⟨offered, answered, hoffered, hanswered, hiff⟩ :=
    bundleAgreed_iff (negotiated_side .receivedInitiateAck hnames _)
      (negotiated_side .receivedInitiate hnames _)
  have hsame : SameBundles (bundling bundleBoth) (bundling bundleBoth) := by
    intro offeredGroup answeredGroup hoffer hanswer
    rw [hoffer] at hanswer
    obtain rfl := Option.some.inj hanswer
    exact .inl fun _ => Iff.rfl
  exact ⟨offered, answered, hoffered, hanswered, hiff.mpr hsame⟩

/-- An answer that bundles only the first content: the offerer muxes both. -/
theorem answer_bundles_fewer :
    ∃ offered answered,
      (side .receivedInitiateAck (bundling bundleBoth)
        (bundling bundleAudio)).maybeEnableMuxingSupport = some (true, offered) ∧
      (side .receivedInitiate (bundling bundleAudio)
        (bundling bundleBoth)).maybeEnableMuxingSupport = some (true, answered) ∧
      offered.Share "audio" "video" ∧ ¬ answered.Share "audio" "video" ∧
      ¬ BundleAgreed (bundling bundleBoth) (bundling bundleAudio) offered answered := by
  have hshare : MuxingSession.Share
      (((side .receivedInitiateAck (bundling bundleBoth)
        (bundling bundleAudio)).maybeEnableMuxingSupport).get (by decide)).2 "audio" "video" := by
    decide
  have hnot : ¬ MuxingSession.Share
      (((side .receivedInitiate (bundling bundleAudio)
        (bundling bundleBoth)).maybeEnableMuxingSupport).get (by decide)).2 "audio" "video" := by
    decide
  exact ⟨_, _, rfl, rfl, hshare, hnot, fun h =>
    hnot ((h.agree "audio" "video" (by decide)).mp hshare)⟩

end Muxing

end Libjingle
