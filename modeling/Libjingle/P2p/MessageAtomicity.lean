import Libjingle.P2p.SignalingSession

/-! What a message that is answered with an error, or a call that returns false, leaves
of the session. -/

namespace Libjingle

open Muxing (TransportProxy)
open SessionDescription (TransportInfo)

variable {Description : Type}

namespace MuxingSession

/-- The state, the descriptions and the names of the proxies are the same. -/
structure Kept (s t : MuxingSession Description) : Prop where
  state : t.state = s.state
  localDescription : t.localDescription = s.localDescription
  remoteDescription : t.remoteDescription = s.remoteDescription
  names : t.transports.map TransportProxy.contentName = s.transports.map TransportProxy.contentName

/-- The content has a proxy whose transport has the channel, or gets it when the proxy is
negotiated. -/
def HasChannelFor (s : MuxingSession Description) (contentName : String) (component : Int) : Prop :=
  ∃ proxy, s.getTransportProxy contentName = some proxy ∧
    ((proxy.transport, component) ∈ s.transportChannels ∨
      (proxy.negotiated = false ∧ ∃ channel ∈ proxy.channels, channel.component = component))

def TakesAll (s : MuxingSession Description) : List TransportInfo → Prop
  | [] => True
  | tinfo :: rest =>
    (s.getTransportProxy tinfo.contentName).isSome ∧
      (∀ cand ∈ tinfo.description.candidates, verifyCandidate cand = .ok () ∧
        s.HasChannelFor tinfo.contentName cand.component) ∧
      (s.completeNegotiation tinfo.contentName).TakesAll rest

/-- No assertion of `MaybeEnableMuxingSupport` fails: a description is still missing, or all
proxies are negotiated and the first bundled content is one of the local description. -/
def MuxingSafe (s : MuxingSession Description) : Prop :=
  ((s.state = .sentInitiate ∨ s.state = .receivedInitiateAck ∨ s.state = .receivedInitiate) ∧
    (s.localDescription = none ∨ s.remoteDescription = none)) ∨
  ((∀ proxy ∈ s.transports, proxy.negotiated = true) ∧
    ∃ l r, s.localDescription = some l ∧ s.remoteDescription = some r ∧
      ∀ localGroup remoteGroup contentName,
        getGroupByName l.groups groupTypeBundle = some localGroup →
        getGroupByName r.groups groupTypeBundle = some remoteGroup →
        localGroup.firstContentName = some contentName →
          (findContentInfoByName l.contents contentName).isSome)

variable {s t u : MuxingSession Description}

namespace Kept

theorem refl (s : MuxingSession Description) : Kept s s := ⟨rfl, rfl, rfl, rfl⟩

theorem trans (h : Kept s t) (h' : Kept t u) : Kept s u :=
  ⟨h'.state.trans h.state, h'.localDescription.trans h.localDescription,
    h'.remoteDescription.trans h.remoteDescription, h'.names.trans h.names⟩

end Kept

theorem kept_completeNegotiation (contentName : String) :
    Kept s (s.completeNegotiation contentName) := by
  rw [completeNegotiation]
  cases s.getTransportProxy contentName with
  | none => exact .refl s
  | some proxy =>
    by_cases hnegotiated : proxy.negotiated = true
    · simp only [if_pos hnegotiated]
      exact .refl s
    · simp only [if_neg hnegotiated]
      refine ⟨rfl, rfl, rfl, ?_⟩
      rw [List.map_map]
      refine List.map_congr_left fun p _ => ?_
      by_cases hp : p.contentName = contentName <;> simp [hp]

theorem kept_connectChannels (contentName : String) : Kept s (s.connectChannels contentName) := by
  rw [connectChannels]
  cases s.getTransportProxy contentName with
  | none => exact .refl s
  | some proxy =>
    by_cases hnegotiated : proxy.negotiated = true
    · simp only [if_pos hnegotiated]
      exact .refl s
    · simp only [if_neg hnegotiated]
      exact ⟨rfl, rfl, rfl, rfl⟩

variable (toString : Candidate → String)

theorem snd_onRemoteCandidates (contentName : String) (candidates : List Candidate) :
    (s.onRemoteCandidates toString contentName candidates).2 =
      s.completeNegotiation contentName := by
  rw [onRemoteCandidates]
  cases hproxy : s.getTransportProxy contentName with
  | none => rw [completeNegotiation, hproxy]
  | some proxy => rfl

theorem kept_onRemoteTransports (tinfos : List TransportInfo) :
    Kept s (s.onRemoteTransports toString tinfos).2 := by
  induction tinfos generalizing s with
  | nil => exact .refl s
  | cons tinfo rest ih =>
    have hfirst := snd_onRemoteCandidates (s := s) toString tinfo.contentName
      tinfo.description.candidates
    rw [onRemoteTransports]
    cases hresult : s.onRemoteCandidates toString tinfo.contentName
      tinfo.description.candidates with
    | mk result t =>
      rw [hresult] at hfirst
      obtain rfl := hfirst
      cases result with
      | error text => exact kept_completeNegotiation tinfo.contentName
      | ok => exact (kept_completeNegotiation tinfo.contentName).trans ih

theorem checkCandidates_ok_iff (contentName transport : String) (candidates : List Candidate) :
    s.checkCandidates toString contentName transport candidates = .ok () ↔
      ∀ cand ∈ candidates, verifyCandidate cand = .ok () ∧
        (transport, cand.component) ∈ s.transportChannels := by
  induction candidates with
  | nil => simp [checkCandidates]
  | cons cand rest ih =>
    rw [List.forall_mem_cons, ← ih, checkCandidates]
    cases hverify : verifyCandidate cand with
    | error text => simp [bind, Except.bind]
    | ok =>
      by_cases hchannel : (transport, cand.component) ∈ s.transportChannels
      · simp [bind, Except.bind, hchannel]
      · simp [bind, Except.bind, hchannel]

theorem mem_completeNegotiation {contentName : String} {proxy : TransportProxy}
    (hproxy : s.getTransportProxy contentName = some proxy) (component : Int) :
    (proxy.transport, component) ∈ (s.completeNegotiation contentName).transportChannels ↔
      s.HasChannelFor contentName component := by
  rw [completeNegotiation, hproxy, HasChannelFor, hproxy]
  by_cases hnegotiated : proxy.negotiated = true
  · simp [hnegotiated]
  · have hfalse : proxy.negotiated = false := Bool.eq_false_iff.mpr hnegotiated
    by_cases hmem : (proxy.transport, component) ∈ s.transportChannels <;>
      simp [createImpls, hmem, hfalse]

theorem onRemoteCandidates_ok_iff (contentName : String) (candidates : List Candidate) :
    (s.onRemoteCandidates toString contentName candidates).1 = .ok () ↔
      (s.getTransportProxy contentName).isSome ∧ ∀ cand ∈ candidates,
        verifyCandidate cand = .ok () ∧ s.HasChannelFor contentName cand.component := by
  rw [onRemoteCandidates]
  cases hproxy : s.getTransportProxy contentName with
  | none => simp
  | some proxy =>
    simp only [checkCandidates_ok_iff, mem_completeNegotiation hproxy, Option.isSome_some, true_and]

theorem onRemoteTransports_ok_iff (tinfos : List TransportInfo) :
    (s.onRemoteTransports toString tinfos).1 = .ok () ↔ s.TakesAll tinfos := by
  induction tinfos generalizing s with
  | nil => simp [onRemoteTransports, TakesAll]
  | cons tinfo rest ih =>
    have hok := onRemoteCandidates_ok_iff (s := s) toString tinfo.contentName
      tinfo.description.candidates
    have hafter := snd_onRemoteCandidates (s := s) toString tinfo.contentName
      tinfo.description.candidates
    rw [onRemoteTransports, TakesAll, ← and_assoc, ← hok]
    cases hresult : s.onRemoteCandidates toString tinfo.contentName
      tinfo.description.candidates with
    | mk result t =>
      rw [hresult] at hafter
      obtain rfl := hafter
      cases result with
      | error text => simp
      | ok => simp [ih]

theorem kept_getOrCreateTransportProxy (contentName : String) :
    (s.getOrCreateTransportProxy contentName).state = s.state ∧
      (s.getOrCreateTransportProxy contentName).localDescription = s.localDescription ∧
      (s.getOrCreateTransportProxy contentName).remoteDescription = s.remoteDescription := by
  rw [getOrCreateTransportProxy]
  cases s.getTransportProxy contentName <;> exact ⟨rfl, rfl, rfl⟩

theorem createTransportProxies_of_type {tinfos : List TransportInfo}
    (htype : ∀ tinfo ∈ tinfos, tinfo.description.transportType = nsGingleP2p) :
    ∃ t, s.createTransportProxies tinfos = (true, t) ∧ t.state = s.state ∧
      t.localDescription = s.localDescription ∧ t.remoteDescription = s.remoteDescription := by
  induction tinfos generalizing s with
  | nil => exact ⟨s, rfl, rfl, rfl, rfl⟩
  | cons tinfo rest ih =>
    obtain ⟨hfirst, hrest⟩ := List.forall_mem_cons.mp htype
    obtain ⟨hstate, hlocal, hremote⟩ := kept_getOrCreateTransportProxy (s := s) tinfo.contentName
    obtain ⟨t, ht, hstate', hlocal', hremote'⟩ :=
      ih (s := s.getOrCreateTransportProxy tinfo.contentName) hrest
    refine ⟨t, ?_, hstate'.trans hstate, hlocal'.trans hlocal, hremote'.trans hremote⟩
    rw [createTransportProxies, if_neg (not_not_intro hfirst), ht]

theorem maybeEnableMuxingSupport_isSome_iff
    (hnegotiated : ∀ proxy ∈ s.transports, proxy.negotiated = true)
    (hnot : ¬ ((s.state = .sentInitiate ∨ s.state = .receivedInitiateAck ∨
      s.state = .receivedInitiate) ∧ (s.localDescription.isNone ∨ s.remoteDescription.isNone))) :
    s.maybeEnableMuxingSupport.isSome ↔
      ∃ l r, s.localDescription = some l ∧ s.remoteDescription = some r ∧
        ∀ localGroup remoteGroup contentName,
          getGroupByName l.groups groupTypeBundle = some localGroup →
          getGroupByName r.groups groupTypeBundle = some remoteGroup →
          localGroup.firstContentName = some contentName →
            (findContentInfoByName l.contents contentName).isSome := by
  have hany : ¬ s.transports.any (!·.negotiated) = true := by simpa using hnegotiated
  rw [maybeEnableMuxingSupport, if_neg hnot, if_neg hany]
  cases hl : s.localDescription with
  | none => simp
  | some l =>
    cases hr : s.remoteDescription with
    | none => simp
    | some r =>
      dsimp only [bind, Option.bind]
      cases hlocal : getGroupByName l.groups groupTypeBundle with
      | none => simp [hlocal]
      | some localGroup =>
        cases hremote : getGroupByName r.groups groupTypeBundle with
        | none => simp [hremote]
        | some remoteGroup =>
          cases hfirst : localGroup.firstContentName with
          | none =>
            refine iff_of_true (by simp [hfirst]) ⟨l, r, rfl, rfl, fun g _ name hg _ hname => ?_⟩
            obtain rfl := Option.some.inj (hlocal.symm.trans hg)
            cases hfirst.symm.trans hname
          | some contentName =>
            cases hcontent : findContentInfoByName l.contents contentName with
            | none => simp [hlocal, hremote, hfirst, hcontent]
            | some content =>
              have hsome : ∀ (b c : Bool) (x y z : Bool × MuxingSession Description),
                  (if b = false then some x else if c = true then some y else some z).isSome := by
                intro b c x y z
                cases b <;> cases c <;> rfl
              refine iff_of_true (by simp only [hfirst, hcontent, hsome])
                ⟨l, r, rfl, rfl, fun g _ name hg _ hname => ?_⟩
              obtain rfl := Option.some.inj (hlocal.symm.trans hg)
              obtain rfl := Option.some.inj (hfirst.symm.trans hname)
              rw [hcontent]
              rfl

theorem assertedMuxing_isSome_iff : s.assertedMuxing.isSome ↔ s.MuxingSafe := by
  rw [assertedMuxing, MuxingSafe]
  by_cases hearly : (s.state = .sentInitiate ∨ s.state = .receivedInitiateAck ∨
      s.state = .receivedInitiate) ∧ (s.localDescription.isNone ∨ s.remoteDescription.isNone)
  · rw [if_pos hearly]
    simp only [Option.isNone_iff_eq_none] at hearly
    exact iff_of_true rfl (.inl hearly)
  · rw [if_neg hearly]
    have hlate := hearly
    simp only [Option.isNone_iff_eq_none] at hlate
    rw [or_iff_right hlate]
    by_cases hnegotiated : ∀ proxy ∈ s.transports, proxy.negotiated = true
    · have hany : ¬ s.transports.any (!·.negotiated) = true := by simpa using hnegotiated
      rw [if_neg hany, Option.isSome_map, maybeEnableMuxingSupport_isSome_iff hnegotiated hearly]
      exact (and_iff_right hnegotiated).symm
    · have hany : s.transports.any (!·.negotiated) = true := by simpa using hnegotiated
      rw [if_pos hany]
      exact iff_of_false (by simp) fun h => hnegotiated h.1

end MuxingSession

theorem transportType_of_gingle {env : SessionEnvironment Description}
    {s : SignalingSession Description} {elem : XmlElement}
    {contents : List (ContentInfo Description)} {tinfos : List TransportInfo}
    (h : (s.parsers env).parseGingleTransportInfos elem contents = .ok tinfos) :
    ∀ tinfo ∈ tinfos, tinfo.description.transportType = nsGingleP2p := by
  have hgingle : ∀ (contentName : String) (candidates : List Candidate), ∀ tinfo ∈
      [Parsers.gingleTransportInfo contentName candidates],
        tinfo.description.transportType = nsGingleP2p := by
    intro contentName candidates tinfo htinfo
    rw [List.mem_singleton.mp htinfo]
    rfl
  rw [Parsers.parseGingleTransportInfos] at h
  dsimp only at h
  split at h
  · obtain ⟨candidates, -, h⟩ := Fallible.bind_ok.mp h
    obtain rfl := Except.ok.inj h
    exact hgingle _ _
  · obtain ⟨candidates, -, h⟩ := Fallible.bind_ok.mp h
    obtain rfl := Except.ok.inj h
    intro tinfo htinfo
    rcases List.mem_append.mp htinfo with htinfo | htinfo
    · split at htinfo
      · exact hgingle _ _ tinfo htinfo
      · cases htinfo
    · split at htinfo
      · exact hgingle _ _ tinfo htinfo
      · cases htinfo

theorem transportType_of_jingle {env : SessionEnvironment Description}
    {s : SignalingSession Description} {pairElem : XmlElement}
    {contents : List (ContentInfo Description)} {tinfo : TransportInfo}
    (h : (s.parsers env).parseJingleTransportPair contents pairElem = .ok tinfo) :
    tinfo.description.transportType = nsGingleP2p := by
  rw [Parsers.parseJingleTransportPair] at h
  obtain ⟨contentName, -, h⟩ := Fallible.bind_ok.mp h
  cases hcontent : findContentInfoByName contents contentName with
  | none => simp [hcontent] at h
  | some content =>
    simp only [hcontent] at h
    obtain ⟨transElem, -, h⟩ := Fallible.bind_ok.mp h
    rw [Parsers.parseJingleTransportInfo] at h
    obtain ⟨⟨parser, translator⟩, hparser, h⟩ := Fallible.bind_ok.mp h
    obtain ⟨desc, hdesc, h⟩ := Fallible.bind_ok.mp h
    obtain rfl := Except.ok.inj h
    have hsame : parser = env.transportParser := by
      simp only [Parsers.parserToParse, SignalingSession.parsers] at hparser
      by_cases htype : transElem.name.ns = nsGingleP2p
      · simp [htype] at hparser
        exact hparser.1.symm
      · simp [htype] at hparser
    rw [hsame] at hdesc
    exact env.parser_type _ _ _ hdesc

/-- What `parseSessionInitiate` and `parseSessionAccept` make of transports is of the type
of the session. -/
theorem transportType_of_parse {env : SessionEnvironment Description}
    {s : SignalingSession Description} {protocol : SignalingProtocol} {elem : XmlElement}
    {message : ContentMessage Description}
    (h : (s.parsers env).parseContentMessage protocol elem true = .ok message) :
    ∀ tinfo ∈ message.transports, tinfo.description.transportType = nsGingleP2p := by
  rw [Parsers.parseContentMessage] at h
  by_cases hgingle : protocol = .gingle
  · rw [if_pos hgingle] at h
    obtain ⟨contents, -, h⟩ := Fallible.bind_ok.mp h
    obtain ⟨transports, htransports, h⟩ := Fallible.bind_ok.mp h
    obtain rfl := Except.ok.inj h
    exact transportType_of_gingle htransports
  · rw [if_neg hgingle] at h
    obtain ⟨contents, -, h⟩ := Fallible.bind_ok.mp h
    obtain ⟨groups, -, h⟩ := Fallible.bind_ok.mp h
    obtain ⟨transports, htransports, h⟩ := Fallible.bind_ok.mp h
    obtain rfl := Except.ok.inj h
    exact Fallible.forall_of_mapM htransports fun pairElem _ tinfo htinfo =>
      transportType_of_jingle htinfo

def SignalingProtocol.writtenIn (protocol : SignalingProtocol) : List SignalingProtocol :=
  if protocol = .hybrid then [.jingle, .gingle] else [protocol]

namespace SessionMessages.Sender

theorem isOk_writeActionMessage_iff (sender : Sender) (protocol : SignalingProtocol)
    (type : ActionType) (write : Writer) (stanza : XmlElement) :
    (∃ stanza', sender.writeActionMessage protocol type write stanza = .ok stanza') ↔
      ∃ elems, write protocol = .ok elems := by
  rw [writeActionMessage]
  cases write protocol with
  | error text => simp [Except.map]
  | ok elems => simp [Except.map]

theorem isOk_sendAction_iff {sender : Sender} {type : ActionType} {write : Writer} :
    (∃ stanza, sender.sendAction type write = .ok stanza) ↔
      ∀ protocol ∈ sender.currentProtocol.writtenIn, ∃ elems, write protocol = .ok elems := by
  rw [sendAction, SignalingProtocol.writtenIn]
  by_cases hhybrid : sender.currentProtocol = .hybrid
  · simp only [if_pos hhybrid, List.forall_mem_cons, List.not_mem_nil, false_implies,
      implies_true, and_true]
    rw [← isOk_writeActionMessage_iff sender .jingle type write { name := qnIq }]
    cases sender.writeActionMessage .jingle type write { name := qnIq } with
    | error text => simp [Except.bind]
    | ok stanza =>
      simpa [Except.bind] using isOk_writeActionMessage_iff sender .gingle type write stanza
  · simp only [if_neg hhybrid, List.forall_mem_singleton]
    exact isOk_writeActionMessage_iff sender sender.currentProtocol type write { name := qnIq }

end SessionMessages.Sender

namespace SignalingSession

variable {env : SessionEnvironment Description} {s t : SignalingSession Description}
  {msg : SessionMessages.SessionMessage} {elem : XmlElement}

/-- What a message that is answered with an error has to leave as it was. -/
structure Untouched (s t : SignalingSession Description) : Prop
    extends MuxingSession.Kept s.toMuxingSession t.toMuxingSession where
  remoteName : t.remoteName = s.remoteName

structure SameCall (s t : SignalingSession Description) : Prop where
  state : t.state = s.state
  localDescription : t.localDescription = s.localDescription
  remoteDescription : t.remoteDescription = s.remoteDescription
  initAckTimer : t.initAckTimer = s.initAckTimer

def Takes (s : SignalingSession Description) (tinfos : List TransportInfo) : Prop :=
  s.state = .sentReject ∨ s.state = .sentBusy ∨ s.toMuxingSession.TakesAll tinfos

theorem untouched_settleProtocol : Untouched s (s.settleProtocol msg) := by
  rw [settleProtocol]
  by_cases hhybrid : s.currentProtocol = .hybrid
  · rw [if_pos hhybrid]
    exact ⟨.refl _, rfl⟩
  · rw [if_neg hhybrid]
    exact ⟨.refl _, rfl⟩

theorem not_opening_setState {state : Session.State} (hstate : ¬ state.Opening) :
    ¬ (s.setState env state).state.Opening := by
  rw [setState]
  by_cases hne : state ≠ s.state
  · rw [if_pos hne]
    exact env.listen_opening _ hstate
  · rw [if_neg hne, ← not_not.mp hne]
    exact hstate

theorem takeTransports_spec (env : SessionEnvironment Description)
    (s : SignalingSession Description) (tinfos : List TransportInfo) :
    ∃ t result, s.takeTransports env tinfos = some (t, result) ∧ Untouched s t ∧
      (result = .ok () ↔ s.toMuxingSession.TakesAll tinfos) := by
  have hkept := MuxingSession.kept_onRemoteTransports (s := s.toMuxingSession)
    env.candidateToString tinfos
  have hok := MuxingSession.onRemoteTransports_ok_iff (s := s.toMuxingSession)
    env.candidateToString tinfos
  rw [takeTransports]
  cases htake : s.toMuxingSession.onRemoteTransports env.candidateToString tinfos with
  | mk result t =>
    rw [htake] at hkept hok
    cases result with
    | ok => exact ⟨_, _, rfl, ⟨hkept, rfl⟩, iff_of_true rfl (hok.mp rfl)⟩
    | error text =>
      exact ⟨_, _, rfl, ⟨hkept, rfl⟩, iff_of_false nofun fun htakes => nomatch hok.mpr htakes⟩

theorem takeUnlessRejected_spec (env : SessionEnvironment Description)
    (s : SignalingSession Description) (tinfos : List TransportInfo) :
    ∃ t result, s.takeUnlessRejected env tinfos = some (t, result) ∧ t.state = s.state ∧
      (result = .ok () ↔ s.Takes tinfos) := by
  rw [takeUnlessRejected, Takes]
  by_cases hrejected : s.state ≠ .sentReject ∧ s.state ≠ .sentBusy
  · obtain ⟨t, result, htake, huntouched, hok⟩ := takeTransports_spec env s tinfos
    refine ⟨t, result, by rw [if_pos hrejected, htake], huntouched.state, ?_⟩
    rw [hok, or_iff_right hrejected.1, or_iff_right hrejected.2]
  · refine ⟨s, .ok (), by rw [if_neg hrejected], rfl, iff_of_true rfl ?_⟩
    by_cases hreject : s.state = .sentReject
    · exact .inl hreject
    · exact .inr (.inl (by_contra fun hbusy => hrejected ⟨hreject, hbusy⟩))

theorem Untouched.trans {u : SignalingSession Description} (h : Untouched s t)
    (h' : Untouched t u) : Untouched s u :=
  ⟨h.toKept.trans h'.toKept, h'.remoteName.trans h.remoteName⟩

theorem Untouched.symm (h : Untouched s t) : Untouched t s :=
  ⟨⟨h.state.symm, h.localDescription.symm, h.remoteDescription.symm, h.names.symm⟩,
    h.remoteName.symm⟩

/-- No assertion fails, and an error leaves the session untouched. -/
def Answers (s : SignalingSession Description) (handled : Handled Description) : Prop :=
  ∃ t result, handled = some (t, result) ∧ ∀ error, result = .error error → Untouched s t

theorem answers_ok : Answers s (some (t, .ok ())) := ⟨t, .ok (), rfl, nofun⟩

theorem answers_self (result : Except MessageError Unit) : Answers s (some (s, result)) :=
  ⟨s, result, rfl, fun _ _ => ⟨.refl _, rfl⟩⟩

theorem not_answers_none : ¬ Answers s none := fun ⟨_, _, h, _⟩ => nomatch h

theorem answers_congr (h : Untouched s t) (handled : Handled Description) :
    Answers s handled ↔ Answers t handled := by
  constructor
  · rintro ⟨u, result, hhandled, herror⟩
    exact ⟨u, result, hhandled, fun error h' => h.symm.trans (herror error h')⟩
  · rintro ⟨u, result, hhandled, herror⟩
    exact ⟨u, result, hhandled, fun error h' => h.trans (herror error h')⟩

theorem answers_takeUnlessRejected_iff {told : SignalingSession Description}
    (hopening : s.state.Opening) (htold : ¬ told.state.Opening) (tinfos : List TransportInfo) :
    Answers s (told.takeUnlessRejected env tinfos) ↔ told.Takes tinfos := by
  obtain ⟨t, result, htake, hstate, hok⟩ := takeUnlessRejected_spec env told tinfos
  rw [← hok, htake]
  cases result with
  | ok => exact iff_of_true answers_ok rfl
  | error text =>
    refine iff_of_false ?_ nofun
    rintro ⟨u, result, hhandled, herror⟩
    obtain ⟨rfl, rfl⟩ := Prod.mk.inj (Option.some.inj hhandled)
    have hsame := (herror _ rfl).state
    rw [hstate] at hsame
    exact htold (hsame ▸ hopening)

def toldOfInitiate (env : SessionEnvironment Description) (s : SignalingSession Description)
    (msg : SessionMessages.SessionMessage) (init : ContentMessage Description) :
    SignalingSession Description :=
  { s with
    toMuxingSession := (s.toMuxingSession.createTransportProxies init.transports).2 }.initiated
      env msg init

theorem not_opening_initiated {init : ContentMessage Description} :
    ¬ (s.initiated env msg init).state.Opening :=
  not_opening_setState (by decide)

theorem answers_onInitiateMessage_iff : Answers s (s.onInitiateMessage env msg elem) ↔
    (s.state = .init → ∀ init,
      (s.parsers env).parseSessionInitiate msg.protocol elem = .ok init →
        (s.toldOfInitiate env msg init).Takes init.transports) := by
  rw [onInitiateMessage]
  by_cases hstate : s.state = .init
  · rw [if_neg (not_not_intro hstate)]
    cases hparse : (s.parsers env).parseSessionInitiate msg.protocol elem with
    | error text => exact iff_of_true (answers_self _) fun _ init h => nomatch h
    | ok init =>
      obtain ⟨t, ht, -⟩ := MuxingSession.createTransportProxies_of_type
        (s := s.toMuxingSession) (transportType_of_parse hparse)
      have htold : s.toldOfInitiate env msg init =
          { s with toMuxingSession := t }.initiated env msg init := by
        rw [toldOfInitiate, ht]
      simp only [ht]
      rw [answers_takeUnlessRejected_iff (.inl hstate) not_opening_initiated, ← htold]
      constructor
      · intro htakes _ init' hinit
        obtain rfl := Except.ok.inj hinit
        exact htakes
      · exact fun htakes => htakes hstate init rfl
  · rw [if_pos hstate]
    exact iff_of_true (answers_self _) fun h => absurd h hstate

def TakesAccept (env : SessionEnvironment Description) (s : SignalingSession Description)
    (accept : ContentMessage Description) : Prop :=
  (s.accepted env accept).MuxingSafe ∧
    ∀ t, (s.accepted env accept).assertedMuxing = some t →
      (setState env { s.accepted env accept with toMuxingSession := t } .receivedAccept).Takes
        accept.transports

theorem opening_of_checkSentInitiate (h : s.checkSentInitiate = true) : s.state.Opening := by
  have hsent : s.state = .sentInitiate ∨ s.state = .receivedInitiateAck := by
    simpa [checkSentInitiate] using h
  exact .inr hsent

theorem answers_onAcceptMessage_iff : Answers s (s.onAcceptMessage env msg elem) ↔
    s.checkSentInitiate = true ∧ ∀ accept,
      (s.parsers env).parseSessionAccept msg.protocol elem = .ok accept →
        s.TakesAccept env accept := by
  rw [onAcceptMessage]
  by_cases hsent : s.checkSentInitiate = true
  · rw [if_neg (by simp [hsent]), and_iff_right hsent]
    cases hparse : (s.parsers env).parseSessionAccept msg.protocol elem with
    | error text => exact iff_of_true (answers_self _) fun accept h => nomatch h
    | ok accept =>
      have hone : (∀ accept', Except.ok accept = Except.ok (ε := String) accept' →
          s.TakesAccept env accept') ↔ s.TakesAccept env accept :=
        ⟨fun h => h accept rfl, fun h accept' haccept => Except.ok.inj haccept ▸ h⟩
      rw [hone, TakesAccept, ← MuxingSession.assertedMuxing_isSome_iff]
      dsimp only
      cases hmuxing : (s.accepted env accept).assertedMuxing with
      | none => exact iff_of_false not_answers_none fun h => nomatch h.1
      | some t =>
        dsimp only
        rw [answers_takeUnlessRejected_iff (opening_of_checkSentInitiate hsent)
          (not_opening_setState (by decide))]
        constructor
        · intro htakes
          refine ⟨rfl, fun t' ht => ?_⟩
          obtain rfl := Option.some.inj ht
          exact htakes
        · exact fun h => h.2 t rfl
  · rw [if_pos (by simpa using hsent)]
    exact iff_of_false not_answers_none fun h => hsent h.1

theorem answers_onRejectMessage_iff :
    Answers s s.onRejectMessage ↔ s.checkSentInitiate = true := by
  rw [onRejectMessage]
  by_cases hsent : s.checkSentInitiate = true
  · rw [if_neg (by simp [hsent])]
    exact iff_of_true answers_ok hsent
  · rw [if_pos (by simpa using hsent)]
    exact iff_of_false not_answers_none hsent

theorem answers_onTransportInfoMessage_iff :
    Answers s (s.onTransportInfoMessage env msg elem) ↔ s.initiatorDescription.isSome := by
  rw [onTransportInfoMessage]
  cases hdescription : s.initiatorDescription with
  | none => exact iff_of_false not_answers_none nofun
  | some sdesc =>
    refine iff_of_true ?_ rfl
    dsimp only
    cases s.parseTransportInfos env msg.protocol elem sdesc.contents with
    | error text => exact answers_self _
    | ok tinfos =>
      obtain ⟨t, result, htake, huntouched, -⟩ := takeTransports_spec env s tinfos
      exact ⟨t, result, htake, fun _ _ => huntouched⟩

theorem answers_onDescriptionInfoMessage :
    Answers s (s.onDescriptionInfoMessage env msg elem) := by
  rw [onDescriptionInfoMessage]
  by_cases hstate : s.state ≠ .inProgress
  · rw [if_pos hstate]
    exact answers_self _
  · rw [if_neg hstate]
    cases (s.parsers env).parseDescriptionInfo msg.protocol elem with
    | error text => exact answers_self _
    | ok _ => exact answers_ok

def Tolerates (env : SessionEnvironment Description) (s : SignalingSession Description)
    (msg : SessionMessages.SessionMessage) (elem : XmlElement) : Prop :=
  match msg.type with
  | .sessionInitiate => s.state = .init → ∀ init,
      (s.parsers env).parseSessionInitiate msg.protocol elem = .ok init →
        (s.toldOfInitiate env msg init).Takes init.transports
  | .sessionAccept => s.checkSentInitiate = true ∧ ∀ accept,
      (s.parsers env).parseSessionAccept msg.protocol elem = .ok accept →
        s.TakesAccept env accept
  | .sessionReject => s.checkSentInitiate = true
  | .transportInfo => s.initiatorDescription.isSome
  | .sessionInfo | .sessionTerminate | .transportAccept | .descriptionInfo => True

theorem answers_onIncomingMessage_iff (hpeer : s.state = .init ∨ msg.sender = s.remoteName) :
    Answers s (s.onIncomingMessage env msg elem) ↔
      (s.settleProtocol msg).Tolerates env msg elem := by
  have hsender : ¬ (s.state ≠ .init ∧ msg.sender ≠ s.remoteName) := by tauto
  rw [onIncomingMessage, if_neg hsender, answers_congr untouched_settleProtocol, Tolerates]
  dsimp only
  cases msg.type with
  | sessionInitiate => exact answers_onInitiateMessage_iff
  | sessionInfo => exact iff_of_true answers_ok trivial
  | sessionAccept => exact answers_onAcceptMessage_iff
  | sessionReject => exact answers_onRejectMessage_iff
  | sessionTerminate => exact iff_of_true answers_ok trivial
  | transportInfo => exact answers_onTransportInfoMessage_iff
  | transportAccept => exact iff_of_true answers_ok trivial
  | descriptionInfo => exact iff_of_true answers_onDescriptionInfoMessage trivial

theorem SameCall.refl (s : SignalingSession Description) : SameCall s s := ⟨rfl, rfl, rfl, rfl⟩

def WritesInitiate (env : SessionEnvironment Description) (s : SignalingSession Description)
    (sdesc : SessionDescription Description) : Prop :=
  ∀ protocol ∈ s.currentProtocol.writtenIn, ∃ elems,
    (s.parsers env).writeSessionInitiate protocol sdesc.contents
      (emptyTransportInfos sdesc.contents) sdesc.groups = .ok elems

def WritesAccept (env : SessionEnvironment Description) (s : SignalingSession Description)
    (sdesc : SessionDescription Description) : Prop :=
  ∃ elems, (s.parsers env).writeSessionAccept s.currentProtocol sdesc.contents
    (emptyTransportInfos sdesc.contents) sdesc.groups = .ok elems

theorem isOk_sendInitiateMessage_iff (sdesc : SessionDescription Description) :
    (∃ stanza, (s.sendInitiateMessage env sdesc).1 = .ok stanza) ↔ s.WritesInitiate env sdesc :=
  SessionMessages.Sender.isOk_sendAction_iff

theorem isOk_sendAcceptMessage_iff (sdesc : SessionDescription Description) :
    (∃ stanza, s.sendAcceptMessage env sdesc = .ok stanza) ↔ s.WritesAccept env sdesc := by
  rw [sendAcceptMessage, SessionMessages.Sender.send, WritesAccept]
  dsimp only [messageSender]
  cases (s.parsers env).writeSessionAccept s.currentProtocol sdesc.contents
    (emptyTransportInfos sdesc.contents) sdesc.groups with
  | error text => simp [Except.map]
  | ok elems => simp [Except.map]

def prepared (s : SignalingSession Description) (remote : String)
    (sdesc : SessionDescription Description) : SignalingSession Description := { s with
  remoteName := remote
  toMuxingSession := ({ s.toMuxingSession with
    localDescription := some sdesc }.createTransportProxies
      (emptyTransportInfos sdesc.contents)).2 }

theorem type_emptyTransportInfos (contents : List (ContentInfo Description)) :
    ∀ tinfo ∈ emptyTransportInfos contents, tinfo.description.transportType = nsGingleP2p := by
  intro tinfo htinfo
  obtain ⟨content, -, rfl⟩ := List.mem_map.mp htinfo
  rfl

theorem initiate_false_iff (remote : String) (sdesc : SessionDescription Description) :
    (∀ t, s.initiate env remote sdesc = (false, t) → SameCall s t) ↔
      (s.state = .init → (s.prepared remote sdesc).WritesInitiate env sdesc ∨
        (s.localDescription = some sdesc ∧
          s.initAckTimer = some (s.now + env.sessionInitAckTimeout))) := by
  rw [initiate]
  by_cases hstate : s.state = .init
  · rw [if_neg (not_not_intro hstate), ← isOk_sendInitiateMessage_iff]
    obtain ⟨t, ht, hstate', hlocal, hremote⟩ := MuxingSession.createTransportProxies_of_type
      (s := { s.toMuxingSession with localDescription := some sdesc })
      (type_emptyTransportInfos sdesc.contents)
    have hprepared : s.prepared remote sdesc =
        { s with remoteName := remote, toMuxingSession := t } := by
      rw [prepared, ht]
    rw [hprepared]
    simp only [ht]
    generalize hu : ({ s with remoteName := remote, toMuxingSession := t } :
      SignalingSession Description) = u
    have hsent : (u.sendInitiateMessage env sdesc).2 =
        { u with initAckTimer := some (u.now + env.sessionInitAckTimeout) } := rfl
    cases hsend : u.sendInitiateMessage env sdesc with
    | mk result v =>
      rw [hsend] at hsent
      obtain rfl := hsent
      cases result with
      | ok stanza => exact iff_of_true (fun _ h => nomatch h) fun _ => .inl ⟨stanza, rfl⟩
      | error text =>
        subst hu
        constructor
        · intro hsame _
          have hcall := hsame _ rfl
          exact .inr ⟨hcall.localDescription.symm.trans hlocal, hcall.initAckTimer.symm⟩
        · intro hwrites u' hu'
          obtain ⟨hdescription, htimer⟩ := (hwrites hstate).resolve_left nofun
          rw [← (Prod.mk.inj hu').2]
          exact ⟨hstate', hlocal.trans hdescription.symm, hremote, htimer.symm⟩
  · rw [if_pos hstate]
    refine iff_of_true (fun t h => ?_) fun h => absurd h hstate
    rw [← (Prod.mk.inj h).2]
    exact .refl s

theorem accept_false_iff (sdesc : SessionDescription Description) :
    (∀ t, s.accept env sdesc = some (false, t) → SameCall s t) ↔
      (s.state = .receivedInitiate →
        s.WritesAccept env sdesc ∨ s.localDescription = some sdesc) := by
  rw [accept]
  by_cases hstate : s.state = .receivedInitiate
  · rw [if_neg (not_not_intro hstate), ← isOk_sendAcceptMessage_iff]
    have hsend : ({ s with localDescription := some sdesc } : SignalingSession
        Description).sendAcceptMessage env sdesc = s.sendAcceptMessage env sdesc := rfl
    dsimp only
    rw [hsend]
    cases s.sendAcceptMessage env sdesc with
    | ok stanza =>
      refine iff_of_true (fun t h => ?_) fun _ => .inl ⟨stanza, rfl⟩
      obtain ⟨u, -, hu⟩ := Option.bind_eq_some_iff.mp h
      exact nomatch (Prod.mk.inj (Option.some.inj hu)).1
    | error text =>
      constructor
      · exact fun hsame _ => .inr (hsame _ rfl).localDescription.symm
      · intro hwrites t ht
        have hdescription := (hwrites hstate).resolve_left nofun
        rw [← (Prod.mk.inj (Option.some.inj ht)).2]
        exact ⟨rfl, hdescription.symm, rfl, rfl⟩
  · rw [if_pos hstate]
    refine iff_of_true (fun t h => ?_) fun h => absurd h hstate
    rw [← (Prod.mk.inj (Option.some.inj h)).2]
    exact .refl s

inductive Request (Description : Type)
  | message (msg : SessionMessages.SessionMessage) (elem : XmlElement)
  | initiate (remote : String) (sdesc : SessionDescription Description)
  | accept (sdesc : SessionDescription Description)

def FromPeer (s : SignalingSession Description) : Request Description → Prop
  | .message msg _ => s.state = .init ∨ msg.sender = s.remoteName
  | .initiate _ _ | .accept _ => True

/-- The request is carried out without a failed assertion, or leaves the session as it was. -/
def Atomic (env : SessionEnvironment Description) (s : SignalingSession Description) :
    Request Description → Prop
  | .message msg elem => Answers s (s.onIncomingMessage env msg elem)
  | .initiate remote sdesc => ∀ t, s.initiate env remote sdesc = (false, t) → SameCall s t
  | .accept sdesc => ∀ t, s.accept env sdesc = some (false, t) → SameCall s t

/-- The messages that are tolerated, and the calls that can be written or change nothing. -/
def Tolerated (env : SessionEnvironment Description) (s : SignalingSession Description) :
    Request Description → Prop
  | .message msg elem => (s.settleProtocol msg).Tolerates env msg elem
  | .initiate remote sdesc => s.state = .init →
      (s.prepared remote sdesc).WritesInitiate env sdesc ∨
        (s.localDescription = some sdesc ∧
          s.initAckTimer = some (s.now + env.sessionInitAckTimeout))
  | .accept sdesc => s.state = .receivedInitiate →
      s.WritesAccept env sdesc ∨ s.localDescription = some sdesc

def plainEnvironment : SessionEnvironment Unit where
  listen := fun s => s
  listen_opening := fun _ h => h
  contentParsers := fun _ => none
  transportParser := {
    parseTransportDescription := fun _ _ => .ok { transportType := nsGingleP2p }
    writeTransportDescription := fun _ _ => .ok { name := ⟨nsGingleP2p, "transport"⟩ }
    parseGingleCandidate := fun _ _ => .error "candidate in a transport without candidates"
    writeGingleCandidate := fun _ _ => .error "candidate in a transport without candidates" }
  parser_type := fun _ _ _ h => Except.ok.inj h ▸ rfl
  takesDescription := fun _ _ _ _ => true
  candidateToString := fun cand => "Cand[" ++ toString cand.component ++ "]"
  sessionInitAckTimeout := 10000

def callInState (state : Session.State) : SignalingSession Unit :=
  { state, initiator := true, remoteName := "bob", currentProtocol := .jingle }

def messageFromPeer (type : ActionType) : Request Unit :=
  .message { protocol := .jingle, type, sid := "", initiator := "", sender := "bob" }
    { name := qnJingle }

end SignalingSession

end Libjingle
