import Libjingle.Media.AnswerContents
import Libjingle.Media.RequestedStreams
import Libjingle.Media.SctpSids

/-! The ssrcs of a description. Streams that the options ask for are looked up by their ids alone,
and the single streams that are added without an id are not known to the contents after them. -/

namespace Libjingle

open Paired (exists_of_mem_left exists_of_mem_right)

/-- The streams of a content, with its kind, if it is not one of SCTP. -/
def rtpStreamsOf (content : MediaContentInfo) : List (MediaType × StreamParams) :=
  (mediaDescription content).elim [] fun m =>
    if m.media.isSctp then [] else m.media.streams.map (m.type, ·)

def rtpStreams (sdesc : MediaSessionDescription) : List (MediaType × StreamParams) :=
  sdesc.contents.flatMap rtpStreamsOf

structure IsLegacy (known : List StreamParams) (param : StreamParams) : Prop where
  groupid : param.groupid = ""
  id : param.id = ""
  cname : param.cname = ""
  ssrcs : DrawnSsrcs known param.ssrcs

def Filled (all : List MediaSessionOptions.Stream) (legacy : Bool) (current : List StreamParams)
    (types : List MediaType) (streams : List (MediaType × StreamParams))
    (known : List StreamParams) : Prop :=
  if all.isEmpty && legacy then
    known = current ∧ List.Forall₂ (fun t a => a.1 = t ∧ IsLegacy current a.2) types streams
  else Requested all current (types.flatMap fun t => all.filter (·.type = t)) streams known

section Draws

variable {rng : RandomGenerator} {rounds : Nat} {params : List StreamParams}

theorem createRandomNonZeroId_ne {rounds n k : Nat} {id : UInt32}
    (h : rng.createRandomNonZeroId rounds n = .ok (id, k)) : id ≠ 0 := by
  induction rounds generalizing n with
  | zero => exact absurd h Draw.throw_ok
  | succ rounds ih =>
    rw [RandomGenerator.createRandomNonZeroId] at h
    dsimp only at h
    split at h
    · exact ih h
    · next hne =>
      cases h
      exact hne

theorem freshSsrc_spec {ssrcs : List UInt32} {fuel n k : Nat} {ssrc : UInt32}
    (h : freshSsrc rng rounds params ssrcs fuel n = .ok (ssrc, k)) :
    ssrc ≠ 0 ∧ IsFree params ssrc ∧ ssrc ∉ ssrcs := by
  induction fuel generalizing n with
  | zero => exact absurd h Draw.throw_ok
  | succ fuel ih =>
    obtain ⟨candidate, _, hcandidate, h⟩ := Draw.bind_ok.mp h
    have hne := createRandomNonZeroId_ne hcandidate
    by_cases htest :
        ((getStreamBySsrc params candidate).isSome || ssrcs.contains candidate) = true
    · rw [if_pos htest] at h
      exact ih h
    · rw [if_neg htest] at h
      obtain ⟨rfl, -⟩ := Draw.pure_ok.mp h
      rw [Bool.or_eq_true, not_or, Option.not_isSome_iff_eq_none, List.contains_iff_mem] at htest
      exact ⟨hne, (isFree_iff hne).mp htest.1, htest.2⟩

theorem disjoint_of_isFree {ssrcs : List UInt32} (h : ∀ ssrc ∈ ssrcs, IsFree params ssrc) :
    ∀ p ∈ params, p.ssrcs.Disjoint ssrcs := by
  intro p hp ssrc hmem hssrc
  have hfree := h ssrc hssrc p hp
  rw [StreamParams.hasSsrc, List.contains_eq_mem, decide_eq_false_iff_not] at hfree
  exact hfree hmem

theorem generateSsrcs_spec {rtx : Bool} {ssrcs : List UInt32} {n k : Nat}
    (h : generateSsrcs rng rounds params rtx n = .ok (ssrcs, k)) :
    DrawnSsrcs params ssrcs ∧ 0 ∉ ssrcs ∧ ssrcs.length = if rtx then 2 else 1 := by
  obtain ⟨first, _, hfirst, h⟩ := Draw.bind_ok.mp h
  obtain ⟨hfirst, hfree, -⟩ := freshSsrc_spec hfirst
  cases rtx with
  | false =>
    obtain ⟨rfl, -⟩ := Draw.pure_ok.mp h
    refine ⟨⟨List.cons_ne_nil _ _, List.nodup_singleton _, disjoint_of_isFree fun ssrc hssrc => ?_⟩,
      fun hzero => hfirst (List.mem_singleton.mp hzero).symm, rfl⟩
    rw [List.mem_singleton.mp hssrc]
    exact hfree
  | true =>
    obtain ⟨second, _, hsecond, h⟩ := Draw.bind_ok.mp h
    obtain ⟨hsecond, hfree', hnot⟩ := freshSsrc_spec hsecond
    obtain ⟨rfl, -⟩ := Draw.pure_ok.mp h
    have hne : first ≠ second := fun heq => hnot (List.mem_singleton.mpr heq.symm)
    refine ⟨⟨List.cons_ne_nil _ _, by simp [hne], disjoint_of_isFree fun ssrc hssrc => ?_⟩,
      by simp [hfirst.symm, hsecond.symm], rfl⟩
    rcases List.mem_cons.mp hssrc with rfl | hssrc
    · exact hfree
    · rw [List.mem_singleton.mp hssrc]
      exact hfree'

theorem addSsrcs_spec {param result : StreamParams} {rtx : Bool} {ssrcs : List UInt32} {n k : Nat}
    (hparam : param.ssrcs = []) (hlength : ssrcs.length = if rtx then 2 else 1)
    (h : addSsrcs param ssrcs rtx n = .ok (result, k)) :
    result.ssrcs = ssrcs ∧ result.groupid = param.groupid ∧ result.id = param.id ∧
      result.cname = param.cname := by
  obtain ⟨ssrc, _, hdraw, h⟩ := Draw.bind_ok.mp h
  obtain ⟨hssrc, rfl⟩ := Draw.orElse_ok.mp hdraw
  clear hdraw
  cases rtx with
  | false =>
    obtain ⟨rfl, -⟩ := Draw.pure_ok.mp h
    obtain ⟨only, rfl⟩ := List.length_eq_one_iff.mp hlength
    obtain rfl := Option.some.inj hssrc
    simp [hparam]
  | true =>
    obtain ⟨fid, _, hdraw, h⟩ := Draw.bind_ok.mp h
    obtain ⟨hfid, rfl⟩ := Draw.orElse_ok.mp hdraw
    clear hdraw
    obtain ⟨rfl, -⟩ := Draw.pure_ok.mp h
    obtain ⟨first, second, rfl⟩ := List.length_eq_two.mp hlength
    obtain rfl := Option.some.inj hssrc
    obtain rfl := Option.some.inj hfid
    simp [StreamParams.addFidSsrc, StreamParams.hasSsrc, hparam]

theorem freshCname_spec {fuel n k : Nat} {cname : String}
    (h : freshCname rng params fuel n = .ok (cname, k)) : ∀ p ∈ params, p.cname ≠ cname := by
  induction fuel generalizing n with
  | zero => exact absurd h Draw.throw_ok
  | succ fuel ih =>
    obtain ⟨drawn, _, -, h⟩ := Draw.bind_ok.mp h
    cases drawn with
    | none => exact absurd h Draw.throw_ok
    | some drawn =>
      dsimp only at h
      split at h
      · exact ih h
      · next htest =>
        obtain ⟨rfl, -⟩ := Draw.pure_ok.mp h
        intro p hp hcname
        exact htest (List.any_eq_true.mpr ⟨p, hp, decide_eq_true hcname⟩)

theorem generateCname_spec {all : List MediaSessionOptions.Stream} {label cname : String}
    {n k : Nat} (h : generateCname rng rounds params all label n = .ok (cname, k)) :
    (∀ p, syncedStream all params label = some p → cname = p.cname) ∧
      (syncedStream all params label = none → ∀ p ∈ params, p.cname ≠ cname) := by
  rw [generateCname] at h
  rw [syncedStream]
  cases hfound : (all.filter (·.syncLabel = label)).findSome? fun s =>
      getStreamByIds params "" s.id with
  | some param =>
    rw [hfound] at h
    obtain ⟨rfl, -⟩ := Draw.pure_ok.mp h
    exact ⟨fun p hp => by rw [Option.some.inj hp], fun hnone => by cases hnone⟩
  | none =>
    rw [hfound] at h
    exact ⟨fun p hp => (by cases hp), fun _ => freshCname_spec h⟩

end Draws

section Loop

variable {rng : RandomGenerator} {rounds : Nat} {all : List MediaSessionOptions.Stream} {rtx : Bool}

theorem addOptionStream_requested {d : MediaContentDescription} {known : List StreamParams}
    {stream : MediaSessionOptions.Stream} {n k : Nat}
    {next : MediaContentDescription × List StreamParams} (hd : d.isSctp = false)
    (h : addOptionStream rng rounds all rtx d known stream n = .ok (next, k)) :
    ∃ param, next.1.streams = d.streams ++ [param] ∧
      Requested all known [stream] [(stream.type, param)] next.2 := by
  unfold addOptionStream at h
  cases hfound : getStreamByIds known "" stream.id with
  | some param =>
    rw [hfound] at h
    obtain ⟨rfl, -⟩ := Draw.pure_ok.mp h
    exact ⟨param, rfl, .known hfound (.nil _)⟩
  | none =>
    rw [hfound] at h
    obtain ⟨cname, _, hcname, h⟩ := Draw.bind_ok.mp h
    obtain ⟨ssrcs, _, hssrcs, h⟩ := Draw.bind_ok.mp h
    obtain ⟨param, _, hparam, h⟩ := Draw.bind_ok.mp h
    obtain ⟨rfl, -⟩ := Draw.pure_ok.mp h
    rw [generateIds, hd] at hssrcs
    obtain ⟨hdrawn, -, hlength⟩ := generateSsrcs_spec hssrcs
    obtain ⟨hsame, hgroup, hid, -⟩ := addSsrcs_spec rfl hlength hparam
    obtain ⟨htaken, hnone⟩ := generateCname_spec hcname
    refine ⟨_, rfl, .new hfound ⟨hgroup, hid, rfl, ?_, htaken, hnone⟩ (.nil _)⟩
    rw [← hsame] at hdrawn
    exact hdrawn

theorem addOptionStreams_requested {streams : List MediaSessionOptions.Stream}
    {d : MediaContentDescription} {known : List StreamParams} {n k : Nat} {type : MediaType}
    {next : MediaContentDescription × List StreamParams} (hd : d.isSctp = false)
    (htype : ∀ stream ∈ streams, stream.type = type)
    (h : addOptionStreams rng rounds all rtx streams d known n = .ok (next, k)) :
    ∃ params, next.1.streams = d.streams ++ params ∧
      Requested all known streams (params.map (type, ·)) next.2 := by
  induction streams generalizing d known n with
  | nil =>
    obtain ⟨rfl, -⟩ := Draw.pure_ok.mp h
    exact ⟨[], (List.append_nil _).symm, .nil _⟩
  | cons stream streams ih =>
    obtain ⟨middle, _, hmiddle, h⟩ := Draw.bind_ok.mp h
    obtain ⟨param, hparam, hstep⟩ := addOptionStream_requested hd hmiddle
    have hone : addOptionStreams rng rounds all rtx [stream] d known n = .ok (middle, _) :=
      Draw.bind_ok.mpr ⟨_, _, hmiddle, rfl⟩
    have hsame := addOptionStreams_same (φ := (·.isSctp)) (fun _ _ _ => rfl) hone
    obtain ⟨params, hparams, hrest⟩ := ih (hsame.trans hd)
      (fun s hs => htype s (List.mem_cons_of_mem _ hs)) h
    rw [htype stream List.mem_cons_self] at hstep
    refine ⟨param :: params, ?_, hstep.append hrest⟩
    rw [hparams, hparam, List.append_assoc]
    rfl

theorem addLegacyStream_spec {d : MediaContentDescription} {known : List StreamParams} {n k : Nat}
    {type : MediaType} {next : MediaContentDescription × List StreamParams}
    (hd : d.isSctp = false)
    (h : addStreamParams rng rounds type [] known true rtx d n = .ok (next, k)) :
    next.2 = known ∧ ∃ param, next.1.streams = d.streams ++ [param] ∧ IsLegacy known param ∧
      0 ∉ param.ssrcs ∧ param.ssrcs.length = if rtx then 2 else 1 := by
  have hlegacy : (([] : List MediaSessionOptions.Stream).isEmpty && true) = true := rfl
  rw [addStreamParams, if_pos hlegacy] at h
  obtain ⟨ssrcs, _, hssrcs, h⟩ := Draw.bind_ok.mp h
  obtain ⟨param, _, hparam, h⟩ := Draw.bind_ok.mp h
  obtain ⟨rfl, -⟩ := Draw.pure_ok.mp h
  rw [generateIds, hd] at hssrcs
  obtain ⟨hdrawn, hzero, hlength⟩ := generateSsrcs_spec hssrcs
  obtain ⟨rfl, hgroup, hid, hcname⟩ := addSsrcs_spec rfl hlength hparam
  exact ⟨rfl, param, rfl, ⟨hgroup, hid, hcname, hdrawn⟩, hzero, hlength⟩

end Loop

section Contents

variable {rng : RandomGenerator} {rounds : Nat} {options : MediaSessionOptions}
  {all : List MediaSessionOptions.Stream} {legacy : Bool} {current known : List StreamParams}
  {types : List MediaType} {streams : List (MediaType × StreamParams)}

theorem Filled.addStreamParams (hf : Filled all legacy current types streams known)
    {type : MediaType} {rtx : Bool} {d : MediaContentDescription} {n k : Nat}
    {next : MediaContentDescription × List StreamParams} (hd : d.isSctp = false)
    (hstreams : d.streams = [])
    (h : addStreamParams rng rounds type all known legacy rtx d n = .ok (next, k)) :
    Filled all legacy current (types ++ [type]) (streams ++ next.1.streams.map (type, ·)) next.2 := by
  by_cases hlegacy : (all.isEmpty && legacy) = true
  · rw [Filled, if_pos hlegacy] at hf ⊢
    obtain ⟨rfl, hf⟩ := hf
    obtain ⟨hempty, rfl⟩ := (Bool.and_eq_true _ _).mp hlegacy
    obtain rfl := List.isEmpty_iff.mp hempty
    obtain ⟨rfl, param, hparam, hnew, -⟩ := addLegacyStream_spec hd h
    rw [hparam, hstreams]
    exact ⟨rfl, List.rel_append hf (.cons ⟨rfl, hnew⟩ .nil)⟩
  · rw [Filled, if_neg hlegacy] at hf ⊢
    rw [Libjingle.addStreamParams, if_neg hlegacy] at h
    obtain ⟨params, hparams, hadd⟩ := addOptionStreams_requested hd
      (fun stream hstream => of_decide_eq_true (List.mem_filter.mp hstream).2) h
    rw [hparams, hstreams, List.nil_append, List.flatMap_append, List.flatMap_singleton]
    exact hf.append hadd

structure Streamed (rng : RandomGenerator) (rounds : Nat) (all : List MediaSessionOptions.Stream)
    (legacy : Bool) (known : List StreamParams) (type : MediaType) (sctp : Bool)
    (d : MediaDescription) (last : List StreamParams) : Prop where
  kind : d.type = type
  isSctp : d.media.isSctp = sctp
  added : ∃ rtx base n k next, MediaContentDescription.isSctp base = sctp ∧ base.streams = [] ∧
    addStreamParams rng rounds type all known legacy rtx base n = .ok (next, k) ∧
      d.media.streams = next.1.streams ∧ last = next.2

theorem Filled.content (hf : Filled all legacy current types streams known) {type : MediaType}
    {sctp : Bool} {d : MediaDescription} {last : List StreamParams}
    (h : Streamed rng rounds all legacy known type sctp d last) {content : MediaContentInfo}
    (hcontent : mediaDescription content = some d) :
    if sctp then rtpStreamsOf content = []
    else Filled all legacy current (types ++ [type]) (streams ++ rtpStreamsOf content) last := by
  obtain ⟨htype, hsctp, rtx, base, n, k, next, hbase, hempty, hadd, hsame, rfl⟩ := h
  rw [rtpStreamsOf, hcontent, Option.elim_some, hsctp, htype, hsame]
  cases sctp with
  | true => rfl
  | false => exact hf.addStreamParams hbase hempty hadd

theorem streamed_createMediaContentOffer {C : Type} [IsCodec C] {type : MediaType}
    {codecs : List C} {policy : SecurePolicy} {cryptos : Option (List CryptoParams)}
    {suites : List String} {extensions : List RtpHeaderExtension} {protocol : String} {n k : Nat}
    {r : MediaContentDescriptionImpl C × List StreamParams}
    (h : createMediaContentOffer rng rounds type options codecs policy cryptos suites extensions
      legacy known protocol n = .ok (r, k)) :
    r.1.protocol = protocol ∧ ∃ rtx base n k next,
      MediaContentDescription.protocol base = protocol ∧ base.streams = [] ∧
        addStreamParams rng rounds type options.streams known legacy rtx base n = .ok (next, k) ∧
          r.1.streams = next.1.streams ∧ r.2 = next.2 := by
  obtain ⟨next, _, hnext, h⟩ := Draw.bind_ok.mp h
  obtain ⟨_, _, -, h⟩ := Draw.bind_ok.mp h
  obtain ⟨_, _, -, h⟩ := Draw.bind_ok.mp h
  obtain ⟨rfl, -⟩ := Draw.pure_ok.mp h
  refine ⟨(sameSecurity_addStreamParams hnext).protocol, _, _, _, _, next, ?_, ?_, hnext, rfl, rfl⟩
  · rfl
  · rfl

theorem streamed_createMediaContentAnswer {C : Type} [IsCodec C] {type : MediaType}
    {offer : MediaContentDescriptionImpl C} {codecs : List C} {policy : SecurePolicy}
    {cryptos : Option (List CryptoParams)} {extensions : List RtpHeaderExtension}
    {bundleEnabled : Bool} {n k : Nat} {r : MediaContentDescriptionImpl C × List StreamParams}
    (h : createMediaContentAnswer rng rounds type offer options codecs policy cryptos extensions
      known legacy bundleEnabled n = .ok (r, k)) :
    r.1.protocol = offer.protocol ∧ ∃ rtx base n k next,
      MediaContentDescription.protocol base = offer.protocol ∧ base.streams = [] ∧
        addStreamParams rng rounds type options.streams known legacy rtx base n = .ok (next, k) ∧
          r.1.streams = next.1.streams ∧ r.2 = next.2 := by
  obtain ⟨_, _, -, h⟩ := Draw.bind_ok.mp h
  obtain ⟨_, _, -, h⟩ := Draw.bind_ok.mp h
  obtain ⟨next, _, hnext, h⟩ := Draw.bind_ok.mp h
  obtain ⟨rfl, -⟩ := Draw.pure_ok.mp h
  refine ⟨(sameSecurity_addStreamParams hnext).protocol, _, _, _, _, next, ?_, ?_, hnext, rfl, rfl⟩
  · rfl
  · rfl

theorem isSctp_mediaProtocol {secure : Bool} {cryptos : List CryptoParams}
    {d : MediaContentDescription} (h : d.protocol = mediaProtocol secure cryptos) :
    d.isSctp = false := by
  rw [MediaContentDescription.isSctp, h, mediaProtocol]
  split <;> decide

end Contents

def offeredTypes (options : MediaSessionOptions) : List MediaType :=
  [.audio, .video, .data].filter fun type =>
    MediaSessionDescriptionFactory.wants options type &&
      !(type = .data && options.dataChannelType = .sctp)

def answeredTypes (offer : MediaSessionDescription) : List MediaType :=
  [.audio, .video, .data].filter fun type =>
    (getFirstMediaContentDescription (some offer) type).any fun d => !d.media.isSctp

/-- Only contents of data are of SCTP. -/
def SctpIsData (offer : MediaSessionDescription) : Prop :=
  ∀ type ≠ .data, ∀ d, getFirstMediaContentDescription (some offer) type = some d →
    d.media.isSctp = false

namespace MediaSessionDescriptionFactory

variable {f : MediaSessionDescriptionFactory} {rng : RandomGenerator} {rounds : Nat}
  {options : MediaSessionOptions} {current : Option MediaSessionDescription}
  {offer : MediaSessionDescription} {known : List StreamParams} {n k : Nat}
  {r : MediaDescription × List StreamParams}

theorem streamed_offerAudio {secure : Bool} {codecs : List AudioCodec}
    {extensions : List RtpHeaderExtension}
    (h : f.offerAudio rng rounds options current secure codecs extensions known n = .ok (r, k)) :
    Streamed rng rounds options.streams f.addLegacy known .audio false r.1 r.2 := by
  obtain ⟨audio, _, haudio, h⟩ := Draw.bind_ok.mp h
  obtain ⟨rfl, -⟩ := Draw.pure_ok.mp h
  obtain ⟨-, rtx, base, m, l, next, hbase, hadded⟩ := streamed_createMediaContentOffer haudio
  exact ⟨rfl, isSctp_mediaProtocol rfl, rtx, base, m, l, next,
    by rw [MediaContentDescription.isSctp, hbase]; decide, hadded⟩

theorem streamed_offerVideo {secure : Bool} {codecs : List VideoCodec}
    {extensions : List RtpHeaderExtension}
    (h : f.offerVideo rng rounds options current secure codecs extensions known n = .ok (r, k)) :
    Streamed rng rounds options.streams f.addLegacy known .video false r.1 r.2 := by
  obtain ⟨video, _, hvideo, h⟩ := Draw.bind_ok.mp h
  obtain ⟨rfl, -⟩ := Draw.pure_ok.mp h
  obtain ⟨-, rtx, base, m, l, next, hbase, hadded⟩ := streamed_createMediaContentOffer hvideo
  exact ⟨rfl, isSctp_mediaProtocol rfl, rtx, base, m, l, next,
    by rw [MediaContentDescription.isSctp, hbase]; decide, hadded⟩

theorem streamed_offerData {secure : Bool} {codecs : List DataCodec}
    (h : f.offerData rng rounds options current secure codecs known n = .ok (r, k)) :
    Streamed rng rounds options.streams f.addLegacy known .data
      (decide (options.dataChannelType = .sctp)) r.1 r.2 := by
  unfold offerData at h
  by_cases hsctp : options.dataChannelType = .sctp
  · rw [if_pos hsctp] at h
    obtain ⟨data, _, hdata, h⟩ := Draw.bind_ok.mp h
    obtain ⟨rfl, -⟩ := Draw.pure_ok.mp h
    obtain ⟨hprotocol, rtx, base, m, l, next, hbase, hadded⟩ :=
      streamed_createMediaContentOffer hdata
    have hall : ∀ d : MediaContentDescription,
        d.protocol = (if secure then kMediaProtocolSctpDtls else kMediaProtocolSctp) →
          d.isSctp = decide (options.dataChannelType = .sctp) := by
      intro d hd
      rw [MediaContentDescription.isSctp, hd, hsctp]
      cases secure <;> decide
    exact ⟨rfl, hall _ hprotocol, rtx, base, m, l, next, hall _ hbase, hadded⟩
  · rw [if_neg hsctp] at h
    obtain ⟨data, _, hdata, h⟩ := Draw.bind_ok.mp h
    obtain ⟨rfl, -⟩ := Draw.pure_ok.mp h
    obtain ⟨-, rtx, base, m, l, next, hbase, hadded⟩ := streamed_createMediaContentOffer hdata
    rw [decide_eq_false hsctp]
    exact ⟨rfl, isSctp_mediaProtocol rfl, rtx, base, m, l, next,
      by rw [MediaContentDescription.isSctp, hbase]; decide, hadded⟩

theorem streamed_answerDescription {policy : SecurePolicy} {d : MediaDescription}
    (h : f.answerDescription rng rounds offer options current policy known d n = .ok (r, k)) :
    Streamed rng rounds options.streams f.addLegacy known d.type d.media.isSctp r.1 r.2 := by
  have hsctp : ∀ {a b : MediaContentDescription}, a.protocol = b.protocol → a.isSctp = b.isSctp :=
    fun h => by rw [MediaContentDescription.isSctp, h, MediaContentDescription.isSctp]
  cases d with
  | audio d =>
    obtain ⟨answer, _, hanswer, h⟩ := Draw.bind_ok.mp h
    obtain ⟨rfl, -⟩ := Draw.pure_ok.mp h
    obtain ⟨hprotocol, rtx, base, m, l, next, hbase, hadded⟩ :=
      streamed_createMediaContentAnswer hanswer
    exact ⟨rfl, hsctp hprotocol, rtx, base, m, l, next, hsctp hbase, hadded⟩
  | video d =>
    obtain ⟨answer, _, hanswer, h⟩ := Draw.bind_ok.mp h
    obtain ⟨rfl, -⟩ := Draw.pure_ok.mp h
    obtain ⟨hprotocol, rtx, base, m, l, next, hbase, hadded⟩ :=
      streamed_createMediaContentAnswer hanswer
    exact ⟨rfl, hsctp hprotocol, rtx, base, m, l, next, hsctp hbase, hadded⟩
  | data d =>
    obtain ⟨answer, _, hanswer, h⟩ := Draw.bind_ok.mp h
    obtain ⟨rfl, -⟩ := Draw.pure_ok.mp h
    obtain ⟨hprotocol, rtx, base, m, l, next, hbase, hadded⟩ :=
      streamed_createMediaContentAnswer hanswer
    exact ⟨rfl, hsctp hprotocol, rtx, base, m, l, next, hsctp hbase, hadded⟩

section Run

variable {types : List MediaType} {type : MediaType} {sctp : Bool}
  {s s' : MediaSessionDescription × List StreamParams} {currentParams : List StreamParams}

theorem rtpStreams_withCryptos (cryptos : List CryptoParams) (content : MediaContentInfo) :
    rtpStreamsOf (withCryptos cryptos content) = rtpStreamsOf content := by
  rw [rtpStreamsOf, rtpStreamsOf, mediaDescription_withCryptos]
  cases mediaDescription content with
  | none => rfl
  | some m => cases m <;> rfl

theorem rtpStreams_bundle {group : ContentGroup} {sdesc result : MediaSessionDescription}
    (h : bundle group sdesc = some result) : rtpStreams result = rtpStreams sdesc := by
  rw [rtpStreams, rtpStreams, List.flatMap_def, List.flatMap_def,
    map_contents_bundle rtpStreams_withCryptos h]

theorem rtpStreams_append {sdesc result : MediaSessionDescription} {content : MediaContentInfo}
    (h : result.contents = sdesc.contents ++ [content]) :
    rtpStreams result = rtpStreams sdesc ++ rtpStreamsOf content := by
  rw [rtpStreams, h, List.flatMap_append, List.flatMap_singleton]
  rfl

theorem filled_added
    (hf : Filled options.streams f.addLegacy currentParams types (rtpStreams s.1) s.2)
    {d : MediaDescription}
    (hd : Streamed rng rounds options.streams f.addLegacy s.2 type sctp d s'.2)
    {content : MediaContentInfo} (hcontent : mediaDescription content = some d)
    (hadded : s'.1.contents = s.1.contents ++ [content]) :
    if sctp then rtpStreams s'.1 = rtpStreams s.1
    else Filled options.streams f.addLegacy currentParams (types ++ [type]) (rtpStreams s'.1)
      s'.2 := by
  have hstep := hf.content hd hcontent
  rw [rtpStreams_append hadded]
  cases sctp with
  | true => exact (congrArg _ hstep).trans (List.append_nil _)
  | false => exact hstep

theorem filled_offerContent {wanted : Bool} {name contentType : String}
    {create : List StreamParams → Draw (MediaDescription × List StreamParams)}
    (hf : Filled options.streams f.addLegacy currentParams types (rtpStreams s.1) s.2)
    (htype : contentType = nsJingleRtp ∨ contentType = nsJingleDraftSctp)
    (hcreate : ∀ m d l, create s.2 m = .ok (d, l) →
      Streamed rng rounds options.streams f.addLegacy s.2 type sctp d.1 d.2)
    (h : f.offerContent rng options current wanted name contentType create s n = .ok (s', k)) :
    if sctp then rtpStreams s'.1 = rtpStreams s.1
    else Filled options.streams f.addLegacy currentParams (types ++ if wanted then [type] else [])
      (rtpStreams s'.1) s'.2 := by
  have hspec := offerContent_spec h
  cases wanted with
  | false =>
    obtain rfl := hspec
    rw [if_neg Bool.false_ne_true, List.append_nil]
    cases sctp with
    | true => rfl
    | false => exact hf
  | true =>
    obtain ⟨d, _, _, hd, hlast, hcontents⟩ := hspec
    have hstreamed := hcreate _ _ _ hd
    rw [← hlast] at hstreamed
    refine filled_added hf hstreamed ?_ hcontents
    have hmedia : isMediaContent ⟨name, contentType, false, some d.1⟩ = true := by
      rw [isMediaContent, Bool.or_eq_true, decide_eq_true_eq, decide_eq_true_eq]
      exact htype
    rw [mediaDescription, if_pos hmedia]

theorem filled_nil : Filled options.streams f.addLegacy currentParams []
    (rtpStreams {}) currentParams := by
  rw [Filled]
  split
  · exact ⟨rfl, .nil⟩
  · exact .nil _

theorem filled_createOffer {desc : MediaSessionDescription}
    (h : f.createOffer rng rounds options current n = .ok (desc, k)) :
    ∃ last, Filled options.streams f.addLegacy (getCurrentStreamParams current)
      (offeredTypes options) (rtpStreams desc) last := by
  obtain ⟨factory, _, -, h⟩ := Draw.bind_ok.mp h
  obtain ⟨⟨audioCodecs, videoCodecs, dataCodecs⟩, _, -, h⟩ := Draw.bind_ok.mp h
  obtain ⟨s₁, _, haudio, h⟩ := Draw.bind_ok.mp h
  obtain ⟨s₂, _, hvideo, h⟩ := Draw.bind_ok.mp h
  obtain ⟨s₃, _, hdata, h⟩ := Draw.bind_ok.mp h
  have hstart : Filled options.streams f.addLegacy (getCurrentStreamParams current) []
      (rtpStreams {}) (getCurrentStreamParams current) := filled_nil
  have h₁ := filled_offerContent (s := ({}, getCurrentStreamParams current)) hstart
    (.inl rfl) (fun _ _ _ => streamed_offerAudio) haudio
  have h₂ := filled_offerContent h₁ (.inl rfl) (fun _ _ _ => streamed_offerVideo) hvideo
  have htype : (if options.dataChannelType = .sctp then nsJingleDraftSctp else nsJingleRtp) =
      nsJingleRtp ∨ (if options.dataChannelType = .sctp then nsJingleDraftSctp else nsJingleRtp) =
        nsJingleDraftSctp := by
    by_cases hsctp : options.dataChannelType = .sctp
    · exact .inr (if_pos hsctp)
    · exact .inl (if_neg hsctp)
  have h₃ := filled_offerContent h₂ htype (fun _ _ _ => streamed_offerData) hdata
  have hend : rtpStreams desc = rtpStreams s₃.1 := by
    by_cases hbundle : options.bundleEnabled = true
    · rw [if_pos hbundle] at h
      exact rtpStreams_bundle (Draw.orElse_ok.mp h).1
    · rw [if_neg hbundle] at h
      rw [(Draw.pure_ok.mp h).1]
  rw [hend]
  by_cases hsctp : options.dataChannelType = .sctp
  · rw [if_pos (decide_eq_true hsctp)] at h₃
    rw [h₃]
    have htypes : offeredTypes options = ([] ++ if options.hasAudio then [MediaType.audio] else []) ++
        if options.hasVideo then [MediaType.video] else [] := by
      cases haudio : options.hasAudio <;> cases hvideo : options.hasVideo <;>
        simp [offeredTypes, wants, haudio, hvideo, hsctp]
    rw [htypes]
    exact ⟨_, h₂⟩
  · rw [if_neg (by simpa using hsctp)] at h₃
    have htypes : offeredTypes options = (([] ++ if options.hasAudio then [MediaType.audio] else []) ++
        if options.hasVideo then [MediaType.video] else []) ++
          if options.hasData then [MediaType.data] else [] := by
      cases haudio : options.hasAudio <;> cases hvideo : options.hasVideo <;>
        cases hdata : options.hasData <;>
          simp [offeredTypes, wants, haudio, hvideo, hdata, hsctp]
    rw [htypes]
    exact ⟨_, h₃⟩

theorem streamed_setBandwidth {m : MediaDescription} {last : List StreamParams}
    (h : Streamed rng rounds options.streams f.addLegacy known type sctp m last) :
    Streamed rng rounds options.streams f.addLegacy known type sctp (setBandwidth options m)
      last := by
  cases m <;> exact ⟨h.kind, h.isSctp, h.added⟩

def answeredType (offer : MediaSessionDescription) (type : MediaType) : List MediaType :=
  if (getFirstMediaContentDescription (some offer) type).any fun d => !d.media.isSctp then [type]
  else []

theorem filled_answerContent
    (hf : Filled options.streams f.addLegacy currentParams types (rtpStreams s.1) s.2)
    (h : f.answerContent rng rounds offer options current type s n = .ok (s', k)) :
    ∃ last, Filled options.streams f.addLegacy currentParams (types ++ answeredType offer type)
        (rtpStreams s'.1) last ∧
      ((∀ d, getFirstMediaContentDescription (some offer) type = some d →
        d.media.isSctp = false) → last = s'.2) := by
  rcases answerContent_adds h with ⟨hnone, rfl⟩ | ⟨content, offered, _, media, _, _, hfound,
    hoffered, hmedia, rejected, added, hadded, hcontents⟩
  · have hfirst : getFirstMediaContentDescription (some offer) type = none := by
      rw [getFirstMediaContentDescription, Option.bind_some, hnone]
      rfl
    rw [answeredType, hfirst, Option.any_none, if_neg Bool.false_ne_true, List.append_nil]
    exact ⟨_, hf, fun _ => rfl⟩
  · have hfirst : getFirstMediaContentDescription (some offer) type = some offered := by
      rw [getFirstMediaContentDescription, Option.bind_some, hfound, Option.bind_some, hoffered]
    have hkind : offered.type = type := by
      have hof := List.find?_some hfound
      rw [isMediaContentOfType, hoffered, Option.any_some] at hof
      exact of_decide_eq_true hof
    have hstreamed := streamed_answerDescription hmedia
    rw [hkind] at hstreamed
    have hstreamed' : Streamed rng rounds options.streams f.addLegacy s.2 type
        offered.media.isSctp added s'.2 := by
      rcases hadded with rfl | rfl
      · exact hstreamed
      · exact streamed_setBandwidth hstreamed
    have hsome : (mediaDescription content).isSome := by
      rw [hoffered]
      rfl
    have hnew : mediaDescription (⟨content.name, content.type, rejected, some added⟩ :
        MediaContentInfo) = some added := mediaDescription_of_type hsome rfl rfl
    have hstep := filled_added hf hstreamed' hnew hcontents
    rw [answeredType, hfirst, Option.any_some]
    cases hsctp : offered.media.isSctp with
    | true =>
      rw [hsctp, if_pos rfl] at hstep
      rw [hstep, Bool.not_true, if_neg Bool.false_ne_true, List.append_nil]
      refine ⟨s.2, hf, fun hrtp => ?_⟩
      rw [hrtp offered rfl] at hsctp
      cases hsctp
    | false =>
      rw [hsctp, if_neg Bool.false_ne_true] at hstep
      exact ⟨s'.2, hstep, fun _ => rfl⟩

theorem filled_createAnswer {answer : MediaSessionDescription} (hsctp : SctpIsData offer)
    (h : f.createAnswer rng rounds offer options current n = .ok (answer, k)) :
    ∃ last, Filled options.streams f.addLegacy (getCurrentStreamParams current)
      (answeredTypes offer) (rtpStreams answer) last := by
  obtain ⟨s₁, s₂, s₃, _, _, _, haudio, hvideo, hdata, hend⟩ := createAnswer_runs h
  have hstart : Filled options.streams f.addLegacy (getCurrentStreamParams current) []
      (rtpStreams {}) (getCurrentStreamParams current) := filled_nil
  obtain ⟨last₁, h₁, hlast₁⟩ :=
    filled_answerContent (s := ({}, getCurrentStreamParams current)) hstart haudio
  obtain rfl := hlast₁ (hsctp .audio (by decide))
  obtain ⟨last₂, h₂, hlast₂⟩ := filled_answerContent h₁ hvideo
  obtain rfl := hlast₂ (hsctp .video (by decide))
  obtain ⟨last₃, h₃, -⟩ := filled_answerContent h₂ hdata
  have htypes : answeredTypes offer = [] ++ answeredType offer .audio ++
      answeredType offer .video ++ answeredType offer .data := by
    simp only [answeredTypes, answeredType, List.filter_cons, List.filter_nil]
    split <;> split <;> split <;> rfl
  have hsame : rtpStreams answer = rtpStreams s₃.1 := by
    rcases hend with rfl | ⟨group, hbundle⟩
    · rfl
    · exact rtpStreams_bundle hbundle
  rw [htypes, hsame]
  exact ⟨last₃, h₃⟩

end Run

end MediaSessionDescriptionFactory

inductive Described (f : MediaSessionDescriptionFactory) (options : MediaSessionOptions)
    (current : Option MediaSessionDescription) : MediaSessionDescription → List MediaType → Prop
  | offer {rng : RandomGenerator} {rounds n k : Nat} {desc : MediaSessionDescription}
    (h : f.createOffer rng rounds options current n = .ok (desc, k)) :
    Described f options current desc (offeredTypes options)
  | answer {rng : RandomGenerator} {rounds n k : Nat} {offer desc : MediaSessionDescription}
    (hsctp : SctpIsData offer)
    (h : f.createAnswer rng rounds offer options current n = .ok (desc, k)) :
    Described f options current desc (answeredTypes offer)

/-- There is at most one stream that is added without an id, and none of its kind before. -/
def LegacyApart (current : Option MediaSessionDescription) (types : List MediaType) : Prop :=
  types.length ≤ 1 ∧ ∀ type ∈ types, ∀ p ∈ currentStreams current type, p.groupid = "" → p.id ≠ ""

/-- The streams that `AddStreamParams` adds to contents of some kinds, with streams for
retransmissions or without, whatever was drawn before each. -/
def LegacyRun (rng : RandomGenerator) (rounds : Nat) (known : List StreamParams) :
    List (MediaType × Bool) → List (MediaType × StreamParams) → Prop :=
  List.Forall₂ fun c a => a.1 = c.1 ∧ ∃ d n next k, MediaContentDescription.isSctp d = false ∧
    d.streams = [] ∧ addStreamParams rng rounds c.1 [] known true c.2 d n = .ok (next, k) ∧
      next.1.streams = [a.2]

def Drawable (known : List StreamParams) (rtx : Bool) : Prop :=
  ∃ ssrcs, DrawnSsrcs known ssrcs ∧ 0 ∉ ssrcs ∧ ssrcs.length = if rtx then 2 else 1

theorem uniqueStreams_of_legacyApart {current : Option MediaSessionDescription}
    {types : List MediaType} {streams : List (MediaType × StreamParams)}
    (hapart : LegacyApart current types)
    (h : List.Forall₂ (fun t a => a.1 = t ∧ IsLegacy (getCurrentStreamParams current) a.2) types
      streams) : UniqueStreams current streams := by
  have hlegacy : ∀ a ∈ streams, a.1 ∈ types ∧ IsLegacy (getCurrentStreamParams current) a.2 := by
    intro a ha
    obtain ⟨t, ht, rfl, hlegacy⟩ := exists_of_mem_right h ha
    exact ⟨ht, hlegacy⟩
  refine ⟨?_, fun a ha b hb _ => ?_, fun a ha p hp hgroup hid => ?_⟩
  · have hlength := h.length_eq
    have hone := hapart.1
    rw [hlength] at hone
    cases streams with
    | nil => exact List.nodup_nil
    | cons a rest =>
      obtain rfl : rest = [] := List.eq_nil_of_length_eq_zero (by
        rw [List.length_cons] at hone
        omega)
      simpa using (hlegacy a List.mem_cons_self).2.ssrcs.nodup
  · rw [(hlegacy a ha).2.cname, (hlegacy b hb).2.cname]
  · obtain ⟨htype, hnew⟩ := hlegacy a ha
    exact absurd (hid.trans hnew.id) (hapart.2 a.1 htype p hp (hgroup.trans hnew.groupid))

section Legacy

variable {current : Option MediaSessionDescription} {known : List StreamParams}

/-- A generator of some ids, and of strings that are all the same. -/
def repeating (first second : UInt32) : RandomGenerator where
  generate _ len := some (List.replicate len 0)
  length_generate := MediaSessionDescriptionFactory.length_zeros
  id n := if n = 0 then first else second

theorem freshSsrc_repeating {first second ssrc : UInt32} {ssrcs : List UInt32} {n : Nat}
    (hid : (repeating first second).id n = ssrc) (hne : ssrc ≠ 0) (hfree : IsFree known ssrc)
    (hnot : ssrc ∉ ssrcs) :
    freshSsrc (repeating first second) 1 known ssrcs 1 n = .ok (ssrc, n + 1) := by
  rw [freshSsrc]
  refine Draw.bind_ok.mpr ⟨ssrc, n + 1, ?_, ?_⟩
  · rw [RandomGenerator.createRandomNonZeroId]
    dsimp only
    rw [hid, if_neg hne]
  · have htest : ¬ ((getStreamBySsrc known ssrc).isSome || ssrcs.contains ssrc) = true := by
      rw [Bool.or_eq_true, not_or, Option.not_isSome_iff_eq_none, List.contains_iff_mem]
      exact ⟨(isFree_iff hne).mpr hfree, hnot⟩
    rw [if_neg htest]
    rfl

theorem isFree_of_drawn {ssrcs : List UInt32} (h : DrawnSsrcs known ssrcs) {ssrc : UInt32}
    (hmem : ssrc ∈ ssrcs) : IsFree known ssrc := by
  intro p hp
  rw [StreamParams.hasSsrc, List.contains_eq_mem, decide_eq_false_iff_not]
  exact fun hin => h.fresh p hp hin hmem

theorem addLegacyStream_repeating {type : MediaType} {rtx : Bool} {first second : UInt32}
    (hfirst : first ≠ 0) (hfree : IsFree known first)
    (hsecond : rtx = true → second ≠ 0 ∧ IsFree known second ∧ second ≠ first) :
    ∃ next k, addStreamParams (repeating first second) 1 type [] known true rtx {} 0 =
      .ok (next, k) ∧ ∃ param, next.1.streams = [param] ∧ first ∈ param.ssrcs := by
  have hlegacy : (([] : List MediaSessionOptions.Stream).isEmpty && true) = true := rfl
  rw [addStreamParams, if_pos hlegacy]
  have hdraw : freshSsrc (repeating first second) 1 known [] 1 0 = .ok (first, 1) :=
    freshSsrc_repeating rfl hfirst hfree List.not_mem_nil
  cases rtx with
  | false =>
    refine ⟨_, _, Draw.bind_ok.mpr ⟨[first], 1, Draw.bind_ok.mpr ⟨first, 1, hdraw, rfl⟩, rfl⟩, ?_⟩
    exact ⟨_, rfl, List.mem_singleton.mpr rfl⟩
  | true =>
    obtain ⟨hne, hfree', hnot⟩ := hsecond rfl
    have hdraw' : freshSsrc (repeating first second) 1 known [first] 1 1 = .ok (second, 2) :=
      freshSsrc_repeating rfl hne hfree' fun h => hnot (List.mem_singleton.mp h)
    refine ⟨_, _, Draw.bind_ok.mpr ⟨[first, second], 2, Draw.bind_ok.mpr ⟨first, 1, hdraw,
      Draw.bind_ok.mpr ⟨second, 2, hdraw', rfl⟩⟩, rfl⟩, ?_⟩
    refine ⟨_, rfl, ?_⟩
    simp [StreamParams.addFidSsrc, StreamParams.hasSsrc]

theorem drawable_of_run {rng : RandomGenerator} {rounds : Nat} {contents : List (MediaType × Bool)}
    {streams : List (MediaType × StreamParams)} (h : LegacyRun rng rounds known contents streams)
    {c : MediaType × Bool} (hc : c ∈ contents) : Drawable known c.2 := by
  obtain ⟨a, -, -, d, n, next, k, hd, hstreams, hadd, hone⟩ := exists_of_mem_left h hc
  obtain ⟨-, param, hparam, hlegacy, hzero, hlength⟩ := addLegacyStream_spec hd hadd
  exact ⟨param.ssrcs, hlegacy.ssrcs, hzero, hlength⟩

theorem legacy_of_run {rng : RandomGenerator} {rounds : Nat} {contents : List (MediaType × Bool)}
    {streams : List (MediaType × StreamParams)} (h : LegacyRun rng rounds known contents streams) :
    List.Forall₂ (fun t a => a.1 = t ∧ IsLegacy known a.2) (contents.map (·.1)) streams := by
  rw [List.forall₂_map_left_iff]
  refine h.imp fun c a => ?_
  rintro ⟨htype, d, n, next, k, hd, hstreams, hadd, hone⟩
  obtain ⟨-, param, hparam, hlegacy, -⟩ := addLegacyStream_spec hd hadd
  rw [hstreams, hone] at hparam
  obtain rfl := List.head_eq_of_cons_eq hparam
  exact ⟨htype, hlegacy⟩

theorem drawn_for_all {contents : List (MediaType × Bool)}
    (h : ∀ c ∈ contents, Drawable known c.2) (hne : contents ≠ []) :
    ∃ first second, first ≠ 0 ∧ IsFree known first ∧
      ∀ c ∈ contents, c.2 = true → second ≠ 0 ∧ IsFree known second ∧ second ≠ first := by
  by_cases hrtx : ∃ c ∈ contents, c.2 = true
  · obtain ⟨c, hc, hrtx⟩ := hrtx
    obtain ⟨ssrcs, hdrawn, hzero, hlength⟩ := h c hc
    rw [hrtx, if_pos rfl] at hlength
    obtain ⟨first, second, rfl⟩ := List.length_eq_two.mp hlength
    have hnodup := hdrawn.nodup
    simp only [List.mem_cons, List.not_mem_nil, or_false, not_or] at hzero
    simp only [List.nodup_cons, List.mem_singleton] at hnodup
    refine ⟨first, second, fun h => hzero.1 h.symm, isFree_of_drawn hdrawn (by simp), ?_⟩
    exact fun _ _ _ => ⟨fun h => hzero.2 h.symm, isFree_of_drawn hdrawn (by simp),
      fun h => hnodup.1 h.symm⟩
  · obtain ⟨c, hc⟩ := List.exists_mem_of_ne_nil _ hne
    have hsingle : c.2 = false := by
      by_contra hno
      exact hrtx ⟨c, hc, by simpa using hno⟩
    obtain ⟨ssrcs, hdrawn, hzero, hlength⟩ := h c hc
    rw [hsingle, if_neg Bool.false_ne_true] at hlength
    obtain ⟨first, rfl⟩ := List.length_eq_one_iff.mp hlength
    refine ⟨first, first, fun h => hzero (List.mem_singleton.mpr h.symm),
      isFree_of_drawn hdrawn (by simp), fun c' hc' htrue => ?_⟩
    exact absurd ⟨c', hc', htrue⟩ hrtx

theorem run_repeating {first second : UInt32} {contents : List (MediaType × Bool)}
    (hfirst : first ≠ 0) (hfree : IsFree known first)
    (hsecond : ∀ c ∈ contents, c.2 = true → second ≠ 0 ∧ IsFree known second ∧ second ≠ first) :
    ∃ streams, LegacyRun (repeating first second) 1 known contents streams ∧
      ∀ a ∈ streams, first ∈ a.2.ssrcs := by
  induction contents with
  | nil => exact ⟨[], .nil, fun _ ha => absurd ha List.not_mem_nil⟩
  | cons c contents ih =>
    obtain ⟨streams, hrun, hmem⟩ := ih fun c' hc' => hsecond c' (List.mem_cons_of_mem _ hc')
    obtain ⟨next, k, hadd, param, hparam, hin⟩ := addLegacyStream_repeating hfirst
      hfree (hsecond c List.mem_cons_self)
    refine ⟨(c.1, param) :: streams,
      .cons ⟨rfl, {}, 0, next, k, rfl, rfl, hadd, hparam⟩ hrun, fun a ha => ?_⟩
    rcases List.mem_cons.mp ha with rfl | ha
    · exact hin
    · exact hmem a ha

/-- Streams without ids are unique whatever is drawn exactly if there is at most one, and none
before it, or no ssrcs are left to draw. -/
theorem legacy_unique_iff (current : Option MediaSessionDescription)
    (contents : List (MediaType × Bool)) :
    (∀ rng rounds streams, LegacyRun rng rounds (getCurrentStreamParams current) contents streams →
        UniqueStreams current streams) ↔
      (LegacyApart current (contents.map (·.1)) ∨
        ∃ c ∈ contents, ¬ Drawable (getCurrentStreamParams current) c.2) := by
  constructor
  · intro hunique
    by_contra hno
    rw [not_or] at hno
    obtain ⟨hapart, hdrawable⟩ := hno
    have hall : ∀ c ∈ contents, Drawable (getCurrentStreamParams current) c.2 := by
      intro c hc
      by_contra hnot
      exact hdrawable ⟨c, hc, hnot⟩
    have hne : contents ≠ [] := by
      rintro rfl
      exact hapart ⟨Nat.zero_le _, fun _ h => absurd h List.not_mem_nil⟩
    obtain ⟨first, second, hfirst, hfree, hsecond⟩ := drawn_for_all hall hne
    obtain ⟨streams, hrun, hmem⟩ := run_repeating hfirst hfree hsecond
    have hstreams := hunique _ _ _ hrun
    refine hapart ⟨?_, fun type htype p hp hgroup hid => ?_⟩
    · rw [List.length_map, List.Forall₂.length_eq hrun]
      cases streams with
      | nil => exact Nat.zero_le _
      | cons a streams =>
        cases streams with
        | nil => exact Nat.le_refl _
        | cons b streams =>
          have hnodup := hstreams.unique
          rw [List.flatMap_cons, List.nodup_append] at hnodup
          refine absurd rfl (hnodup.2.2 first (hmem a List.mem_cons_self) first ?_)
          exact List.mem_flatMap.mpr ⟨b, List.mem_cons_self,
            hmem b (List.mem_cons_of_mem _ List.mem_cons_self)⟩
    · obtain ⟨a, ha, rfl, hlegacy⟩ := exists_of_mem_left (legacy_of_run hrun) htype
      have hkept := hstreams.kept a ha p hp (hgroup.trans hlegacy.groupid.symm)
        (hid.trans hlegacy.id.symm)
      have hin := hmem a ha
      exact hlegacy.ssrcs.fresh p (mem_getCurrentStreamParams hp) (hkept ▸ hin) hin
  · rintro (hapart | ⟨c, hc, hnot⟩) rng rounds streams hrun
    · exact uniqueStreams_of_legacyApart hapart (legacy_of_run hrun)
    · exact absurd (drawable_of_run hrun hc) hnot

/-- The streams of a description that is created are unique exactly if those that the options ask
for can be told apart. Streams without ids are unique where there is one of them, and else for some
draws they are not. -/
theorem uniqueStreams_iff (f : MediaSessionDescriptionFactory) (options : MediaSessionOptions)
    (current : Option MediaSessionDescription)
    (hcurrent : ((getCurrentStreamParams current).flatMap (·.ssrcs)).Nodup) :
    (∀ desc types, Described f options current desc types →
      if options.streams.isEmpty && f.addLegacy then
        LegacyApart current types → UniqueStreams current (rtpStreams desc)
      else UniqueStreams current (rtpStreams desc) ↔ StreamsApart options.streams current
        (types.flatMap fun type => options.streams.filter (·.type = type))) ∧
    ∀ contents : List (MediaType × Bool), (∀ rng rounds streams,
        LegacyRun rng rounds (getCurrentStreamParams current) contents streams →
          UniqueStreams current streams) ↔
      (LegacyApart current (contents.map (·.1)) ∨
        ∃ c ∈ contents, ¬ Drawable (getCurrentStreamParams current) c.2) := by
  refine ⟨fun desc types h => ?_, legacy_unique_iff current⟩
  obtain ⟨last, hfilled⟩ : ∃ last, Filled options.streams f.addLegacy
      (getCurrentStreamParams current) types (rtpStreams desc) last := by
    cases h with
    | offer h => exact MediaSessionDescriptionFactory.filled_createOffer h
    | answer hsctp h => exact MediaSessionDescriptionFactory.filled_createAnswer hsctp h
  rw [Filled] at hfilled
  by_cases hlegacy : (options.streams.isEmpty && f.addLegacy) = true
  · rw [if_pos hlegacy] at hfilled ⊢
    exact fun hapart => uniqueStreams_of_legacyApart hapart hfilled.2
  · rw [if_neg hlegacy] at hfilled ⊢
    exact uniqueStreams_iff_apart hcurrent hfilled

def plainFactory : MediaSessionDescriptionFactory where
  transportDescFactory := some {}

def pairedOptions (audio video : String) : MediaSessionOptions where
  hasVideo := true
  streams := [⟨.audio, audio, "label"⟩, ⟨.video, video, "label"⟩]

theorem uniqueStreams_paired : ∃ desc k,
    plainFactory.createOffer cyclingGenerator 2 (pairedOptions "a" "v") none 0 = .ok (desc, k) ∧
      UniqueStreams none (rtpStreams desc) := by
  have hsome : (plainFactory.createOffer cyclingGenerator 2 (pairedOptions "a" "v") none
      0).toOption.isSome := by decide +kernel
  cases hdesc : plainFactory.createOffer cyclingGenerator 2 (pairedOptions "a" "v") none 0 with
  | error stop =>
    rw [hdesc] at hsome
    cases hsome
  | ok result =>
    refine ⟨result.1, result.2, rfl, ?_⟩
    have hiff := (uniqueStreams_iff plainFactory (pairedOptions "a" "v") none List.nodup_nil).1
      result.1 _ (.offer hdesc)
    refine hiff.mpr ⟨?_, fun _ _ _ hp => absurd hp List.not_mem_nil, ?_⟩
    · exact List.pairwise_pair.mpr fun h => absurd h (by decide)
    · have hlabels : labelStreams (pairedOptions "a" "v").streams (labelled [])
          ((offeredTypes (pairedOptions "a" "v")).flatMap fun type =>
            (pairedOptions "a" "v").streams.filter (·.type = type)) =
          [⟨"a", "label", .drawn "a"⟩, ⟨"v", "label", .drawn "a"⟩] := by decide +kernel
      have horigin : ∀ e ∈ [LabelledStream.mk "a" "label" (.drawn "a"), ⟨"v", "label", .drawn "a"⟩],
          e.origin = .drawn "a" := by simp
      intro a ha b hb _
      rw [show getCurrentStreamParams none = [] from rfl, hlabels] at ha hb
      rw [horigin a ha, horigin b hb]

/-- Streams of two kinds with one id are one stream, and two streams without ids can be given the
same ssrc. -/
theorem streams_not_unique :
    (∃ desc k, plainFactory.createOffer cyclingGenerator 2 (pairedOptions "s" "s") none 0 =
        .ok (desc, k) ∧ ¬ UniqueStreams none (rtpStreams desc)) ∧
    ∃ desc k, plainFactory.createOffer (repeating 1 1) 2 { hasVideo := true } none 0 =
        .ok (desc, k) ∧ ¬ UniqueStreams none (rtpStreams desc) := by
  have hfails : ∀ (rng : RandomGenerator) (options : MediaSessionOptions) (ssrc : UInt32),
      ((plainFactory.createOffer rng 2 options none 0).toOption.map fun result =>
        (rtpStreams result.1).flatMap (·.2.ssrcs)) = some [ssrc, ssrc] →
      ∃ desc k, plainFactory.createOffer rng 2 options none 0 = .ok (desc, k) ∧
        ¬ UniqueStreams none (rtpStreams desc) := by
    intro rng options ssrc hssrcs
    cases hdesc : plainFactory.createOffer rng 2 options none 0 with
    | error stop =>
      rw [hdesc] at hssrcs
      cases hssrcs
    | ok result =>
      rw [hdesc] at hssrcs
      refine ⟨result.1, result.2, rfl, fun h => ?_⟩
      have hnodup := h.unique
      rw [show (rtpStreams result.1).flatMap (·.2.ssrcs) = [ssrc, ssrc] from
        Option.some.inj hssrcs] at hnodup
      simp at hnodup
  refine ⟨hfails _ _ 10 ?_, hfails _ _ 1 ?_⟩
  · decide +kernel
  · decide +kernel

end Legacy

end Libjingle
