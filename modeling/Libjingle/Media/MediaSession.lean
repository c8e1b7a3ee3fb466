import Libjingle.Base.StringEncode
import Libjingle.Media.MediaContentDescription
import Libjingle.P2p.TransportDescriptionFactory

/-! `MediaSessionDescriptionFactory`, which creates the offers and answers of media sessions.
The random generator is a parameter, and so is for how many rounds a loop over it goes on. -/

namespace Libjingle

def srtpMasterKeyBase64Len : Nat := 40

inductive DataChannelType
  | none
  | rtp
  | sctp
  deriving DecidableEq, Repr

structure MediaSessionOptions.Stream where
  type : MediaType
  id : String
  syncLabel : String
  deriving DecidableEq, Repr

structure MediaSessionOptions where
  hasAudio : Bool := true
  hasVideo : Bool := false
  dataChannelType : DataChannelType := .none
  isMuc : Bool := false
  vadEnabled : Bool := true
  rtcpMuxEnabled : Bool := true
  bundleEnabled : Bool := false
  videoBandwidth : Int := kAutoBandwidth
  dataBandwidth : Int := kDataMaxBandwidth
  transportOptions : TransportOptions := {}
  streams : List MediaSessionOptions.Stream := []
  deriving DecidableEq, Repr

def MediaSessionOptions.hasData (options : MediaSessionOptions) : Bool :=
  options.dataChannelType ≠ .none

structure UsedIds where
  minAllowedId : Int
  maxAllowedId : Int
  nextId : Int := maxAllowedId
  idSet : List Int := []
  deriving DecidableEq, Repr

namespace UsedIds

variable (u : UsedIds)

def isIdUsed (id : Int) : Bool := u.idSet.contains id

def unusedFrom : Nat → Int → Int
  | 0, id => id
  | n + 1, id => if u.isIdUsed id ∧ u.minAllowedId ≤ id then unusedFrom n (id - 1) else id

/-- The first unused id in reverse order. -/
def findUnusedId : Int := u.unusedFrom (u.nextId - u.minAllowedId + 1).toNat u.nextId

/-- An id out of the range stays, and one that is used already is changed. -/
def findAndSetIdUsed (id : Int) : Int × UsedIds :=
  if u.maxAllowedId < id ∨ id < u.minAllowedId then (id, u)
  else if u.isIdUsed id then
    (u.findUnusedId, { u with nextId := u.findUnusedId, idSet := u.findUnusedId :: u.idSet })
  else (id, { u with idSet := id :: u.idSet })

variable {α : Type} (getId : α → Int) (setId : α → Int → α)

def findAndSetIdsUsed : UsedIds → List α → List α × UsedIds
  | u, [] => ([], u)
  | u, a :: rest =>
    let (id, u) := u.findAndSetIdUsed (getId a)
    let (rest, u) := findAndSetIdsUsed u rest
    (setId a id :: rest, u)

end UsedIds

def usedPayloadTypes : UsedIds := { minAllowedId := 96, maxAllowedId := 127 }

def usedRtpHeaderExtensionIds : UsedIds := { minAllowedId := 1, maxAllowedId := 255 }

def getCurrentStreamParams (current : Option MediaSessionDescription) : List StreamParams :=
  match current with
  | none => []
  | some sdesc => sdesc.contents.flatMap fun content =>
    (mediaDescription content).elim [] (·.media.streams)

section Streams

variable (rng : RandomGenerator) (rounds : Nat)

def freshCname (params : List StreamParams) : Nat → Draw String
  | 0 => throw .endless
  | n + 1 => do
    let cname ← rng.createRandomString 16
    match cname with
    | none => throw .null
    | some cname => if params.any (·.cname = cname) then freshCname params n else pure cname

def generateCname (params : List StreamParams) (streams : List MediaSessionOptions.Stream)
    (synchLabel : String) : Draw String :=
  match (streams.filter (·.syncLabel = synchLabel)).findSome? fun s =>
      getStreamByIds params "" s.id with
  | some param => pure param.cname
  | none => freshCname rng params rounds

def freshSsrc (params : List StreamParams) (ssrcs : List UInt32) : Nat → Draw UInt32
  | 0 => throw .endless
  | n + 1 => do
    let candidate ← rng.createRandomNonZeroId rounds
    if (getStreamBySsrc params candidate).isSome || ssrcs.contains candidate then
      freshSsrc params ssrcs n
    else pure candidate

def generateSsrcs (params : List StreamParams) (includeRtxStream : Bool) : Draw (List UInt32) := do
  let first ← freshSsrc rng rounds params [] rounds
  if includeRtxStream then do
    let second ← freshSsrc rng rounds params [first] rounds
    pure [first, second]
  else pure [first]

def freshSctpSid (params : List StreamParams) : Nat → Draw UInt32
  | 0 => throw .endless
  | n + 1 => do
    let id ← rng.createRandomNonZeroId rounds
    let candidate := id % kMaxSctpSid
    if (getStreamBySsrc params candidate).isNone then pure candidate
    else freshSctpSid params n

/-- `GenerateSctpSid`, which fails if there are too many streams. -/
def generateSctpSid (params : List StreamParams) : Draw (Option UInt32) :=
  if kMaxSctpSid.toNat < params.length then pure none
  else do
    let sid ← freshSctpSid rng rounds params rounds
    pure (some sid)

/-- What `GenerateSctpSids` adds. -/
def generateSctpSids (params : List StreamParams) : Draw (List UInt32) := do
  let sid ← generateSctpSid rng rounds params
  pure sid.toList

def generateIds (params : List StreamParams) (isSctp includeRtxStream : Bool) :
    Draw (List UInt32) :=
  if isSctp then generateSctpSids rng rounds params
  else generateSsrcs rng rounds params includeRtxStream

/-- The ids of a stream, one of them for retransmissions. The ids are not checked to be
there. -/
def addSsrcs (stream : StreamParams) (ssrcs : List UInt32) (includeRtxStream : Bool) :
    Draw StreamParams := do
  let ssrc ← Draw.orElse ssrcs[0]? .missing
  let stream := { stream with ssrcs := stream.ssrcs ++ [ssrc] }
  if includeRtxStream then do
    let fid ← Draw.orElse ssrcs[1]? .missing
    pure (stream.addFidSsrc ssrc fid)
  else pure stream

def addStream (stream : StreamParams) (includeRtxStream : Bool) (d : MediaContentDescription) :
    MediaContentDescription :=
  { d with
    streams := d.streams ++ [stream]
    multistream := d.multistream || includeRtxStream }

def addOptionStream (streams : List MediaSessionOptions.Stream) (includeRtxStream : Bool)
    (d : MediaContentDescription) (current : List StreamParams)
    (stream : MediaSessionOptions.Stream) : Draw (MediaContentDescription × List StreamParams) :=
  match getStreamByIds current "" stream.id with
  | some param => pure ({ d with streams := d.streams ++ [param] }, current)
  | none => do
    let cname ← generateCname rng rounds current streams stream.syncLabel
    let ssrcs ← generateIds rng rounds current d.isSctp includeRtxStream
    let param ← addSsrcs { id := stream.id } ssrcs includeRtxStream
    let param := { param with cname, syncLabel := stream.syncLabel }
    pure (addStream param includeRtxStream d, current ++ [param])

def addOptionStreams (streams : List MediaSessionOptions.Stream) (includeRtxStream : Bool) :
    List MediaSessionOptions.Stream → MediaContentDescription → List StreamParams →
      Draw (MediaContentDescription × List StreamParams)
  | [], d, current => pure (d, current)
  | stream :: rest, d, current => do
    let (d, current) ← addOptionStream rng rounds streams includeRtxStream d current stream
    addOptionStreams streams includeRtxStream rest d current

/-- `AddStreamParams`, of the streams of a kind or a single one without an id. -/
def addStreamParams (type : MediaType) (streams : List MediaSessionOptions.Stream)
    (current : List StreamParams) (addLegacyStream includeRtxStream : Bool)
    (d : MediaContentDescription) : Draw (MediaContentDescription × List StreamParams) :=
  if streams.isEmpty && addLegacyStream then do
    let ssrcs ← generateIds rng rounds current d.isSctp includeRtxStream
    let param ← addSsrcs {} ssrcs includeRtxStream
    pure (addStream param includeRtxStream d, current)
  else addOptionStreams rng rounds streams includeRtxStream (streams.filter (·.type = type)) d
    current

end Streams

section Codecs

open IsCodec

variable {C : Type} [IsCodec C]

def negotiateCodec (ours theirs : C) : Option C :=
  let negotiated := intersectFeedbackParams ours theirs
  if isRtxCodec negotiated then
    (getParam theirs kCodecParamAssociatedPayloadType).map fun apt =>
      setId (setParam negotiated kCodecParamAssociatedPayloadType apt) (IsCodec.id theirs)
  else some (setId negotiated (IsCodec.id theirs))

def negotiateCodecs (localCodecs offeredCodecs : List C) : List C :=
  localCodecs.flatMap fun ours => (offeredCodecs.filter (isMatch ours)).filterMap (negotiateCodec ours)

def findMatchingCodec (codecs : List C) (codecToMatch : C) : Bool :=
  codecs.any (isMatch · codecToMatch)

/-- `std::map::insert`, which keeps what is there. -/
def insertNew (key : Int) (c : C) : List (Int × C) → List (Int × C)
  | [] => [(key, c)]
  | e :: rest =>
    if key < e.1 then (key, c) :: e :: rest
    else if key = e.1 then e :: rest
    else e :: insertNew key c rest

/-- The new codecs for retransmissions, by the codec that each is for. There are none if the
number of a codec is read from nothing, so that it is not set. -/
def newRtxCodecs (reference offered : List C) : Option (List (Int × C)) :=
  (reference.filter fun c => !findMatchingCodec offered c && isRtxCodec c).foldlM
    (fun rtx c =>
      let apt := (getParam c kCodecParamAssociatedPayloadType).getD ""
      (extractInt apt).1.map fun referenced =>
        insertNew referenced (setParam c kCodecParamAssociatedPayloadType apt) rtx) []

/-- A new codec gets an id, and the codec for its retransmissions follows. -/
def offerCodec (offered : List C) (used : UsedIds) (rtx : List (Int × C)) (c : C) :
    List C × UsedIds × List (Int × C) :=
  if !findMatchingCodec offered c && !isRtxCodec c then
    let (newId, used) := used.findAndSetIdUsed (IsCodec.id c)
    (offered ++ [setId c newId], used, rtx.map fun e =>
      if e.1 = IsCodec.id c then
        (e.1, setParam e.2 kCodecParamAssociatedPayloadType (toStringInt newId)) else e)
  else (offered, used, rtx)

/-- `FindCodecsToOffer` -/
def findCodecsToOffer (reference offered : List C) (used : UsedIds) : Option (List C × UsedIds) :=
  (newRtxCodecs reference offered).map fun rtx =>
    let (offered, used, rtx) := reference.foldl
      (fun s c => offerCodec s.1 s.2.1 s.2.2 c) (offered, used, rtx)
    let (rtxCodecs, used) := UsedIds.findAndSetIdsUsed IsCodec.id setId used (rtx.map (·.2))
    (offered ++ rtxCodecs, used)

def stripCNCodecs (codecs : List AudioCodec) : List AudioCodec :=
  codecs.filter fun c => !stricmpEq c.name kComfortNoiseCodecName

end Codecs

def findByUri (extensions : List RtpHeaderExtension) (uri : String) : Option RtpHeaderExtension :=
  extensions.find? (·.uri = uri)

/-- `FindAndSetRtpHdrExtUsed` -/
def findRtpHdrExtsToOffer (reference offered : List RtpHeaderExtension) (used : UsedIds) :
    List RtpHeaderExtension × UsedIds :=
  reference.foldl (fun s ext =>
    if (findByUri s.1 ext.uri).isSome then s
    else
      let (id, used) := s.2.findAndSetIdUsed ext.id
      (s.1 ++ [{ ext with id }], used)) (offered, used)

def negotiateRtpHeaderExtensions (localExtensions offered : List RtpHeaderExtension) :
    List RtpHeaderExtension := localExtensions.filterMap fun ours => findByUri offered ours.uri

section Cryptos

variable (rng : RandomGenerator)

/-- `CreateCryptoParams`, with a new key if there is one. -/
def createCryptoParams (tag : Int) (cipherSuite : String) : Draw (Option CryptoParams) := do
  let key ← rng.createRandomString srtpMasterKeyBase64Len
  pure (key.map fun key => { tag, cipherSuite, keyParams := "inline:" ++ key })

/-- `CreateMediaCryptos`, which counts the tags. -/
def createMediaCryptos : List String → Int → Draw (List CryptoParams)
  | [], _ => pure []
  | suite :: suites, tag => do
    let crypto ← createCryptoParams rng tag suite
    let crypto ← Draw.orElse crypto .null
    let rest ← createMediaCryptos suites (tag + 1)
    pure (crypto :: rest)

def getSupportedAudioCryptoSuites : List String := [csAesCm128HmacSha1_32, csAesCm128HmacSha1_80]

def getSupportedDefaultCryptoSuites : List String := [csAesCm128HmacSha1_80]

/-- The suite is one that `SelectCrypto` takes. -/
def isSelectable (type : MediaType) (bundle : Bool) (crypto : CryptoParams) : Bool :=
  crypto.cipherSuite = csAesCm128HmacSha1_80 ||
    (crypto.cipherSuite = csAesCm128HmacSha1_32 && type = .audio && !bundle)

def selectCrypto (type : MediaType) (cryptos : List CryptoParams) (bundle : Bool) :
    Draw (Option CryptoParams) :=
  match cryptos.find? (isSelectable type bundle) with
  | some crypto => createCryptoParams rng crypto.tag crypto.cipherSuite
  | none => pure none

def findMatchingCrypto (cryptos : List CryptoParams) (crypto : CryptoParams) :
    Option CryptoParams := cryptos.find? (crypto.isMatch ·)

def offerCryptos (policy : SecurePolicy) (current : Option (List CryptoParams))
    (cryptoSuites : List String) : Draw (List CryptoParams) :=
  if policy = .disabled then pure []
  else if current.getD [] = [] then createMediaCryptos rng cryptoSuites 0
  else pure (current.getD [])

def answerCryptos (type : MediaType) (offered : List CryptoParams) (policy : SecurePolicy)
    (current : Option (List CryptoParams)) (bundle : Bool) : Draw (List CryptoParams) :=
  if policy = .disabled then pure []
  else do
    let crypto ← selectCrypto rng type offered bundle
    pure (crypto.map fun crypto =>
      (findMatchingCrypto (current.getD []) crypto).getD crypto).toList

end Cryptos

section Contents

variable (rng : RandomGenerator) (rounds : Nat) {C : Type} [IsCodec C]

/-- `CreateMediaContentOffer`, with the streams that are known by then. -/
def createMediaContentOffer (type : MediaType) (options : MediaSessionOptions) (codecs : List C)
    (policy : SecurePolicy) (currentCryptos : Option (List CryptoParams))
    (cryptoSuites : List String) (extensions : List RtpHeaderExtension) (addLegacy : Bool)
    (currentStreams : List StreamParams) (protocol : String) :
    Draw (MediaContentDescriptionImpl C × List StreamParams) := do
  let codecs := IsCodec.sortCodecs codecs
  let d : MediaContentDescription := {
    protocol
    cryptoRequired := policy = .required
    rtcpMux := options.rtcpMuxEnabled
    multistream := options.isMuc }
  let (d, currentStreams) ← addStreamParams rng rounds type options.streams currentStreams addLegacy
    (IsCodec.containsRtxCodec codecs) (d.setRtpHeaderExtensions extensions)
  let cryptos ← offerCryptos rng policy currentCryptos cryptoSuites
  Draw.require (!(d.cryptoRequired && cryptos.isEmpty))
  pure ({ d with cryptos, codecs }, currentStreams)

def answerDirection : MediaContentDirection → MediaContentDirection
  | .inactive => .inactive
  | .sendOnly => .recvOnly
  | .recvOnly => .sendOnly
  | .sendRecv => .sendRecv

/-- `CreateMediaContentAnswer` -/
def createMediaContentAnswer (type : MediaType) (offer : MediaContentDescriptionImpl C)
    (options : MediaSessionOptions) (localCodecs : List C) (policy : SecurePolicy)
    (currentCryptos : Option (List CryptoParams)) (localExtensions : List RtpHeaderExtension)
    (currentStreams : List StreamParams) (addLegacy bundleEnabled : Bool) :
    Draw (MediaContentDescriptionImpl C × List StreamParams) := do
  let codecs := IsCodec.sortCodecs (negotiateCodecs localCodecs offer.codecs)
  let cryptos ← answerCryptos rng type offer.cryptos policy currentCryptos bundleEnabled
  Draw.require (!(cryptos.isEmpty && (offer.cryptoRequired || policy = .required)))
  let d : MediaContentDescription := {
    protocol := offer.protocol
    rtcpMux := options.rtcpMuxEnabled && offer.rtcpMux
    cryptos
    direction := answerDirection offer.direction }
  let (d, currentStreams) ← addStreamParams rng rounds type options.streams currentStreams addLegacy
    (IsCodec.containsRtxCodec codecs) (d.setRtpHeaderExtensions
      (negotiateRtpHeaderExtensions localExtensions offer.rtpHeaderExtensions))
  pure ({ d with codecs }, currentStreams)

end Contents

def isMediaProtocolSupported (type : MediaType) (protocol : String) : Bool :=
  (type = .data && (protocol = kMediaProtocolSctp || protocol = kMediaProtocolSctpDtls)) ||
    protocol = kMediaProtocolAvpf || protocol = kMediaProtocolSavpf || protocol = ""

def mediaProtocol (secureTransport : Bool) (cryptos : List CryptoParams) : String :=
  if !cryptos.isEmpty || secureTransport then kMediaProtocolSavpf else kMediaProtocolAvpf

end Libjingle
