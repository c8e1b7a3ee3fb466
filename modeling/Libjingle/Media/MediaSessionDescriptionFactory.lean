import Libjingle.Media.MediaSession

/-! `MediaSessionDescriptionFactory`, with the contents of a group that are bundled. -/

namespace Libjingle

open SessionDescription (TransportInfo)

def cnData : String := "data"

def addContent (content : MediaContentInfo) (sdesc : MediaSessionDescription) :
    MediaSessionDescription := { sdesc with contents := sdesc.contents ++ [content] }

/-- No content gets a second transport. -/
def addTransportInfo (info : TransportInfo) (sdesc : MediaSessionDescription) :
    Option MediaSessionDescription :=
  if (getTransportInfoByContentName sdesc.transportInfos info.contentName).isSome then none
  else some { sdesc with transportInfos := sdesc.transportInfos ++ [info] }

section Bundle

def shareCredentials (bundleGroup : ContentGroup) (selected info : TransportInfo) : TransportInfo :=
  if bundleGroup.hasContentName info.contentName ∧ info.contentName ≠ selected.contentName then
    { info with
      description := { info.description with
        iceUfrag := selected.description.iceUfrag
        icePwd := selected.description.icePwd } }
  else info

def updateTransportInfoForBundle (bundleGroup : ContentGroup) (sdesc : MediaSessionDescription) :
    Option MediaSessionDescription := do
  let name ← bundleGroup.firstContentName
  let selected ← getTransportInfoByContentName sdesc.transportInfos name
  return { sdesc with
    transportInfos := sdesc.transportInfos.map (shareCredentials bundleGroup selected) }

def getCryptosByName (contents : List MediaContentInfo) (name : String) :
    Option (List CryptoParams) :=
  (findContentInfoByName contents name).bind fun content =>
    (mediaDescription content).map (·.media.cryptos)

/-- Only the suites are compared. -/
def pruneCryptos (filter target : List CryptoParams) : List CryptoParams :=
  target.filter fun crypto => filter.any (·.cipherSuite = crypto.cipherSuite)

/-- The cryptos of a content, without those that some other content has no suite for. -/
def commonCryptos (contents : List MediaContentInfo) :
    List String → List CryptoParams → Option (List CryptoParams)
  | [], common => some common
  | name :: names, common => do
    let cryptos ← getCryptosByName contents name
    commonCryptos contents names (pruneCryptos cryptos common)

/-- A content that is not of media is left alone. -/
def setCryptosByName (name : String) (cryptos : List CryptoParams) :
    List MediaContentInfo → Option (List MediaContentInfo)
  | [] => some []
  | content :: contents =>
    if content.name = name then
      if isMediaContent content then
        content.description.map fun description =>
          { content with description := some (description.setCryptos cryptos) } :: contents
      else some (content :: contents)
    else (setCryptosByName name cryptos contents).map (content :: ·)

def setCryptosByNames (cryptos : List CryptoParams) :
    List String → List MediaContentInfo → Option (List MediaContentInfo)
  | [], contents => some contents
  | name :: names, contents => do
    let contents ← setCryptosByName name cryptos contents
    setCryptosByNames cryptos names contents

/-- Where the first content has no cryptos the others keep theirs. -/
def updateCryptoParamsForBundle (bundleGroup : ContentGroup) (sdesc : MediaSessionDescription) :
    Option MediaSessionDescription :=
  match bundleGroup.contentNames with
  | [] => none
  | first :: names => do
    let cryptos ← getCryptosByName sdesc.contents first
    if cryptos = [] then return sdesc
    let common ← commonCryptos sdesc.contents names cryptos
    if common = [] then none
    else
      let contents ← setCryptosByNames common (first :: names) sdesc.contents
      return { sdesc with contents }

def bundle (bundleGroup : ContentGroup) (sdesc : MediaSessionDescription) :
    Option MediaSessionDescription := do
  let sdesc ← updateTransportInfoForBundle bundleGroup
    { sdesc with groups := sdesc.groups ++ [bundleGroup] }
  updateCryptoParamsForBundle bundleGroup sdesc

def bundleGroupOf (contents : List MediaContentInfo) : ContentGroup :=
  (contents.map (·.name)).foldl ContentGroup.addContentName { semantics := groupTypeBundle }

end Bundle

structure MediaSessionDescriptionFactory where
  audioCodecs : List AudioCodec := []
  audioRtpExtensions : List RtpHeaderExtension := []
  videoCodecs : List VideoCodec := []
  videoRtpExtensions : List RtpHeaderExtension := []
  dataCodecs : List DataCodec := []
  secure : SecurePolicy := .disabled
  addLegacy : Bool := true
  lang : String := ""
  transportDescFactory : Option TransportDescriptionFactory

def getTransportDescription (contentName : String) (current : Option MediaSessionDescription) :
    Option SessionDescription.TransportDescription :=
  (current.bind fun sdesc => getTransportInfoByContentName sdesc.transportInfos contentName).map
    (·.description)

def currentCryptos (current : Option MediaSessionDescription) (type : MediaType) :
    Option (List CryptoParams) :=
  (getFirstMediaContentDescription current type).map (·.media.cryptos)

def MediaDescription.audioCodecs : MediaDescription → List AudioCodec
  | .audio d => d.codecs
  | _ => []

def MediaDescription.videoCodecs : MediaDescription → List VideoCodec
  | .video d => d.codecs
  | _ => []

def MediaDescription.dataCodecs : MediaDescription → List DataCodec
  | .data d => d.codecs
  | _ => []

namespace MediaSessionDescriptionFactory

variable (f : MediaSessionDescriptionFactory) (rng : RandomGenerator) (rounds : Nat)

/-- The ids of the current codecs are used, those of audio first. -/
def getCodecsToOffer (current : Option MediaSessionDescription) :
    Option (List AudioCodec × List VideoCodec × List DataCodec) := do
  let codecsOf {C : Type} (type : MediaType) (codecs : MediaDescription → List C) :=
    (getFirstMediaContentDescription current type).elim [] codecs
  let (audio, used) := UsedIds.findAndSetIdsUsed IsCodec.id IsCodec.setId usedPayloadTypes
    (codecsOf .audio (·.audioCodecs))
  let (video, used) := UsedIds.findAndSetIdsUsed IsCodec.id IsCodec.setId used
    (codecsOf .video (·.videoCodecs))
  let (data, used) := UsedIds.findAndSetIdsUsed IsCodec.id IsCodec.setId used
    (codecsOf .data (·.dataCodecs))
  let (audio, used) ← findCodecsToOffer f.audioCodecs audio used
  let (video, used) ← findCodecsToOffer f.videoCodecs video used
  let (data, _) ← findCodecsToOffer f.dataCodecs data used
  return (audio, video, data)

def getRtpHdrExtsToOffer (current : Option MediaSessionDescription) :
    List RtpHeaderExtension × List RtpHeaderExtension :=
  let extensionsOf (type : MediaType) :=
    (getFirstMediaContentDescription current type).elim [] (·.media.rtpHeaderExtensions)
  let setId (ext : RtpHeaderExtension) (id : Int) := { ext with id }
  let (audio, used) := UsedIds.findAndSetIdsUsed (·.id) setId usedRtpHeaderExtensionIds
    (extensionsOf .audio)
  let (video, used) := UsedIds.findAndSetIdsUsed (·.id) setId used (extensionsOf .video)
  let (audio, used) := findRtpHdrExtsToOffer f.audioRtpExtensions audio used
  let (video, _) := findRtpHdrExtsToOffer f.videoRtpExtensions video used
  (audio, video)

section Offer

variable (options : MediaSessionOptions) (current : Option MediaSessionDescription)
  (secureTransport : Bool)

def offerAudio (codecs : List AudioCodec) (extensions : List RtpHeaderExtension)
    (streams : List StreamParams) : Draw (MediaDescription × List StreamParams) := do
  let (audio, streams) ← createMediaContentOffer rng rounds .audio options codecs f.secure
    (currentCryptos current .audio) getSupportedAudioCryptoSuites extensions f.addLegacy streams ""
  pure (.audio
    { audio with
      protocol := mediaProtocol secureTransport audio.cryptos
      lang := f.lang }, streams)

def offerVideo (codecs : List VideoCodec) (extensions : List RtpHeaderExtension)
    (streams : List StreamParams) : Draw (MediaDescription × List StreamParams) := do
  let (video, streams) ← createMediaContentOffer rng rounds .video options codecs f.secure
    (currentCryptos current .video) getSupportedDefaultCryptoSuites extensions f.addLegacy streams ""
  pure (.video
    { video with
      protocol := mediaProtocol secureTransport video.cryptos
      bandwidth := options.videoBandwidth }, streams)

/-- The protocol of SCTP is set beforehand, and there are no cryptos for it. -/
def offerData (codecs : List DataCodec) (streams : List StreamParams) :
    Draw (MediaDescription × List StreamParams) :=
  if options.dataChannelType = .sctp then do
    let (data, streams) ← createMediaContentOffer rng rounds .data options codecs .disabled
      (currentCryptos current .data) [] [] f.addLegacy streams
      (if secureTransport then kMediaProtocolSctpDtls else kMediaProtocolSctp)
    pure (.data data, streams)
  else do
    let (data, streams) ← createMediaContentOffer rng rounds .data options codecs f.secure
      (currentCryptos current .data) getSupportedDefaultCryptoSuites [] f.addLegacy streams ""
    pure (.data
      { data with
        protocol := mediaProtocol secureTransport data.cryptos
        bandwidth := options.dataBandwidth }, streams)

/-- `AddTransportOffer` -/
def addTransportOffer (contentName : String) (offer : MediaSessionDescription) :
    Draw MediaSessionDescription := do
  let factory ← Draw.orElse f.transportDescFactory .null
  let description ← factory.createOffer rng options.transportOptions
    (getTransportDescription contentName current)
  Draw.orElse (addTransportInfo ⟨contentName, description⟩ offer) .null

def offerContent (wanted : Bool) (name type : String)
    (create : List StreamParams → Draw (MediaDescription × List StreamParams))
    (s : MediaSessionDescription × List StreamParams) :
    Draw (MediaSessionDescription × List StreamParams) :=
  if wanted then do
    let (media, streams) ← create s.2
    let offer ← f.addTransportOffer rng options current name
      (addContent ⟨name, type, false, some media⟩ s.1)
    pure (offer, streams)
  else pure s

def createOffer : Draw MediaSessionDescription := do
  let factory ← Draw.orElse f.transportDescFactory .missing
  let (audioCodecs, videoCodecs, dataCodecs) ← Draw.orElse (f.getCodecsToOffer current) .missing
  let audioCodecs := if options.vadEnabled then audioCodecs else stripCNCodecs audioCodecs
  let extensions := f.getRtpHdrExtsToOffer current
  let s ← f.offerContent rng options current options.hasAudio cnAudio nsJingleRtp
    (f.offerAudio rng rounds options current factory.isSecure audioCodecs extensions.1)
    ({}, getCurrentStreamParams current)
  let s ← f.offerContent rng options current options.hasVideo cnVideo nsJingleRtp
    (f.offerVideo rng rounds options current factory.isSecure videoCodecs extensions.2) s
  let s ← f.offerContent rng options current options.hasData cnData
    (if options.dataChannelType = .sctp then nsJingleDraftSctp else nsJingleRtp)
    (f.offerData rng rounds options current factory.isSecure dataCodecs) s
  if options.bundleEnabled then Draw.orElse (bundle (bundleGroupOf s.1.contents) s.1) .null
  else pure s.1

end Offer

section Answer

variable (offer : MediaSessionDescription) (options : MediaSessionOptions)
  (current : Option MediaSessionDescription)

/-- `CreateTransportAnswer` -/
def createTransportAnswer (contentName : String) :
    Draw SessionDescription.TransportDescription := do
  let factory ← Draw.orElse f.transportDescFactory .null
  factory.createAnswer rng (getTransportDescription contentName (some offer))
    options.transportOptions (getTransportDescription contentName current)

def offersBundle : Bool :=
  (getGroupByName offer.groups groupTypeBundle).isSome && options.bundleEnabled

def wants : MediaType → Bool
  | .audio => options.hasAudio
  | .video => options.hasVideo
  | .data => options.hasData

def answerDescription (policy : SecurePolicy) (streams : List StreamParams) :
    MediaDescription → Draw (MediaDescription × List StreamParams)
  | .audio d => do
    let (audio, streams) ← createMediaContentAnswer rng rounds .audio
      d.toMediaContentDescriptionImpl options
      (if options.vadEnabled then f.audioCodecs else stripCNCodecs f.audioCodecs) policy
      (currentCryptos current .audio) f.audioRtpExtensions streams f.addLegacy
      (offersBundle offer options)
    pure (.audio { toMediaContentDescriptionImpl := audio }, streams)
  | .video d => do
    let (video, streams) ← createMediaContentAnswer rng rounds .video d options f.videoCodecs policy
      (currentCryptos current .video) f.videoRtpExtensions streams f.addLegacy
      (offersBundle offer options)
    pure (.video video, streams)
  | .data d => do
    let (data, streams) ← createMediaContentAnswer rng rounds .data d options f.dataCodecs policy
      (currentCryptos current .data) [] streams f.addLegacy (offersBundle offer options)
    pure (.data data, streams)

/-- The bandwidth of an answer that is not rejected, which audio has none of. -/
def setBandwidth : MediaDescription → MediaDescription
  | .audio d => .audio d
  | .video d => .video { d with bandwidth := options.videoBandwidth }
  | .data d => .data { d with bandwidth := options.dataBandwidth }

/-- `AddTransportAnswer`. That it fails is ignored for audio. -/
def addTransportAnswer (type : MediaType) (info : TransportInfo)
    (answer : MediaSessionDescription) : Option MediaSessionDescription :=
  if type = .audio then some ((addTransportInfo info answer).getD answer)
  else addTransportInfo info answer

/-- What is answered to the first content of a kind. -/
def answerContent (type : MediaType) (s : MediaSessionDescription × List StreamParams) :
    Draw (MediaSessionDescription × List StreamParams) :=
  match getFirstMediaContent offer.contents type with
  | none => pure s
  | some content => do
    let transport ← f.createTransportAnswer rng offer options current content.name
    let policy := if transport.identityFingerprint.isSome then .disabled else f.secure
    let offered ← Draw.orElse (mediaDescription content) .missing
    let (media, streams) ← f.answerDescription rng rounds offer options current policy s.2 offered
    if !wants options type || content.rejected ||
        !isMediaProtocolSupported type media.media.protocol then
      pure (addContent ⟨content.name, content.type, true, some media⟩ s.1, streams)
    else do
      let answer ← Draw.orElse (addTransportAnswer type ⟨content.name, transport⟩ s.1) .null
      pure (addContent ⟨content.name, content.type, false, some (setBandwidth options media)⟩ answer,
        streams)

def answerBundle (offerBundle : ContentGroup) (contents : List MediaContentInfo) : ContentGroup :=
  bundleGroupOf (contents.filter fun content =>
    !content.rejected && offerBundle.hasContentName content.name)

def createAnswer : Draw MediaSessionDescription := do
  let s ← f.answerContent rng rounds offer options current .audio
    ({}, getCurrentStreamParams current)
  let s ← f.answerContent rng rounds offer options current .video s
  let (answer, _) ← f.answerContent rng rounds offer options current .data s
  match getGroupByName offer.groups groupTypeBundle, options.bundleEnabled with
  | some offerBundle, true =>
    let group := answerBundle offerBundle answer.contents
    if group.firstContentName.isSome then Draw.orElse (bundle group answer) .null else pure answer
  | _, _ => pure answer

end Answer

end MediaSessionDescriptionFactory

end Libjingle
