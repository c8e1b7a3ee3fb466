import Libjingle.Media.Codec
import Libjingle.Media.SrtpFilter
import Libjingle.Media.StreamParams
import Libjingle.P2p.ContentMessages

/-! The descriptions of audio, video and data contents. -/

namespace Libjingle

def nsJingleDraftSctp : String := "google:jingle:sctp"
def kMediaProtocolAvpf : String := "RTP/AVPF"
def kMediaProtocolSavpf : String := "RTP/SAVPF"
def kMediaProtocolSctp : String := "SCTP"
def kMediaProtocolSctpDtls : String := "SCTP/DTLS"
def kAutoBandwidth : Int := -1
def kBufferedModeDisabled : Int := 0
def kMaxSctpSid : UInt32 := 9

inductive MediaType
  | audio
  | video
  | data
  deriving DecidableEq, Repr

inductive MediaContentDirection
  | inactive
  | sendOnly
  | recvOnly
  | sendRecv
  deriving DecidableEq, Repr

structure MediaContentDescription where
  rtcpMux : Bool := false
  bandwidth : Int := kAutoBandwidth
  protocol : String := ""
  cryptos : List CryptoParams := []
  cryptoRequired : Bool := false
  rtpHeaderExtensions : List RtpHeaderExtension := []
  rtpHeaderExtensionsSet : Bool := false
  multistream : Bool := false
  streams : List StreamParams := []
  conferenceMode : Bool := false
  isPartial : Bool := false
  bufferedModeLatency : Int := kBufferedModeDisabled
  direction : MediaContentDirection := .sendRecv
  deriving DecidableEq, Repr

namespace MediaContentDescription

variable (m : MediaContentDescription)

def setRtpHeaderExtensions (extensions : List RtpHeaderExtension) : MediaContentDescription :=
  { m with rtpHeaderExtensions := extensions, rtpHeaderExtensionsSet := true }

def hasSsrcs : Bool := m.streams.head?.any fun s => s.ssrcs ≠ []

def firstSsrc : UInt32 := (m.streams.head?.bind (·.ssrcs.head?)).getD 0

def isSctp : Bool := m.protocol = kMediaProtocolSctp || m.protocol = kMediaProtocolSctpDtls

end MediaContentDescription

structure MediaContentDescriptionImpl (C : Type) extends MediaContentDescription where
  codecs : List C := []
  deriving DecidableEq, Repr

structure AudioContentDescription extends MediaContentDescriptionImpl AudioCodec where
  agcMinus10db : Bool := false
  lang : String := ""
  deriving DecidableEq, Repr

abbrev VideoContentDescription := MediaContentDescriptionImpl VideoCodec

abbrev DataContentDescription := MediaContentDescriptionImpl DataCodec

inductive MediaDescription
  | audio (description : AudioContentDescription)
  | video (description : VideoContentDescription)
  | data (description : DataContentDescription)
  deriving DecidableEq, Repr

namespace MediaDescription

def type : MediaDescription → MediaType
  | audio _ => .audio
  | video _ => .video
  | data _ => .data

def media : MediaDescription → MediaContentDescription
  | audio d => d.toMediaContentDescription
  | video d => d.toMediaContentDescription
  | data d => d.toMediaContentDescription

def setCryptos (cryptos : List CryptoParams) : MediaDescription → MediaDescription
  | audio d => audio { d with cryptos }
  | video d => video { d with cryptos }
  | data d => data { d with cryptos }

variable {d : MediaDescription} {cryptos : List CryptoParams}

@[simp] theorem type_setCryptos : (d.setCryptos cryptos).type = d.type := by
  cases d <;> rfl

@[simp] theorem cryptos_setCryptos : (d.setCryptos cryptos).media.cryptos = cryptos := by
  cases d <;> rfl

end MediaDescription

abbrev MediaContentInfo := ContentInfo (Option MediaDescription)

abbrev MediaSessionDescription := SessionDescription (Option MediaDescription)

def isMediaContent (content : MediaContentInfo) : Bool :=
  content.type = nsJingleRtp || content.type = nsJingleDraftSctp

def mediaDescription (content : MediaContentInfo) : Option MediaDescription :=
  if isMediaContent content then content.description else none

def isMediaContentOfType (content : MediaContentInfo) (type : MediaType) : Bool :=
  (mediaDescription content).any (·.type = type)

def getFirstMediaContent (contents : List MediaContentInfo) (type : MediaType) :
    Option MediaContentInfo := contents.find? (isMediaContentOfType · type)

def getFirstMediaContentDescription (current : Option MediaSessionDescription)
    (type : MediaType) : Option MediaDescription :=
  current.bind fun sdesc => (getFirstMediaContent sdesc.contents type).bind mediaDescription

end Libjingle
