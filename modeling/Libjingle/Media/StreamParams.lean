import Libjingle.Base.Random

/-! The streams of a content and the extensions of its RTP headers. -/

namespace Libjingle

def kFidSsrcGroupSemantics : String := "FID"

structure SsrcGroup where
  semantics : String
  ssrcs : List UInt32
  deriving DecidableEq, Repr

structure StreamParams where
  groupid : String := ""
  id : String := ""
  ssrcs : List UInt32 := []
  ssrcGroups : List SsrcGroup := []
  type : String := ""
  display : String := ""
  cname : String := ""
  syncLabel : String := ""
  deriving DecidableEq, Repr

namespace StreamParams

def createLegacy (ssrc : UInt32) : StreamParams := { ssrcs := [ssrc] }

variable (s : StreamParams)

def hasSsrc (ssrc : UInt32) : Bool := s.ssrcs.contains ssrc

/-- `AddFidSsrc`, of an ssrc that has been added. -/
def addFidSsrc (primary fid : UInt32) : StreamParams :=
  if s.hasSsrc primary then
    { s with
      ssrcs := s.ssrcs ++ [fid]
      ssrcGroups := s.ssrcGroups ++ [⟨kFidSsrcGroupSemantics, [primary, fid]⟩] }
  else s

end StreamParams

structure StreamSelector where
  ssrc : UInt32 := 0
  groupid : String := ""
  streamid : String := ""
  deriving DecidableEq, Repr

/-- An ssrc of zero stands for none. -/
def StreamSelector.isMatch (selector : StreamSelector) (stream : StreamParams) : Bool :=
  if selector.ssrc = 0 then
    stream.groupid = selector.groupid && stream.id = selector.streamid
  else stream.hasSsrc selector.ssrc

def getStream (streams : List StreamParams) (selector : StreamSelector) : Option StreamParams :=
  streams.find? selector.isMatch

def getStreamBySsrc (streams : List StreamParams) (ssrc : UInt32) : Option StreamParams :=
  getStream streams { ssrc }

def getStreamByIds (streams : List StreamParams) (groupid streamid : String) :
    Option StreamParams := getStream streams { groupid, streamid }

structure RtpHeaderExtension where
  uri : String
  id : Int
  deriving DecidableEq, Repr

end Libjingle
