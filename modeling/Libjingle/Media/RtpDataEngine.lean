import Libjingle.Base.FifoBuffer
import Libjingle.Lib.Runs
import Libjingle.Media.Codec
import Libjingle.Media.RtpUtils
import Libjingle.Media.StreamParams
import Mathlib.Data.Rat.Floor

/-! The data channel over RTP. Time is a rational number of seconds. -/

namespace Libjingle

structure RateLimiter where
  maxPerPeriod : Nat
  periodLength : ℚ
  usedInPeriod : Nat
  periodStart : ℚ
  periodEnd : ℚ

namespace RateLimiter

def new (max : Nat) (period : ℚ) : RateLimiter := ⟨max, period, 0, 0, period⟩

variable (l : RateLimiter)

def canUse (desired : Nat) (time : ℚ) : Bool :=
  (time > l.periodEnd && desired ≤ l.maxPerPeriod) || l.usedInPeriod + desired ≤ l.maxPerPeriod

def use (used : Nat) (time : ℚ) : RateLimiter :=
  let l := if time > l.periodEnd then
      { l with periodStart := time, periodEnd := time + l.periodLength, usedInPeriod := 0 }
    else l
  { l with usedInPeriod := l.usedInPeriod + used }

end RateLimiter

def kGoogleRtpDataCodecId : Int := 101
def kGoogleRtpDataCodecName : String := "google-data"
def kDataMaxRtpPacketLen : Nat := 1200
def kReservedSpace : List UInt8 := [0, 0, 0, 0]
def kMaxSrtpHmacOverhead : Nat := 16

structure RtpClock where
  clockrate : Int
  lastSeqNum : UInt16
  timestampOffset : UInt32

/-- `Tick`: the sequence number, the timestamp and the clock afterwards. -/
def RtpClock.tick (c : RtpClock) (now : ℚ) : UInt16 × UInt32 × RtpClock :=
  let seqNum := c.lastSeqNum + 1
  (seqNum, c.timestampOffset + UInt32.ofNat ⌊now * c.clockrate⌋.toNat, { c with lastSeqNum := seqNum })

def findCodecById (codecs : List DataCodec) (id : Int) : Option DataCodec :=
  codecs.find? (·.id = id)

def findCodecByName (codecs : List DataCodec) (name : String) : Option DataCodec :=
  codecs.find? (·.name = name)

/-- The codec that `FindUnknownCodec` and `FindKnownCodec` compare with. -/
def googleDataCodec : DataCodec where
  id := kGoogleRtpDataCodecId
  name := kGoogleRtpDataCodecName

def findUnknownCodec (codecs : List DataCodec) : Option DataCodec :=
  codecs.find? fun c => !c.toCodec.isMatch googleDataCodec.toCodec

def findKnownCodec (codecs : List DataCodec) : Option DataCodec :=
  codecs.find? fun c => c.toCodec.isMatch googleDataCodec.toCodec

/-- `rtp_clock_by_send_ssrc_` has no clock for an ssrc also where it holds a null pointer. -/
structure RtpDataMediaChannel where
  sending : Bool
  receiving : Bool
  sendCodecs : List DataCodec
  recvCodecs : List DataCodec
  sendStreams : List StreamParams
  recvStreams : List StreamParams
  rtpClockBySendSsrc : UInt32 → Option RtpClock
  sendLimiter : RateLimiter

/-- What `SignalDataReceived` passes on; the data is a part of the packet. -/
structure DataReceived where
  ssrc : UInt32
  seqNum : Int
  timestamp : UInt32
  start : Nat
  len : Nat
  deriving DecidableEq, Repr

/-- A call of `SendData`: `stack` is what the header of the packet contains at first. -/
structure Sending where
  ssrc : UInt32
  payload : List UInt8
  now : ℚ
  stack : Nat → UInt8

/-- `nullClock`: `Tick` is called on a null pointer. -/
inductive SendDataOutcome
  | failed
  | nullClock
  | sent (packet : List UInt8)
  deriving DecidableEq, Repr

namespace RtpDataMediaChannel

def new : RtpDataMediaChannel where
  sending := false
  receiving := false
  sendCodecs := []
  recvCodecs := []
  sendStreams := []
  recvStreams := []
  rtpClockBySendSsrc := fun _ => none
  sendLimiter := .new (kDataMaxBandwidth / 8).toNat 1

variable (ch : RtpDataMediaChannel)

def setRecvCodecs (codecs : List DataCodec) : Bool × RtpDataMediaChannel :=
  if (findUnknownCodec codecs).isSome then (false, ch) else (true, { ch with recvCodecs := codecs })

def setSendCodecs (codecs : List DataCodec) : Bool × RtpDataMediaChannel :=
  if (findKnownCodec codecs).isNone then (false, ch) else (true, { ch with sendCodecs := codecs })

/-- `AddSendStream`; `seqNum` and `offset` are the random numbers of the new clock. -/
def addSendStream (stream : StreamParams) (seqNum : UInt16) (offset : UInt32) :
    Bool × RtpDataMediaChannel :=
  match stream.ssrcs with
  | [] => (false, ch)
  | first :: _ =>
    if (getStreamBySsrc ch.sendStreams first).isSome then (false, ch)
    else
      (true, { ch with
        sendStreams := ch.sendStreams ++ [stream]
        rtpClockBySendSsrc :=
          Function.update ch.rtpClockBySendSsrc first (some ⟨kDataCodecClockrate, seqNum, offset⟩) })

def removeSendStream (ssrc : UInt32) : Bool × RtpDataMediaChannel :=
  if (getStreamBySsrc ch.sendStreams ssrc).isNone then (false, ch)
  else
    (true, { ch with
      sendStreams := ch.sendStreams.filter fun s => !(StreamSelector.isMatch { ssrc } s)
      rtpClockBySendSsrc := Function.update ch.rtpClockBySendSsrc ssrc none })

def addRecvStream (stream : StreamParams) : Bool × RtpDataMediaChannel :=
  match stream.ssrcs with
  | [] => (false, ch)
  | first :: _ =>
    if (getStreamBySsrc ch.recvStreams first).isSome then (false, ch)
    else (true, { ch with recvStreams := ch.recvStreams ++ [stream] })

def removeRecvStream (ssrc : UInt32) : RtpDataMediaChannel :=
  { ch with recvStreams := ch.recvStreams.filter fun s => !(StreamSelector.isMatch { ssrc } s) }

def setSendBandwidth (autobw : Bool) (bps : Int) : RtpDataMediaChannel :=
  let bps := if autobw || bps ≤ 0 then kDataMaxBandwidth else bps
  { ch with sendLimiter := .new (bps / 8).toNat 1 }

/-- `OnPacketReceived`: what is signalled, if anything is. -/
def onPacketReceived (packet : List UInt8) : Option DataReceived := do
  let header ← getRtpHeader packet
  let headerLength ← getRtpHeaderLen packet
  let start := headerLength + kReservedSpace.length
  let len := sizeSub (sizeSub packet.length headerLength) kReservedSpace.length
  if !ch.receiving then none
  else
    let _ ← findCodecById ch.recvCodecs header.payloadType
    let _ ← getStreamBySsrc ch.recvStreams header.ssrc
    return { ssrc := header.ssrc, seqNum := header.seqNum, timestamp := header.timestamp, start, len }

/-- The length that `SendData` compares with the limits. -/
def packetLen (payload : List UInt8) : Nat :=
  kMinRtpPacketLen + kReservedSpace.length + payload.length + kMaxSrtpHmacOverhead

def sendData (x : Sending) : SendDataOutcome × RtpDataMediaChannel :=
  if !ch.sending then (.failed, ch)
  else if (getStreamBySsrc ch.sendStreams x.ssrc).isNone then (.failed, ch)
  else
    match findCodecByName ch.sendCodecs kGoogleRtpDataCodecName with
    | none => (.failed, ch)
    | some codec =>
      if packetLen x.payload > kDataMaxRtpPacketLen then (.failed, ch)
      else if !ch.sendLimiter.canUse (packetLen x.payload) x.now then (.failed, ch)
      else
        match ch.rtpClockBySendSsrc x.ssrc with
        | none => (.nullClock, ch)
        | some clock =>
          let (seqNum, timestamp, clock) := clock.tick x.now
          let ch := { ch with
            rtpClockBySendSsrc := Function.update ch.rtpClockBySendSsrc x.ssrc (some clock) }
          let header : RtpHeader := ⟨codec.id, seqNum.toNat, timestamp, x.ssrc⟩
          match setRtpHeader ((List.range kMinRtpPacketLen).map x.stack) header with
          | none => (.failed, ch)
          | some packet =>
            (.sent (packet ++ kReservedSpace ++ x.payload),
              { ch with sendLimiter := ch.sendLimiter.use (packetLen x.payload) x.now })

end RtpDataMediaChannel

end Libjingle
