import Libjingle.Base.ByteOrder
import Libjingle.Base.FifoBuffer

/-! State of a `PseudoTcp` endpoint. What the endpoint asks of its surroundings
(the clock, the network, the application's reactions, fresh memory) is an `Env`
of answers, numbered in the order in which they are asked for. -/

namespace Libjingle

inductive TcpState
  | listen
  | synSent
  | synReceived
  | established
  | closed
  deriving DecidableEq, Repr

inductive WriteResult
  | success
  | tooLarge
  | fail
  deriving DecidableEq, Repr

inductive SendFlags
  | none
  | delayedAck
  | immediateAck
  deriving DecidableEq, Repr

inductive Shutdown
  | none
  | graceful
  | forceful
  deriving DecidableEq, Repr

inductive Errno
  | zero
  | einval
  | enotconn
  | ewouldblock
  | econnaborted
  | econnreset
  deriving DecidableEq, Repr

inductive TcpOption
  | noDelay
  | ackDelay
  | rcvBuf
  | sndBuf
  deriving DecidableEq, Repr

/-- Calls of the application that run no notification of their own. An option's
value is given by the bits of the `int`. -/
inductive AppCall
  | connect
  | send (data : List UInt8)
  | recv (len : Nat)
  | close (force : Bool)
  | notifyMTU (mtu : UInt16)
  | setOption (opt : TcpOption) (value : UInt32)
  deriving DecidableEq, Repr

inductive Notification
  | opened
  | readable
  | writeable
  | closed (err : Errno)
  deriving DecidableEq, Repr

structure SSegment where
  seq : UInt32
  len : UInt32
  xmit : UInt8
  bCtrl : Bool
  deriving DecidableEq, Repr

structure RSegment where
  seq : UInt32
  len : UInt32
  deriving DecidableEq, Repr

/-- A parsed packet; `data` is the memory from the payload on. -/
structure Segment where
  conv : UInt32
  seq : UInt32
  ack : UInt32
  flags : UInt8
  wnd : UInt16
  data : Nat → UInt8
  len : UInt32
  tsval : UInt32
  tsecr : UInt32

/-- The answers an endpoint gets: `now n` from the `n`-th call of `Now`, `result n`
from the `n`-th `TcpWritePacket`, the calls made inside the `n`-th notification,
the contents of the `n`-th allocation and of the `n`-th packet buffer. -/
structure Env where
  now : Nat → UInt32
  result : Nat → WriteResult
  react : Nat → List AppCall
  heap : Nat → Nat → UInt8
  stack : Nat → Nat → UInt8

/-- One call of `packet`, with the state of the two buffers when it was made. -/
structure PacketCall where
  seq : UInt32
  flags : UInt8
  offset : UInt32
  len : UInt32
  wnd : UInt16
  buffered : Nat
  space : Nat
  scale : UInt8
  bytes : List UInt8

/-- Situations noted for the record; nothing depends on them.
`cutAck`: an ack ends inside a listed segment. `endDeref`: `m_slist` is read at
its end. `overrun`: data is stored beyond the advertised window. `shrunk`: the
receive buffer is resized below what it holds or lists. `lapHeld`: `m_rcv_nxt`
passes `2 ^ 32` while ranges are listed. `skippedHeld`: bytes are skipped and
`resizedHeld`: the receive buffer is resized while ranges are listed. -/
inductive Incident
  | cutAck
  | endDeref
  | overrun
  | shrunk
  | lapHeld
  | skippedHeld
  | resizedHeld
  deriving DecidableEq, Repr

structure Sender where
  slist : List SSegment
  sbufLen : UInt32
  sbuf : FifoBuffer
  sndUna : UInt32
  sndNxt : UInt32
  recover : UInt32

/-- `rcvTotal` counts every byte `m_rcv_nxt` has moved over. -/
structure Receiver where
  rlist : List RSegment
  rbufLen : UInt32
  rbuf : FifoBuffer
  rcvNxt : UInt32
  rcvWnd : UInt32
  rwndScale : UInt8
  rcvTotal : Nat

/-- What has happened so far: packets written, notifications made, bytes of the
connect message and of `Send` that were queued, bytes that `Recv` returned. -/
structure History where
  written : List PacketCall
  notified : List Notification
  connectMessage : List UInt8
  accepted : List UInt8
  returned : List UInt8
  incidents : List Incident

structure PseudoTcp extends Sender, Receiver, History where
  env : Env
  ticks : Nat
  allocs : Nat
  conv : UInt32
  state : TcpState
  shutdown : Shutdown
  error : Errno
  bReadEnable : Bool
  bWriteEnable : Bool
  bOutgoing : Bool
  lasttraffic : UInt32
  lastrecv : UInt32
  lastsend : UInt32
  sndWnd : UInt32
  swndScale : UInt8
  mss : UInt32
  msslevel : Nat
  largest : UInt32
  mtuAdvise : UInt32
  rtoBase : UInt32
  tsRecent : UInt32
  tsLastack : UInt32
  rxRttvar : UInt32
  rxSrtt : UInt32
  rxRto : UInt32
  ssthresh : UInt32
  cwnd : UInt32
  dupAcks : UInt8
  tAck : UInt32
  useNagling : Bool
  ackDelay : UInt32
  supportWndScale : Bool

namespace PseudoTcp

def packetMaximums : List UInt32 :=
  [65535, 32000, 17914, 8166, 4352, 2002, 1492, 1006, 508, 296, 0]

def maxPacket : UInt32 := 65535
def minPacket : UInt32 := 296
def headerSize : UInt32 := 24
def packetOverhead : UInt32 := 24 + 8 + 20 + 64
def defaultRcvBufSize : UInt32 := 60 * 1024
def defaultSndBufSize : UInt32 := 90 * 1024

def minRto : UInt32 := 250
def defRto : UInt32 := 3000
def maxRto : UInt32 := 60000
def defAckDelay : UInt32 := 100

def flagCtl : UInt8 := 2
def flagRst : UInt8 := 4
def ctlConnect : UInt8 := 0
def tcpOptEol : UInt8 := 0
def tcpOptNoop : UInt8 := 1
def tcpOptMss : UInt8 := 2
def tcpOptWndScale : UInt8 := 3

/-- `TimeDiff`: the difference of two clock readings as a signed 32-bit number. -/
def timeDiff (later earlier : UInt32) : Int := (later - earlier).toBitVec.toInt

def bound (lower middle upper : UInt32) : UInt32 := min (max lower middle) upper

/-- The constructor; it reads the clock once and allocates both buffers. -/
def new (env : Env) (conv : UInt32) : PseudoTcp where
  slist := []
  sbufLen := defaultSndBufSize
  sbuf := .new (env.heap 1) defaultSndBufSize.toNat
  sndUna := 0
  sndNxt := 0
  recover := 0
  rlist := []
  rbufLen := defaultRcvBufSize
  rbuf := .new (env.heap 0) defaultRcvBufSize.toNat
  rcvNxt := 0
  rcvWnd := defaultRcvBufSize
  rwndScale := 0
  rcvTotal := 0
  written := []
  notified := []
  connectMessage := []
  accepted := []
  returned := []
  incidents := []
  env := env
  ticks := 1
  allocs := 2
  conv := conv
  state := .listen
  shutdown := .none
  error := .zero
  bReadEnable := true
  bWriteEnable := false
  bOutgoing := false
  lasttraffic := env.now 0
  lastrecv := env.now 0
  lastsend := env.now 0
  sndWnd := 1
  swndScale := 0
  mss := minPacket - packetOverhead
  msslevel := 0
  largest := 0
  mtuAdvise := maxPacket
  rtoBase := 0
  tsRecent := 0
  tsLastack := 0
  rxRttvar := 0
  rxSrtt := 0
  rxRto := defRto
  ssthresh := defaultRcvBufSize
  cwnd := 2 * (minPacket - packetOverhead)
  dupAcks := 0
  tAck := 0
  useNagling := true
  ackDelay := defAckDelay
  supportWndScale := true

def queued (s : PseudoTcp) : List UInt8 := s.connectMessage ++ s.accepted

/-- The state with `incident` noted if `cond` holds. -/
def noteIf (s : PseudoTcp) (cond : Bool) (incident : Incident) : PseudoTcp :=
  { s with incidents := if cond then s.incidents ++ [incident] else s.incidents }

@[simp] theorem mem_noteIf {s : PseudoTcp} {cond : Bool} {incident i : Incident} :
    i ∈ (s.noteIf cond incident).incidents ↔ i ∈ s.incidents ∨ cond = true ∧ i = incident := by
  cases cond <;> simp [noteIf]

end PseudoTcp

end Libjingle
