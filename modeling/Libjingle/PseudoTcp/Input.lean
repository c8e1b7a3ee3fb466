import Libjingle.PseudoTcp.Output

/-! The receiving half of `PseudoTcp`, the calls of the application, and runs of
an endpoint. -/

namespace Libjingle

namespace Receiver

/-- `m_rcv_nxt` moved on by `n` bytes. -/
def advance (r : Receiver) (n : UInt32) : Receiver :=
  { r with rcvNxt := r.rcvNxt + n, rcvTotal := r.rcvTotal + n.toNat }

/-- The next `n` bytes of the receive buffer made readable. -/
def commit (r : Receiver) (n : UInt32) : Receiver :=
  { r.advance n with rbuf := r.rbuf.consumeWriteBuffer n.toNat, rcvWnd := r.rcvWnd - n }

/-- The loop over `m_rlist` after new data; tells whether a range was recovered. -/
def recoverRanges : List RSegment → Receiver → Bool × Receiver
  | [], r => (false, { r with rlist := [] })
  | it :: rest, r =>
    if it.seq ≤ r.rcvNxt then
      if it.seq + it.len > r.rcvNxt then
        (true, (recoverRanges rest (r.commit (it.seq + it.len - r.rcvNxt))).2)
      else recoverRanges rest r
    else (false, { r with rlist := it :: rest })

/-- `m_rlist` with a range inserted before the first that does not start earlier. -/
def insertRange (rseg : RSegment) (l : List RSegment) : List RSegment :=
  l.takeWhile (·.seq < rseg.seq) ++ rseg :: l.dropWhile (·.seq < rseg.seq)

end Receiver

namespace Segment

/-- The first `seg.len` bytes of the payload. -/
def bytes (seg : Segment) : List UInt8 := (List.range seg.len.toNat).map seg.data

/-- Drops what lies before `rcvNxt`. -/
def trimFront (seg : Segment) (rcvNxt : UInt32) : Segment :=
  if seg.seq < rcvNxt then
    let nAdjust := rcvNxt - seg.seq
    if nAdjust < seg.len then
      { seg with
        seq := seg.seq + nAdjust
        data := fun i => seg.data (nAdjust.toNat + i)
        len := seg.len - nAdjust }
    else { seg with len := 0 }
  else seg

/-- Drops what lies more than `space` bytes behind `rcvNxt`. -/
def trimBack (seg : Segment) (rcvNxt space : UInt32) : Segment :=
  if seg.seq + seg.len - rcvNxt > space then
    let nAdjust := seg.seq + seg.len - rcvNxt - space
    if nAdjust < seg.len then { seg with len := seg.len - nAdjust } else { seg with len := 0 }
  else seg

end Segment

namespace PseudoTcp

def recv (s : PseudoTcp) (len : Nat) : PseudoTcp :=
  if s.state ≠ .established then { s with error := .enotconn }
  else
    match s.rbuf.read len with
    | (.success, data, rbuf) =>
      let s := { s with rbuf := rbuf, returned := s.returned ++ data }
      let space := UInt32.ofNat rbuf.getWriteRemaining
      if space - s.rcvWnd ≥ min (s.rbufLen / 2) s.mss then
        let bWasClosed := s.rcvWnd = 0
        let s := { s with rcvWnd := space }
        if bWasClosed then s.attemptSend .immediateAck else s
      else s
    | _ => { s with bReadEnable := true, error := .ewouldblock }

def send (s : PseudoTcp) (data : List UInt8) : PseudoTcp :=
  if s.state ≠ .established then { s with error := .enotconn }
  else if s.sbuf.getWriteRemaining = 0 then
    { s with bWriteEnable := true, error := .ewouldblock }
  else
    let (written, s) := s.queue data false
    { s with accepted := s.accepted ++ data.take written }.attemptSend .none

def connect (s : PseudoTcp) : PseudoTcp :=
  if s.state ≠ .listen then { s with error := .einval }
  else { s with state := .synSent }.queueConnectMessage.attemptSend .none

def close (s : PseudoTcp) (force : Bool) : PseudoTcp :=
  { s with shutdown := if force then .forceful else .graceful }

def notifyMTU (s : PseudoTcp) (mtu : UInt16) : PseudoTcp :=
  let s := { s with mtuAdvise := mtu.toUInt32 }
  if s.state = .established then s.adjustMTU else s

def setOption (s : PseudoTcp) (opt : TcpOption) (value : UInt32) : PseudoTcp :=
  match opt with
  | .noDelay => { s with useNagling := value = 0 }
  | .ackDelay => { s with ackDelay := value }
  | .sndBuf => s.resizeSendBuffer value
  | .rcvBuf => s.resizeReceiveBuffer value

def app (s : PseudoTcp) : AppCall → PseudoTcp
  | .connect => s.connect
  | .send data => s.send data
  | .recv len => s.recv len
  | .close force => s.close force
  | .notifyMTU mtu => s.notifyMTU mtu
  | .setOption opt value => s.setOption opt value

def notify (s : PseudoTcp) (n : Notification) : PseudoTcp :=
  (s.env.react s.notified.length).foldl app { s with notified := s.notified ++ [n] }

def closedown (s : PseudoTcp) (err : Errno) : PseudoTcp :=
  { s with state := .closed }.notify (.closed err)

/-- The control part of `process`: whether the packet is a connect message, or
`none` when the packet is refused. -/
def control (s : PseudoTcp) (seg : Segment) : Option Bool × PseudoTcp :=
  if seg.flags &&& flagCtl = 0 then (some false, s)
  else if seg.len = 0 then (none, s)
  else if seg.data 0 = ctlConnect then
    let s := s.parseOptions (seg.bytes.drop 1)
    match s.state with
    | .listen => (some true, { s with state := .synReceived }.queueConnectMessage)
    | .synSent => (some true, ({ s with state := .established }.adjustMTU).notify .opened)
    | _ => (some true, s)
  else (none, s)

def updateTimestamp (s : PseudoTcp) (seg : Segment) : PseudoTcp :=
  if seg.seq ≤ s.tsLastack ∧ s.tsLastack < seg.seq + seg.len then { s with tsRecent := seg.tsval }
  else s

/-- The round-trip estimate; `long` has 64 bits. -/
def updateRtt (s : PseudoTcp) (now : UInt32) (tsecr : UInt32) : PseudoTcp :=
  let rtt := timeDiff now tsecr
  if tsecr = 0 ∨ rtt < 0 then s
  else
    let (srtt, rttvar) : UInt32 × UInt32 :=
      if s.rxSrtt = 0 then (UInt32.ofInt rtt, UInt32.ofInt (rtt / 2))
      else
        (UInt32.ofInt (((7 * s.rxSrtt).toNat + rtt) / 8),
         UInt32.ofInt (((3 * s.rxRttvar).toNat + (rtt - s.rxSrtt.toNat).natAbs) / 4))
    { s with
      rxSrtt := srtt
      rxRttvar := rttvar
      rxRto := bound minRto (srtt + max 1 (4 * rttvar)) maxRto }

/-- Whether the first `nAcked` bytes are whole segments of the list. -/
def onBoundary : List SSegment → UInt32 → Bool
  | [], nAcked => nAcked = 0
  | seg :: rest, nAcked =>
    nAcked = 0 || (!(nAcked < seg.len) && onBoundary rest (nAcked - seg.len))

/-- The loop that frees acknowledged segments: the list, `m_largest`, and whether
the list was long enough. -/
def freeSegments : List SSegment → UInt32 → UInt32 → List SSegment × UInt32 × Bool
  | [], nFree, largest => ([], largest, nFree = 0)
  | seg :: rest, nFree, largest =>
    if nFree = 0 then (seg :: rest, largest, true)
    else if nFree < seg.len then ({ seg with len := seg.len - nFree } :: rest, largest, true)
    else freeSegments rest (nFree - seg.len) (max largest seg.len)

def consumeAck (s : PseudoTcp) (now : UInt32) (seg : Segment) : PseudoTcp :=
  let nAcked := seg.ack - s.sndUna
  let s := s.noteIf (!onBoundary s.slist nAcked) .cutAck
  let (slist, largest, enough) := freeSegments s.slist nAcked s.largest
  let s := s.noteIf (!enough) .endDeref
  { s with
    sndWnd := seg.wnd.toUInt32 <<< s.swndScale.toUInt32
    sndUna := seg.ack
    rtoBase := if seg.ack = s.sndNxt then 0 else now
    sbuf := s.sbuf.consumeReadData nAcked.toNat
    slist := slist
    largest := largest }

/-- The acknowledgement part of `process`; false when the connection is closed. -/
def acknowledge (s : PseudoTcp) (now : UInt32) (seg : Segment) : Bool × PseudoTcp :=
  if seg.ack > s.sndUna ∧ seg.ack ≤ s.sndNxt then
    let nAcked := seg.ack - s.sndUna
    let s := (s.updateRtt now seg.tsecr).consumeAck now seg
    if s.dupAcks ≥ 3 then
      if s.sndUna ≥ s.recover then
        (true, { s with cwnd := min s.ssthresh (s.sndNxt - s.sndUna + s.mss), dupAcks := 0 })
      else
        match s.transmit 0 now with
        | (false, s) => (false, s.closedown .econnaborted)
        | (true, s) => (true, { s with cwnd := s.cwnd + (s.mss - min nAcked s.cwnd) })
    else
      (true, { s with
        dupAcks := 0
        cwnd := if s.cwnd < s.ssthresh then s.cwnd + s.mss
          else s.cwnd + max 1 (s.mss * s.mss / s.cwnd) })
  else if seg.ack = s.sndUna then
    let s := { s with sndWnd := seg.wnd.toUInt32 <<< s.swndScale.toUInt32 }
    if seg.len > 0 then (true, s)
    else if s.sndUna ≠ s.sndNxt then
      let s := { s with dupAcks := s.dupAcks + 1 }
      if s.dupAcks = 3 then
        match s.transmit 0 now with
        | (false, s) => (false, s.closedown .econnaborted)
        | (true, s) =>
          let ssthresh := max ((s.sndNxt - s.sndUna) / 2) (2 * s.mss)
          (true, { s with
            recover := s.sndNxt
            ssthresh := ssthresh
            cwnd := ssthresh + 3 * s.mss })
      else if s.dupAcks > 3 then (true, { s with cwnd := s.cwnd + s.mss })
      else (true, s)
    else (true, { s with dupAcks := 0 })
  else (true, s)

def finishOpen (s : PseudoTcp) (bConnect : Bool) : PseudoTcp :=
  if s.state = .synReceived ∧ !bConnect then
    ({ s with state := .established }.adjustMTU).notify .opened
  else s

def notifyWriteable (s : PseudoTcp) : PseudoTcp :=
  let kIdealRefillSize := (s.sbufLen + s.rbufLen) / 2
  if s.bWriteEnable ∧ UInt32.ofNat s.sbuf.getBuffered < kIdealRefillSize then
    { s with bWriteEnable := false }.notify .writeable
  else s

/-- When the packet must be acknowledged. -/
def ackFlags (s : PseudoTcp) (seg : Segment) : SendFlags :=
  if seg.seq ≠ s.rcvNxt then .immediateAck
  else if seg.len ≠ 0 then (if s.ackDelay = 0 then .immediateAck else .delayedAck)
  else .none

/-- Stores the trimmed payload: whether there are new bytes to read, and how to
acknowledge. -/
def store (s : PseudoTcp) (seg : Segment) (sflags : SendFlags) : Bool × SendFlags × PseudoTcp :=
  let bIgnoreData := seg.flags &&& flagCtl ≠ 0 ∨ s.shutdown ≠ .none
  if seg.len = 0 then (false, sflags, s)
  else
    let s := s.noteIf (seg.seq = s.rcvNxt && s.rlist ≠ [] &&
      s.rcvNxt.toNat + seg.len.toNat ≥ 2 ^ 32) .lapHeld
    if bIgnoreData then
      if seg.seq = s.rcvNxt then
        let s := s.noteIf (s.rlist ≠ []) .skippedHeld
        (false, sflags, { s with toReceiver := s.toReceiver.advance seg.len })
      else (false, sflags, s)
    else
      let nOffset := seg.seq - s.rcvNxt
      let s := s.noteIf (nOffset.toNat + seg.len.toNat > s.rcvWnd.toNat) .overrun
      let rbuf := (s.rbuf.writeOffset seg.bytes nOffset.toNat).2.2
      let s := { s with rbuf := rbuf }
      if seg.seq = s.rcvNxt then
        let (recovered, r) := Receiver.recoverRanges s.rlist (s.toReceiver.commit seg.len)
        (true, if recovered then .immediateAck else sflags, { s with toReceiver := r })
      else
        (false, sflags, { s with rlist := Receiver.insertRange ⟨seg.seq, seg.len⟩ s.rlist })

def fitted (s : PseudoTcp) (seg : Segment) : Segment :=
  (seg.trimFront s.rcvNxt).trimBack s.rcvNxt (UInt32.ofNat s.rbuf.getWriteRemaining)

def notifyReadable (s : PseudoTcp) (bNewData : Bool) : PseudoTcp :=
  if bNewData ∧ s.bReadEnable then { s with bReadEnable := false }.notify .readable else s

/-- The last part of `process`, from the choice of the acknowledgement on. -/
def receive (s : PseudoTcp) (seg : Segment) : PseudoTcp :=
  let (bNewData, sflags, s) := s.store (s.fitted seg) (s.ackFlags seg)
  (s.attemptSend sflags).notifyReadable bNewData

def noteReceived (s : PseudoTcp) : PseudoTcp :=
  let now := s.env.now s.ticks
  { s with ticks := s.ticks + 1, lasttraffic := now, lastrecv := now, bOutgoing := false }

/-- `process` from the test for a closed connection on. -/
def processSegment (s : PseudoTcp) (now : UInt32) (seg : Segment) : Bool × PseudoTcp :=
  if s.state = .closed then (false, s)
  else if seg.flags &&& flagRst ≠ 0 then (false, s.closedown .econnreset)
  else
    match s.control seg with
    | (none, s) => (false, s)
    | (some bConnect, s) =>
      match (s.updateTimestamp seg).acknowledge now seg with
      | (false, s) => (false, s)
      | (true, s) => (true, ((s.finishOpen bConnect).notifyWriteable).receive seg)

def process (s : PseudoTcp) (seg : Segment) : Bool × PseudoTcp :=
  if seg.conv ≠ s.conv then (false, s)
  else s.noteReceived.processSegment (s.env.now s.ticks) seg

/-- The memory `parse` sees: the packet, then whatever follows it. -/
def memory (buffer : List UInt8) (beyond : Nat → UInt8) (i : Nat) : UInt8 :=
  buffer.getD i (beyond i)

def readLong (mem : Nat → UInt8) (i : Nat) : UInt32 :=
  bytesToLong [mem i, mem (i + 1), mem (i + 2), mem (i + 3)]

def readShort (mem : Nat → UInt8) (i : Nat) : UInt16 := bytesToShort [mem i, mem (i + 1)]

/-- The segment `parse` makes of a packet of `size` bytes. -/
def parseSegment (mem : Nat → UInt8) (size : UInt32) : Segment where
  conv := readLong mem 0
  seq := readLong mem 4
  ack := readLong mem 8
  flags := mem 13
  wnd := readShort mem 14
  data := fun i => mem (24 + i)
  len := size - headerSize
  tsval := readLong mem 16
  tsecr := readLong mem 20

def parse (s : PseudoTcp) (mem : Nat → UInt8) (size : UInt32) : Bool × PseudoTcp :=
  if size < 12 then (false, s) else s.process (parseSegment mem size)

/-- `NotifyPacket`; `beyond` is the memory behind the packet. -/
def notifyPacket (s : PseudoTcp) (buffer : List UInt8) (beyond : Nat → UInt8) :
    Bool × PseudoTcp :=
  if buffer.length > maxPacket.toNat then (false, s)
  else s.parse (memory buffer beyond) (UInt32.ofNat buffer.length)

/-- The retransmission part of `NotifyClock`; false when the connection is closed. -/
def retransmit (s : PseudoTcp) (now : UInt32) : Bool × PseudoTcp :=
  if s.rtoBase ≠ 0 ∧ timeDiff (s.rtoBase + s.rxRto) now ≤ 0 then
    if s.slist = [] then (true, s)
    else
      match s.transmit 0 now with
      | (false, s) => (false, s.closedown .econnaborted)
      | (true, s) =>
        let rtoLimit := match s.state with
          | .listen | .synSent | .synReceived => defRto
          | _ => maxRto
        (true, { s with
          ssthresh := max ((s.sndNxt - s.sndUna) / 2) (2 * s.mss)
          cwnd := s.mss
          rxRto := min rtoLimit (s.rxRto * 2)
          rtoBase := now })
  else (true, s)

/-- The window probe of `NotifyClock`; false when the connection is closed. -/
def probeWindow (s : PseudoTcp) (now : UInt32) : Bool × PseudoTcp :=
  if s.sndWnd = 0 ∧ timeDiff (s.lastsend + s.rxRto) now ≤ 0 then
    if timeDiff now s.lastrecv ≥ 15000 then (false, s.closedown .econnaborted)
    else
      let s := (s.packet (s.sndNxt - 1) 0 0 0).2
      (true, { s with lastsend := now, rxRto := min maxRto (s.rxRto * 2) })
  else (true, s)

def notifyClock (s : PseudoTcp) (now : UInt32) : PseudoTcp :=
  if s.state = .closed then s
  else
    match s.retransmit now with
    | (false, s) => s
    | (true, s) =>
      match s.probeWindow now with
      | (false, s) => s
      | (true, s) =>
        if s.tAck ≠ 0 ∧ timeDiff (s.tAck + s.ackDelay) now ≤ 0 then (s.packet s.sndNxt 0 0 0).2
        else s

inductive Call
  | app (call : AppCall)
  | notifyPacket (buffer : List UInt8) (beyond : Nat → UInt8)
  | notifyClock (now : UInt32)

def call (s : PseudoTcp) : Call → PseudoTcp
  | .app c => s.app c
  | .notifyPacket buffer beyond => (s.notifyPacket buffer beyond).2
  | .notifyClock now => s.notifyClock now

def run (s : PseudoTcp) (calls : List Call) : PseudoTcp := calls.foldl call s

def plainPacket (seq ack : UInt32) (flags : UInt8) (payload : List UInt8) : List UInt8 :=
  longToBytes 7 ++ longToBytes seq ++ longToBytes ack ++ [0, flags] ++ shortToBytes 1000 ++
    longToBytes 1 ++ longToBytes 1 ++ payload

end PseudoTcp

/-- Surroundings in which the clock stands, every packet is written, nothing is
called back and memory is zero. -/
def Env.still : Env where
  now := fun _ => 1000
  result := fun _ => .success
  react := fun _ => []
  heap := fun _ _ => 0
  stack := fun _ _ => 0

end Libjingle
