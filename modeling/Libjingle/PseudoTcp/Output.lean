import Libjingle.Lib.Layout
import Libjingle.PseudoTcp.State

/-! The sending half of `PseudoTcp`: the segment queue, packets, transmission,
and the options exchanged in connect messages. -/

namespace Libjingle.PseudoTcp

/-- How many bytes of `data` the send buffer takes. -/
def queueLen (s : PseudoTcp) (data : List UInt8) : UInt32 :=
  let available := UInt32.ofNat s.sbuf.getWriteRemaining
  if UInt32.ofNat data.length > available then available else UInt32.ofNat data.length

/-- `queue`: appends to the send buffer what fits, in the last segment when that
is of the same kind and not yet transmitted. Returns the number of bytes written. -/
def queue (s : PseudoTcp) (data : List UInt8) (bCtrl : Bool) : Nat × PseudoTcp :=
  let len := s.queueLen data
  let fresh : SSegment := ⟨s.sndUna + UInt32.ofNat s.sbuf.getBuffered, len, 0, bCtrl⟩
  let slist := match s.slist.getLast? with
    | some back =>
      if back.bCtrl = bCtrl ∧ back.xmit = 0 then
        s.slist.dropLast ++ [{ back with len := back.len + len }]
      else s.slist ++ [fresh]
    | none => s.slist ++ [fresh]
  let (_, written, sbuf) := s.sbuf.write (data.take len.toNat)
  (written, { s with slist, sbuf })

/-- The buffer `packet` fills: whatever was read, over what the stack held. -/
def payload (s : PseudoTcp) (offset len : UInt32) : List UInt8 :=
  let read := (s.sbuf.readOffset len.toNat offset.toNat).2
  read ++ ((List.range len.toNat).map (s.env.stack s.written.length)).drop read.length

def header (s : PseudoTcp) (seq : UInt32) (flags : UInt8) : List UInt8 :=
  longToBytes s.conv ++ longToBytes seq ++ longToBytes s.rcvNxt ++ [0, flags] ++
    shortToBytes (s.rcvWnd >>> s.rwndScale.toUInt32).toUInt16 ++
    longToBytes (s.env.now s.ticks) ++ longToBytes s.tsRecent

/-- The call `packet` makes to `TcpWritePacket`. -/
def packetCall (s : PseudoTcp) (seq : UInt32) (flags : UInt8) (offset len : UInt32) :
    PacketCall where
  seq := seq
  flags := flags
  offset := offset
  len := len
  wnd := (s.rcvWnd >>> s.rwndScale.toUInt32).toUInt16
  buffered := s.sbuf.getBuffered
  space := s.rbuf.getWriteRemaining
  scale := s.rwndScale
  bytes := s.header seq flags ++ if len = 0 then [] else s.payload offset len

def packet (s : PseudoTcp) (seq : UInt32) (flags : UInt8) (offset len : UInt32) :
    WriteResult × PseudoTcp :=
  let now := s.env.now s.ticks
  let wres := s.env.result s.written.length
  let s' := { s with
    ticks := s.ticks + 1
    tsLastack := s.rcvNxt
    written := s.written ++ [s.packetCall seq flags offset len] }
  if wres ≠ .success ∧ len ≠ 0 then (wres, s')
  else
    (.success, { s' with
      tAck := 0
      lastsend := if len > 0 then now else s.lastsend
      lasttraffic := now
      bOutgoing := true })

/-- The inner loop of `transmit`, over the packet sizes below the current one:
the size to send is lowered until a packet of it is written or fails. -/
def shrink (seq : UInt32) (flags : UInt8) (offset : UInt32) :
    List UInt32 → UInt32 → PseudoTcp → Option UInt32 × PseudoTcp
  | [], _, s => (none, s)
  | size :: smaller, nTransmit, s =>
    if size = 0 then (none, s)
    else
      let mss := size - packetOverhead
      let s := { s with msslevel := s.msslevel + 1, mss := mss, cwnd := 2 * mss }
      if mss < nTransmit then
        match s.packet seq flags offset mss with
        | (.success, s) => (some mss, s)
        | (.fail, s) => (none, s)
        | (.tooLarge, s) => shrink seq flags offset smaller mss s
      else shrink seq flags offset smaller nTransmit s

/-- The loop of `transmit`: the number of bytes that were sent, if any were. -/
def sendSegment (s : PseudoTcp) (seg : SSegment) : Option UInt32 × PseudoTcp :=
  let nTransmit := min seg.len s.mss
  let flags := if seg.bCtrl then flagCtl else 0
  let offset := seg.seq - s.sndUna
  match s.packet seg.seq flags offset nTransmit with
  | (.success, s) => (some nTransmit, s)
  | (.fail, s) => (none, s)
  | (.tooLarge, s) =>
    shrink seg.seq flags offset (packetMaximums.drop (s.msslevel + 1)) nTransmit s

/-- The list with the element at position `i` replaced by `new`. -/
def splice {α : Type} (l : List α) (i : Nat) (new : List α) : List α :=
  l.take i ++ new ++ l.drop (i + 1)

/-- A segment cut after `n` bytes. -/
def cut (seg : SSegment) (n : UInt32) : List SSegment :=
  if n < seg.len then
    [{ seg with len := n }, { seg with seq := seg.seq + n, len := seg.len - n }]
  else [seg]

/-- The segment of position `i` after it was sent in `n` bytes. -/
def markSent (seg : SSegment) (n : UInt32) : List SSegment :=
  match cut seg n with
  | first :: rest => { first with xmit := first.xmit + 1 } :: rest
  | [] => []

/-- `transmit`, for the segment at position `i` of the list. -/
def transmit (s : PseudoTcp) (i : Nat) (now : UInt32) : Bool × PseudoTcp :=
  match s.slist[i]? with
  | none => (false, s.noteIf true .endDeref)
  | some seg =>
    if seg.xmit ≥ (if s.state = .established then 15 else 30) then (false, s)
    else
      match s.sendSegment seg with
      | (none, s) => (false, s)
      | (some nTransmit, s) =>
        (true, { s with
          slist := splice s.slist i (markSent seg nTransmit)
          sndNxt := if seg.xmit = 0 then s.sndNxt + min nTransmit seg.len else s.sndNxt
          rtoBase := if s.rtoBase = 0 then now else s.rtoBase })

/-- The number of bytes the loop of `attemptSend` may send next. -/
def available (s : PseudoTcp) : UInt32 :=
  let cwnd := if s.dupAcks = 1 ∨ s.dupAcks = 2 then s.cwnd + s.dupAcks.toUInt32 * s.mss else s.cwnd
  let nWindow := min s.sndWnd cwnd
  let nInFlight := s.sndNxt - s.sndUna
  let nUseable := if nInFlight < nWindow then nWindow - nInFlight else 0
  let nAvailable := min (UInt32.ofNat s.sbuf.getBuffered - nInFlight) s.mss
  if nAvailable > nUseable then
    (if nUseable * 4 < nWindow then 0 else nUseable)
  else nAvailable

/-- What `attemptSend` does when there is nothing to send. -/
def sendAck (s : PseudoTcp) (sflags : SendFlags) : PseudoTcp :=
  if sflags = .none then s
  else if sflags = .immediateAck ∨ s.tAck ≠ 0 then (s.packet s.sndNxt 0 0 0).2
  else { s with tAck := s.env.now s.ticks, ticks := s.ticks + 1 }

/-- The loop of `attemptSend`. -/
def sendLoop (now : UInt32) : Nat → SendFlags → PseudoTcp → PseudoTcp
  | 0, _, s => s
  | fuel + 1, sflags, s =>
    let nAvailable := s.available
    if nAvailable = 0 then s.sendAck sflags
    else if s.useNagling ∧ s.sndNxt > s.sndUna ∧ nAvailable < s.mss then s
    else
      match s.slist.findIdx? (·.xmit = 0) with
      | none => s.noteIf true .endDeref
      | some i =>
        let cutList := splice s.slist i ((s.slist[i]?.map (cut · nAvailable)).getD [])
        match { s with slist := cutList }.transmit i now with
        | (false, s) => s
        | (true, s) => sendLoop now fuel .none s

/-- How many rounds of the loop a segment can take. -/
def rounds (seg : SSegment) : Nat := if seg.xmit = 0 then 2 * seg.len.toNat + 1 else 0

/-- Enough rounds for the loop. -/
def sendRounds (s : PseudoTcp) : Nat := Layout.extent rounds s.slist + 1

def attemptSend (s : PseudoTcp) (sflags : SendFlags) : PseudoTcp :=
  let now := s.env.now s.ticks
  let s := { s with ticks := s.ticks + 1 }
  let s := if timeDiff now s.lastsend > s.rxRto.toNat then { s with cwnd := s.mss } else s
  sendLoop now s.sendRounds sflags s

def adjustMTU (s : PseudoTcp) : PseudoTcp :=
  let mss := s.mtuAdvise - packetOverhead
  { s with
    msslevel := min (packetMaximums.length - 2) (packetMaximums.findIdx (· ≤ s.mtuAdvise))
    mss := mss
    ssthresh := max s.ssthresh (2 * mss)
    cwnd := max s.cwnd mss }

def connectMessageBytes (s : PseudoTcp) : List UInt8 :=
  ctlConnect :: if s.supportWndScale then [tcpOptWndScale, 1, s.rwndScale] else []

def queueConnectMessage (s : PseudoTcp) : PseudoTcp :=
  let buf := s.connectMessageBytes
  let (written, s) := { s with sndWnd := UInt32.ofNat buf.length }.queue buf true
  { s with connectMessage := s.connectMessage ++ buf.take written }

def resizeSendBuffer (s : PseudoTcp) (newSize : UInt32) : PseudoTcp :=
  { s with
    sbufLen := newSize
    sbuf := (s.sbuf.setCapacity (s.env.heap s.allocs) newSize.toNat).2
    allocs := s.allocs + 1 }

def scaleFactor : Nat → UInt32 → UInt8
  | 0, _ => 0
  | fuel + 1, size => if size > 0xFFFF then scaleFactor fuel (size >>> 1) + 1 else 0

def roundedSize (newSize : UInt32) : UInt32 :=
  let scale := (scaleFactor 16 newSize).toUInt32
  newSize >>> scale <<< scale

def resizeReceiveBuffer (s : PseudoTcp) (newSize : UInt32) : PseudoTcp :=
  let scale := scaleFactor 16 newSize
  let size := roundedSize newSize
  let (result, rbuf) := s.rbuf.setCapacity (s.env.heap s.allocs) size.toNat
  let space := rbuf.getWriteRemaining
  let s := s.noteIf (!result ||
    s.rlist.any fun r => r.seq.toNat + r.len.toNat > s.rcvNxt.toNat + space) .shrunk
  let s := s.noteIf (s.rlist ≠ [] && size.toNat ≠ s.rbuf.bufferLength) .resizedHeld
  { s with
    rbuf := rbuf
    allocs := s.allocs + 1
    rbufLen := size
    rwndScale := scale
    ssthresh := size
    rcvWnd := UInt32.ofNat space }

/-- `applyOption`; only the window scale has an effect. -/
def applyOption (s : PseudoTcp) (kind : UInt8) (data : List UInt8) : PseudoTcp :=
  if kind = tcpOptWndScale then
    match data with
    | [scale] => { s with swndScale := scale }
    | _ => s
  else s

/-- The loop of `parseOptions`: the state, and unless a length was invalid the
kinds that were specified. -/
def parseOptionList : Nat → List UInt8 → List UInt8 → PseudoTcp → Option (List UInt8) × PseudoTcp
  | 0, _, kinds, s => (some kinds, s)
  | _ + 1, [], kinds, s => (some kinds, s)
  | fuel + 1, kind :: buf, kinds, s =>
    if kind = tcpOptEol then (some kinds, s)
    else if kind = tcpOptNoop then parseOptionList fuel buf kinds s
    else
      let optLen := (buf.headD 0).toNat
      let buf := buf.tail
      if optLen ≤ buf.length then
        parseOptionList fuel (buf.drop optLen) (kind :: kinds)
          (s.applyOption kind (buf.take optLen))
      else (none, s)

def parseOptions (s : PseudoTcp) (data : List UInt8) : PseudoTcp :=
  match s.parseOptionList data.length data [] with
  | (none, s) => s
  | (some kinds, s) =>
    if tcpOptWndScale ∉ kinds ∧ s.rwndScale > 0 then
      { s.resizeReceiveBuffer defaultRcvBufSize with swndScale := 0 }
    else s

end Libjingle.PseudoTcp
