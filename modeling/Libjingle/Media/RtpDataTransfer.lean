import Libjingle.Media.RtpDataEngine

/-! Data sent on one RTP data channel and received on another. -/

namespace Libjingle.RtpDataMediaChannel

section Received

def Takes (r : RtpDataMediaChannel) (packet : List UInt8) : Prop :=
  r.receiving = true ∧ ∃ header, getRtpHeader packet = some header ∧
    (findCodecById r.recvCodecs header.payloadType).isSome ∧
    (getStreamBySsrc r.recvStreams header.ssrc).isSome

/-- The packet ends before the reserved space behind its header does. -/
def TooShort (packet : List UInt8) : Prop :=
  ∃ headerLength, getRtpHeaderLen packet = some headerLength ∧
    packet.length < headerLength + kReservedSpace.length

/-- Data is only signalled from inside the packet. -/
def DataInside (r : RtpDataMediaChannel) (packet : List UInt8) : Prop :=
  ∀ d, r.onPacketReceived packet = some d → d.start + d.len ≤ packet.length

theorem onPacketReceived_eq_some {r : RtpDataMediaChannel} {packet : List UInt8} {d : DataReceived} :
    r.onPacketReceived packet = some d ↔ r.receiving = true ∧ ∃ header headerLength,
      getRtpHeader packet = some header ∧ getRtpHeaderLen packet = some headerLength ∧
      (findCodecById r.recvCodecs header.payloadType).isSome ∧
      (getStreamBySsrc r.recvStreams header.ssrc).isSome ∧
      d = { ssrc := header.ssrc, seqNum := header.seqNum, timestamp := header.timestamp,
            start := headerLength + kReservedSpace.length,
            len := sizeSub (sizeSub packet.length headerLength) kReservedSpace.length } := by
  cases hheader : getRtpHeader packet with
  | none => simp [onPacketReceived, hheader]
  | some header =>
    cases hlen : getRtpHeaderLen packet with
    | none => simp [onPacketReceived, hheader, hlen]
    | some headerLength =>
      cases hr : r.receiving with
      | false => simp [onPacketReceived, hheader, hlen, hr]
      | true =>
        cases hcodec : findCodecById r.recvCodecs header.payloadType with
        | none => simp [onPacketReceived, hheader, hlen, hr, hcodec]
        | some codec =>
          cases hstream : getStreamBySsrc r.recvStreams header.ssrc with
          | none => simp [onPacketReceived, hheader, hlen, hr, hcodec, hstream]
          | some stream =>
            simp [onPacketReceived, hheader, hlen, hr, hcodec, hstream]
            exact eq_comm

theorem getRtpHeaderLen_le {data : List UInt8} {headerLength : Nat}
    (h : getRtpHeaderLen data = some headerLength) : headerLength ≤ data.length := by
  simp only [getRtpHeaderLen] at h
  split at h
  · cases h
  · split at h
    · cases h
    · split at h
      · split at h
        · cases h
        · split at h
          · cases h
          · obtain rfl := Option.some.inj h
            omega
      · obtain rfl := Option.some.inj h
        omega

theorem dataInside_iff (r : RtpDataMediaChannel) (packet : List UInt8) :
    r.DataInside packet ↔ ¬ (r.Takes packet ∧ TooShort packet) := by
  have hreserved : kReservedSpace.length = 4 := rfl
  constructor
  · rintro hinside ⟨⟨hr, header, hheader, hcodec, hstream⟩, headerLength, hlen, hshort⟩
    have hle := getRtpHeaderLen_le hlen
    have hout := hinside _ (onPacketReceived_eq_some.mpr
      ⟨hr, header, headerLength, hheader, hlen, hcodec, hstream, rfl⟩)
    simp only [sizeSub, sizeModulus, hreserved] at hout hshort
    omega
  · intro hnot d hd
    obtain ⟨hr, header, headerLength, hheader, hlen, hcodec, hstream, rfl⟩ :=
      onPacketReceived_eq_some.mp hd
    have hlong : ¬ packet.length < headerLength + kReservedSpace.length :=
      fun hshort => hnot ⟨⟨hr, header, hheader, hcodec, hstream⟩, headerLength, hlen, hshort⟩
    simp only [sizeSub, sizeModulus, hreserved] at hlong ⊢
    omega

end Received

section Transfer

/-- Both channels have the codecs, and a stream that one sends and the other receives. -/
structure Configured (s r : RtpDataMediaChannel) (codecs : List DataCodec) (stream : StreamParams) :
    Prop where
  sending : s.sending = true
  receiving : r.receiving = true
  sendCodecs : s.setSendCodecs codecs = (true, s)
  recvCodecs : r.setRecvCodecs codecs = (true, r)
  payloadTypes : ∀ c ∈ codecs, 0 ≤ c.id ∧ c.id ≤ 127
  sendStream : stream ∈ s.sendStreams
  recvStream : stream ∈ r.recvStreams

def Within (stream : StreamParams) (s : RtpDataMediaChannel) (x : Sending) : Prop :=
  x.ssrc ∈ stream.ssrcs ∧ packetLen x.payload ≤ kDataMaxRtpPacketLen ∧
    s.sendLimiter.canUse (packetLen x.payload) x.now = true

def Delivers (r s : RtpDataMediaChannel) (x : Sending) : Prop :=
  ∃ packet d, (s.sendData x).1 = .sent packet ∧ r.onPacketReceived packet = some d ∧
    d.ssrc = x.ssrc ∧ d.len = x.payload.length ∧ (packet.drop d.start).take d.len = x.payload

def step (s : RtpDataMediaChannel) (x : Sending) : RtpDataMediaChannel := (s.sendData x).2

/-- What the receiver signals of a sequence of calls of `SendData`. -/
def transfer (r : RtpDataMediaChannel) : RtpDataMediaChannel → List Sending → List DataReceived
  | _, [] => []
  | s, x :: rest =>
    (match (s.sendData x).1 with
      | .sent packet => (r.onPacketReceived packet).toList
      | _ => []) ++ transfer r (s.step x) rest

def seqNums (ssrc : UInt32) (l : List DataReceived) : List Int :=
  (l.filter (·.ssrc = ssrc)).map DataReceived.seqNum

def Follows (a b : Int) : Prop := b = (a + 1) % 65536

/-- What sending to the ssrc needs: a codec of the exact name and another payload type
than 127, a clock of the ssrc, and a stream that is found by the ssrc on either side. -/
structure Sendable (r s : RtpDataMediaChannel) (ssrc : UInt32) : Prop where
  codec : ∃ c, findCodecByName s.sendCodecs kGoogleRtpDataCodecName = some c ∧ c.id ≠ 127
  clock : (s.rtpClockBySendSsrc ssrc).isSome
  sendStream : (getStreamBySsrc s.sendStreams ssrc).isSome
  recvStream : (getStreamBySsrc r.recvStreams ssrc).isSome

variable {s r : RtpDataMediaChannel} {codecs : List DataCodec} {stream : StreamParams} {x : Sending}

def dataPacket (c : DataCodec) (clock : RtpClock) (x : Sending) : List UInt8 :=
  plainHeader (UInt8.ofInt (c.id % 128)) (clock.lastSeqNum + 1) (clock.tick x.now).2.1 x.ssrc ++
    kReservedSpace ++ x.payload

theorem sendData_sent (hsending : s.sending = true) {c : DataCodec}
    (hcodec : findCodecByName s.sendCodecs kGoogleRtpDataCodecName = some c)
    (hstream : (getStreamBySsrc s.sendStreams x.ssrc).isSome) (hx : Within stream s x)
    {clock : RtpClock} (hclock : s.rtpClockBySendSsrc x.ssrc = some clock) (hlt : c.id < 127) :
    s.sendData x = (.sent (dataPacket c clock x),
      { s with
        rtpClockBySendSsrc := Function.update s.rtpClockBySendSsrc x.ssrc
          (some { clock with lastSeqNum := clock.lastSeqNum + 1 })
        sendLimiter := s.sendLimiter.use (packetLen x.payload) x.now }) := by
  have hnone : (getStreamBySsrc s.sendStreams x.ssrc).isNone = false := by
    rw [Option.isNone_eq_false_iff]
    exact hstream
  have hlen := @setRtpHeader_of_lt ((List.range kMinRtpPacketLen).map x.stack)
    ⟨c.id, ((clock.lastSeqNum + 1).toNat : Int), (clock.tick x.now).2.1, x.ssrc⟩
    (by simp) hlt
  simp only [sendData, hsending, hnone, hcodec, hclock, hx.2.2, RtpClock.tick, Bool.not_true,
    Bool.false_eq_true, if_false]
  rw [if_neg (Nat.not_lt.mpr hx.2.1)]
  simp only [RtpClock.tick] at hlen
  rw [hlen]
  simp only [uint16_ofInt_toNat]
  rfl

theorem onPacketReceived_dataPacket (hreceiving : r.receiving = true) {c : DataCodec}
    (hcodec : (findCodecById r.recvCodecs c.id).isSome) (hpos : 0 ≤ c.id) (hlt : c.id < 127)
    (hstream : (getStreamBySsrc r.recvStreams x.ssrc).isSome)
    (hsize : packetLen x.payload ≤ kDataMaxRtpPacketLen) (clock : RtpClock) :
    r.onPacketReceived (dataPacket c clock x) = some {
      ssrc := x.ssrc, seqNum := (clock.lastSeqNum + 1).toNat, timestamp := (clock.tick x.now).2.1,
      start := kMinRtpPacketLen + kReservedSpace.length, len := x.payload.length } := by
  have htype := toNat_payloadType hpos hlt
  have hbyte : UInt8.ofInt (c.id % 128) < 128 := by
    rw [UInt8.lt_iff_toNat_lt]
    show _ < 128
    omega
  have hheader := getRtpHeader_plainHeader hbyte (clock.lastSeqNum + 1) (clock.tick x.now).2.1 x.ssrc
    (kReservedSpace ++ x.payload)
  have hheaderLen := getRtpHeaderLen_plainHeader (UInt8.ofInt (c.id % 128)) (clock.lastSeqNum + 1)
    (clock.tick x.now).2.1 x.ssrc (kReservedSpace ++ x.payload)
  rw [← List.append_assoc] at hheader hheaderLen
  rw [htype] at hheader
  refine onPacketReceived_eq_some.mpr ⟨hreceiving, _, _, hheader, hheaderLen, hcodec, hstream, ?_⟩
  have hlen : (dataPacket c clock x).length = 16 + x.payload.length := by
    simp only [dataPacket, List.length_append, length_plainHeader, kMinRtpPacketLen, kReservedSpace,
      List.length_cons, List.length_nil]
  have hbound : x.payload.length ≤ 1200 := by
    simp only [packetLen, kDataMaxRtpPacketLen] at hsize
    omega
  have hdata : sizeSub (sizeSub (dataPacket c clock x).length kMinRtpPacketLen)
      kReservedSpace.length = x.payload.length := by
    simp only [hlen, sizeSub, sizeModulus, kMinRtpPacketLen, kReservedSpace, List.length_cons,
      List.length_nil]
    omega
  exact congrArg _ hdata.symm

theorem drop_dataPacket (c : DataCodec) (clock : RtpClock) (x : Sending) :
    (dataPacket c clock x).drop (kMinRtpPacketLen + kReservedSpace.length) = x.payload := by
  have hlen : (plainHeader (UInt8.ofInt (c.id % 128)) (clock.lastSeqNum + 1) (clock.tick x.now).2.1
      x.ssrc ++ kReservedSpace).length = kMinRtpPacketLen + kReservedSpace.length := by
    rw [List.length_append, length_plainHeader]
  rw [dataPacket, ← hlen, List.drop_left]

theorem setSendCodecs_self : s.setSendCodecs codecs = (true, s) ↔
    (findKnownCodec codecs).isSome ∧ s.sendCodecs = codecs := by
  simp only [setSendCodecs]
  cases findKnownCodec codecs with
  | none => simp
  | some c =>
    refine ⟨fun heq => ⟨rfl, ?_⟩, fun heq => ?_⟩
    · exact (congrArg (fun p => p.2.sendCodecs) heq).symm
    · rw [← heq.2]
      rfl

theorem setRecvCodecs_self : r.setRecvCodecs codecs = (true, r) ↔
    (findUnknownCodec codecs).isNone ∧ r.recvCodecs = codecs := by
  simp only [setRecvCodecs]
  cases findUnknownCodec codecs with
  | some c => simp
  | none =>
    refine ⟨fun heq => ⟨rfl, ?_⟩, fun heq => ?_⟩
    · exact (congrArg (fun p => p.2.recvCodecs) heq).symm
    · rw [← heq.2]
      rfl

theorem Configured.codec (h : Configured s r codecs stream) {c : DataCodec}
    (hc : findCodecByName s.sendCodecs kGoogleRtpDataCodecName = some c) :
    0 ≤ c.id ∧ c.id ≤ 127 ∧ (findCodecById r.recvCodecs c.id).isSome := by
  rw [(setSendCodecs_self.mp h.sendCodecs).2] at hc
  have hmem : c ∈ codecs := List.mem_of_find?_eq_some hc
  obtain ⟨hpos, hle⟩ := h.payloadTypes c hmem
  refine ⟨hpos, hle, ?_⟩
  rw [(setRecvCodecs_self.mp h.recvCodecs).2, findCodecById, List.find?_isSome]
  exact ⟨c, hmem, by simp⟩

structure Alike (s t : RtpDataMediaChannel) : Prop where
  sending : t.sending = s.sending
  sendCodecs : t.sendCodecs = s.sendCodecs
  sendStreams : t.sendStreams = s.sendStreams
  clock : ∀ ssrc, (t.rtpClockBySendSsrc ssrc).isSome = (s.rtpClockBySendSsrc ssrc).isSome

theorem alike_step (s : RtpDataMediaChannel) (x : Sending) : Alike s (s.step x) := by
  have hclock : ∀ (clock clock' : RtpClock), s.rtpClockBySendSsrc x.ssrc = some clock → ∀ ssrc,
      (Function.update s.rtpClockBySendSsrc x.ssrc (some clock') ssrc).isSome =
        (s.rtpClockBySendSsrc ssrc).isSome := by
    intro clock clock' h ssrc
    by_cases hs : ssrc = x.ssrc
    · subst hs
      simp [h]
    · rw [Function.update_of_ne hs]
  simp only [step, sendData]
  split
  · exact ⟨rfl, rfl, rfl, fun _ => rfl⟩
  · split
    · exact ⟨rfl, rfl, rfl, fun _ => rfl⟩
    · split
      · exact ⟨rfl, rfl, rfl, fun _ => rfl⟩
      · split
        · exact ⟨rfl, rfl, rfl, fun _ => rfl⟩
        · split
          · exact ⟨rfl, rfl, rfl, fun _ => rfl⟩
          · split
            · exact ⟨rfl, rfl, rfl, fun _ => rfl⟩
            · rename_i clock hsome
              split
              · exact ⟨rfl, rfl, rfl, hclock clock _ hsome⟩
              · exact ⟨rfl, rfl, rfl, hclock clock _ hsome⟩

theorem Alike.sendable_iff {t : RtpDataMediaChannel} (h : Alike s t) (ssrc : UInt32) :
    Sendable r t ssrc ↔ Sendable r s ssrc := by
  refine ⟨fun ht => ⟨?_, ?_, ?_, ht.recvStream⟩, fun hs => ⟨?_, ?_, ?_, hs.recvStream⟩⟩
  · exact h.sendCodecs ▸ ht.codec
  · exact h.clock ssrc ▸ ht.clock
  · exact h.sendStreams ▸ ht.sendStream
  · exact h.sendCodecs ▸ hs.codec
  · exact (h.clock ssrc).symm ▸ hs.clock
  · exact h.sendStreams ▸ hs.sendStream

theorem Alike.configured {t : RtpDataMediaChannel} (h : Alike s t)
    (hs : Configured s r codecs stream) : Configured t r codecs stream := by
  obtain ⟨hknown, hcodecs⟩ := setSendCodecs_self.mp hs.sendCodecs
  exact { hs with
    sending := h.sending.trans hs.sending
    sendCodecs := setSendCodecs_self.mpr ⟨hknown, h.sendCodecs.trans hcodecs⟩
    sendStream := h.sendStreams ▸ hs.sendStream }

theorem delivers_of_sendable (h : Configured s r codecs stream) (hx : Within stream s x)
    (hok : Sendable r s x.ssrc) : ∃ c clock, s.rtpClockBySendSsrc x.ssrc = some clock ∧
      (s.sendData x).1 = .sent (dataPacket c clock x) ∧
      (s.step x).rtpClockBySendSsrc = Function.update s.rtpClockBySendSsrc x.ssrc
        (some { clock with lastSeqNum := clock.lastSeqNum + 1 }) ∧
      r.onPacketReceived (dataPacket c clock x) = some {
        ssrc := x.ssrc, seqNum := (clock.lastSeqNum + 1).toNat
        timestamp := (clock.tick x.now).2.1
        start := kMinRtpPacketLen + kReservedSpace.length, len := x.payload.length } := by
  obtain ⟨c, hcodec, hne⟩ := hok.codec
  obtain ⟨clock, hclock⟩ := Option.isSome_iff_exists.mp hok.clock
  obtain ⟨hpos, hle, hfound⟩ := h.codec hcodec
  have hlt : c.id < 127 := by omega
  have hsent := sendData_sent h.sending hcodec hok.sendStream hx hclock hlt
  refine ⟨c, clock, hclock, congrArg Prod.fst hsent, ?_, ?_⟩
  · rw [step, hsent]
  · exact onPacketReceived_dataPacket h.receiving hfound hpos hlt hok.recvStream hx.2.1 clock

theorem sendable_of_delivers (h : Configured s r codecs stream) (hd : Delivers r s x) :
    Sendable r s x.ssrc := by
  obtain ⟨packet, d, hsent, hreceived, hssrc, -, -⟩ := hd
  obtain ⟨-, header, headerLength, hheader, -, -, hrecvStream, hdata⟩ :=
    onPacketReceived_eq_some.mp hreceived
  have hsame : header.ssrc = x.ssrc := by
    rw [← hssrc, hdata]
  simp only [sendData] at hsent
  split at hsent
  · cases hsent
  · split at hsent
    · cases hsent
    · rename_i hsendStream
      split at hsent
      · cases hsent
      · rename_i c hcodec
        obtain ⟨hpos, hle, -⟩ := h.codec hcodec
        split at hsent
        · cases hsent
        · split at hsent
          · cases hsent
          · split at hsent
            · cases hsent
            · rename_i clock hclock
              refine ⟨⟨c, hcodec, fun htype => ?_⟩, ?_, ?_, ?_⟩
              · have hge : c.id ≥ 127 := by omega
                rw [setRtpHeader_of_ge hge] at hsent
                cases hsent
              · rw [hclock]
                rfl
              · exact Option.isSome_iff_ne_none.mpr (by simpa using hsendStream)
              · rw [← hsame]
                exact hrecvStream

theorem seqNums_follow (h : Configured s r codecs stream) {xs : List Sending}
    (hx : Runs.Along step (Within stream) s xs) (hok : ∀ x ∈ xs, Sendable r s x.ssrc)
    (ssrc : UInt32) (clock : RtpClock) (hclock : s.rtpClockBySendSsrc ssrc = some clock) :
    ((clock.lastSeqNum.toNat : Int) :: seqNums ssrc (transfer r s xs)).IsChain Follows := by
  induction xs generalizing s clock with
  | nil => exact List.isChain_singleton _
  | cons x rest ih =>
    obtain ⟨hfirst, hrest⟩ := hx
    have halike := alike_step s x
    obtain ⟨c, used, hused, hsent, hupdate, hreceived⟩ :=
      delivers_of_sendable h hfirst (hok x List.mem_cons_self)
    have hokRest : ∀ y ∈ rest, Sendable r (s.step x) y.ssrc := fun y hy =>
      (halike.sendable_iff y.ssrc).mpr (hok y (List.mem_cons_of_mem _ hy))
    have hconf := halike.configured h
    rw [transfer, hsent]
    simp only [hreceived, Option.toList_some, List.singleton_append]
    by_cases hs : x.ssrc = ssrc
    · subst hs
      obtain rfl : clock = used := by
        rw [hclock] at hused
        exact Option.some.inj hused
      have hnext := ih hconf hrest hokRest
        { clock with lastSeqNum := clock.lastSeqNum + 1 } (by rw [hupdate, Function.update_self])
      simp only [seqNums, List.filter_cons, decide_true, if_true, List.map_cons]
      refine List.isChain_cons_cons.mpr ⟨?_, hnext⟩
      have hnow : (clock.lastSeqNum + 1).toNat = (clock.lastSeqNum.toNat + 1) % 65536 := by
        rw [UInt16.toNat_add]
        rfl
      simp only [Follows, hnow]
      omega
    · have hother := ih hconf hrest hokRest clock (by
        rw [hupdate, Function.update_of_ne (Ne.symm hs), hclock])
      simpa only [seqNums, List.filter_cons, hs, decide_false, Bool.false_eq_true, if_false] using hother

theorem transfer_iff (h : Configured s r codecs stream) {xs : List Sending}
    (hx : Runs.Along step (Within stream) s xs) :
    Runs.Along step (Delivers r) s xs ↔ ∀ x ∈ xs, Sendable r s x.ssrc := by
  induction xs generalizing s with
  | nil => simp [Runs.Along]
  | cons x rest ih =>
    obtain ⟨hfirst, hrest⟩ := hx
    have halike := alike_step s x
    rw [Runs.Along, ih (halike.configured h) hrest, List.forall_mem_cons]
    refine and_congr ⟨sendable_of_delivers h, fun hok => ?_⟩ ?_
    · obtain ⟨c, clock, -, hsent, -, hreceived⟩ := delivers_of_sendable h hfirst hok
      refine ⟨_, _, hsent, hreceived, rfl, rfl, ?_⟩
      rw [drop_dataPacket, List.take_length]
    · exact forall_congr' fun y => forall_congr' fun _ => halike.sendable_iff y.ssrc

/-- Data is signalled from inside a packet exactly if the packet is not one that the
channel takes although it ends before its reserved space. What is sent on a stream is
signalled as it was given, with sequence numbers that follow each other, exactly if
every ssrc it is sent with can be sent to. -/
theorem data_channel (r : RtpDataMediaChannel) :
    (∀ packet : List UInt8, r.DataInside packet ↔ ¬ (r.Takes packet ∧ TooShort packet)) ∧
    ∀ (s : RtpDataMediaChannel) (codecs : List DataCodec) (stream : StreamParams)
      (xs : List Sending), Configured s r codecs stream → Runs.Along step (Within stream) s xs →
      ((Runs.Along step (Delivers r) s xs ∧
        ∀ x ∈ xs, (seqNums x.ssrc (transfer r s xs)).IsChain Follows) ↔
        ∀ x ∈ xs, Sendable r s x.ssrc) := by
  refine ⟨dataInside_iff r, fun s codecs stream xs h hx => ?_⟩
  rw [transfer_iff h hx]
  refine ⟨And.left, fun hok => ⟨hok, fun x hmem => ?_⟩⟩
  obtain ⟨clock, hclock⟩ := Option.isSome_iff_exists.mp (hok x hmem).clock
  exact (seqNums_follow h hx hok x.ssrc clock hclock).tail

def opened (codecs : List DataCodec) (stream : StreamParams) : RtpDataMediaChannel :=
  let ch := ((new.setSendCodecs codecs).2.setRecvCodecs codecs).2
  let ch := ((ch.addSendStream stream 65535 0).2.addRecvStream stream).2
  { ch with sending := true, receiving := true }

def hello (ssrc : UInt32) : Sending := ⟨ssrc, [104, 105], 1, fun _ => 0⟩

theorem data_channel_hello :
    let ch := opened [googleDataCodec] { ssrcs := [7] }
    Runs.Along step (Delivers ch) ch [hello 7, hello 7] := by
  intro ch
  have hconfigured : Configured ch ch [googleDataCodec] { ssrcs := [7] } :=
    ⟨rfl, rfl, rfl, rfl, by decide, by decide, by decide⟩
  have hwithin : Runs.Along step (Within { ssrcs := [7] }) ch [hello 7, hello 7] :=
    ⟨⟨by decide, by decide, by decide +kernel⟩, ⟨by decide, by decide, by decide +kernel⟩, trivial⟩
  have hsendable : Sendable ch ch 7 :=
    ⟨⟨googleDataCodec, by decide +kernel, by decide⟩, by decide, by decide, by decide⟩
  refine (((data_channel ch).2 ch _ _ _ hconfigured hwithin).mpr ?_).1
  intro x hx
  obtain rfl : x = hello 7 := by simpa using hx
  exact hsendable

/-- A packet without reserved space is signalled with a length of nearly `2 ^ 64`; a
second ssrc has no clock; a codec of another case and payload type 127 are not sent. -/
theorem accepted_streams_fail :
    ((opened [googleDataCodec] { ssrcs := [7] }).onPacketReceived (plainHeader 101 1 0 7)).map
      (fun d => (d.start, d.len)) = some (16, 18446744073709551612) ∧
    (Configured (opened [googleDataCodec] { ssrcs := [7, 8] }) (opened [googleDataCodec]
      { ssrcs := [7, 8] }) [googleDataCodec] { ssrcs := [7, 8] } ∧
      Within { ssrcs := [7, 8] } (opened [googleDataCodec] { ssrcs := [7, 8] }) (hello 8) ∧
      ((opened [googleDataCodec] { ssrcs := [7, 8] }).sendData (hello 8)).1 = .nullClock) ∧
    (∀ c ∈ [{ googleDataCodec with name := "Google-Data" }, { googleDataCodec with id := 127 }],
      Configured (opened [c] { ssrcs := [7] }) (opened [c] { ssrcs := [7] }) [c] { ssrcs := [7] } ∧
      Within { ssrcs := [7] } (opened [c] { ssrcs := [7] }) (hello 7) ∧
      ((opened [c] { ssrcs := [7] }).sendData (hello 7)).1 = .failed) := by
  refine ⟨by decide, ⟨⟨rfl, rfl, rfl, rfl, by decide, by decide, by decide⟩,
    ⟨by decide, by decide, by decide +kernel⟩, by decide +kernel⟩, ?_⟩
  intro c hc
  rcases List.mem_cons.mp hc with rfl | hc
  · exact ⟨⟨rfl, rfl, rfl, rfl, by decide, by decide, by decide⟩,
      ⟨by decide, by decide, by decide +kernel⟩, by decide +kernel⟩
  · obtain rfl := List.mem_singleton.mp hc
    exact ⟨⟨rfl, rfl, rfl, rfl, by decide, by decide, by decide⟩,
      ⟨by decide, by decide, by decide +kernel⟩, by decide +kernel⟩

end Transfer

section History

inductive Call
  | setRecvCodecs (codecs : List DataCodec)
  | setSendCodecs (codecs : List DataCodec)
  | addSendStream (stream : StreamParams) (seqNum : UInt16) (offset : UInt32)
  | removeSendStream (ssrc : UInt32)
  | addRecvStream (stream : StreamParams)
  | removeRecvStream (ssrc : UInt32)
  | setSend (send : Bool)
  | setReceive (receive : Bool)
  | setSendBandwidth (autobw : Bool) (bps : Int)
  | sendData (x : Sending)

def call (ch : RtpDataMediaChannel) : Call → RtpDataMediaChannel
  | .setRecvCodecs codecs => (ch.setRecvCodecs codecs).2
  | .setSendCodecs codecs => (ch.setSendCodecs codecs).2
  | .addSendStream stream seqNum offset => (ch.addSendStream stream seqNum offset).2
  | .removeSendStream ssrc => (ch.removeSendStream ssrc).2
  | .addRecvStream stream => (ch.addRecvStream stream).2
  | .removeRecvStream ssrc => ch.removeRecvStream ssrc
  | .setSend send => { ch with sending := send }
  | .setReceive receive => { ch with receiving := receive }
  | .setSendBandwidth autobw bps => ch.setSendBandwidth autobw bps
  | .sendData x => ch.step x

/-- The first ssrc of a stream for sending has a clock, unless it is zero. -/
def Clocked (ch : RtpDataMediaChannel) : Prop :=
  ∀ stream ∈ ch.sendStreams, ∀ first rest, stream.ssrcs = first :: rest → first ≠ 0 →
    (ch.rtpClockBySendSsrc first).isSome

variable {ch : RtpDataMediaChannel}

theorem Clocked.addSendStream (h : Clocked ch) (stream : StreamParams) (seqNum : UInt16)
    (offset : UInt32) : Clocked (ch.addSendStream stream seqNum offset).2 := by
  unfold RtpDataMediaChannel.addSendStream
  split
  · exact h
  · rename_i first rest hssrcs
    split
    · exact h
    · intro other hother first' rest' hfirst hne
      simp only at hother ⊢
      by_cases hsame : first' = first
      · rw [hsame, Function.update_self]
        rfl
      · rw [Function.update_of_ne hsame]
        rcases List.mem_append.mp hother with hold | hnew
        · exact h other hold first' rest' hfirst hne
        · rw [List.mem_singleton.mp hnew, hssrcs] at hfirst
          exact absurd (List.cons.inj hfirst).1.symm hsame

theorem Clocked.removeSendStream (h : Clocked ch) (ssrc : UInt32) :
    Clocked (ch.removeSendStream ssrc).2 := by
  unfold RtpDataMediaChannel.removeSendStream
  split
  · exact h
  · intro stream hstream first rest hfirst hne
    simp only at hstream ⊢
    obtain ⟨hold, hkept⟩ := List.mem_filter.mp hstream
    have hother : first ≠ ssrc := by
      rintro rfl
      simp [StreamSelector.isMatch, hne, StreamParams.hasSsrc, hfirst] at hkept
    rw [Function.update_of_ne hother]
    exact h stream hold first rest hfirst hne

theorem Clocked.call (h : Clocked ch) (c : Call) : Clocked (ch.call c) := by
  cases c with
  | setRecvCodecs codecs =>
    simp only [RtpDataMediaChannel.call, RtpDataMediaChannel.setRecvCodecs]
    split <;> exact h
  | setSendCodecs codecs =>
    simp only [RtpDataMediaChannel.call, RtpDataMediaChannel.setSendCodecs]
    split <;> exact h
  | addSendStream stream seqNum offset => exact h.addSendStream stream seqNum offset
  | removeSendStream ssrc => exact h.removeSendStream ssrc
  | addRecvStream stream =>
    simp only [RtpDataMediaChannel.call, RtpDataMediaChannel.addRecvStream]
    split
    · exact h
    · split <;> exact h
  | removeRecvStream ssrc => exact h
  | setSend send => exact h
  | setReceive receive => exact h
  | setSendBandwidth autobw bps => exact h
  | sendData x =>
    have halike := alike_step ch x
    intro stream hstream first rest hfirst hne
    rw [RtpDataMediaChannel.call, halike.clock]
    exact h stream (halike.sendStreams ▸ hstream) first rest hfirst hne

theorem clocked_run (calls : List Call) : Clocked (calls.foldl RtpDataMediaChannel.call new) := by
  have hrun : ∀ ch : RtpDataMediaChannel, Clocked ch → Clocked (calls.foldl RtpDataMediaChannel.call ch) := by
    induction calls with
    | nil => exact fun _ h => h
    | cons c rest ih => exact fun ch h => ih _ (h.call c)
  exact hrun new fun _ h => absurd h List.not_mem_nil

theorem getStreamBySsrc_isSome {streams : List StreamParams} {stream : StreamParams} {ssrc : UInt32}
    (hstream : stream ∈ streams) (hssrc : ssrc ∈ stream.ssrcs) (hne : ssrc ≠ 0) :
    (getStreamBySsrc streams ssrc).isSome := by
  rw [getStreamBySsrc, getStream, List.find?_isSome]
  exact ⟨stream, hstream, by simpa [StreamSelector.isMatch, hne, StreamParams.hasSsrc] using hssrc⟩

end History

end Libjingle.RtpDataMediaChannel
