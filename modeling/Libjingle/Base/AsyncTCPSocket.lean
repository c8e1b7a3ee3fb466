import Libjingle.Base.ByteBuffer
import Libjingle.Lib.FrameStream

/-! `AsyncTCPSocketBase` and `AsyncTCPSocket`: packets over a stream. What is not
taken by the socket at once stays in the out buffer, and nothing is sent meanwhile. -/

namespace Libjingle

open FrameStream

/-- What a call of `Send` came to. -/
inductive SendOutcome
  | failed
  | dropped
  | noProgress (res : Int)
  | sent
  deriving DecidableEq, Repr

/-- What `Send` returns for a packet of `cb` bytes. -/
def SendOutcome.result (cb : Nat) : SendOutcome → Int
  | failed => -1
  | dropped => cb
  | noProgress res => res
  | sent => cb

/-- The sizes and virtual methods of a packet socket over a stream: `Send`, which
is given the out buffer, the packet and how much the stream takes, and
`ProcessInput`. `Send` gives none where it writes behind the end of the out buffer. -/
structure AsyncTCPSocketBase where
  maxPacketSize : Nat
  send : List UInt8 → List UInt8 → Int → Option (SendOutcome × List UInt8 × List UInt8)
  processInput : List UInt8 → List (List UInt8) × List UInt8

namespace AsyncTCPSocketBase

/-- `Send` of the stream socket, which takes no more than it is given. -/
def socketSend (room : Int) (data : List UInt8) : Int := min room data.length

/-- `FlushOutBuffer`: the result, what the stream took and what is left. -/
def flushOutBuffer (outbuf : List UInt8) (room : Int) : Int × List UInt8 × List UInt8 :=
  let res := socketSend room outbuf
  if res ≤ 0 then (res, [], outbuf)
  else if res.toNat ≤ outbuf.length then (res, outbuf.take res.toNat, outbuf.drop res.toNat)
  else (-1, [], outbuf)

/-- `AppendToOutBuffer`, none where it writes behind the end. -/
def appendToOutBuffer (outsize : Nat) (outbuf pv : List UInt8) : Option (List UInt8) :=
  if outbuf.length + pv.length ≤ outsize then some (outbuf ++ pv) else none

/-- The end of `Send`: the parts of a frame are appended and flushed, and dropped
again when nothing of them was taken. -/
def sendParts (outsize : Nat) (outbuf : List UInt8) (parts : List (List UInt8)) (room : Int) :
    Option (SendOutcome × List UInt8 × List UInt8) := do
  let outbuf ← parts.foldlM (appendToOutBuffer outsize) outbuf
  let (res, taken, left) := flushOutBuffer outbuf room
  if res ≤ 0 then some (.noProgress res, taken, [])
  else some (.sent, taken, left)

/-- `OnReadEvent` with the bytes that were received: the packets that are signalled
and what stays in the in buffer. -/
def onReadEvent (M : AsyncTCPSocketBase) (inbuf received : List UInt8) :
    List (List UInt8) × List UInt8 :=
  let (packets, left) := M.processInput (inbuf ++ received)
  if left.length ≥ M.maxPacketSize then (packets, []) else (packets, left)

/-- One direction of a connection: the sender's out buffer, the bytes on the way,
the receiver's in buffer, and a record of the packets whose `Send` succeeded, of
those that were put in the stream and of those that were signalled. -/
structure Link where
  outbuf : List UInt8 := []
  wire : List UInt8 := []
  inbuf : List UInt8 := []
  accepted : List (List UInt8) := []
  queued : List (List UInt8) := []
  signalled : List (List UInt8) := []
  deriving DecidableEq

inductive Event
  | send (packet : List UInt8) (room : Int)
  | writeEvent (room : Int)
  | readEvent (count : Nat)

/-- None where a buffer is written behind its end. -/
def step (M : AsyncTCPSocketBase) (s : Link) : Event → Option Link
  | .send packet room => do
    let (outcome, taken, left) ← M.send s.outbuf packet room
    some { s with
      outbuf := left
      wire := s.wire ++ taken
      accepted := if outcome.result packet.length = packet.length then s.accepted ++ [packet]
        else s.accepted
      queued := if outcome = .sent then s.queued ++ [packet] else s.queued }
  | .writeEvent room =>
    if s.outbuf.length > 0 then
      let (_, taken, left) := flushOutBuffer s.outbuf room
      some { s with outbuf := left, wire := s.wire ++ taken }
    else some s
  | .readEvent count =>
    let received := s.wire.take (min count (M.maxPacketSize - s.inbuf.length))
    let (packets, left) := M.onReadEvent s.inbuf received
    some { s with
      wire := s.wire.drop (min count (M.maxPacketSize - s.inbuf.length))
      inbuf := left
      signalled := s.signalled ++ packets }

def run (M : AsyncTCPSocketBase) (s : Link) (events : List Event) : Option Link :=
  events.foldlM (step M) s

/-- Every event of a run meets a condition in the state it comes in. -/
def Meets (M : AsyncTCPSocketBase) (cond : Link → Event → Prop) : Link → List Event → Prop
  | _, [] => True
  | s, e :: rest => cond s e ∧ ∀ t, step M s e = some t → Meets M cond t rest

/-- The socket frames packets with a codec: `Send` puts one frame in an empty out
buffer or none, and `ProcessInput` takes frames off while there are complete ones.
`fits` tells the packets that `Send` frames within its buffer. -/
structure Frames (M : AsyncTCPSocketBase) (c : FrameStream.Codec (List UInt8) UInt8)
    (ok : List UInt8 → Prop) (fits : List UInt8 → List UInt8 → Prop) : Prop where
  reads : c.Reads ok
  processInput : ∀ data, M.processInput data = drain c.next data.length data
  next_bound : ∀ data, c.next data = none → data.length < M.maxPacketSize
  send : ∀ outbuf packet room, fits outbuf packet → outbuf.length ≤ M.maxPacketSize →
    ∃ outcome taken left, M.send outbuf packet room = some (outcome, taken, left) ∧
      (outcome ≠ .sent ∧ taken = [] ∧ left = outbuf ∨
        outcome = .sent ∧ outbuf = [] ∧ ok packet ∧ taken ++ left = c.frame packet ∧
          left.length ≤ M.maxPacketSize)

/-- The packets put in the stream are those signalled and those whose frames are
still in a buffer or on the way. -/
structure Carries (M : AsyncTCPSocketBase) (c : FrameStream.Codec (List UInt8) UInt8)
    (ok : List UInt8 → Prop) (s : Link) : Prop where
  queued_accepted : s.queued.Sublist s.accepted
  queued_ok : ∀ packet ∈ s.queued, ok packet
  stream : ∃ todo, s.queued = s.signalled ++ todo ∧
    s.inbuf ++ (s.wire ++ s.outbuf) = todo.flatMap c.frame
  partial_left : c.next s.inbuf = none
  outbuf_le : s.outbuf.length ≤ M.maxPacketSize

theorem flushOutBuffer_spec (outbuf : List UInt8) (room : Int) :
    ∃ res taken left, flushOutBuffer outbuf room = (res, taken, left) ∧ taken ++ left = outbuf ∧
      (res ≤ 0 → taken = []) ∧ left.length ≤ outbuf.length := by
  rw [flushOutBuffer]
  split
  · exact ⟨_, [], outbuf, rfl, rfl, fun _ => rfl, Nat.le_refl _⟩
  · rename_i hpos
    split
    · refine ⟨_, _, _, rfl, List.take_append_drop _ _, fun hle => absurd hle hpos, ?_⟩
      rw [List.length_drop]
      exact Nat.sub_le _ _
    · exact ⟨_, [], outbuf, rfl, rfl, fun _ => rfl, Nat.le_refl _⟩

theorem foldlM_appendToOutBuffer {outsize : Nat} {outbuf : List UInt8} {parts : List (List UInt8)}
    (h : outbuf.length + parts.flatten.length ≤ outsize) :
    parts.foldlM (appendToOutBuffer outsize) outbuf = some (outbuf ++ parts.flatten) := by
  induction parts generalizing outbuf with
  | nil => simp
  | cons pv rest ih =>
    rw [List.flatten_cons, List.length_append] at h
    have hstep : appendToOutBuffer outsize outbuf pv = some (outbuf ++ pv) := if_pos (by omega)
    rw [List.foldlM_cons, hstep, Option.bind_eq_bind, Option.bind_some,
      ih (by rw [List.length_append]; omega), List.flatten_cons, List.append_assoc]

theorem sendParts_spec {outsize : Nat} {parts : List (List UInt8)} (room : Int)
    (h : parts.flatten.length ≤ outsize) :
    ∃ outcome taken left, sendParts outsize [] parts room = some (outcome, taken, left) ∧
      (outcome ≠ .sent ∧ taken = [] ∧ left = [] ∨
        outcome = .sent ∧ taken ++ left = parts.flatten ∧ left.length ≤ outsize) := by
  have hroom : ([] : List UInt8).length + parts.flatten.length ≤ outsize := by
    rw [List.length_nil, Nat.zero_add]
    exact h
  have happend := foldlM_appendToOutBuffer hroom
  obtain ⟨res, taken, left, hflush, hall, hnone, hlen⟩ := flushOutBuffer_spec parts.flatten room
  rw [sendParts, happend]
  simp only [Option.bind_eq_bind, Option.bind_some, List.nil_append, hflush]
  split
  · rename_i hle
    exact ⟨_, _, _, rfl, .inl ⟨SendOutcome.noConfusion, hnone hle, rfl⟩⟩
  · exact ⟨_, _, _, rfl, .inr ⟨rfl, hall, Nat.le_trans hlen h⟩⟩

section

variable {M : AsyncTCPSocketBase} {c : FrameStream.Codec (List UInt8) UInt8} {ok : List UInt8 → Prop}
  {fits : List UInt8 → List UInt8 → Prop}

def SendFits (fits : List UInt8 → List UInt8 → Prop) (s : Link) : Event → Prop
  | .send packet _ => fits s.outbuf packet
  | _ => True

theorem Frames.onReadEvent (h : Frames M c ok fits) (inbuf received : List UInt8) :
    M.onReadEvent inbuf received =
      drain c.next (inbuf ++ received).length (inbuf ++ received) ∧
    c.next (M.onReadEvent inbuf received).2 = none := by
  have hnone := next_drain h.reads.shrinks h.reads.next_nil (Nat.le_refl (inbuf ++ received).length)
  have hlt := h.next_bound _ hnone
  have heq : M.onReadEvent inbuf received =
      drain c.next (inbuf ++ received).length (inbuf ++ received) := by
    rw [AsyncTCPSocketBase.onReadEvent, h.processInput]
    exact if_neg (Nat.not_le.mpr hlt)
  exact ⟨heq, by rw [heq]; exact hnone⟩

theorem Carries.step (h : Frames M c ok fits) {s : Link} (hs : Carries M c ok s) {e : Event}
    (hfits : SendFits fits s e) : ∃ t, AsyncTCPSocketBase.step M s e = some t ∧ Carries M c ok t := by
  obtain ⟨todo, hqueued, hstream⟩ := hs.stream
  cases e with
  | send packet room =>
    obtain ⟨outcome, taken, left, hsend, hcase⟩ := h.send s.outbuf packet room hfits hs.outbuf_le
    rw [AsyncTCPSocketBase.step, hsend]
    refine ⟨_, rfl, ?_⟩
    rcases hcase with ⟨hne, rfl, rfl⟩ | ⟨rfl, hempty, hok, hframe, hlen⟩
    · simp only [hne, if_false, List.append_nil]
      refine ⟨?_, hs.queued_ok, ⟨todo, hqueued, hstream⟩, hs.partial_left, hs.outbuf_le⟩
      dsimp only
      split
      · exact hs.queued_accepted.trans (List.sublist_append_left _ _)
      · exact hs.queued_accepted
    · have hresult : SendOutcome.sent.result packet.length = packet.length := rfl
      simp only [hresult, if_true]
      refine ⟨hs.queued_accepted.append (List.Sublist.refl _), ?_, ⟨todo ++ [packet], ?_, ?_⟩,
        hs.partial_left, hlen⟩
      · intro p hp
        rcases List.mem_append.mp hp with hp | hp
        · exact hs.queued_ok p hp
        · rw [List.mem_singleton.mp hp]
          exact hok
      · simp only [hqueued, List.append_assoc]
      · rw [hempty, List.append_nil] at hstream
        simp only [List.flatMap_append, List.flatMap_singleton, ← hstream, ← hframe,
          List.append_assoc]
  | writeEvent room =>
    rw [AsyncTCPSocketBase.step]
    split
    · obtain ⟨res, taken, left, hflush, hall, -, hlen⟩ := flushOutBuffer_spec s.outbuf room
      simp only [hflush]
      refine ⟨_, rfl, hs.queued_accepted, hs.queued_ok, ⟨todo, hqueued, ?_⟩, hs.partial_left,
        Nat.le_trans hlen hs.outbuf_le⟩
      simp only [List.append_assoc, hall, hstream]
    · exact ⟨s, rfl, hs⟩
  | readEvent count =>
    obtain ⟨received, hreceived⟩ : ∃ received, received =
      s.wire.take (min count (M.maxPacketSize - s.inbuf.length)) := ⟨_, rfl⟩
    obtain ⟨hdrain, hnone⟩ := h.onReadEvent s.inbuf received
    have hok : ∀ p ∈ todo, ok p := fun p hp => hs.queued_ok p (by
      rw [hqueued]
      exact List.mem_append_right _ hp)
    have hsplit : (s.inbuf ++ received) ++
        (s.wire.drop (min count (M.maxPacketSize - s.inbuf.length)) ++ s.outbuf) =
          todo.flatMap c.frame := by
      rw [← hstream, hreceived, List.append_assoc, ← List.append_assoc (List.take _ _),
        List.take_append_drop]
    obtain ⟨todo', htodo, hrest⟩ := h.reads.drain_frames hok (Nat.le_refl _) hsplit
    rw [← hdrain] at htodo hrest
    rw [AsyncTCPSocketBase.step, ← hreceived]
    refine ⟨{ s with
      wire := s.wire.drop (min count (M.maxPacketSize - s.inbuf.length))
      inbuf := (M.onReadEvent s.inbuf received).2
      signalled := s.signalled ++ (M.onReadEvent s.inbuf received).1 }, rfl, hs.queued_accepted,
      hs.queued_ok, ⟨todo', ?_, hrest⟩, hnone, hs.outbuf_le⟩
    rw [hqueued, htodo, List.append_assoc]

/-- Every run whose packets fit is one without writes behind the end of a buffer,
and leaves a link that carries its packets. -/
theorem Carries.run (h : Frames M c ok fits) {events : List Event} {s : Link}
    (hs : Carries M c ok s) (hfits : Meets M (SendFits fits) s events) :
    ∃ t, AsyncTCPSocketBase.run M s events = some t ∧ Carries M c ok t := by
  induction events generalizing s with
  | nil => exact ⟨s, rfl, hs⟩
  | cons e rest ih =>
    obtain ⟨t, hstep, ht⟩ := hs.step h hfits.1
    obtain ⟨u, hrun, hu⟩ := ih ht (hfits.2 t hstep)
    refine ⟨u, ?_, hu⟩
    rw [AsyncTCPSocketBase.run, List.foldlM_cons, hstep]
    exact hrun

theorem Frames.initial (h : Frames M c ok fits) : Carries M c ok {} where
  queued_accepted := List.Sublist.refl _
  queued_ok := fun _ hp => absurd hp List.not_mem_nil
  stream := ⟨[], rfl, rfl⟩
  partial_left := h.reads.next_nil
  outbuf_le := Nat.zero_le _

end

end AsyncTCPSocketBase

namespace AsyncTCPSocket

open AsyncTCPSocketBase

def maxPacketSize : Nat := 64 * 1024

def packetLenSize : Nat := 2

def bufSize : Nat := maxPacketSize + packetLenSize

def send (outbuf pv : List UInt8) (room : Int) : Option (SendOutcome × List UInt8 × List UInt8) :=
  if pv.length > bufSize then some (.failed, [], outbuf)
  -- While the out buffer is not empty packets are dropped silently.
  else if outbuf ≠ [] then some (.dropped, [], outbuf)
  else sendParts bufSize outbuf [shortToBytes (UInt16.ofNat pv.length), pv] room

/-- One round of `ProcessInput`: the packet that is signalled and what is left. -/
def nextPacket (data : List UInt8) : Option (List UInt8 × List UInt8) :=
  if data.length < packetLenSize then none
  else
    let pktLen := (getBE16 data 0).toNat
    if data.length < packetLenSize + pktLen then none
    else some ((data.drop packetLenSize).take pktLen, data.drop (packetLenSize + pktLen))

def processInput (data : List UInt8) : List (List UInt8) × List UInt8 :=
  drain nextPacket data.length data

end AsyncTCPSocket

open AsyncTCPSocketBase in
def AsyncTCPSocket : AsyncTCPSocketBase where
  maxPacketSize := AsyncTCPSocket.bufSize
  send := AsyncTCPSocket.send
  processInput := AsyncTCPSocket.processInput

namespace AsyncTCPSocket

open AsyncTCPSocketBase

def codec : FrameStream.Codec (List UInt8) UInt8 where
  frame := fun pv => shortToBytes (UInt16.ofNat pv.length) ++ pv
  next := nextPacket

def PacketOk (pv : List UInt8) : Prop := pv.length ≤ 65535

/-- A packet that goes into an empty out buffer has a length that the prefix can
say, or one that is refused. -/
def Fits (outbuf pv : List UInt8) : Prop := outbuf = [] → pv.length ≤ 65535 ∨ pv.length > bufSize

theorem nextPacket_shrinks : Shrinks nextPacket := by
  intro data pv rest h
  simp only [nextPacket] at h
  split at h
  · cases h
  · rename_i hlen
    split at h
    · cases h
    · obtain ⟨-, rfl⟩ := Prod.mk.inj (Option.some.inj h)
      rw [List.length_drop]
      simp only [packetLenSize] at hlen ⊢
      omega

theorem nextPacket_frame {pv : List UInt8} (hok : PacketOk pv) (rest : List UInt8) :
    nextPacket (codec.frame pv ++ rest) = some (pv, rest) := by
  have hlen : (UInt16.ofNat pv.length).toNat = pv.length :=
    UInt16.toNat_ofNat_of_lt' (Nat.lt_succ_of_le hok)
  have hfield : getBE16 (codec.frame pv ++ rest) 0 = UInt16.ofNat pv.length :=
    getBE16_append [] (pv ++ rest) rfl (List.append_assoc _ _ _)
  have hprefix : (shortToBytes (UInt16.ofNat pv.length)).length = packetLenSize :=
    length_shortToBytes _
  have hframe : (codec.frame pv).length = packetLenSize + pv.length := by
    simp only [codec, List.length_append, hprefix]
  have hsize : (codec.frame pv ++ rest).length = packetLenSize + pv.length + rest.length := by
    rw [List.length_append, hframe]
  have hdrop : (codec.frame pv ++ rest).drop packetLenSize = pv ++ rest := by
    simp only [codec, List.append_assoc]
    exact List.drop_left' hprefix
  have hpv : (pv ++ rest).take pv.length = pv := List.take_left' rfl
  have hrest : (codec.frame pv ++ rest).drop (packetLenSize + pv.length) = rest :=
    List.drop_left' hframe
  simp only [nextPacket, hfield, hlen]
  rw [if_neg (by omega), if_neg (by omega), hdrop, hpv, hrest]

theorem nextPacket_cut {pv buf more : List UInt8} (hok : PacketOk pv)
    (hframe : buf ++ more = codec.frame pv) (hmore : more ≠ []) : nextPacket buf = none := by
  have hprefix : (shortToBytes (UInt16.ofNat pv.length)).length = packetLenSize :=
    length_shortToBytes _
  rw [nextPacket]
  split
  · rfl
  · rename_i hlen
    simp only [codec] at hframe
    obtain ⟨cut, rfl, hcut⟩ : ∃ cut, buf = shortToBytes (UInt16.ofNat pv.length) ++ cut ∧
        pv = cut ++ more := by
      rcases List.append_eq_append_iff.mp hframe with ⟨short, hshort, hrest⟩ | ⟨cut, hbuf, hpv⟩
      · have hlength := congrArg List.length hshort
        rw [List.length_append, hprefix] at hlength
        obtain rfl : short = [] := List.eq_nil_of_length_eq_zero (by omega)
        rw [List.append_nil] at hshort
        rw [List.nil_append] at hrest
        exact ⟨[], by rw [hshort, List.append_nil], by rw [hrest, List.nil_append]⟩
      · exact ⟨cut, hbuf, hpv⟩
    have hfield : getBE16 (shortToBytes (UInt16.ofNat pv.length) ++ cut) 0 =
        UInt16.ofNat pv.length := getBE16_append [] cut rfl rfl
    have htoNat : (UInt16.ofNat pv.length).toNat = pv.length :=
      UInt16.toNat_ofNat_of_lt' (Nat.lt_succ_of_le hok)
    have hpos : 0 < more.length := List.length_pos_iff.mpr hmore
    have hsum := congrArg List.length hcut
    rw [List.length_append] at hsum
    simp only [hfield, htoNat, List.length_append, hprefix]
    rw [if_pos (by omega)]

theorem nextPacket_bound {data : List UInt8} (h : nextPacket data = none) :
    data.length < bufSize := by
  have hlt := (getBE16 data 0).toNat_lt
  simp only [nextPacket] at h
  split at h
  · rename_i hlen
    simp only [packetLenSize] at hlen
    simp only [bufSize, maxPacketSize, packetLenSize]
    omega
  · split at h
    · rename_i hlen
      simp only [packetLenSize] at hlen
      simp only [bufSize, maxPacketSize, packetLenSize]
      omega
    · cases h

theorem frames : AsyncTCPSocket.Frames codec PacketOk Fits where
  reads := {
    next_nil := rfl
    shrinks := nextPacket_shrinks
    next_frame := fun _ rest hok => nextPacket_frame hok rest
    next_cut := fun _ _ _ hok => nextPacket_cut hok }
  processInput := fun _ => rfl
  next_bound := fun _ h => nextPacket_bound h
  send := by
    intro outbuf pv room hfits hle
    change ∃ outcome taken left, send outbuf pv room = some (outcome, taken, left) ∧ _
    rw [send]
    split
    · exact ⟨_, _, _, rfl, .inl ⟨SendOutcome.noConfusion, rfl, rfl⟩⟩
    · rename_i hsmall
      split
      · exact ⟨_, _, _, rfl, .inl ⟨SendOutcome.noConfusion, rfl, rfl⟩⟩
      · rename_i hempty
        obtain rfl := not_not.mp hempty
        have hok : pv.length ≤ 65535 := (hfits rfl).resolve_right hsmall
        have hframe : [shortToBytes (UInt16.ofNat pv.length), pv].flatten = codec.frame pv := by
          simp only [codec, List.flatten_cons, List.flatten_nil, List.append_nil]
        have hlen : [shortToBytes (UInt16.ofNat pv.length), pv].flatten.length ≤ bufSize := by
          simp only [List.flatten_cons, List.flatten_nil, List.append_nil, List.length_append,
            length_shortToBytes, bufSize, maxPacketSize, packetLenSize]
          omega
        obtain ⟨outcome, taken, left, hsend, hcase⟩ := sendParts_spec room hlen
        refine ⟨outcome, taken, left, hsend, ?_⟩
        rcases hcase with hdropped | ⟨hsent, hall, hleft⟩
        · exact .inl hdropped
        · exact .inr ⟨hsent, rfl, hok, hall.trans hframe, hleft⟩

structure KeepsPackets (s : Link) : Prop where
  subsequence : s.signalled.Sublist s.accepted
  inbuf_lt : s.inbuf.length < bufSize
  outbuf_le : s.outbuf.length ≤ bufSize

/-- Packets of a length that the prefix can say are signalled as they were sent,
and no buffer is written behind its end. -/
theorem keepsPackets_run {events : List Event}
    (hfits : Meets AsyncTCPSocket (SendFits Fits) {} events) :
    ∃ s, run AsyncTCPSocket {} events = some s ∧ KeepsPackets s := by
  obtain ⟨s, hrun, hs⟩ := frames.initial.run frames hfits
  obtain ⟨todo, hqueued, -⟩ := hs.stream
  refine ⟨s, hrun, ?_, nextPacket_bound hs.partial_left, hs.outbuf_le⟩
  refine List.Sublist.trans ?_ hs.queued_accepted
  rw [hqueued]
  exact List.sublist_append_left _ _

theorem keepsPackets_run_pair :
    ∃ s, run AsyncTCPSocket {} [.send [1, 2, 3] 2, .send [4] 9, .readEvent 1, .writeEvent 9,
      .send [] 9, .readEvent 5, .readEvent 5] = some s ∧ KeepsPackets s ∧
      s.signalled = [[1, 2, 3], []] := by
  have hfits : Meets AsyncTCPSocket (SendFits Fits) {} [.send [1, 2, 3] 2, .send [4] 9, .readEvent 1,
      .writeEvent 9, .send [] 9, .readEvent 5, .readEvent 5] := by
    refine ⟨fun _ => .inl (by decide), fun _ _ => ⟨fun _ => .inl (by decide), fun _ _ =>
      ⟨trivial, fun _ _ => ⟨trivial, fun _ _ => ⟨fun _ => .inl (by decide), fun _ _ =>
        ⟨trivial, fun _ _ => ⟨trivial, fun _ _ => trivial⟩⟩⟩⟩⟩⟩⟩
  obtain ⟨s, hrun, hs⟩ := keepsPackets_run hfits
  refine ⟨s, hrun, hs, ?_⟩
  have hvalue : run AsyncTCPSocket {} [.send [1, 2, 3] 2, .send [4] 9, .readEvent 1,
      .writeEvent 9, .send [] 9, .readEvent 5, .readEvent 5] =
      some { accepted := [[1, 2, 3], [4], []], queued := [[1, 2, 3], []],
             signalled := [[1, 2, 3], []] } := by
    decide
  obtain rfl := Option.some.inj (hrun.symm.trans hvalue)
  rfl

/-- A length of 65536 is sent as 0, and an empty packet that nobody sent comes
out first. -/
theorem run_long {pv : List UInt8} (hlen : pv.length = 65536) :
    run AsyncTCPSocket {} [.send pv 2, .readEvent 2] =
      some { outbuf := pv, accepted := [pv], queued := [pv], signalled := [[]] } := by
  have hprefix : shortToBytes (UInt16.ofNat pv.length) = [0, 0] := by
    rw [hlen]
    decide
  have happend : [shortToBytes (UInt16.ofNat pv.length), pv].foldlM (appendToOutBuffer bufSize) [] =
      some ([] ++ [shortToBytes (UInt16.ofNat pv.length), pv].flatten) := by
    refine foldlM_appendToOutBuffer ?_
    simp only [List.flatten_cons, List.flatten_nil, List.append_nil, List.length_append,
      length_shortToBytes, List.length_nil, hlen, bufSize, maxPacketSize, packetLenSize]
    decide
  have hflush : flushOutBuffer (0 :: 0 :: pv) 2 = (2, [0, 0], pv) := by
    have hmin : socketSend 2 (0 :: 0 :: pv) = 2 := by
      rw [socketSend, List.length_cons, List.length_cons, hlen]
      decide
    have hfits : (2 : Int).toNat ≤ (0 :: 0 :: pv).length := by simp
    rw [flushOutBuffer]
    simp only [hmin, hfits, if_true]
    rfl
  have hsend : send [] pv 2 = some (.sent, [0, 0], pv) := by
    have hsmall : ¬ pv.length > bufSize := by
      rw [hlen]
      decide
    rw [send, if_neg hsmall, if_neg (not_not.mpr rfl), sendParts, happend, hprefix]
    simp only [Option.bind_eq_bind, Option.bind_some, List.flatten_cons, List.flatten_nil,
      List.append_nil, List.nil_append, List.cons_append, hflush]
    rfl
  have hstep : step AsyncTCPSocket {} (.send pv 2) =
      some { outbuf := pv, wire := [0, 0], accepted := [pv], queued := [pv] } := by
    change (send [] pv 2).bind _ = _
    have hresult : SendOutcome.sent.result pv.length = pv.length := rfl
    simp only [hsend, Option.bind_some, hresult, if_true, List.nil_append]
  rw [run, List.foldlM_cons, hstep]
  rfl

theorem run_longer {pv : List UInt8} (hlen : pv.length = 65537) :
    run AsyncTCPSocket {} [.send pv 2] = none := by
  have hsmall : ¬ pv.length > bufSize := by
    rw [hlen]
    decide
  have hfirst : appendToOutBuffer bufSize [] (shortToBytes (UInt16.ofNat pv.length)) =
      some (shortToBytes (UInt16.ofNat pv.length)) := if_pos (by
    rw [length_shortToBytes]
    decide)
  have hsecond : appendToOutBuffer bufSize (shortToBytes (UInt16.ofNat pv.length)) pv = none :=
    if_neg (by
      rw [length_shortToBytes, hlen]
      decide)
  have hsend : send [] pv 2 = none := by
    rw [send, if_neg hsmall, if_neg (not_not.mpr rfl), sendParts]
    simp only [List.foldlM_cons, hfirst, hsecond, Option.bind_eq_bind, Option.bind_some,
      Option.bind_none]
  rw [run, List.foldlM_cons]
  change ((send [] pv 2).bind _).bind _ = none
  rw [hsend]
  rfl

/-- Neither is what was promised. -/
theorem long_packets_break :
    (∃ s, run AsyncTCPSocket {} [.send (List.replicate 65536 0) 2, .readEvent 2] = some s ∧
      ¬ KeepsPackets s) ∧
    run AsyncTCPSocket {} [.send (List.replicate 65537 0) 2] = none := by
  refine ⟨⟨_, run_long List.length_replicate, fun h => ?_⟩, run_longer List.length_replicate⟩
  have hmem := h.subsequence.subset List.mem_cons_self
  have hlen := congrArg List.length (List.mem_singleton.mp hmem)
  rw [List.length_replicate] at hlen
  exact absurd hlen (by decide)

end AsyncTCPSocket

end Libjingle
