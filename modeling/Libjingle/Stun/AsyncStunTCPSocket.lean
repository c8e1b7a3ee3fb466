import Libjingle.Base.AsyncTCPSocket
import Libjingle.Stun.Message

/-! `AsyncStunTCPSocket`: STUN messages and TURN ChannelData over a stream. Their
own headers say where a packet ends; ChannelData is padded to four bytes. -/

namespace Libjingle

open FrameStream AsyncTCPSocketBase

namespace AsyncStunTCPSocket

def maxPacketSize : Nat := 64 * 1024

def packetLenSize : Nat := 2

def packetLenOffset : Nat := 2

def bufSize : Nat := maxPacketSize + StunMessage.stunHeaderSize

def turnChannelDataHdrSize : Nat := 4

/-- The first two bits of a channel data message are not both 0. -/
def isStunMessage (msgType : UInt16) : Bool := msgType &&& 0xc000 = 0

def getExpectedLength (data : List UInt8) : Nat × Nat :=
  let pktLen := (getBE16 data packetLenOffset).toNat
  let msgType := getBE16 data 0
  if isStunMessage msgType then (StunMessage.stunHeaderSize + pktLen, 0)
  else
    let expectedPktLen := turnChannelDataHdrSize + pktLen
    (expectedPktLen, if expectedPktLen % 4 ≠ 0 then 4 - expectedPktLen % 4 else 0)

def send (outbuf pv : List UInt8) (room : Int) : Option (SendOutcome × List UInt8 × List UInt8) :=
  if pv.length > bufSize ∨ pv.length < packetLenSize + packetLenOffset then
    some (.failed, [], outbuf)
  else if outbuf ≠ [] then some (.dropped, [], outbuf)
  else
    let (expectedPktLen, padBytes) := getExpectedLength pv
    -- Only complete packets are accepted.
    if pv.length ≠ expectedPktLen then some (.failed, [], outbuf)
    else sendParts bufSize outbuf [pv, List.replicate padBytes 0] room

/-- One round of `ProcessInput`: the packet that is signalled and what is left. -/
def nextPacket (data : List UInt8) : Option (List UInt8 × List UInt8) :=
  if data.length < packetLenOffset + packetLenSize then none
  else
    let (expectedPktLen, padBytes) := getExpectedLength data
    let actualLength := expectedPktLen + padBytes
    if data.length < actualLength then none
    else some (data.take expectedPktLen, data.drop actualLength)

def processInput (data : List UInt8) : List (List UInt8) × List UInt8 :=
  drain nextPacket data.length data

end AsyncStunTCPSocket

def AsyncStunTCPSocket : AsyncTCPSocketBase where
  maxPacketSize := AsyncStunTCPSocket.bufSize
  send := AsyncStunTCPSocket.send
  processInput := AsyncStunTCPSocket.processInput

namespace AsyncStunTCPSocket

def codec : FrameStream.Codec (List UInt8) UInt8 where
  frame := fun pv => pv ++ List.replicate (getExpectedLength pv).2 0
  next := nextPacket

def Complete (pv : List UInt8) : Prop := 4 ≤ pv.length ∧ (getExpectedLength pv).1 = pv.length

theorem getExpectedLength_append {pv : List UInt8} (h : 4 ≤ pv.length) (rest : List UInt8) :
    getExpectedLength (pv ++ rest) = getExpectedLength pv := by
  have hfield : ∀ pos, pos + 2 ≤ 4 → getBE16 (pv ++ rest) pos = getBE16 pv pos := by
    intro pos hpos
    have htake : ((pv ++ rest).drop pos).take 2 = (pv.drop pos).take 2 := by
      rw [List.drop_append_of_le_length (by omega), List.take_append_of_le_length]
      rw [List.length_drop]
      omega
    rw [getBE16, getBE16, htake]
  have htype := hfield 0 (by decide)
  have hlength := hfield packetLenOffset (by decide)
  simp only [getExpectedLength, htype, hlength]

theorem getExpectedLength_bound (data : List UInt8) :
    4 ≤ (getExpectedLength data).1 ∧ (getExpectedLength data).2 < 4 ∧
      (getExpectedLength data).1 + (getExpectedLength data).2 < bufSize := by
  have hlt := (getBE16 data packetLenOffset).toNat_lt
  have hshape : getExpectedLength data = (20 + (getBE16 data packetLenOffset).toNat, 0) ∨
      ∃ pad < 4, getExpectedLength data = (4 + (getBE16 data packetLenOffset).toNat, pad) := by
    by_cases hstun : isStunMessage (getBE16 data 0) = true
    · exact .inl (if_pos hstun)
    · refine .inr ⟨_, ?_, if_neg hstun⟩
      split <;> omega
  have hbuf : bufSize = 65556 := rfl
  rcases hshape with hshape | ⟨pad, hpad, hshape⟩ <;> rw [hshape, hbuf] <;> dsimp only <;> omega

theorem nextPacket_eq_some {data pv rest : List UInt8} :
    nextPacket data = some (pv, rest) ↔ ∃ padding, data = pv ++ (padding ++ rest) ∧ Complete pv ∧
      padding.length = (getExpectedLength pv).2 := by
  constructor
  · intro h
    obtain ⟨hfour, -, -⟩ := getExpectedLength_bound data
    simp only [nextPacket] at h
    split at h
    · cases h
    · split at h
      · cases h
      · rename_i hlen
        obtain ⟨rfl, rfl⟩ := Prod.mk.inj (Option.some.inj h)
        obtain ⟨expected, hexpected⟩ : ∃ n, n = (getExpectedLength data).1 := ⟨_, rfl⟩
        have htake : (data.take expected).length = expected := by
          rw [List.length_take]
          omega
        have hsame : getExpectedLength data = getExpectedLength (data.take expected) := by
          have happend := getExpectedLength_append
            (show 4 ≤ (data.take expected).length by omega) (data.drop expected)
          rwa [List.take_append_drop] at happend
        rw [← hexpected] at hlen hfour ⊢
        refine ⟨(data.drop expected).take (getExpectedLength data).2, ?_, ⟨by omega, ?_⟩, ?_⟩
        · have hdrop : data.drop (expected + (getExpectedLength data).2) =
              (data.drop expected).drop (getExpectedLength data).2 := by
            rw [List.drop_drop]
          rw [hdrop, List.take_append_drop, List.take_append_drop]
        · rw [← hsame, ← hexpected, htake]
        · rw [List.length_take, List.length_drop, ← hsame]
          omega
  · rintro ⟨padding, rfl, ⟨hfour, hlen⟩, hpad⟩
    have hsame := getExpectedLength_append hfour (padding ++ rest)
    simp only [nextPacket, hsame, hlen, packetLenOffset, packetLenSize, List.length_append]
    rw [if_neg (by omega), if_neg (by omega), List.take_left' rfl, ← List.append_assoc,
      List.drop_left' (by rw [List.length_append, hpad])]

theorem nextPacket_cut {pv buf more : List UInt8} (hok : Complete pv)
    (hframe : buf ++ more = codec.frame pv) (hmore : more ≠ []) : nextPacket buf = none := by
  by_contra hne
  obtain ⟨⟨pv', rest⟩, hread⟩ := Option.ne_none_iff_exists'.mp hne
  obtain ⟨padding, hbuf, ⟨hfour, hlen⟩, hpad⟩ := nextPacket_eq_some.mp hread
  have hsame := getExpectedLength_append hfour (padding ++ rest ++ more)
  have hsame' := getExpectedLength_append hok.1 (List.replicate (getExpectedLength pv).2 0)
  have hpos : 0 < more.length := List.length_pos_iff.mpr hmore
  have hlength := congrArg List.length hframe
  simp only [hbuf, codec] at hframe
  rw [← List.append_assoc, hframe, hsame'] at hsame
  rw [← hsame] at hlen hpad
  have hpv := hok.2
  simp only [codec, hbuf, List.length_append, List.length_replicate, hpad, ← hlen, ← hpv] at hlength
  omega

theorem nextPacket_bound {data : List UInt8} (h : nextPacket data = none) :
    data.length < 4 ∨ data.length < (getExpectedLength data).1 + (getExpectedLength data).2 := by
  simp only [nextPacket] at h
  split at h
  · rename_i hlen
    exact .inl hlen
  · split at h
    · rename_i hlen
      exact .inr hlen
    · cases h

theorem length_lt_bufSize {data : List UInt8} (h : nextPacket data = none) :
    data.length < bufSize := by
  have hbound := (getExpectedLength_bound data).2.2
  have hfour : 4 < bufSize := by decide
  rcases nextPacket_bound h with hlen | hlen <;> omega

theorem nextPacket_shrinks : Shrinks nextPacket := by
  intro data pv rest h
  obtain ⟨padding, rfl, ⟨hfour, -⟩, -⟩ := nextPacket_eq_some.mp h
  simp only [List.length_append]
  omega

theorem frames : AsyncStunTCPSocket.Frames codec Complete fun _ _ => True where
  reads := {
    next_nil := rfl
    shrinks := nextPacket_shrinks
    next_frame := fun pv rest hok => nextPacket_eq_some.mpr
      ⟨List.replicate (getExpectedLength pv).2 0, List.append_assoc _ _ _, hok,
        List.length_replicate⟩
    next_cut := fun _ _ _ hok => nextPacket_cut hok }
  processInput := fun _ => rfl
  next_bound := fun _ h => length_lt_bufSize h
  send := by
    intro outbuf pv room _ hle
    change ∃ outcome taken left, send outbuf pv room = some (outcome, taken, left) ∧ _
    rw [send]
    split
    · exact ⟨_, _, _, rfl, .inl ⟨SendOutcome.noConfusion, rfl, rfl⟩⟩
    · rename_i hsize
      split
      · exact ⟨_, _, _, rfl, .inl ⟨SendOutcome.noConfusion, rfl, rfl⟩⟩
      · rename_i hempty
        obtain rfl := not_not.mp hempty
        dsimp only
        split
        · exact ⟨_, _, _, rfl, .inl ⟨SendOutcome.noConfusion, rfl, rfl⟩⟩
        · rename_i hexpected
          have hok : Complete pv := by
            refine ⟨?_, (not_not.mp hexpected).symm⟩
            simp only [packetLenSize, packetLenOffset] at hsize
            omega
          have hframe : [pv, List.replicate (getExpectedLength pv).2 0].flatten = codec.frame pv := by
            simp only [codec, List.flatten_cons, List.flatten_nil, List.append_nil]
          have hlen : [pv, List.replicate (getExpectedLength pv).2 0].flatten.length ≤ bufSize := by
            have hbound := (getExpectedLength_bound pv).2.2
            rw [hok.2] at hbound
            simp only [List.flatten_cons, List.flatten_nil, List.append_nil, List.length_append,
              List.length_replicate]
            omega
          obtain ⟨outcome, taken, left, hsend, hcase⟩ := sendParts_spec room hlen
          refine ⟨outcome, taken, left, hsend, ?_⟩
          rcases hcase with hdropped | ⟨hsent, hall, hleft⟩
          · exact .inl hdropped
          · exact .inr ⟨hsent, rfl, hok, hall.trans hframe, hleft⟩

/-- The packets that were put in the stream are signalled in order and without
padding; those that are not yet signalled are still under way. -/
structure KeepsStream (s : AsyncTCPSocketBase.Link) : Prop where
  accepted : s.queued.Sublist s.accepted
  signalled : ∃ todo, s.queued = s.signalled ++ todo ∧
    s.inbuf ++ (s.wire ++ s.outbuf) = todo.flatMap codec.frame
  arrived : s.inbuf = [] → s.wire = [] → s.outbuf = [] → s.signalled = s.queued

/-- What `ProcessInput` does with any bytes: it stops, signals packets from within
them that are as long as their headers say, and leaves less than a packet. -/
structure ProcessesAny (data : List UInt8) : Prop where
  stops : ∀ buf pv rest, nextPacket buf = some (pv, rest) → rest.length < buf.length
  fuel : ∀ fuel, data.length ≤ fuel → drain nextPacket fuel data = processInput data
  inside : ∀ pv ∈ (processInput data).1, ∃ pre post, data = pre ++ (pv ++ post) ∧
    4 ≤ pv.length ∧ (getExpectedLength pv).1 = pv.length
  left_partial : (processInput data).2.length < 4 ∨ (processInput data).2.length <
    (getExpectedLength (processInput data).2).1 + (getExpectedLength (processInput data).2).2
  no_overflow : (processInput data).2.length < bufSize

theorem processesAny (data : List UInt8) : ProcessesAny data := by
  have hnone : nextPacket (processInput data).2 = none :=
    next_drain nextPacket_shrinks rfl (Nat.le_refl _)
  refine ⟨nextPacket_shrinks, fun fuel h => drain_fuel nextPacket_shrinks rfl h (Nat.le_refl _),
    fun pv hpv => ?_, nextPacket_bound hnone, length_lt_bufSize hnone⟩
  have hpacket : ∀ buf pv rest, nextPacket buf = some (pv, rest) →
      ∃ taken, buf = taken ++ rest ∧ ∃ padding, taken = pv ++ padding ∧ Complete pv := by
    intro buf pv rest h
    obtain ⟨padding, hbuf, hok, -⟩ := nextPacket_eq_some.mp h
    exact ⟨pv ++ padding, by rw [hbuf, List.append_assoc], padding, rfl, hok⟩
  obtain ⟨pre, taken, post, hdata, padding, rfl, hok⟩ := mem_drain hpacket hpv
  exact ⟨pre, padding ++ post, by rw [hdata, List.append_assoc], hok.1, hok.2⟩

/-- Whatever is passed to `Send` and however the stream is cut, the packets that
were accepted and not dropped arrive, and any bytes at all are handled within the
in buffer. -/
theorem keepsStream_run :
    (∀ events, ∃ s, run AsyncStunTCPSocket {} events = some s ∧ KeepsStream s) ∧
      ∀ data, ProcessesAny data := by
  refine ⟨fun events => ?_, processesAny⟩
  have hfits : ∀ (events : List AsyncTCPSocketBase.Event) (s : AsyncTCPSocketBase.Link),
      Meets AsyncStunTCPSocket (SendFits fun _ _ => True) s events := by
    intro events
    induction events with
    | nil => exact fun _ => trivial
    | cons e rest ih =>
      refine fun s => ⟨?_, fun t _ => ih t⟩
      cases e <;> trivial
  obtain ⟨s, hrun, hs⟩ := frames.initial.run frames (hfits events {})
  obtain ⟨todo, hqueued, hstream⟩ := hs.stream
  refine ⟨s, hrun, hs.queued_accepted, ⟨todo, hqueued, hstream⟩, fun hin hwire hout => ?_⟩
  rw [hin, hwire, hout] at hstream
  have htodo : todo = [] := by
    cases todo with
    | nil => rfl
    | cons pv rest =>
      have hok := hs.queued_ok pv (by
        rw [hqueued]
        exact List.mem_append_right _ List.mem_cons_self)
      have hlen := congrArg List.length hstream
      have hfour := hok.1
      simp only [List.flatMap_cons, codec, List.length_append, List.length_nil] at hlen
      omega
  rw [hqueued, htodo, List.append_nil]

end AsyncStunTCPSocket

end Libjingle
