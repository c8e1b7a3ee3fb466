import Libjingle.PseudoTcp.Input

/-! The bytes of a packet that an endpoint reads. Offsets of payload bytes count
from the end of the header. -/

namespace Libjingle

namespace FifoBuffer

theorem store_take (mem : Nat → UInt8) (pieces : List Access) (src src' : List UInt8)
    (h : src.take (pieces.map Access.len).sum = src'.take (pieces.map Access.len).sum) :
    store mem pieces src = store mem pieces src' := by
  induction pieces generalizing mem src src' with
  | nil => rfl
  | cons a rest ih =>
    have hsum : ((a :: rest).map Access.len).sum = a.len + (rest.map Access.len).sum := by simp
    rw [hsum] at h
    have hfirst : src.take a.len = src'.take a.len := by
      have htake := congrArg (List.take a.len) h
      simpa [List.take_take] using htake
    have hdrop := congrArg (List.drop a.len) h
    simp only [List.drop_take, Nat.add_sub_cancel_left] at hdrop
    rw [store, store, hfirst]
    exact ih _ _ _ hdrop

theorem writeOffset_take {f : FifoBuffer} {data data' : List UInt8} {offset : Nat}
    (hlen : data'.length = data.length)
    (h : data'.take (f.writeOffset data offset).2.1 = data.take (f.writeOffset data offset).2.1) :
    f.writeOffset data' offset = f.writeOffset data offset := by
  simp only [writeOffset, writeOffsetLocked, hlen] at h ⊢
  by_cases hclosed : f.state = .closed
  · rw [if_pos hclosed, if_pos hclosed]
  · rw [if_neg hclosed] at h ⊢
    rw [if_neg hclosed]
    by_cases hfull : sizeAdd f.dataLength offset ≥ f.bufferLength
    · rw [if_pos hfull, if_pos hfull]
    · rw [if_neg hfull] at h ⊢
      have hpieces : ((f.writePieces data.length offset).map Access.len).sum =
          min data.length (sizeSub (f.bufferLength - f.dataLength) offset) := by
        simp only [writePieces, List.map_cons, List.map_nil, List.sum_cons, List.sum_nil]
        omega
      rw [if_neg hfull, store_take f.buffer _ data' data (by rw [hpieces]; exact h)]

theorem writeOffset_le (f : FifoBuffer) (data : List UInt8) (offset : Nat) :
    (f.writeOffset data offset).2.1 ≤ data.length := by
  simp only [writeOffset, writeOffsetLocked]
  split
  · exact Nat.zero_le _
  · split
    · exact Nat.zero_le _
    · exact Nat.min_le_left _ _

end FifoBuffer

namespace PseudoTcp

/-- The bytes `parse` reads itself; `buffer[12]` is not used. -/
def headerReads : List Nat := List.range' 0 12 ++ List.range' 13 11

/-- The control code, and the options that `parseOptions` copies. -/
def controlReads (seg : Segment) : List Nat :=
  if seg.flags &&& flagCtl = 0 ∨ seg.len = 0 then []
  else 0 :: if seg.data 0 = ctlConnect then List.range' 1 (seg.len.toNat - 1) else []

def skipped (s : PseudoTcp) (seg : Segment) : Nat :=
  if seg.seq < s.rcvNxt ∧ s.rcvNxt - seg.seq < seg.len then (s.rcvNxt - seg.seq).toNat else 0

def storeReads (s : PseudoTcp) (seg : Segment) : List Nat :=
  let fit := s.fitted seg
  if fit.len = 0 ∨ seg.flags &&& flagCtl ≠ 0 ∨ s.shutdown ≠ .none then []
  else List.range' (s.skipped seg) (s.rbuf.writeOffset fit.bytes (fit.seq - s.rcvNxt).toNat).2.1

def processReads (s : PseudoTcp) (seg : Segment) : List Nat :=
  if seg.conv ≠ s.conv ∨ s.state = .closed ∨ seg.flags &&& flagRst ≠ 0 then []
  else controlReads seg ++
    match s.noteReceived.control seg with
    | (none, _) => []
    | (some bConnect, t) =>
      match (t.updateTimestamp seg).acknowledge (s.env.now s.ticks) seg with
      | (false, _) => []
      | (true, u) => ((u.finishOpen bConnect).notifyWriteable).storeReads seg

def parseReads (s : PseudoTcp) (mem : Nat → UInt8) (size : UInt32) : List Nat :=
  if size < 12 then []
  else headerReads ++ (s.processReads (parseSegment mem size)).map (headerSize.toNat + ·)

/-- The offsets in a packet that `NotifyPacket` reads. -/
def packetReads (s : PseudoTcp) (buffer : List UInt8) (beyond : Nat → UInt8) : List Nat :=
  if buffer.length > maxPacket.toNat then []
  else s.parseReads (memory buffer beyond) (UInt32.ofNat buffer.length)

section Bounds

theorem Segment.trim_spec (s : PseudoTcp) (seg : Segment) :
    s.skipped seg + (s.fitted seg).len.toNat ≤ seg.len.toNat := by
  have hfront : s.skipped seg + (seg.trimFront s.rcvNxt).len.toNat ≤ seg.len.toNat := by
    simp only [skipped, Segment.trimFront]
    by_cases hlt : seg.seq < s.rcvNxt
    · by_cases hcut : s.rcvNxt - seg.seq < seg.len
      · have hsub := UInt32.toNat_sub_of_le _ _ (UInt32.le_of_lt hcut)
        have hle := UInt32.lt_iff_toNat_lt.mp hcut
        simp only [hlt, hcut, and_self, if_true, hsub]
        omega
      · simp [hlt, hcut]
    · simp [hlt]
  have hback : ∀ (t : Segment) (space : UInt32),
      (t.trimBack s.rcvNxt space).len.toNat ≤ t.len.toNat := by
    intro t space
    simp only [Segment.trimBack]
    split
    · split
      · rename_i hcut
        have hsub := UInt32.toNat_sub_of_le _ _ (UInt32.le_of_lt hcut)
        simp only [hsub]
        omega
      · simp
    · exact Nat.le_refl _
  have hfit := hback (seg.trimFront s.rcvNxt) (UInt32.ofNat s.rbuf.getWriteRemaining)
  simp only [fitted]
  omega

theorem controlReads_lt {seg : Segment} {i : Nat} (h : i ∈ controlReads seg) :
    i < seg.len.toNat := by
  simp only [controlReads] at h
  split at h
  · exact absurd h List.not_mem_nil
  · rename_i hctl
    have hpos : 0 < seg.len.toNat := by
      have hne : seg.len ≠ 0 := fun hz => hctl (.inr hz)
      have hne' : seg.len.toNat ≠ 0 := fun hz => hne (UInt32.toNat_inj.mp hz)
      omega
    rcases List.mem_cons.mp h with rfl | h
    · exact hpos
    · split at h
      · have hrange := (List.mem_range'_1.mp h).2
        omega
      · exact absurd h List.not_mem_nil

theorem storeReads_lt {s : PseudoTcp} {seg : Segment} {i : Nat} (h : i ∈ s.storeReads seg) :
    i < seg.len.toNat := by
  simp only [storeReads] at h
  split at h
  · exact absurd h List.not_mem_nil
  · have hcopied := s.rbuf.writeOffset_le (s.fitted seg).bytes
      ((s.fitted seg).seq - s.rcvNxt).toNat
    have hlength : (s.fitted seg).bytes.length = (s.fitted seg).len.toNat := by simp [Segment.bytes]
    have htrim := Segment.trim_spec s seg
    have hrange := (List.mem_range'_1.mp h).2
    omega

theorem processReads_lt {s : PseudoTcp} {seg : Segment} {i : Nat} (h : i ∈ s.processReads seg) :
    i < seg.len.toNat := by
  simp only [processReads] at h
  split at h
  · exact absurd h List.not_mem_nil
  · rcases List.mem_append.mp h with h | h
    · exact controlReads_lt h
    · split at h
      · exact absurd h List.not_mem_nil
      · split at h
        · exact absurd h List.not_mem_nil
        · exact storeReads_lt h

theorem parseSegment_len {mem : Nat → UInt8} {size : Nat} (hsize : size < 2 ^ 32) :
    (parseSegment mem (UInt32.ofNat size)).len.toNat + headerSize.toNat = size ↔ 24 ≤ size := by
  have hof : (UInt32.ofNat size).toNat = size := UInt32.toNat_ofNat_of_lt' hsize
  have hheader : headerSize.toNat = 24 := rfl
  simp only [parseSegment, UInt32.toNat_sub, hof, hheader]
  omega

/-- What must hold of the reads of a packet, of the length of the payload when the
packet comes to `process`, and of a packet without a whole header. -/
structure ReadsInside (s : PseudoTcp) (buffer : List UInt8) (beyond : Nat → UInt8) : Prop where
  inside : ∀ i ∈ s.packetReads buffer beyond, i < buffer.length
  payload : 12 ≤ buffer.length → buffer.length ≤ maxPacket.toNat →
    (parseSegment (memory buffer beyond) (UInt32.ofNat buffer.length)).len.toNat +
      headerSize.toNat = buffer.length
  short : buffer.length < headerSize.toNat → s.notifyPacket buffer beyond = (false, s)

theorem notifyPacket_short {s : PseudoTcp} {buffer : List UInt8} {beyond : Nat → UInt8}
    (h : buffer.length < 12) :
    s.notifyPacket buffer beyond = (false, s) ∧ s.packetReads buffer beyond = [] := by
  have hmax : ¬ buffer.length > maxPacket.toNat := by
    have hval : maxPacket.toNat = 65535 := rfl
    omega
  have hsize : UInt32.ofNat buffer.length < 12 := by
    rw [UInt32.lt_iff_toNat_lt, UInt32.toNat_ofNat_of_lt' (by simp only [UInt32.size]; omega)]
    exact h
  simp only [notifyPacket, packetReads, parse, parseReads, hmax, hsize, if_true, if_false, and_self]

theorem packetReads_lt {s : PseudoTcp} {buffer : List UInt8} {beyond : Nat → UInt8}
    (hlen : buffer.length < 12 ∨ 24 ≤ buffer.length) :
    ∀ i ∈ s.packetReads buffer beyond, i < buffer.length := by
  have hmaxval : maxPacket.toNat = 65535 := rfl
  have hheader : headerSize.toNat = 24 := rfl
  intro i hi
  rcases Nat.lt_or_ge buffer.length 12 with hshort | hlong
  · rw [(notifyPacket_short hshort).2] at hi
    exact absurd hi List.not_mem_nil
  · have hfull : 24 ≤ buffer.length := by omega
    simp only [packetReads] at hi
    split at hi
    · exact absurd hi List.not_mem_nil
    · rename_i hmax
      simp only [parseReads] at hi
      split at hi
      · exact absurd hi List.not_mem_nil
      · rcases List.mem_append.mp hi with hi | hi
        · have hbound : ∀ k ∈ headerReads, k < 24 := by decide
          have hk := hbound i hi
          omega
        · obtain ⟨k, hk, rfl⟩ := List.mem_map.mp hi
          have hlt := processReads_lt hk
          have hlength :=
            (@parseSegment_len (memory buffer beyond) buffer.length (by omega)).mpr hfull
          omega

/-- An endpoint reads inside a packet exactly if the packet is shorter than 12
bytes or holds the whole header. -/
theorem readsInside_iff (s : PseudoTcp) (buffer : List UInt8) (beyond : Nat → UInt8) :
    s.ReadsInside buffer beyond ↔ buffer.length < 12 ∨ 24 ≤ buffer.length := by
  have hmaxval : maxPacket.toNat = 65535 := rfl
  have hheader : headerSize.toNat = 24 := rfl
  constructor
  · intro h
    by_contra hlen
    have hmax : ¬ buffer.length > maxPacket.toNat := by omega
    have hsize : ¬ UInt32.ofNat buffer.length < 12 := by
      rw [UInt32.lt_iff_toNat_lt, UInt32.toNat_ofNat_of_lt' (by simp only [UInt32.size]; omega)]
      simp
      omega
    have hlast : 23 ∈ s.packetReads buffer beyond := by
      simp only [packetReads, parseReads, hmax, hsize, if_false]
      exact List.mem_append_left _ (by decide)
    have hbound := h.inside 23 hlast
    omega
  · intro hlen
    refine ⟨packetReads_lt hlen, fun hlong hmax => ?_, fun hcut => ?_⟩
    · exact (parseSegment_len (by omega)).mpr (by omega)
    · exact (notifyPacket_short (by omega)).1

/-- A packet that ends behind the acknowledgement number. -/
theorem cut_header_overread :
    let buffer := longToBytes 7 ++ longToBytes 0 ++ longToBytes 0
    buffer.length = 12 ∧ 23 ∈ (new Env.still 7).packetReads buffer (fun _ => 0) ∧
      (parseSegment (memory buffer fun _ => 0) (UInt32.ofNat buffer.length)).len = 4294967284 := by
  intro buffer
  have hlen : buffer.length = 12 := by decide
  refine ⟨hlen, ?_, by decide⟩
  simp only [packetReads, parseReads, hlen]
  exact List.mem_append_left _ (by decide)

end Bounds

section Dependence

/-! What an endpoint does depends on no other byte of the packet. -/

theorem bytes_drop_congr {seg : Segment} {d : Nat → UInt8}
    (h : ∀ i ∈ List.range' 1 (seg.len.toNat - 1), d i = seg.data i) :
    ({ seg with data := d } : Segment).bytes.drop 1 = seg.bytes.drop 1 := by
  simp only [Segment.bytes, ← List.map_drop, List.range_eq_range', List.drop_range']
  exact List.map_congr_left fun i hi => h i (by simpa using hi)

theorem control_congr {s : PseudoTcp} {seg : Segment} {d : Nat → UInt8}
    (h : ∀ i ∈ controlReads seg, d i = seg.data i) :
    s.control { seg with data := d } = s.control seg := by
  simp only [controlReads] at h
  simp only [control]
  by_cases hplain : seg.flags &&& flagCtl = 0
  · rw [if_pos hplain, if_pos hplain]
  · rw [if_neg hplain, if_neg hplain]
    by_cases hempty : seg.len = 0
    · rw [if_pos hempty, if_pos hempty]
    · rw [if_neg (by simp [hplain, hempty])] at h
      have hcode : d 0 = seg.data 0 := h 0 List.mem_cons_self
      rw [if_neg hempty, if_neg hempty, hcode]
      by_cases hconnect : seg.data 0 = ctlConnect
      · rw [if_pos hconnect] at h
        have hoptions := bytes_drop_congr fun i hi => h i (List.mem_cons_of_mem _ hi)
        rw [if_pos hconnect, if_pos hconnect, hoptions]
      · rw [if_neg hconnect, if_neg hconnect]

theorem fitted_withData (s : PseudoTcp) (seg : Segment) (d : Nat → UInt8) :
    s.fitted { seg with data := d } =
      { s.fitted seg with data := fun i => d (s.skipped seg + i) } := by
  have hfront : Segment.trimFront { seg with data := d } s.rcvNxt =
      { seg.trimFront s.rcvNxt with data := fun i => d (s.skipped seg + i) } := by
    simp only [Segment.trimFront, skipped]
    by_cases hlt : seg.seq < s.rcvNxt
    · by_cases hcut : s.rcvNxt - seg.seq < seg.len
      · simp only [hlt, hcut, and_self, if_true]
      · simp only [hlt, hcut, and_false, if_true, if_false, Nat.zero_add]
    · simp only [hlt, false_and, if_false, Nat.zero_add]
  have hback : ∀ (t : Segment) (e : Nat → UInt8) (space : UInt32),
      Segment.trimBack { t with data := e } s.rcvNxt space =
        { t.trimBack s.rcvNxt space with data := e } := by
    intro t e space
    simp only [Segment.trimBack]
    split
    · split <;> rfl
    · rfl
  rw [fitted, hfront, hback]
  rfl

theorem store_withData {s : PseudoTcp} {fit : Segment} {e : Nat → UInt8}
    (h : fit.len ≠ 0 → fit.flags &&& flagCtl = 0 → s.shutdown = .none →
      s.rbuf.writeOffset ({ fit with data := e } : Segment).bytes (fit.seq - s.rcvNxt).toNat =
        s.rbuf.writeOffset fit.bytes (fit.seq - s.rcvNxt).toNat) (sflags : SendFlags) :
    s.store { fit with data := e } sflags = s.store fit sflags := by
  simp only [store]
  by_cases hempty : fit.len = 0
  · rw [if_pos hempty, if_pos hempty]
  · rw [if_neg hempty, if_neg hempty]
    by_cases hignore : fit.flags &&& flagCtl ≠ 0 ∨ s.shutdown ≠ .none
    · rw [if_pos hignore, if_pos hignore]
    · obtain ⟨hflags, hopen⟩ := not_or.mp hignore
      have hwrite := h hempty (not_not.mp hflags) (not_not.mp hopen)
      rw [if_neg hignore, if_neg hignore]
      simp only [noteIf, hwrite]
      rfl

theorem store_congr {s : PseudoTcp} {seg : Segment} {d : Nat → UInt8}
    (h : ∀ i ∈ s.storeReads seg, d i = seg.data i) (sflags : SendFlags) :
    s.store (s.fitted { seg with data := d }) sflags = s.store (s.fitted seg) sflags := by
  have hdata : (s.fitted seg).data = fun i => seg.data (s.skipped seg + i) :=
    congrArg Segment.data (fitted_withData s seg seg.data)
  have hflags : (s.fitted seg).flags = seg.flags := by
    simp only [fitted, Segment.trimFront, Segment.trimBack]
    repeat' split
    all_goals rfl
  rw [fitted_withData]
  refine store_withData (fun hempty hplain hopen => ?_) sflags
  rw [hflags] at hplain
  have hread : s.storeReads seg = List.range' (s.skipped seg)
      (s.rbuf.writeOffset (s.fitted seg).bytes ((s.fitted seg).seq - s.rcvNxt).toNat).2.1 := by
    simp [storeReads, hempty, hplain, hopen]
  have hle := s.rbuf.writeOffset_le (s.fitted seg).bytes ((s.fitted seg).seq - s.rcvNxt).toNat
  have hlength : (s.fitted seg).bytes.length = (s.fitted seg).len.toNat := by simp [Segment.bytes]
  rw [hread] at h
  refine FifoBuffer.writeOffset_take (by simp [Segment.bytes]) ?_
  simp only [Segment.bytes, ← List.map_take, List.take_range, hdata]
  refine List.map_congr_left fun i hi => h _ (List.mem_range'_1.mpr ⟨Nat.le_add_right _ _, ?_⟩)
  have hlt := List.mem_range.mp hi
  simp only [Segment.bytes, hdata] at hlt ⊢
  omega

theorem process_congr {s : PseudoTcp} {seg : Segment} {d : Nat → UInt8}
    (h : ∀ i ∈ s.processReads seg, d i = seg.data i) :
    s.process { seg with data := d } = s.process seg := by
  simp only [processReads] at h
  simp only [process]
  by_cases hconv : seg.conv ≠ s.conv
  · rw [if_pos hconv, if_pos hconv]
  · rw [if_neg hconv, if_neg hconv, processSegment, processSegment]
    by_cases hclosed : s.noteReceived.state = .closed
    · rw [if_pos hclosed, if_pos hclosed]
    · rw [if_neg hclosed, if_neg hclosed]
      by_cases hreset : seg.flags &&& flagRst ≠ 0
      · rw [if_pos hreset, if_pos hreset]
      · have hclosed' : s.state ≠ .closed := hclosed
        rw [if_neg (by simp [hconv, hclosed', hreset])] at h
        have hcontrol : s.noteReceived.control { seg with data := d } = s.noteReceived.control seg :=
          control_congr fun i hi => h i (List.mem_append_left _ hi)
        rw [if_neg hreset, if_neg hreset, hcontrol]
        cases hc : s.noteReceived.control seg with
        | mk refused t =>
          cases refused with
          | none => rfl
          | some bConnect =>
            rw [hc] at h
            dsimp only at h
            have hack : (t.updateTimestamp { seg with data := d }).acknowledge (s.env.now s.ticks)
                { seg with data := d } =
                (t.updateTimestamp seg).acknowledge (s.env.now s.ticks) seg := rfl
            dsimp only
            rw [hack]
            cases ha : (t.updateTimestamp seg).acknowledge (s.env.now s.ticks) seg with
            | mk alive u =>
              rw [ha] at h
              cases alive with
              | false => rfl
              | true =>
                have hstore := @store_congr (u.finishOpen bConnect).notifyWriteable seg _
                  (fun i hi => h i (List.mem_append_right _ hi))
                simp only [receive]
                rw [hstore]
                rfl

theorem parseSegment_congr {mem mem' : Nat → UInt8} {size : UInt32}
    (h : ∀ i ∈ headerReads, mem' i = mem i) :
    parseSegment mem' size = { parseSegment mem size with data := fun i => mem' (24 + i) } := by
  have hread : ∀ i, i ∈ headerReads → mem' i = mem i := h
  simp only [headerReads, List.mem_append, List.mem_range'_1] at hread
  have hlong : ∀ i, (i + 4 ≤ 12 ∨ 13 ≤ i ∧ i + 4 ≤ 24) → readLong mem' i = readLong mem i := by
    intro i hi
    rw [readLong, readLong, hread i (by omega), hread (i + 1) (by omega), hread (i + 2) (by omega),
      hread (i + 3) (by omega)]
  have hshort : readShort mem' 14 = readShort mem 14 := by
    rw [readShort, readShort, hread 14 (by omega), hread 15 (by omega)]
  simp only [parseSegment, hlong 0 (by omega), hlong 4 (by omega), hlong 8 (by omega),
    hlong 16 (by omega), hlong 20 (by omega), hread 13 (by omega), hshort]

theorem notifyPacket_congr {s : PseudoTcp} {buffer buffer' : List UInt8} {beyond beyond' : Nat → UInt8}
    (hlen : buffer'.length = buffer.length)
    (h : ∀ i ∈ s.packetReads buffer beyond, memory buffer' beyond' i = memory buffer beyond i) :
    s.notifyPacket buffer' beyond' = s.notifyPacket buffer beyond := by
  simp only [packetReads] at h
  simp only [notifyPacket, hlen]
  by_cases hmax : buffer.length > maxPacket.toNat
  · rw [if_pos hmax, if_pos hmax]
  · rw [if_neg hmax] at h ⊢
    rw [if_neg hmax]
    simp only [parseReads] at h
    simp only [parse]
    by_cases hsize : UInt32.ofNat buffer.length < 12
    · rw [if_pos hsize, if_pos hsize]
    · rw [if_neg hsize] at h ⊢
      rw [if_neg hsize, parseSegment_congr fun i hi => h i (List.mem_append_left _ hi)]
      refine process_congr fun i hi => h (24 + i) (List.mem_append_right _ ?_)
      exact List.mem_map_of_mem hi

/-- What lies behind a packet does not matter. -/
theorem notifyPacket_beyond {s : PseudoTcp} {buffer : List UInt8}
    (hlen : buffer.length < 12 ∨ 24 ≤ buffer.length) (beyond beyond' : Nat → UInt8) :
    s.notifyPacket buffer beyond' = s.notifyPacket buffer beyond := by
  refine notifyPacket_congr rfl fun i hi => ?_
  have hlt := packetReads_lt hlen i hi
  simp only [memory, List.getD_eq_getElem?_getD, List.getElem?_eq_getElem hlt, Option.getD_some]

theorem notifyPacket_beyond_plain :
    (new .still 7).notifyPacket (plainPacket 0 0 0 []) (fun _ => 1) =
      (new .still 7).notifyPacket (plainPacket 0 0 0 []) fun _ => 0 :=
  notifyPacket_beyond (.inr (by decide)) _ _

end Dependence

end PseudoTcp

end Libjingle
