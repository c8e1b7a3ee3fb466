import Libjingle.Base.FifoRefinement
import Libjingle.PseudoTcp.ReceiveWindow

/-! What the receiving half holds of the peer's stream: the bytes returned and
those readable are the stream up to `m_rcv_nxt`, and the listed ranges lie in
the free space of the buffer where the stream puts them. -/

namespace Libjingle

/-- The stream behind position `ctl`, as far as position `n`. -/
def dataUpTo (stream : List UInt8) (ctl n : Nat) : List UInt8 := (stream.take n).drop ctl

theorem dataUpTo_prefix (stream : List UInt8) (ctl n : Nat) :
    dataUpTo stream ctl n <+: stream.drop ctl := by
  rw [dataUpTo, List.drop_take]
  exact List.take_prefix _ _

theorem dataUpTo_of_le {stream : List UInt8} {ctl n : Nat} (h : n ≤ ctl) :
    dataUpTo stream ctl n = [] := by
  apply List.drop_eq_nil_of_le
  rw [List.length_take]
  omega

theorem dataUpTo_append {stream more : List UInt8} {ctl n : Nat} (h : n ≤ stream.length) :
    dataUpTo (stream ++ more) ctl n = dataUpTo stream ctl n := by
  rw [dataUpTo, dataUpTo, List.take_append_of_le_length h]

theorem dataUpTo_add {stream : List UInt8} {ctl n : Nat} (hctl : ctl ≤ n) (hn : n ≤ stream.length)
    (k : Nat) : dataUpTo stream ctl (n + k) = dataUpTo stream ctl n ++ (stream.drop n).take k := by
  rw [dataUpTo, dataUpTo, List.take_add, List.drop_append_of_le_length]
  rw [List.length_take]
  omega

/-- A segment as the peer sends it: a piece of its stream, control bytes and
data never together. -/
def Segment.Honest (seg : Segment) (stream : List UInt8) (ctl : Nat) : Prop :=
  seg.len = 0 ∨ seg.seq.toNat + seg.len.toNat ≤ stream.length ∧
    (∀ i < seg.len.toNat, stream[seg.seq.toNat + i]? = some (seg.data i)) ∧
    if seg.flags &&& PseudoTcp.flagCtl ≠ 0 then seg.seq.toNat + seg.len.toNat ≤ ctl
    else ctl ≤ seg.seq.toNat

theorem Segment.Honest.fitted {seg : Segment} {stream : List UInt8} {ctl : Nat}
    (h : seg.Honest stream ctl) (s : PseudoTcp) : (s.fitted seg).Honest stream ctl := by
  obtain ⟨hflags, hspec⟩ := s.fitted_spec seg
  rcases hspec with hz | ⟨-, -, k, hseq, hlen, hdata⟩
  · exact .inl hz
  · rcases h with hz | ⟨hle, hbytes, hctl⟩
    · rw [hz] at hlen
      left
      rw [← UInt32.toNat_inj]
      exact Nat.le_zero.mp (Nat.le_trans (Nat.le_add_left _ _) hlen)
    · refine .inr ⟨by omega, fun i hi => ?_, ?_⟩
      · rw [hdata, ← hseq, Nat.add_assoc]
        exact hbytes (k + i) (by omega)
      · rw [hflags]
        split at hctl <;> rename_i hc
        · rw [if_pos hc]
          omega
        · rw [if_neg hc]
          omega

namespace Receiver

/-- The byte at position `p` of the stream lies in the buffer at its place. -/
def Stores (r : Receiver) (stream : List UInt8) (p : Nat) : Prop :=
  r.rbuf.dataLength + (p - r.rcvNxt.toNat) < r.rbuf.bufferLength ∧
    stream[p]? = some (r.rbuf.cell (r.rbuf.dataLength + (p - r.rcvNxt.toNat)))

/-- What is not yet readable of a listed range is stored. -/
def Holds (r : Receiver) (stream : List UInt8) (ctl : Nat) (g : RSegment) : Prop :=
  g.seq.toNat + g.len.toNat ≤ stream.length ∧
    ∀ p, r.rcvNxt.toNat ≤ p → g.seq.toNat ≤ p → p < g.seq.toNat + g.len.toNat →
      ctl ≤ p ∧ r.Stores stream p

/-- The receiving half of a connection to a peer that sends `stream`, its first
`ctl` bytes being control bytes. Only a live one takes in data. -/
structure Follows (r : Receiver) (returned stream : List UInt8) (ctl : Nat) (live : Prop) :
    Prop where
  wf : r.rbuf.Wf
  capacity_lt : r.rbuf.bufferLength < 2 ^ 32
  nxt_le : r.rcvNxt.toNat ≤ stream.length
  delivered : returned ++ r.rbuf.readable <+: stream.drop ctl
  data : live → returned ++ r.rbuf.readable = dataUpTo stream ctl r.rcvNxt.toNat
  held : live → ∀ g ∈ r.rlist, r.Holds stream ctl g

section Operations

variable {r : Receiver} {returned stream : List UInt8} {ctl : Nat} {live : Prop}

theorem Stores.append {p : Nat} (h : r.Stores stream p) (more : List UInt8) :
    r.Stores (stream ++ more) p := by
  obtain ⟨hin, hbyte⟩ := h
  obtain ⟨hp, -⟩ := List.getElem?_eq_some_iff.mp hbyte
  exact ⟨hin, by rw [List.getElem?_append_left hp, hbyte]⟩

theorem Follows.congr (h : r.Follows returned stream ctl live) {r' : Receiver}
    (hlist : r'.rlist = r.rlist) (hbuf : r'.rbuf = r.rbuf) (hnxt : r'.rcvNxt = r.rcvNxt) :
    r'.Follows returned stream ctl live := by
  cases r
  cases r'
  cases hlist
  cases hbuf
  cases hnxt
  exact ⟨h.wf, h.capacity_lt, h.nxt_le, h.delivered, h.data, h.held⟩

theorem Follows.append (h : r.Follows returned stream ctl live) (more : List UInt8)
    (hctl : ctl ≤ stream.length) : r.Follows returned (stream ++ more) ctl live where
  wf := h.wf
  capacity_lt := h.capacity_lt
  nxt_le := by
    rw [List.length_append]
    exact Nat.le_trans h.nxt_le (Nat.le_add_right _ _)
  delivered := by
    rw [List.drop_append_of_le_length hctl]
    exact h.delivered.trans (List.prefix_append _ _)
  data := fun hl => (h.data hl).trans (dataUpTo_append h.nxt_le).symm
  held := by
    intro hl g hg
    obtain ⟨hend, hstored⟩ := h.held hl g hg
    refine ⟨by rw [List.length_append]; omega, fun p hp hlo hhi => ?_⟩
    obtain ⟨hc, hs⟩ := hstored p hp hlo hhi
    exact ⟨hc, hs.append more⟩

theorem Follows.begin (h : r.Follows returned [] ctl live) (stream : List UInt8) (ctl' : Nat) :
    r.Follows returned stream ctl' live := by
  have hnxt : r.rcvNxt.toNat = 0 := Nat.le_zero.mp h.nxt_le
  have hempty : returned ++ r.rbuf.readable = [] := by
    have := h.delivered
    rwa [List.drop_nil, List.prefix_nil] at this
  refine ⟨h.wf, h.capacity_lt, by omega, ?_, fun _ => ?_, fun hl g hg => ?_⟩
  · rw [hempty]
    exact List.nil_prefix
  · rw [hempty, dataUpTo_of_le (by omega)]
  · obtain ⟨hend, -⟩ := h.held hl g hg
    rw [List.length_nil] at hend
    exact ⟨by omega, fun p _ _ hhi => by omega⟩

theorem Follows.relist (h : r.Follows returned stream ctl live) {l : List RSegment}
    (hl : ∀ g ∈ l, g ∈ r.rlist) : Follows { r with rlist := l } returned stream ctl live :=
  { h with held := fun hlive g hg => h.held hlive g (hl g hg) }

theorem Follows.commit (h : r.Follows returned stream ctl live) (hlive : live)
    (hlt : stream.length < 2 ^ 32) {n : UInt32} (hle : r.rcvNxt.toNat + n.toNat ≤ stream.length)
    (hstored : ∀ p, r.rcvNxt.toNat ≤ p → p < r.rcvNxt.toNat + n.toNat →
      ctl ≤ p ∧ r.Stores stream p) :
    (r.commit n).Follows returned stream ctl live := by
  have hnxt : (r.commit n).rcvNxt.toNat = r.rcvNxt.toNat + n.toNat := by
    change (r.rcvNxt + n).toNat = _
    rw [UInt32.toNat_add, Nat.mod_eq_of_lt (by omega)]
  have hdata : (r.commit n).rbuf.dataLength = r.rbuf.dataLength + n.toNat := rfl
  have hcell : ∀ k, (r.commit n).rbuf.cell k = r.rbuf.cell k := fun _ => rfl
  have hread : returned ++ (r.commit n).rbuf.readable =
      dataUpTo stream ctl (r.commit n).rcvNxt.toNat := by
    rw [hnxt]
    change returned ++ (r.rbuf.consumeWriteBuffer n.toNat).readable = _
    rw [FifoBuffer.consumeWriteBuffer_readable, ← List.append_assoc, h.data hlive]
    rcases Nat.eq_zero_or_pos n.toNat with hz | hpos
    · simp [hz]
    · obtain ⟨hctl, -⟩ := hstored r.rcvNxt.toNat (Nat.le_refl _) (by omega)
      rw [dataUpTo_add hctl h.nxt_le]
      congr 1
      apply List.ext_getElem
      · simp only [List.length_map, List.length_range, List.length_take, List.length_drop]
        omega
      · intro i hi hj
        simp only [List.length_map, List.length_range] at hi
        obtain ⟨-, -, hbyte⟩ := hstored (r.rcvNxt.toNat + i) (by omega) (by omega)
        rw [Nat.add_sub_cancel_left] at hbyte
        obtain ⟨hp, hbyte⟩ := List.getElem?_eq_some_iff.mp hbyte
        simp only [List.getElem_map, List.getElem_range, List.getElem_take, List.getElem_drop, hbyte]
  have hroom : n.toNat ≤ r.rbuf.bufferLength - r.rbuf.dataLength := by
    rcases Nat.eq_zero_or_pos n.toNat with hz | hpos
    · omega
    · obtain ⟨-, hin, -⟩ := hstored (r.rcvNxt.toNat + (n.toNat - 1)) (by omega) (by omega)
      omega
  refine ⟨FifoBuffer.consumeWriteBuffer_wf h.wf hroom, h.capacity_lt, ?_, ?_, fun _ => hread, ?_⟩
  · rw [hnxt]
    exact hle
  · rw [hread]
    exact dataUpTo_prefix _ _ _
  · intro hl g hg
    obtain ⟨hend, hpart⟩ := h.held hl g hg
    refine ⟨hend, fun p hp hlo hhi => ?_⟩
    rw [hnxt] at hp
    obtain ⟨hctl, hin, hbyte⟩ := hpart p (by omega) hlo hhi
    have hplace : (r.commit n).rbuf.dataLength + (p - (r.commit n).rcvNxt.toNat) =
        r.rbuf.dataLength + (p - r.rcvNxt.toNat) := by
      rw [hdata, hnxt]
      omega
    exact ⟨hctl, by rw [hplace]; exact hin, by rw [hplace, hcell]; exact hbyte⟩

theorem Follows.recoverRanges (l : List RSegment) {r : Receiver}
    (h : Follows { r with rlist := l } returned stream ctl live) (hlive : live)
    (hlt : stream.length < 2 ^ 32) :
    (Receiver.recoverRanges l r).2.Follows returned stream ctl live := by
  induction l generalizing r with
  | nil => exact h
  | cons it rest ih =>
    have hrest : Follows { r with rlist := rest } returned stream ctl live :=
      h.relist fun g hg => List.mem_cons_of_mem _ hg
    obtain ⟨hend, hpart⟩ := h.held hlive it List.mem_cons_self
    simp only [Receiver.recoverRanges]
    split
    · rename_i hreached
      split
      · rename_i hnew
        have hle := UInt32.le_iff_toNat_le.mp hreached
        have hsum : (it.seq + it.len).toNat = it.seq.toNat + it.len.toNat := by
          rw [UInt32.toNat_add, Nat.mod_eq_of_lt (by omega)]
        have hsub : (it.seq + it.len - r.rcvNxt).toNat =
            it.seq.toNat + it.len.toNat - r.rcvNxt.toNat := by
          rw [UInt32.toNat_sub_of_le _ _ (UInt32.le_of_lt hnew), hsum]
        have hlt' := UInt32.lt_iff_toNat_lt.mp hnew
        apply ih
        refine hrest.commit hlive hlt ?_ fun p hp hhi => ?_
        · simp only [hsub]
          omega
        · simp only [hsub] at hp hhi
          exact hpart p hp (by omega) (by omega)
      · exact ih hrest
    · exact h

theorem Follows.overwrite (h : r.Follows returned stream ctl live) {seq : UInt32}
    {bytes : List UInt8} (hseq : r.rcvNxt ≤ seq) (hne : bytes ≠ [])
    (hfit : r.rbuf.dataLength + (seq.toNat - r.rcvNxt.toNat) + bytes.length ≤ r.rbuf.bufferLength)
    (hbytes : ∀ i (hi : i < bytes.length), stream[seq.toNat + i]? = some bytes[i]) :
    let r' := { r with rbuf := (r.rbuf.writeOffset bytes (seq - r.rcvNxt).toNat).2.2 }
    r'.Follows returned stream ctl live ∧
      ∀ p, seq.toNat ≤ p → p < seq.toNat + bytes.length → r'.Stores stream p := by
  have hpos := List.length_pos_iff.mpr hne
  have hle := UInt32.le_iff_toNat_le.mp hseq
  have hoffset : (seq - r.rcvNxt).toNat = seq.toNat - r.rcvNxt.toNat :=
    UInt32.toNat_sub_of_le _ _ hseq
  have hin : r.rbuf.dataLength + (seq.toNat - r.rcvNxt.toNat) < r.rbuf.bufferLength := by omega
  rw [hoffset]
  intro r'
  obtain ⟨hdata, hcap⟩ := FifoBuffer.writeOffset_lengths r.rbuf bytes (seq.toNat - r.rcvNxt.toNat)
  have hread : r'.rbuf.readable = r.rbuf.readable := FifoBuffer.writeOffset_readable h.wf bytes hin
  have hcell : ∀ k < r.rbuf.bufferLength, r'.rbuf.cell k = Circular.blit r.rbuf.cell
      (r.rbuf.dataLength + (seq.toNat - r.rcvNxt.toNat)) bytes k := by
    intro k hk
    have hk' := FifoBuffer.writeOffset_cell h.wf bytes hin hk
    rwa [List.take_of_length_le (by omega)] at hk'
  have hnew : ∀ p, seq.toNat ≤ p → p < seq.toNat + bytes.length → r'.Stores stream p := by
    intro p hlo hhi
    refine ⟨?_, ?_⟩
    · change (r.rbuf.writeOffset bytes _).2.2.dataLength + (p - r.rcvNxt.toNat) <
        (r.rbuf.writeOffset bytes _).2.2.bufferLength
      rw [hdata, hcap]
      omega
    · change _ = some (r'.rbuf.cell ((r.rbuf.writeOffset bytes _).2.2.dataLength +
        (p - r.rcvNxt.toNat)))
      have hstream := hbytes (p - seq.toNat) (by omega)
      rw [Nat.add_sub_cancel' hlo] at hstream
      rw [hdata, hcell _ (by omega), Circular.blit_inside (by omega) (by omega), hstream]
      congr 2
      omega
  refine ⟨⟨FifoBuffer.writeOffset_wf h.wf bytes _, ?_, h.nxt_le, ?_, fun hl => ?_,
    fun hl g hg => ?_⟩, hnew⟩
  · rw [hcap]
    exact h.capacity_lt
  · rw [hread]
    exact h.delivered
  · rw [hread]
    exact h.data hl
  · obtain ⟨hend, hpart⟩ := h.held hl g hg
    refine ⟨hend, fun p hp hlo hhi => ?_⟩
    change r.rcvNxt.toNat ≤ p at hp
    obtain ⟨hctl, hroom, hbyte⟩ := hpart p hp hlo hhi
    refine ⟨hctl, ?_⟩
    by_cases hnewly : seq.toNat ≤ p ∧ p < seq.toNat + bytes.length
    · exact hnew p hnewly.1 hnewly.2
    · refine ⟨?_, ?_⟩
      · rw [hdata, hcap]
        exact hroom
      · rw [hbyte, hdata, hcell _ hroom]
        rcases Nat.lt_or_ge p seq.toNat with hlt | hge
        · rw [Circular.blit_of_lt (by omega)]
        · rw [Circular.blit_of_ge (by omega)]

theorem Follows.insert (h : r.Follows returned stream ctl live) {g : RSegment}
    (hg : r.Holds stream ctl g) :
    Follows { r with rlist := insertRange g r.rlist } returned stream ctl live := by
  refine { h with held := fun hl g' hg' => ?_ }
  rcases mem_insertRange hg' with rfl | hmem
  · exact hg
  · exact h.held hl g' hmem

/-- Control bytes are skipped when nothing is listed, data is when it is no
longer wanted. -/
theorem Follows.skip (h : r.Follows returned stream ctl live) (hlt : stream.length < 2 ^ 32)
    {n : UInt32} (hle : r.rcvNxt.toNat + n.toNat ≤ stream.length)
    (hlive : live → r.rcvNxt.toNat + n.toNat ≤ ctl ∧ r.rlist = []) :
    (r.advance n).Follows returned stream ctl live := by
  have hnxt : (r.advance n).rcvNxt.toNat = r.rcvNxt.toNat + n.toNat := by
    change (r.rcvNxt + n).toNat = _
    rw [UInt32.toNat_add, Nat.mod_eq_of_lt (by omega)]
  refine ⟨h.wf, h.capacity_lt, by omega, h.delivered, fun hl => ?_, fun hl g hg => ?_⟩
  · have hdata := h.data hl
    have hctl := (hlive hl).1
    rw [dataUpTo_of_le (by omega)] at hdata
    rw [hnxt, dataUpTo_of_le hctl]
    exact hdata
  · rw [show (r.advance n).rlist = r.rlist from rfl, (hlive hl).2] at hg
    cases hg

theorem Follows.read (h : r.Follows returned stream ctl live) {len : Nat} {data : List UInt8}
    {rbuf : FifoBuffer} (hread : r.rbuf.read len = (.success, data, rbuf)) :
    Follows { r with rbuf := rbuf } (returned ++ data) stream ctl live := by
  by_cases hz : r.rbuf.dataLength = 0
  · rw [FifoBuffer.read_block h.wf len hz] at hread
    cases hread
  · rw [FifoBuffer.read_success h.wf len (Nat.pos_of_ne_zero hz)] at hread
    obtain ⟨rfl, rfl⟩ := Prod.mk.inj (Prod.mk.inj hread).2
    have hpos : 0 < r.rbuf.bufferLength := by have := h.wf.length_le; omega
    have hsplit : (returned ++ r.rbuf.readable.take len) ++
        (r.rbuf.consumeReadData (min len r.rbuf.dataLength)).readable =
          returned ++ r.rbuf.readable := by
      rw [FifoBuffer.consumeReadData_readable, List.append_assoc]
      congr 1
      rw [show r.rbuf.readable.take len = r.rbuf.readable.take (min len r.rbuf.dataLength) by
        rw [List.take_eq_take_iff, FifoBuffer.length_readable]; omega]
      exact List.take_append_drop _ _
    refine ⟨FifoBuffer.consumeReadData_wf h.wf hpos _, h.capacity_lt, h.nxt_le, ?_, fun hl => ?_,
      fun hl g hg => ?_⟩
    · rw [hsplit]
      exact h.delivered
    · rw [hsplit]
      exact h.data hl
    · obtain ⟨hend, hpart⟩ := h.held hl g hg
      refine ⟨hend, fun p hp hlo hhi => ?_⟩
      obtain ⟨hctl, hroom, hbyte⟩ := hpart p hp hlo hhi
      have hplace : min len r.rbuf.dataLength +
          (r.rbuf.dataLength - min len r.rbuf.dataLength + (p - r.rcvNxt.toNat)) =
            r.rbuf.dataLength + (p - r.rcvNxt.toNat) := by omega
      refine ⟨hctl, ?_, ?_⟩
      · simp only [FifoBuffer.consumeReadData]
        omega
      · rw [FifoBuffer.consumeReadData_cell]
        simp only [FifoBuffer.consumeReadData]
        rw [hplace]
        exact hbyte

theorem Follows.resize (h : r.Follows returned stream ctl live) (heap : Nat → UInt8)
    (size : UInt32) (hnil : r.rlist = [] ∨ size.toNat = r.rbuf.bufferLength) :
    Follows { r with rbuf := (r.rbuf.setCapacity heap size.toNat).2 } returned stream ctl live := by
  have hsize := size.toNat_lt
  obtain ⟨hread, hwf, hdata, -⟩ := FifoBuffer.setCapacity_keeps h.wf heap
    (show size.toNat ≤ maxAllocation by simp only [maxAllocation]; omega)
  refine ⟨hwf, ?_, h.nxt_le, ?_, fun hl => ?_, fun hl g hg => ?_⟩
  · have hcap := h.capacity_lt
    simp only [FifoBuffer.setCapacity]
    split
    · exact hcap
    · split
      · exact hsize
      · exact hcap
  · rw [hread]
    exact h.delivered
  · rw [hread]
    exact h.data hl
  · rcases hnil with hnil | hsame
    · rw [hnil] at hg
      cases hg
    · have hkeep : (r.rbuf.setCapacity heap size.toNat).2 = r.rbuf := by
        simp only [FifoBuffer.setCapacity, hsame, ne_eq, not_true, if_false]
        split <;> rfl
      rw [hkeep]
      exact h.held hl g hg

end Operations

end Receiver

namespace PseudoTcp

def Follows (s : PseudoTcp) (stream : List UInt8) (ctl : Nat) : Prop :=
  s.toReceiver.Follows s.returned stream ctl (s.shutdown = .none)

/-- No ack ended inside a segment, and no byte was skipped nor the receive
buffer resized while ranges were listed. -/
def Undisturbed (s : PseudoTcp) : Prop :=
  .cutAck ∉ s.incidents ∧ .skippedHeld ∉ s.incidents ∧ .resizedHeld ∉ s.incidents

instance (s : PseudoTcp) : Decidable s.Undisturbed := inferInstanceAs (Decidable (_ ∧ _ ∧ _))

theorem Undisturbed.of_step {arriving : Segment → Prop} (s t : PseudoTcp)
    (hstep : Step arriving s t) (h : t.Undisturbed) : s.Undisturbed := by
  obtain ⟨hack, hskip, hresize⟩ := h
  exact ⟨fun hmem => hack (hstep.incidents_subset hmem),
    fun hmem => hskip (hstep.incidents_subset hmem),
    fun hmem => hresize (hstep.incidents_subset hmem)⟩

section Steps

variable {s t : PseudoTcp} {stream : List UInt8} {ctl : Nat}

theorem Segment.bytes_ne_nil {seg : Segment} (h : seg.len ≠ 0) : seg.bytes ≠ [] := by
  intro hnil
  apply h
  have hlength := congrArg List.length hnil
  simp only [Segment.bytes, List.length_map, List.length_range, List.length_nil] at hlength
  exact UInt32.toNat_inj.mp hlength

theorem store_follows (h : s.Follows stream ctl) {seg : Segment} (hstored : Stored s (s.fitted seg) t)
    (hhonest : seg.Honest stream ctl) (hlt : stream.length < 2 ^ 32)
    (hclean : .skippedHeld ∉ t.incidents) (hshutdown : t.shutdown = s.shutdown)
    (hreturned : t.returned = s.returned) : t.Follows stream ctl := by
  have hspec := (s.fitted_spec seg).2
  have hhonest' := hhonest.fitted s
  rw [Follows, hshutdown, hreturned]
  generalize s.fitted seg = seg at hstored hspec hhonest'
  have hplaced : seg.len ≠ 0 → ¬ s.Ignores seg →
      s.shutdown = .none ∧ ctl ≤ seg.seq.toNat ∧ s.rcvNxt ≤ seg.seq ∧
      seg.seq.toNat + seg.len.toNat ≤ stream.length ∧
      (s.overwritten seg).Follows s.returned stream ctl (s.shutdown = .none) ∧
      ∀ p, seg.seq.toNat ≤ p → p < seg.seq.toNat + seg.len.toNat →
        (s.overwritten seg).Stores stream p := by
    intro hlen hignore
    obtain ⟨hge, hfit, -⟩ := hspec.resolve_left hlen
    obtain ⟨hle, hbytes, hctl⟩ := hhonest'.resolve_left hlen
    simp only [Ignores, not_or, not_not] at hignore
    have hlength : seg.bytes.length = seg.len.toNat := by simp [Segment.bytes]
    have hfree := UInt32.le_iff_toNat_le.mp hfit
    have hge' := UInt32.le_iff_toNat_le.mp hge
    have hsum : (seg.seq + seg.len).toNat = seg.seq.toNat + seg.len.toNat := by
      rw [UInt32.toNat_add, Nat.mod_eq_of_lt (by omega)]
    rw [UInt32.toNat_sub_of_le _ _ (UInt32.le_iff_toNat_le.mpr (by omega)), hsum,
      FifoBuffer.getWriteRemaining, UInt32.toNat_ofNat_of_lt' (by
        have := h.capacity_lt
        simp only [UInt32.size]
        omega)] at hfree
    have hcap := h.wf.length_le
    have hpos : 0 < seg.len.toNat := Nat.pos_of_ne_zero fun hz => hlen (UInt32.toNat_inj.mp hz)
    obtain ⟨hfollows, hstores⟩ := h.overwrite hge (Segment.bytes_ne_nil hlen) (by omega)
      fun i hi => by
        rw [hbytes i (by omega)]
        simp [Segment.bytes]
    refine ⟨hignore.2, ?_, hge, hle, hfollows, fun p hlo hhi => hstores p hlo (by omega)⟩
    rwa [if_neg (by simpa using hignore.1)] at hctl
  cases hstored with
  | nothing hreceiver =>
    rw [hreceiver]
    exact h
  | skipped hlen hignore hseq hreceiver hlap hskip =>
    rw [hreceiver]
    obtain ⟨hle, -, hctl⟩ := hhonest'.resolve_left hlen
    rw [hseq] at hle hctl
    refine Receiver.Follows.skip h hlt hle fun hlive => ⟨?_, hskip.resolve_left hclean⟩
    have hflag := hignore.resolve_right (not_not.mpr hlive)
    rwa [if_pos hflag] at hctl
  | inOrder hlen hignore hseq hreceiver hlap hrun =>
    rw [hreceiver]
    obtain ⟨hlive, hctl, hge, hle, hfollows, hstores⟩ := hplaced hlen hignore
    rw [hseq] at hctl hle hstores
    apply Receiver.Follows.recoverRanges s.rlist _ hlive hlt
    exact hfollows.commit hlive hlt hle fun p hp hhi => ⟨Nat.le_trans hctl hp, hstores p hp hhi⟩
  | ahead hlen hignore hseq hreceiver hrun =>
    rw [hreceiver]
    obtain ⟨hlive, hctl, hge, hle, hfollows, hstores⟩ := hplaced hlen hignore
    exact hfollows.insert ⟨hle, fun p hp hlo hhi => ⟨Nat.le_trans hctl hlo, hstores p hlo hhi⟩⟩

theorem Follows.of_eq (h : s.Follows stream ctl) (hreceiver : t.toReceiver = s.toReceiver)
    (hreturned : t.returned = s.returned) (hopen : t.shutdown = .none → s.shutdown = .none) :
    t.Follows stream ctl := by
  rw [Follows, hreceiver, hreturned]
  exact ⟨h.wf, h.capacity_lt, h.nxt_le, h.delivered, fun hl => h.data (hopen hl),
    fun hl => h.held (hopen hl)⟩

/-- Every step keeps to the stream of the peer, when the segments that arrive are
pieces of it. -/
theorem Follows.step (h : s.Follows stream ctl) (hlt : stream.length < 2 ^ 32)
    (hstep : Step (fun seg => seg.Honest stream ctl) s t) (hclean : t.Undisturbed) :
    t.Follows stream ctl := by
  cases hstep with
  | tune hcore hlisten hopen =>
    exact h.of_eq (congrArg Core.receiver hcore) (congrArg Core.returned hcore) hopen
  | resizeReceive size =>
    refine (Receiver.Follows.resize h (s.env.heap s.allocs) (roundedSize size) ?_).congr rfl rfl rfl
    by_contra hne
    rw [not_or] at hne
    apply hclean.2.2
    change _ ∈ ((s.noteIf _ .shrunk).noteIf _ .resizedHeld).incidents
    refine mem_noteIf.mpr (.inr ⟨?_, rfl⟩)
    rw [Bool.and_eq_true]
    exact ⟨decide_eq_true hne.1, decide_eq_true hne.2⟩
  | read hread => exact Receiver.Follows.read h hread
  | openWindow => exact Receiver.Follows.congr h rfl rfl rfl
  | store seg sflags harrive =>
    obtain ⟨hcore, -, hshutdown, -⟩ := store_frame s (s.fitted seg) sflags
    exact store_follows h (store_stored s (s.fitted seg) sflags) harrive hlt hclean.2.1 hshutdown
      (congrArg Core.returned hcore)
  | _ => exact h.of_eq rfl rfl id

end Steps

end PseudoTcp

end Libjingle
