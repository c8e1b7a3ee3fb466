import Libjingle.Base.FifoRefinement
import Libjingle.PseudoTcp.Steps

/-! The receive window. `m_rcv_wnd` stays inside the free space of the receive
buffer, and the right edge it gives never moves back, as long as nothing is
stored beyond it. -/

namespace Libjingle

namespace Segment

theorem trimFront_spec (seg : Segment) (rcvNxt : UInt32) :
    (seg.trimFront rcvNxt).flags = seg.flags ∧
    ((seg.trimFront rcvNxt).len = 0 ∨ rcvNxt ≤ (seg.trimFront rcvNxt).seq ∧
      ∃ k, seg.seq.toNat + k = (seg.trimFront rcvNxt).seq.toNat ∧
        k + (seg.trimFront rcvNxt).len.toNat = seg.len.toNat ∧
        (seg.trimFront rcvNxt).data = fun i => seg.data (k + i)) := by
  simp only [trimFront]
  split
  · rename_i hlt
    have hsub := UInt32.toNat_sub_of_le _ _ (UInt32.le_of_lt hlt)
    have hltn := UInt32.lt_iff_toNat_lt.mp hlt
    split
    · rename_i hadj
      have hadjn := UInt32.lt_iff_toNat_lt.mp hadj
      have hlen := UInt32.toNat_sub_of_le _ _ (UInt32.le_of_lt hadj)
      have hseq : seg.seq + (rcvNxt - seg.seq) = rcvNxt := by
        rw [UInt32.add_comm, UInt32.sub_add_cancel]
      refine ⟨rfl, .inr ⟨?_, (rcvNxt - seg.seq).toNat, ?_, ?_, rfl⟩⟩
      · exact UInt32.le_of_eq hseq.symm
      · change _ = (seg.seq + (rcvNxt - seg.seq)).toNat
        rw [hseq, hsub]
        omega
      · rw [hlen]
        omega
    · exact ⟨rfl, .inl rfl⟩
  · rename_i hle
    exact ⟨rfl, .inr ⟨UInt32.not_lt.mp hle, 0, rfl, Nat.zero_add _, by simp⟩⟩

theorem trimBack_spec (seg : Segment) (rcvNxt space : UInt32) :
    (seg.trimBack rcvNxt space).flags = seg.flags ∧
    (seg.trimBack rcvNxt space).seq = seg.seq ∧
    (seg.trimBack rcvNxt space).data = seg.data ∧
    ((seg.trimBack rcvNxt space).len = 0 ∨ (seg.trimBack rcvNxt space).len ≤ seg.len ∧
      seg.seq + (seg.trimBack rcvNxt space).len - rcvNxt ≤ space) := by
  simp only [trimBack]
  split
  · split
    · rename_i hadj
      refine ⟨rfl, rfl, rfl, .inr ⟨?_, ?_⟩⟩
      · have := UInt32.toNat_sub_of_le _ _ (UInt32.le_of_lt hadj)
        rw [UInt32.le_iff_toNat_le, this]
        omega
      · apply UInt32.le_of_eq
        grind
    · exact ⟨rfl, rfl, rfl, .inl rfl⟩
  · rename_i hle
    exact ⟨rfl, rfl, rfl, .inr ⟨UInt32.le_refl _, UInt32.not_lt.mp hle⟩⟩

end Segment

namespace PseudoTcp

theorem fitted_spec (s : PseudoTcp) (seg : Segment) :
    (s.fitted seg).flags = seg.flags ∧
    ((s.fitted seg).len = 0 ∨ s.rcvNxt ≤ (s.fitted seg).seq ∧
      (s.fitted seg).seq + (s.fitted seg).len - s.rcvNxt ≤
        UInt32.ofNat s.rbuf.getWriteRemaining ∧
      ∃ k, seg.seq.toNat + k = (s.fitted seg).seq.toNat ∧
        k + (s.fitted seg).len.toNat ≤ seg.len.toNat ∧
        (s.fitted seg).data = fun i => seg.data (k + i)) := by
  obtain ⟨hflags, hfront⟩ := seg.trimFront_spec s.rcvNxt
  obtain ⟨hflags', hseq, hdata, hback⟩ := (seg.trimFront s.rcvNxt).trimBack_spec s.rcvNxt
    (UInt32.ofNat s.rbuf.getWriteRemaining)
  refine ⟨hflags'.trans hflags, ?_⟩
  rcases hback with hz | ⟨hle, hfit⟩
  · exact .inl hz
  · have hlen := UInt32.le_iff_toNat_le.mp hle
    rcases hfront with hz | ⟨hge, k, hk, hsum, hmem⟩
    · left
      rw [hz] at hle
      exact UInt32.le_zero_iff.mp hle
    · refine .inr ⟨?_, ?_, k, ?_, ?_, hdata.trans hmem⟩
      · exact (congrArg (s.rcvNxt ≤ ·) hseq).mpr hge
      · rw [fitted, hseq]
        exact hfit
      · rw [hk, fitted, hseq]
      · exact Nat.le_trans (Nat.add_le_add_left hlen k) (Nat.le_of_eq hsum)

end PseudoTcp

namespace Receiver

structure Window (r : Receiver) : Prop where
  wf : r.rbuf.Wf
  capacity : r.rbuf.bufferLength = r.rbufLen.toNat
  wnd_le : r.rcvWnd.toNat ≤ r.rbuf.bufferLength - r.rbuf.dataLength
  nxt : r.rcvNxt.toNat = r.rcvTotal % 2 ^ 32
  held_le : r.rbuf.dataLength ≤ r.rcvTotal
  ranges : ∀ g ∈ r.rlist, g.seq.toNat + g.len.toNat ≤ r.rcvNxt.toNat + r.rcvWnd.toNat
  scale_le : r.rwndScale ≤ 16

/-- The right edge of the window, counted over all bytes received. -/
def rightEdge (r : Receiver) : Nat := r.rcvTotal + r.rcvWnd.toNat

/-- How many bytes were received and are not held any more. -/
def released (r : Receiver) : Nat := r.rcvTotal - r.rbuf.dataLength

/-- The right edge does not move back. When the buffer got another size on the
way, the window was opened as far as that size allows. -/
def Advances (r r' : Receiver) : Prop :=
  r.released ≤ r'.released ∧
    (r'.rbuf.bufferLength = r.rbuf.bufferLength ∧ r.rightEdge ≤ r'.rightEdge ∨
      r.released + r'.rbuf.bufferLength ≤ r'.rightEdge)

theorem Advances.refl (r : Receiver) : r.Advances r :=
  ⟨Nat.le_refl _, .inl ⟨rfl, Nat.le_refl _⟩⟩

theorem Advances.trans {r r' r'' : Receiver} (h : r.Advances r') (h' : r'.Advances r'') :
    r.Advances r'' := by
  obtain ⟨hrel, hedge⟩ := h
  obtain ⟨hrel', hedge'⟩ := h'
  refine ⟨Nat.le_trans hrel hrel', ?_⟩
  rcases hedge' with ⟨hcap', hedge'⟩ | hfull'
  · rcases hedge with ⟨hcap, hedge⟩ | hfull
    · exact .inl ⟨hcap'.trans hcap, Nat.le_trans hedge hedge'⟩
    · exact .inr (by omega)
  · exact .inr (by omega)

theorem Advances.rightEdge_le {r r' : Receiver} (h : r.Advances r') (hw : r.Window)
    (hcap : r'.rbuf.bufferLength = r.rbuf.bufferLength) : r.rightEdge ≤ r'.rightEdge := by
  rcases h.2 with ⟨-, hedge⟩ | hfull
  · exact hedge
  · have hwnd := hw.wnd_le
    have hheld := hw.held_le
    have hlen := hw.wf.length_le
    simp only [rightEdge, released] at hfull ⊢
    omega

section Operations

variable {r : Receiver}

theorem Window.free_lt (h : r.Window) :
    (UInt32.ofNat r.rbuf.getWriteRemaining).toNat = r.rbuf.bufferLength - r.rbuf.dataLength := by
  have := h.capacity
  have := r.rbufLen.toNat_lt
  rw [FifoBuffer.getWriteRemaining, UInt32.toNat_ofNat_of_lt' (by simp only [UInt32.size]; omega)]

theorem Window.relist (h : r.Window) {l : List RSegment} (hl : ∀ g ∈ l, g ∈ r.rlist) :
    Window { r with rlist := l } :=
  { h with ranges := fun g hg => h.ranges g (hl g hg) }

theorem Window.advance (h : r.Window) {n : UInt32}
    (hlap : r.rlist = [] ∨ r.rcvNxt.toNat + n.toNat < 2 ^ 32) :
    (r.advance n).Window ∧ r.Advances (r.advance n) := by
  have hnxt := h.nxt
  have hheld := h.held_le
  have hadd : (r.rcvNxt + n).toNat = (r.rcvNxt.toNat + n.toNat) % 2 ^ 32 := UInt32.toNat_add _ _
  refine ⟨{ h with nxt := ?_, held_le := ?_, ranges := ?_ }, ?_, .inl ⟨rfl, ?_⟩⟩
  · simp only [Receiver.advance, hadd]
    omega
  · simp only [Receiver.advance]
    omega
  · intro g hg
    rcases hlap with hnil | hlt
    · rw [show (r.advance n).rlist = r.rlist from rfl, hnil] at hg
      cases hg
    · have := h.ranges g hg
      simp only [Receiver.advance, hadd]
      omega
  · simp only [released, Receiver.advance]
    omega
  · simp only [rightEdge, Receiver.advance]
    omega

theorem Window.commit (h : r.Window) {n : UInt32} (hn : n.toNat ≤ r.rcvWnd.toNat)
    (hlap : r.rlist = [] ∨ r.rcvNxt.toNat + n.toNat < 2 ^ 32) :
    (r.commit n).Window ∧ r.Advances (r.commit n) := by
  have hnxt := h.nxt
  have hheld := h.held_le
  have hwnd := h.wnd_le
  have hadd : (r.rcvNxt + n).toNat = (r.rcvNxt.toNat + n.toNat) % 2 ^ 32 := UInt32.toNat_add _ _
  have hsub : (r.rcvWnd - n).toNat = r.rcvWnd.toNat - n.toNat :=
    UInt32.toNat_sub_of_le _ _ (UInt32.le_iff_toNat_le.mpr hn)
  refine ⟨{
    wf := FifoBuffer.consumeWriteBuffer_wf h.wf (by omega)
    capacity := h.capacity
    wnd_le := ?_
    nxt := ?_
    held_le := ?_
    ranges := ?_
    scale_le := h.scale_le }, ?_, .inl ⟨rfl, ?_⟩⟩
  · simp only [Receiver.commit, FifoBuffer.consumeWriteBuffer, hsub]
    omega
  · simp only [Receiver.commit, Receiver.advance, hadd]
    omega
  · simp only [Receiver.commit, Receiver.advance, FifoBuffer.consumeWriteBuffer]
    omega
  · intro g hg
    rcases hlap with hnil | hlt
    · rw [show (r.commit n).rlist = r.rlist from rfl, hnil] at hg
      cases hg
    · have := h.ranges g hg
      simp only [Receiver.commit, Receiver.advance, hadd, hsub]
      omega
  · simp only [released, Receiver.commit, Receiver.advance, FifoBuffer.consumeWriteBuffer]
    omega
  · simp only [rightEdge, Receiver.commit, Receiver.advance, hsub]
    omega

theorem Window.recoverRanges (l : List RSegment) {r : Receiver}
    (h : Window { r with rlist := l }) :
    (Receiver.recoverRanges l r).2.Window ∧ r.Advances (Receiver.recoverRanges l r).2 := by
  induction l generalizing r with
  | nil => exact ⟨h, .refl r⟩
  | cons it rest ih =>
    have hrest : Window { r with rlist := rest } := h.relist fun g hg => List.mem_cons_of_mem _ hg
    simp only [Receiver.recoverRanges]
    split
    · rename_i hreached
      split
      · rename_i hnew
        have hle := UInt32.le_iff_toNat_le.mp hreached
        have hlt := UInt32.lt_iff_toNat_lt.mp hnew
        have hend := h.ranges it List.mem_cons_self
        have hseq := it.seq.toNat_lt
        have hlen := it.len.toNat_lt
        rw [UInt32.toNat_add] at hlt
        have hsum : (it.seq + it.len).toNat = it.seq.toNat + it.len.toNat := by
          rw [UInt32.toNat_add]
          omega
        have hsub : (it.seq + it.len - r.rcvNxt).toNat =
            it.seq.toNat + it.len.toNat - r.rcvNxt.toNat := by
          rw [UInt32.toNat_sub_of_le _ _ (UInt32.le_of_lt hnew), hsum]
        have hbound := (it.seq + it.len).toNat_lt
        simp only at hend
        obtain ⟨hw, hadv⟩ := hrest.commit (n := it.seq + it.len - r.rcvNxt)
          (by simp only [hsub]; omega) (.inr (by simp only [hsub]; omega))
        obtain ⟨hw', hadv'⟩ := ih (r := r.commit (it.seq + it.len - r.rcvNxt)) hw
        exact ⟨hw', Advances.trans hadv hadv'⟩
      · exact ih hrest
    · exact ⟨h, .refl r⟩

theorem Window.read (h : r.Window) {len : Nat} {data : List UInt8} {rbuf : FifoBuffer}
    (hread : r.rbuf.read len = (.success, data, rbuf)) :
    Window { r with rbuf := rbuf } ∧ r.Advances { r with rbuf := rbuf } := by
  have hwnd := h.wnd_le
  have hheld := h.held_le
  by_cases hz : r.rbuf.dataLength = 0
  · rw [FifoBuffer.read_block h.wf len hz] at hread
    cases hread
  · rw [FifoBuffer.read_success h.wf len (Nat.pos_of_ne_zero hz)] at hread
    obtain ⟨-, rfl⟩ := Prod.mk.inj (Prod.mk.inj hread).2
    have hpos : 0 < r.rbuf.bufferLength := by have := h.wf.length_le; omega
    refine ⟨{
      wf := FifoBuffer.consumeReadData_wf h.wf hpos _
      capacity := h.capacity
      wnd_le := ?_
      nxt := h.nxt
      held_le := ?_
      ranges := h.ranges
      scale_le := h.scale_le }, ?_, .inl ⟨rfl, Nat.le_refl _⟩⟩
    · simp only [FifoBuffer.consumeReadData]
      omega
    · simp only [FifoBuffer.consumeReadData]
      omega
    · simp only [released, FifoBuffer.consumeReadData]
      omega

theorem Window.openFully (h : r.Window) :
    Window { r with rcvWnd := UInt32.ofNat r.rbuf.getWriteRemaining } ∧
      r.Advances { r with rcvWnd := UInt32.ofNat r.rbuf.getWriteRemaining } := by
  have hwnd := h.wnd_le
  have hfree := h.free_lt
  refine ⟨{ h with wnd_le := ?_, ranges := fun g hg => ?_ }, Nat.le_refl _, .inl ⟨rfl, ?_⟩⟩
  · simp only [hfree]
    exact Nat.le_refl _
  · have := h.ranges g hg
    simp only [hfree]
    omega
  · simp only [rightEdge, hfree]
    omega

theorem Window.resize (h : r.Window) {heap : Nat → UInt8} {size : UInt32} {scale : UInt8}
    (hresult : (r.rbuf.setCapacity heap size.toNat).1 = true) (hscale : scale ≤ 16)
    (hranges : ∀ g ∈ r.rlist, g.seq.toNat + g.len.toNat ≤
      r.rcvNxt.toNat + (r.rbuf.setCapacity heap size.toNat).2.getWriteRemaining) :
    let r' := { r with
      rbuf := (r.rbuf.setCapacity heap size.toNat).2
      rbufLen := size
      rwndScale := scale
      rcvWnd := UInt32.ofNat (r.rbuf.setCapacity heap size.toNat).2.getWriteRemaining }
    r'.Window ∧ r.Advances r' := by
  have hsize := size.toNat_lt
  have hheld := h.held_le
  obtain ⟨hread, hwf, hdata, -⟩ := FifoBuffer.setCapacity_keeps h.wf heap
    (show size.toNat ≤ maxAllocation by simp only [maxAllocation]; omega)
  obtain ⟨hle, hcap⟩ := FifoBuffer.setCapacity_true hresult
  have hfree : (UInt32.ofNat (r.rbuf.setCapacity heap size.toNat).2.getWriteRemaining).toNat =
      size.toNat - r.rbuf.dataLength := by
    rw [FifoBuffer.getWriteRemaining, hcap, hdata,
      UInt32.toNat_ofNat_of_lt' (by simp only [UInt32.size]; omega)]
  rw [FifoBuffer.getWriteRemaining, hcap, hdata] at hranges
  refine ⟨{
    wf := hwf
    capacity := hcap
    wnd_le := ?_
    nxt := h.nxt
    held_le := ?_
    ranges := fun g hg => ?_
    scale_le := hscale }, ?_, .inr ?_⟩
  · simp only [hfree, hcap, hdata]
    exact Nat.le_refl _
  · simp only [hdata]
    exact hheld
  · have := hranges g hg
    simp only [hfree]
    exact this
  · simp only [released, hdata]
    exact Nat.le_refl _
  · simp only [released, rightEdge, hfree, hcap]
    omega

theorem Window.overwrite (h : r.Window) (data : List UInt8) (offset : Nat) :
    Window { r with rbuf := (r.rbuf.writeOffset data offset).2.2 } ∧
      r.Advances { r with rbuf := (r.rbuf.writeOffset data offset).2.2 } := by
  obtain ⟨hdata, hcap⟩ := FifoBuffer.writeOffset_lengths r.rbuf data offset
  refine ⟨{
    wf := FifoBuffer.writeOffset_wf h.wf data offset
    capacity := hcap.trans h.capacity
    wnd_le := ?_
    nxt := h.nxt
    held_le := ?_
    ranges := h.ranges
    scale_le := h.scale_le }, ?_, .inl ⟨hcap, Nat.le_refl _⟩⟩
  · simp only [hdata, hcap]
    exact h.wnd_le
  · simp only [hdata]
    exact h.held_le
  · simp only [released, hdata]
    exact Nat.le_refl _

theorem mem_insertRange {g rseg : RSegment} {l : List RSegment}
    (h : g ∈ insertRange rseg l) : g = rseg ∨ g ∈ l := by
  simp only [insertRange, List.mem_append, List.mem_cons] at h
  rcases h with h | rfl | h
  · exact .inr (List.takeWhile_subset _ h)
  · exact .inl rfl
  · exact .inr (List.dropWhile_subset _ h)

theorem Window.insert (h : r.Window) {g : RSegment}
    (hg : g.seq.toNat + g.len.toNat ≤ r.rcvNxt.toNat + r.rcvWnd.toNat) :
    Window { r with rlist := insertRange g r.rlist } := by
  refine { h with ranges := fun g' hg' => ?_ }
  rcases mem_insertRange hg' with rfl | hmem
  · exact hg
  · exact h.ranges g' hmem

end Operations

end Receiver

namespace PseudoTcp

theorem scaleFactor_le (fuel : Nat) (size : UInt32) (h : fuel ≤ 16) :
    (scaleFactor fuel size).toNat ≤ fuel := by
  induction fuel generalizing size with
  | zero => exact Nat.le_refl _
  | succ fuel ih =>
    have hih := ih (size >>> 1) (by omega)
    simp only [scaleFactor]
    split
    · rw [UInt8.toNat_add]
      simp only [UInt8.toNat_one]
      omega
    · exact Nat.zero_le _

/-- The receiving half of an endpoint, and the window fields it has written. -/
structure WindowInv (s : PseudoTcp) : Prop where
  window : s.toReceiver.Window
  written : ∀ c ∈ s.written, c.wnd.toNat * 2 ^ c.scale.toNat ≤ c.space

/-- Nothing was stored beyond the window, the receive buffer was not made too
small, and no range was listed when `m_rcv_nxt` passed `2 ^ 32`. -/
def InWindow (s : PseudoTcp) : Prop :=
  .overrun ∉ s.incidents ∧ .shrunk ∉ s.incidents ∧ .lapHeld ∉ s.incidents

instance (s : PseudoTcp) : Decidable s.InWindow := inferInstanceAs (Decidable (_ ∧ _ ∧ _))

theorem packetCall_window {s : PseudoTcp} (h : s.toReceiver.Window) (seq : UInt32) (flags : UInt8)
    (offset len : UInt32) :
    (s.packetCall seq flags offset len).wnd.toNat *
      2 ^ (s.packetCall seq flags offset len).scale.toNat ≤
        (s.packetCall seq flags offset len).space := by
  have hscale := UInt8.le_iff_toNat_le.mp h.scale_le
  have hlt : s.rwndScale.toNat % 32 = s.rwndScale.toNat := by
    apply Nat.mod_eq_of_lt
    exact Nat.lt_of_le_of_lt hscale (by decide)
  have hwnd := h.wnd_le
  simp only [packetCall, UInt32.toNat_toUInt16, UInt32.toNat_shiftRight, UInt8.toNat_toUInt32, hlt,
    Nat.shiftRight_eq_div_pow, FifoBuffer.getWriteRemaining]
  calc s.rcvWnd.toNat / 2 ^ s.rwndScale.toNat % 2 ^ 16 * 2 ^ s.rwndScale.toNat
      ≤ s.rcvWnd.toNat / 2 ^ s.rwndScale.toNat * 2 ^ s.rwndScale.toNat :=
        Nat.mul_le_mul_right _ (Nat.mod_le _ _)
    _ ≤ s.rcvWnd.toNat := Nat.div_mul_le_self _ _
    _ ≤ _ := hwnd

/-- Storing a payload keeps the window, when it lies inside the window and no
range is listed when `m_rcv_nxt` passes `2 ^ 32`. -/
theorem store_window {s t : PseudoTcp} (h : s.toReceiver.Window) {seg : Segment}
    (hstored : Stored s seg t) (hseq : seg.len = 0 ∨ s.rcvNxt ≤ seg.seq) (hclean : t.InWindow) :
    t.toReceiver.Window ∧ s.toReceiver.Advances t.toReceiver := by
  obtain ⟨hoverrun, -, hlapHeld⟩ := hclean
  cases hstored with
  | nothing hreceiver =>
    rw [hreceiver]
    exact ⟨h, .refl _⟩
  | skipped hlen hignore hnext hreceiver hlap =>
    rw [hreceiver]
    exact h.advance (hlap.resolve_left hlapHeld)
  | inOrder hlen hignore hnext hreceiver hlap hrun =>
    rw [hreceiver]
    obtain ⟨hw, hadv⟩ := h.overwrite seg.bytes (seg.seq - s.rcvNxt).toNat
    obtain ⟨hw', hadv'⟩ := hw.commit (hrun.resolve_left hoverrun) (hlap.resolve_left hlapHeld)
    obtain ⟨hw'', hadv''⟩ := Receiver.Window.recoverRanges s.rlist (r := (s.overwritten seg).commit seg.len) hw'
    exact ⟨hw'', (hadv.trans hadv').trans hadv''⟩
  | ahead hlen hignore hnext hreceiver hrun =>
    rw [hreceiver]
    have hle := hseq.resolve_left hlen
    have hsub := UInt32.toNat_sub_of_le _ _ hle
    have hlen' := UInt32.le_iff_toNat_le.mp hle
    obtain ⟨hw, hadv⟩ := h.overwrite seg.bytes (seg.seq - s.rcvNxt).toNat
    refine ⟨Receiver.Window.insert hw ?_, hadv⟩
    have := hrun.resolve_left hoverrun
    simp only
    omega

theorem resizeReceive_window {s : PseudoTcp} (h : s.toReceiver.Window) (size : UInt32)
    (hclean : (s.resizeReceiveBuffer size).InWindow) :
    (s.resizeReceiveBuffer size).toReceiver.Window ∧
      s.toReceiver.Advances (s.resizeReceiveBuffer size).toReceiver := by
  have hfits : ¬ ((!(s.rbuf.setCapacity (s.env.heap s.allocs) (roundedSize size).toNat).1 ||
      s.rlist.any fun r => r.seq.toNat + r.len.toNat > s.rcvNxt.toNat +
        (s.rbuf.setCapacity (s.env.heap s.allocs) (roundedSize size).toNat).2.getWriteRemaining) =
          true) := by
    intro hcond
    apply hclean.2.1
    change _ ∈ ((s.noteIf _ .shrunk).noteIf _ .resizedHeld).incidents
    exact mem_noteIf.mpr (.inl (mem_noteIf.mpr (.inr ⟨hcond, rfl⟩)))
  simp only [Bool.or_eq_true, Bool.not_eq_true', List.any_eq_true, decide_eq_true_eq, not_or,
    Bool.not_eq_false, not_exists, not_and, Nat.not_lt] at hfits
  have hscale : scaleFactor 16 size ≤ 16 :=
    UInt8.le_iff_toNat_le.mpr (scaleFactor_le 16 size (Nat.le_refl _))
  exact h.resize hfits.1 hscale fun g hg => hfits.2 g hg

theorem WindowInv.of_eq {s t : PseudoTcp} (h : s.WindowInv)
    (hreceiver : t.toReceiver = s.toReceiver) (hwritten : t.written = s.written) :
    t.WindowInv ∧ s.toReceiver.Advances t.toReceiver := by
  refine ⟨⟨?_, ?_⟩, ?_⟩
  · rw [hreceiver]
    exact h.window
  · rw [hwritten]
    exact h.written
  · rw [hreceiver]
    exact .refl _

theorem WindowInv.step {arriving : Segment → Prop} {s t : PseudoTcp} (hstep : Step arriving s t)
    (h : s.WindowInv) (hclean : t.InWindow) :
    t.WindowInv ∧ s.toReceiver.Advances t.toReceiver := by
  cases hstep with
  | tune hcore => exact h.of_eq (congrArg Core.receiver hcore) (congrArg Core.written hcore)
  | write hr =>
    rename_i seq flags offset len
    refine ⟨⟨h.window, fun c hc => ?_⟩, .refl _⟩
    rcases List.mem_append.mp hc with hc | hc
    · exact h.written c hc
    · rw [List.mem_singleton.mp hc]
      exact packetCall_window h.window seq flags offset len
  | resizeReceive size =>
    obtain ⟨hw, hadv⟩ := resizeReceive_window h.window size hclean
    exact ⟨⟨hw, h.written⟩, hadv⟩
  | read hread =>
    obtain ⟨hw, hadv⟩ := h.window.read hread
    exact ⟨⟨hw, h.written⟩, hadv⟩
  | openWindow =>
    obtain ⟨hw, hadv⟩ := h.window.openFully
    exact ⟨⟨hw, h.written⟩, hadv⟩
  | store seg sflags harrive =>
    obtain ⟨hcore, -⟩ := store_frame s (s.fitted seg) sflags
    have hseq : (s.fitted seg).len = 0 ∨ s.rcvNxt ≤ (s.fitted seg).seq :=
      (s.fitted_spec seg).2.imp_right And.left
    obtain ⟨hw, hadv⟩ := store_window h.window (store_stored s (s.fitted seg) sflags) hseq hclean
    refine ⟨⟨hw, ?_⟩, hadv⟩
    rw [show (s.store (s.fitted seg) sflags).2.2.written = s.written from
      congrArg Core.written hcore]
    exact h.written
  | _ => exact h.of_eq rfl rfl

theorem new_windowInv (env : Env) (conv : UInt32) : (new env conv).WindowInv where
  window := {
    wf := FifoBuffer.new_wf _ (by decide)
    capacity := rfl
    wnd_le := Nat.le_refl _
    nxt := rfl
    held_le := Nat.le_refl _
    ranges := by simp [new]
    scale_le := by simp [new] }
  written := by simp [new]

theorem InWindow.of_step {arriving : Segment → Prop} (s t : PseudoTcp) (hstep : Step arriving s t)
    (h : t.InWindow) : s.InWindow := by
  obtain ⟨hoverrun, hshrunk, hlap⟩ := h
  exact ⟨fun hmem => hoverrun (hstep.incidents_subset hmem),
    fun hmem => hshrunk (hstep.incidents_subset hmem),
    fun hmem => hlap (hstep.incidents_subset hmem)⟩

theorem run_windowInv {s : PseudoTcp} (h : s.WindowInv) (calls : List Call)
    (hclean : (s.run calls).InWindow) :
    (s.run calls).WindowInv ∧ s.toReceiver.Advances (s.run calls).toReceiver := by
  have hkeep : ∀ t u : PseudoTcp, Step (fun _ => True) t u →
      t.WindowInv ∧ s.toReceiver.Advances t.toReceiver → u.InWindow →
      u.WindowInv ∧ s.toReceiver.Advances u.toReceiver := by
    rintro t u hstep ⟨ht, hadv⟩ hu
    obtain ⟨hinv, hadv'⟩ := ht.step hstep hu
    exact ⟨hinv, hadv.trans hadv'⟩
  exact Runs.invariant_of_clean InWindow.of_step hkeep (run_steps s calls) ⟨h, .refl _⟩ hclean

/-- As long as nothing is stored beyond the window, the buffer holds what it is
resized to and nothing is listed when the sequence numbers wrap, the window lies
in the free space, so does every window field written, and its right edge does
not move back while the capacity stays the same. -/
theorem receive_window (env : Env) (conv : UInt32) (calls more : List Call)
    (h : ((new env conv).run (calls ++ more)).InWindow) :
    let s := (new env conv).run calls
    let t := (new env conv).run (calls ++ more)
    t.rcvWnd.toNat ≤ t.rbuf.getWriteRemaining ∧
    t.rbuf.getWriteRemaining ≤ t.rbufLen.toNat ∧
    (∀ c ∈ t.written, c.wnd.toNat * 2 ^ c.scale.toNat ≤ c.space) ∧
    t.rcvNxt + t.rcvWnd = UInt32.ofNat t.rightEdge ∧
    (t.rbuf.bufferLength = s.rbuf.bufferLength → s.rightEdge ≤ t.rightEdge) := by
  intro s t
  have hrun : t = s.run more := List.foldl_append
  have hsteps : Steps (fun _ => True) s t := hrun ▸ run_steps s more
  have hs : s.InWindow := Runs.clean_of_clean InWindow.of_step hsteps h
  obtain ⟨hinv, -⟩ := run_windowInv (new_windowInv env conv) calls hs
  obtain ⟨hinv', hadv⟩ := run_windowInv hinv more (hrun ▸ h)
  rw [← hrun] at hinv' hadv
  have hw := hinv'.window
  refine ⟨hw.wnd_le, ?_, hinv'.written, ?_, hadv.rightEdge_le hinv.window⟩
  · rw [← hw.capacity]
    exact Nat.sub_le _ _
  · have hnxt : t.rcvNxt = UInt32.ofNat t.rcvTotal := by
      rw [← UInt32.toNat_inj, hw.nxt, UInt32.toNat_ofNat']
    rw [Receiver.rightEdge, UInt32.ofNat_add, UInt32.ofNat_toNat, hnxt]

theorem receive_window_read :
    let calls : List Call := [.app (.setOption .rcvBuf 8), .app .connect,
      .notifyPacket (plainPacket 0 0 2 [0, 3, 1, 0]) fun _ => 0,
      .notifyPacket (plainPacket 4 4 0 [1, 2, 3, 4]) fun _ => 0]
    ((new Env.still 7).run (calls ++ [.app (.recv 4)])).rcvWnd = 8 ∧
      ((new Env.still 7).run calls).rightEdge ≤
        ((new Env.still 7).run (calls ++ [.app (.recv 4)])).rightEdge := by
  intro calls
  have hedge := (receive_window Env.still 7 calls [.app (.recv 4)] (by decide +kernel)).2.2.2.2
  exact ⟨by decide +kernel, hedge (by decide +kernel)⟩

/-- After a read that leaves the window closed, data is still taken into the
free space, and the window wraps below zero. -/
theorem unadvertised_data_wraps_window :
    let s := (new Env.still 7).run [.app (.setOption .rcvBuf 8), .app .connect,
      .notifyPacket (plainPacket 0 0 2 [0, 3, 1, 0]) fun _ => 0,
      .notifyPacket (plainPacket 4 4 0 [1, 2, 3, 4, 5, 6, 7, 8]) fun _ => 0,
      .app (.recv 3),
      .notifyPacket (plainPacket 12 4 0 [9, 10, 11]) fun _ => 0]
    s.rcvWnd.toNat = 2 ^ 32 - 3 ∧ s.rbuf.getWriteRemaining = 0 ∧
      ¬ s.rcvWnd.toNat ≤ s.rbuf.getWriteRemaining := by
  decide +kernel

end PseudoTcp

end Libjingle
