import Libjingle.Base.FifoRefinement
import Libjingle.Lib.Layout
import Libjingle.PseudoTcp.Steps

/-! The segments of `m_slist` lie end to end over the bytes of the send buffer,
those transmitted before those that were not. The segments and the buffer hold
the end of the stream of all bytes queued so far. -/

namespace Libjingle

open Layout

abbrev SSegment.size (seg : SSegment) : Nat := seg.len.toNat

/-- A segment that starts `p` bytes into the stream, of which the first `ctl`
bytes are control bytes. -/
def SSegment.At (ctl p : Nat) (seg : SSegment) : Prop :=
  seg.seq = UInt32.ofNat p ∧ if seg.bCtrl then p + seg.size ≤ ctl else ctl ≤ p

/-- A packet carries nothing, or bytes of the stream that were in the buffer. -/
def PacketCall.Carries (c : PacketCall) (stream : List UInt8) (ctl : Nat) : Prop :=
  c.len = 0 ∨ c.offset.toNat + c.len.toNat ≤ c.buffered ∧
    ∃ p head, c.seq = UInt32.ofNat p ∧ p + c.len.toNat ≤ stream.length ∧
      c.bytes = head ++ (stream.drop p).take c.len.toNat ∧ head.length = 24 ∧
      (c.flags = PseudoTcp.flagCtl ∧ p + c.len.toNat ≤ ctl ∨ c.flags = 0 ∧ ctl ≤ p)

namespace PseudoTcp

/-- The send queue, where the first `base` bytes of the stream are acknowledged. -/
structure SendQueue (s : Sender) (stream : List UInt8) (ctl base : Nat)
    (sent unsent : List SSegment) : Prop where
  wf : s.sbuf.Wf
  capacity_lt : s.sbuf.bufferLength < 2 ^ 32
  readable : stream.drop base = s.sbuf.readable
  length : base + s.sbuf.dataLength = stream.length
  una : s.sndUna = UInt32.ofNat base
  slist : s.slist = sent ++ unsent
  laid : Laid SSegment.size (SSegment.At ctl) base s.slist
  extent : extent SSegment.size s.slist = s.sbuf.dataLength
  sent_xmit : ∀ seg ∈ sent, seg.xmit ≠ 0
  unsent_xmit : ∀ seg ∈ unsent, ¬ seg.xmit ≠ 0
  xmit_le : ∀ seg ∈ s.slist, seg.xmit ≤ 30
  nxt : s.sndNxt = s.sndUna + UInt32.ofNat (Layout.extent SSegment.size sent)
  recover : s.sndUna ≤ s.sndNxt → s.recover ≤ s.sndNxt
  ctl_le : ctl ≤ stream.length

section Queue

variable {s : Sender} {stream : List UInt8} {ctl base : Nat} {sent unsent : List SSegment}

theorem SendQueue.dataLength_lt (h : SendQueue s stream ctl base sent unsent) :
    s.sbuf.dataLength < 2 ^ 32 :=
  Nat.lt_of_le_of_lt h.wf.length_le h.capacity_lt

theorem SendQueue.sent_le (h : SendQueue s stream ctl base sent unsent) :
    Layout.extent SSegment.size sent ≤ s.sbuf.dataLength := by
  have he := h.extent
  rw [h.slist, extent_append] at he
  omega

theorem SendQueue.inFlight (h : SendQueue s stream ctl base sent unsent) :
    (s.sndNxt - s.sndUna).toNat = Layout.extent SSegment.size sent := by
  have hle := h.sent_le
  have hlt := h.dataLength_lt
  rw [h.nxt, UInt32.add_comm, UInt32.add_sub_cancel, UInt32.toNat_ofNat_of_lt' (by
    simp only [UInt32.size]; omega)]

theorem SendQueue.not_readsEnd (h : SendQueue s stream ctl base sent unsent) : ¬ ReadsEnd s := by
  rintro (⟨hnil, hcase⟩ | ⟨hall, hne⟩)
  · have hsent : sent = [] := (List.append_eq_nil_iff.mp (h.slist.symm.trans hnil)).1
    have hnxt : s.sndNxt = s.sndUna := by rw [h.nxt, hsent]; simp
    rcases hcase with hne | ⟨hlt, hle⟩
    · exact hne hnxt.symm
    · have := h.recover hle
      rw [hnxt] at this
      exact absurd hlt (UInt32.not_lt.mpr this)
  · have hunsent : unsent = [] := by
      apply List.eq_nil_iff_forall_not_mem.mpr
      intro seg hseg
      exact h.unsent_xmit seg hseg (hall seg (by rw [h.slist]; exact List.mem_append_right _ hseg))
    have he := h.extent
    rw [h.slist, hunsent, List.append_nil] at he
    apply hne
    rw [← h.inFlight.trans he, UInt32.ofNat_toNat]

theorem cut_size (seg : SSegment) (n : UInt32) :
    Layout.extent SSegment.size (cut seg n) = seg.size := by
  simp only [cut]
  split
  · rename_i hlt
    have hsub := UInt32.toNat_sub_of_le _ _ (UInt32.le_of_lt hlt)
    have hle : n.toNat < seg.len.toNat := UInt32.lt_iff_toNat_lt.mp hlt
    simp only [extent_cons, extent_nil, SSegment.size, hsub]
    omega
  · simp

theorem cut_laid {seg : SSegment} {p : Nat} (h : seg.At ctl p) (n : UInt32) :
    Laid SSegment.size (SSegment.At ctl) p (cut seg n) := by
  obtain ⟨hseq, hctl⟩ := h
  simp only [cut]
  split
  · rename_i hlt
    have hsub := UInt32.toNat_sub_of_le _ _ (UInt32.le_of_lt hlt)
    have hle : n.toNat < seg.len.toNat := UInt32.lt_iff_toNat_lt.mp hlt
    refine ⟨⟨hseq, ?_⟩, ⟨?_, ?_⟩, trivial⟩
    · cases hb : seg.bCtrl <;>
        simp only [hb, SSegment.size, if_true, Bool.false_eq_true, if_false] at hctl ⊢ <;> omega
    · simp only [hseq, SSegment.size, UInt32.ofNat_add, UInt32.ofNat_toNat]
    · cases hb : seg.bCtrl <;>
        simp only [hb, SSegment.size, hsub, if_true, Bool.false_eq_true, if_false] at hctl ⊢ <;>
        omega
  · exact ⟨⟨hseq, hctl⟩, trivial⟩

theorem cut_xmit {seg seg' : SSegment} {n : UInt32} (h : seg' ∈ cut seg n) :
    seg'.xmit = seg.xmit := by
  simp only [cut] at h
  split at h <;> simp only [List.mem_cons, List.not_mem_nil, or_false] at h
  · rcases h with rfl | rfl <;> rfl
  · rw [h]

theorem markSent_eq {seg : SSegment} {p : Nat} {n : UInt32} (h : seg.At ctl p)
    (hxmit : seg.xmit < 30) (hn : n ≤ seg.len) :
    ∃ first rest, markSent seg n = first :: rest ∧
      Laid SSegment.size (SSegment.At ctl) p (first :: rest) ∧
      Layout.extent SSegment.size (first :: rest) = seg.size ∧
      first.size = (min n seg.len).toNat ∧ first.xmit ≠ 0 ∧ first.xmit ≤ 30 ∧
      ∀ x ∈ rest, x.xmit = seg.xmit := by
  have hlaid := cut_laid h n
  have hsize := cut_size seg n
  have hx : seg.xmit.toNat < 30 := UInt8.lt_iff_toNat_lt.mp hxmit
  have hsucc : (seg.xmit + 1).toNat = seg.xmit.toNat + 1 := by
    rw [UInt8.toNat_add]
    exact Nat.mod_eq_of_lt (by simp; omega)
  have hne : seg.xmit + 1 ≠ 0 := by
    intro h0
    have := congrArg UInt8.toNat h0
    rw [hsucc] at this
    exact Nat.succ_ne_zero _ this
  have hle : seg.xmit + 1 ≤ 30 := by
    rw [UInt8.le_iff_toNat_le, hsucc]
    exact hx
  have hmin : (min n seg.len).toNat = n.toNat := by
    rw [UInt32.toNat_min, Nat.min_eq_left (UInt32.le_iff_toNat_le.mp hn)]
  simp only [markSent]
  by_cases hlt : n < seg.len
  · rw [cut, if_pos hlt] at hlaid hsize ⊢
    refine ⟨_, _, rfl, hlaid, hsize, hmin.symm, hne, hle, ?_⟩
    simp
  · rw [cut, if_neg hlt] at hlaid hsize ⊢
    have heq : n = seg.len := UInt32.le_antisymm hn (UInt32.not_lt.mp hlt)
    refine ⟨_, _, rfl, hlaid, hsize, ?_, hne, hle, by simp⟩
    rw [hmin, heq]

theorem nxt_of_le {una : UInt32} {n : Nat} (hn : n < 2 ^ 32)
    (h : una ≤ una + UInt32.ofNat n) : (una + UInt32.ofNat n).toNat = una.toNat + n := by
  have hlt := una.toNat_lt
  have hadd : (una + UInt32.ofNat n).toNat = (una.toNat + n) % 2 ^ 32 := by simp
  rw [UInt32.le_iff_toNat_le, hadd] at h
  rw [hadd]
  omega

theorem SendQueue.relist (h : SendQueue s stream ctl base sent unsent)
    {sent' unsent' : List SSegment}
    (hlaid : Laid SSegment.size (SSegment.At ctl) base (sent' ++ unsent'))
    (hextent : Layout.extent SSegment.size (sent' ++ unsent') =
      Layout.extent SSegment.size s.slist)
    (hsent : ∀ seg ∈ sent', seg.xmit ≠ 0) (hunsent : ∀ seg ∈ unsent', ¬ seg.xmit ≠ 0)
    (hxmit : ∀ seg ∈ sent' ++ unsent', seg.xmit ≤ 30)
    (hgrow : Layout.extent SSegment.size sent ≤ Layout.extent SSegment.size sent') :
    SendQueue { s with
      slist := sent' ++ unsent'
      sndNxt := s.sndUna + UInt32.ofNat (Layout.extent SSegment.size sent') }
      stream ctl base sent' unsent' where
  wf := h.wf
  capacity_lt := h.capacity_lt
  readable := h.readable
  length := h.length
  una := h.una
  slist := rfl
  laid := hlaid
  extent := hextent.trans h.extent
  sent_xmit := hsent
  unsent_xmit := hunsent
  xmit_le := hxmit
  nxt := rfl
  recover := by
    intro (hle : s.sndUna ≤ s.sndUna + UInt32.ofNat (Layout.extent SSegment.size sent'))
    change s.recover ≤ s.sndUna + UInt32.ofNat (Layout.extent SSegment.size sent')
    have hdata := h.dataLength_lt
    have hlt : Layout.extent SSegment.size sent' < 2 ^ 32 := by
      have he := hextent.trans h.extent
      rw [extent_append] at he
      omega
    have hnew := nxt_of_le hlt hle
    have hold : s.sndUna ≤ s.sndNxt := by
      rw [h.nxt, UInt32.le_iff_toNat_le]
      have hadd : (s.sndUna + UInt32.ofNat (Layout.extent SSegment.size sent)).toNat =
        (s.sndUna.toNat + Layout.extent SSegment.size sent) % 2 ^ 32 := by simp
      have hnlt := (s.sndUna + UInt32.ofNat (Layout.extent SSegment.size sent')).toNat_lt
      rw [hadd, Nat.mod_eq_of_lt (by omega)]
      omega
    have hrec := UInt32.le_iff_toNat_le.mp (h.recover hold)
    rw [h.nxt] at hold hrec
    rw [nxt_of_le (by omega) hold] at hrec
    rw [UInt32.le_iff_toNat_le, hnew]
    omega
  ctl_le := h.ctl_le

theorem SendQueue.cut_step (h : SendQueue s stream ctl base sent unsent)
    {pre post : List SSegment} {seg : SSegment} (n : UInt32) (hlist : s.slist = pre ++ seg :: post)
    (hpre : ∀ x ∈ pre, x.xmit ≠ 0) (hseg : seg.xmit = 0) :
    ∃ unsent', SendQueue { s with slist := pre ++ cut seg n ++ post } stream ctl base sent unsent' := by
  obtain ⟨rfl, rfl⟩ := append_cons_unique hpre (not_not.mpr hseg) h.sent_xmit h.unsent_xmit
    (hlist.symm.trans h.slist)
  have hl := h.laid
  have hx := h.xmit_le
  rw [hlist] at hl hx
  have hlaid := hl.replace (cut_size seg n) fun q hq => cut_laid hq n
  have hextent : Layout.extent SSegment.size (pre ++ cut seg n ++ post) = _ :=
    extent_replace (cut_size seg n)
  rw [List.append_assoc] at hlaid hextent ⊢
  have hunsent : ∀ x ∈ cut seg n ++ post, x.xmit = 0 := by
    intro x hmem
    rcases List.mem_append.mp hmem with hmem | hmem
    · rw [cut_xmit hmem, hseg]
    · exact not_not.mp (h.unsent_xmit x (List.mem_cons_of_mem _ hmem))
  refine ⟨cut seg n ++ post, ?_⟩
  have hnew := h.relist hlaid (by rw [hextent, hlist]) hpre
    (fun x hmem => not_not.mpr (hunsent x hmem)) (by
      intro x hmem
      rcases List.mem_append.mp hmem with hmem | hmem
      · exact hx x (List.mem_append_left _ hmem)
      · rw [hunsent x hmem]
        decide) (Nat.le_refl _)
  rwa [← h.nxt] at hnew

theorem SendQueue.sent_step (h : SendQueue s stream ctl base sent unsent)
    {pre post : List SSegment} {seg : SSegment} {n : UInt32} (hlist : s.slist = pre ++ seg :: post)
    (hpre : ∀ x ∈ pre, x.xmit ≠ 0) (hxmit : seg.xmit < 30) (hn : n ≤ seg.len) :
    ∃ sent' unsent', SendQueue { s with
      slist := pre ++ markSent seg n ++ post
      sndNxt := if seg.xmit = 0 then s.sndNxt + min n seg.len else s.sndNxt }
      stream ctl base sent' unsent' := by
  have hl := h.laid
  rw [hlist] at hl
  obtain ⟨-, hat, -⟩ := laid_append.mp hl
  obtain ⟨first, rest, hmark, hrlaid, hrsize, hfirst, hfne, hfle, hrest⟩ := markSent_eq hat hxmit hn
  have hlaid : Laid SSegment.size (SSegment.At ctl) base (pre ++ (first :: rest) ++ post) := by
    refine hl.replace hrsize fun q hq => ?_
    obtain ⟨first', rest', hmark', hrlaid', -⟩ := markSent_eq hq hxmit hn
    rw [hmark] at hmark'
    rwa [hmark']
  have hextent : Layout.extent SSegment.size (pre ++ (first :: rest) ++ post) =
      Layout.extent SSegment.size s.slist := by
    rw [hlist]
    exact extent_replace hrsize
  have hxle : ∀ x ∈ pre ++ (first :: rest) ++ post, x.xmit ≤ 30 := by
    intro x hx
    have hold := h.xmit_le
    rw [hlist] at hold
    simp only [List.mem_append, List.mem_cons] at hx hold
    rcases hx with (hx | rfl | hx) | hx
    · exact hold x (.inl hx)
    · exact hfle
    · rw [hrest x hx]
      exact hold seg (.inr (.inl rfl))
    · exact hold x (.inr (.inr hx))
  rw [hmark]
  by_cases hz : seg.xmit = 0
  · -- the first unsent segment joins those that were sent
    obtain ⟨rfl, rfl⟩ := append_cons_unique hpre (not_not.mpr hz) h.sent_xmit h.unsent_xmit
      (hlist.symm.trans h.slist)
    refine ⟨pre ++ [first], rest ++ post, ?_⟩
    have heq : pre ++ first :: rest ++ post = pre ++ [first] ++ (rest ++ post) := by simp
    rw [heq] at hlaid hextent hxle ⊢
    have hnew := h.relist hlaid hextent
      (by
        intro x hx
        rcases List.mem_append.mp hx with hx | hx
        · exact hpre x hx
        · rw [List.mem_singleton.mp hx]
          exact hfne)
      (by
        intro x hx
        rcases List.mem_append.mp hx with hx | hx
        · rw [hrest x hx]
          exact not_not.mpr hz
        · exact h.unsent_xmit x (List.mem_cons_of_mem _ hx))
      hxle (by simp)
    have hnxt : s.sndNxt + min n seg.len =
        s.sndUna + UInt32.ofNat (Layout.extent SSegment.size (pre ++ [first])) := by
      rw [extent_append, extent_cons, extent_nil, Nat.add_zero, hfirst, UInt32.ofNat_add,
        UInt32.ofNat_toNat, ← UInt32.add_assoc, ← h.nxt]
    rw [if_pos hz, hnxt]
    exact hnew
  · -- a retransmission
    obtain ⟨sent₂, rfl, rfl⟩ := append_cons_split (p := fun x : SSegment => x.xmit ≠ 0) hz hpre
      h.unsent_xmit (hlist.symm.trans h.slist)
    refine ⟨pre ++ (first :: rest) ++ sent₂, unsent, ?_⟩
    have heq : pre ++ first :: rest ++ (sent₂ ++ unsent) =
        pre ++ first :: rest ++ sent₂ ++ unsent := by simp
    rw [heq] at hlaid hextent hxle ⊢
    have hsame : Layout.extent SSegment.size (pre ++ first :: rest ++ sent₂) =
        Layout.extent SSegment.size (pre ++ seg :: sent₂) := extent_replace hrsize
    have hnew := h.relist hlaid hextent
      (by
        intro x hx
        simp only [List.mem_append, List.mem_cons] at hx
        rcases hx with (hx | rfl | hx) | hx
        · exact hpre x hx
        · exact hfne
        · rw [hrest x hx]
          exact hz
        · exact h.sent_xmit x (by simp [hx]))
      h.unsent_xmit hxle (Nat.le_of_eq hsame.symm)
    rw [hsame, ← h.nxt] at hnew
    rwa [if_neg hz]

theorem freeSegments_spec (sent unsent : List SSegment) {n : UInt32} (largest : UInt32)
    (hb : onBoundary (sent ++ unsent) n = true)
    (hn : n.toNat ≤ Layout.extent SSegment.size sent) :
    ∃ gone rest, sent = gone ++ rest ∧ Layout.extent SSegment.size gone = n.toNat ∧
      (freeSegments (sent ++ unsent) n largest).1 = rest ++ unsent ∧
      (freeSegments (sent ++ unsent) n largest).2.2 = true := by
  have hstop : ∀ (l : List SSegment) (largest : UInt32),
      (freeSegments l 0 largest).1 = l ∧ (freeSegments l 0 largest).2.2 = true := by
    intro l largest
    cases l <;> simp [freeSegments]
  induction sent generalizing n largest with
  | nil =>
    have hz : n = 0 := UInt32.toNat_inj.mp (Nat.le_zero.mp hn)
    subst hz
    exact ⟨[], [], rfl, rfl, hstop _ _⟩
  | cons seg sent ih =>
    by_cases hz : n = 0
    · subst hz
      exact ⟨[], seg :: sent, rfl, rfl, hstop _ _⟩
    · simp only [List.cons_append, onBoundary, hz, decide_false, Bool.false_or, Bool.and_eq_true,
        Bool.not_eq_true', decide_eq_false_iff_not] at hb
      have hle : seg.len ≤ n := UInt32.not_lt.mp hb.1
      have hsub := UInt32.toNat_sub_of_le _ _ hle
      have hlen := UInt32.le_iff_toNat_le.mp hle
      rw [extent_cons] at hn
      obtain ⟨gone, rest, rfl, hextent, hfree, henough⟩ := ih (n := n - seg.len)
        (max largest seg.len) hb.2 (by rw [hsub]; simp only [SSegment.size] at hn; omega)
      refine ⟨seg :: gone, rest, rfl, ?_, ?_, ?_⟩
      · rw [extent_cons, hextent, hsub, SSegment.size]
        omega
      · simp only [List.cons_append, freeSegments, hz, if_false, hb.1]
        exact hfree
      · simp only [List.cons_append, freeSegments, hz, if_false, hb.1]
        exact henough

theorem SendQueue.ack_le (h : SendQueue s stream ctl base sent unsent) {ack : UInt32}
    (hlt : s.sndUna < ack) (hle : ack ≤ s.sndNxt) :
    (ack - s.sndUna).toNat ≤ Layout.extent SSegment.size sent := by
  rw [← h.inFlight, UInt32.toNat_sub_of_le _ _ (UInt32.le_of_lt hlt),
    UInt32.toNat_sub_of_le _ _ (UInt32.le_trans (UInt32.le_of_lt hlt) hle)]
  have := UInt32.le_iff_toNat_le.mp hle
  omega

theorem SendQueue.ack_step (h : SendQueue s stream ctl base sent unsent) {ack : UInt32}
    (largest : UInt32) (hlt : s.sndUna < ack) (hle : ack ≤ s.sndNxt)
    (hb : onBoundary s.slist (ack - s.sndUna) = true) :
    (freeSegments s.slist (ack - s.sndUna) largest).2.2 = true ∧
    ∃ base' sent', SendQueue { s with
      sndUna := ack
      sbuf := s.sbuf.consumeReadData (ack - s.sndUna).toNat
      slist := (freeSegments s.slist (ack - s.sndUna) largest).1 }
      stream ctl base' sent' unsent := by
  have hn := h.ack_le hlt hle
  have hdata := h.sent_le
  have hlen := h.length
  have hcap := h.wf.length_le
  rw [h.slist] at hb ⊢
  obtain ⟨gone, rest, hsent, hgone, hfree, henough⟩ := freeSegments_spec sent unsent largest hb hn
  have hack : ack = UInt32.ofNat (base + (ack - s.sndUna).toNat) := by
    rw [UInt32.ofNat_add, UInt32.ofNat_toNat, ← h.una, UInt32.add_comm, UInt32.sub_add_cancel]
  have hpos : 0 < (ack - s.sndUna).toNat := by
    rw [UInt32.toNat_sub_of_le _ _ (UInt32.le_of_lt hlt)]
    have := UInt32.lt_iff_toNat_lt.mp hlt
    omega
  have hl := h.laid
  have he := h.extent
  have hx := h.xmit_le
  rw [h.slist, hsent, List.append_assoc] at hl he hx
  rw [extent_append, hgone] at he
  obtain ⟨-, hl⟩ := laid_append.mp hl
  rw [hgone] at hl
  refine ⟨henough, base + (ack - s.sndUna).toNat, rest, ?_⟩
  rw [hfree]
  exact {
    wf := FifoBuffer.consumeReadData_wf h.wf (by omega) _
    capacity_lt := h.capacity_lt
    readable := by
      rw [FifoBuffer.consumeReadData_readable, ← h.readable, List.drop_drop]
    length := by
      simp only [FifoBuffer.consumeReadData]
      omega
    una := hack
    slist := rfl
    laid := hl
    extent := by
      simp only [FifoBuffer.consumeReadData]
      omega
    sent_xmit := fun seg hseg => h.sent_xmit seg (by rw [hsent]; exact List.mem_append_right _ hseg)
    unsent_xmit := h.unsent_xmit
    xmit_le := fun seg hseg => hx seg (List.mem_append_right _ hseg)
    nxt := by
      change s.sndNxt = ack + _
      rw [h.nxt, hsent, extent_append, hgone, UInt32.ofNat_add, UInt32.ofNat_toNat,
        ← UInt32.add_assoc, UInt32.add_comm s.sndUna, UInt32.sub_add_cancel]
    recover := fun _ => h.recover (UInt32.le_trans (UInt32.le_of_lt hlt) hle)
    ctl_le := h.ctl_le }

theorem SendQueue.setRecover_step (h : SendQueue s stream ctl base sent unsent) :
    SendQueue { s with recover := s.sndNxt } stream ctl base sent unsent :=
  { h with recover := fun _ => UInt32.le_refl _ }

theorem SendQueue.resize_step (h : SendQueue s stream ctl base sent unsent) (heap : Nat → UInt8)
    (size : UInt32) :
    SendQueue { s with sbufLen := size, sbuf := (s.sbuf.setCapacity heap size.toNat).2 }
      stream ctl base sent unsent := by
  have hsize := size.toNat_lt
  obtain ⟨hread, hwf, hdata, hcap⟩ := FifoBuffer.setCapacity_keeps h.wf heap
    (show size.toNat ≤ maxAllocation by simp only [maxAllocation]; omega)
  have hlt := h.capacity_lt
  exact { h with
    wf := hwf
    capacity_lt := by
      rcases hcap with hcap | hcap
      · simp only [hcap, hlt]
      · simp only [hcap, hsize]
    readable := h.readable.trans hread.symm
    length := by
      simp only [hdata]
      exact h.length
    extent := h.extent.trans hdata.symm }

end Queue

section Endpoint

variable {s : PseudoTcp} {stream : List UInt8} {ctl base : Nat} {sent unsent : List SSegment}

theorem queue_sbuf (hfifo : s.sbuf.Wf) (hcap : s.sbuf.bufferLength < 2 ^ 32) (data : List UInt8)
    (bCtrl : Bool) :
    (s.queue data bCtrl).1 = (s.queueLen data).toNat ∧
      s.sbuf.dataLength + (s.queueLen data).toNat ≤ s.sbuf.bufferLength ∧
      (s.queueLen data).toNat ≤ data.length ∧
      (s.queue data bCtrl).2.sbuf.readable =
        s.sbuf.readable ++ data.take (s.queueLen data).toNat ∧
      (s.queue data bCtrl).2.sbuf.Wf ∧
      (s.queue data bCtrl).2.sbuf.dataLength = s.sbuf.dataLength + (s.queueLen data).toNat ∧
      (s.queue data bCtrl).2.sbuf.bufferLength = s.sbuf.bufferLength := by
  have hle := hfifo.length_le
  have havail : (UInt32.ofNat s.sbuf.getWriteRemaining).toNat =
      s.sbuf.bufferLength - s.sbuf.dataLength := by
    rw [FifoBuffer.getWriteRemaining, UInt32.toNat_ofNat_of_lt' (by simp only [UInt32.size]; omega)]
  have hlen : (s.queueLen data).toNat ≤ s.sbuf.bufferLength - s.sbuf.dataLength ∧
      (s.queueLen data).toNat ≤ data.length := by
    have hmod : (UInt32.ofNat data.length).toNat ≤ data.length := by
      rw [UInt32.toNat_ofNat']
      exact Nat.mod_le _ _
    simp only [queueLen]
    split
    · rename_i hgt
      have := UInt32.lt_iff_toNat_lt.mp hgt
      omega
    · rename_i hgt
      have := UInt32.le_iff_toNat_le.mp (UInt32.not_lt.mp hgt)
      omega
  have htake : (data.take (s.queueLen data).toNat).length = (s.queueLen data).toNat := by
    rw [List.length_take]
    omega
  have hroom : (data.take (s.queueLen data).toNat).length ≤
      s.sbuf.bufferLength - s.sbuf.dataLength := by omega
  obtain ⟨hw, hread, hwf, hdata, hcap'⟩ := FifoBuffer.write_fits hfifo hroom
  rw [htake] at hw hdata
  exact ⟨hw, by omega, hlen.2, hread, hwf, hdata, hcap'⟩

theorem queue_slist (s : PseudoTcp) (data : List UInt8) (bCtrl : Bool) :
    (s.queue data bCtrl).2.slist =
      s.slist ++ [⟨s.sndUna + UInt32.ofNat s.sbuf.dataLength, s.queueLen data, 0, bCtrl⟩] ∨
    ∃ front back, s.slist = front ++ [back] ∧ back.bCtrl = bCtrl ∧ back.xmit = 0 ∧
      (s.queue data bCtrl).2.slist =
        front ++ [{ back with len := back.len + s.queueLen data }] := by
  simp only [queue]
  split
  · rename_i back hlast
    split
    · rename_i hsame
      obtain ⟨front, hfront⟩ := List.getLast?_eq_some_iff.mp hlast
      refine .inr ⟨front, back, hfront, hsame.1, hsame.2, ?_⟩
      rw [hfront, List.dropLast_concat]
    · exact .inl rfl
  · exact .inl rfl

theorem queueData_step (h : SendQueue s.toSender stream ctl base sent unsent)
    (data : List UInt8) :
    ∃ unsent', SendQueue (s.queue data false).2.toSender
      (stream ++ data.take (s.queueLen data).toNat) ctl base sent unsent' := by
  obtain ⟨-, hfit, hlen, hread, hwf, hdata, hcap⟩ := queue_sbuf h.wf h.capacity_lt data false
  have htake : (data.take (s.queueLen data).toNat).length = (s.queueLen data).toNat := by
    rw [List.length_take]
    omega
  have hcaplt := h.capacity_lt
  have hlength := h.length
  have hnew : ∀ unsent', (s.queue data false).2.slist = sent ++ unsent' →
      Laid SSegment.size (SSegment.At ctl) base (sent ++ unsent') →
      Layout.extent SSegment.size (sent ++ unsent') =
        Layout.extent SSegment.size s.slist + (s.queueLen data).toNat →
      (∀ seg ∈ unsent', seg.xmit = 0) →
      SendQueue (s.queue data false).2.toSender
        (stream ++ data.take (s.queueLen data).toNat) ctl base sent unsent' := by
    intro unsent' hslist hlaid hextent hzero
    exact {
      wf := hwf
      capacity_lt := by rw [hcap]; exact hcaplt
      readable := by
        rw [hread, List.drop_append_of_le_length (by omega), h.readable]
      length := by
        rw [hdata, List.length_append, htake]
        omega
      una := h.una
      slist := hslist
      laid := by rw [hslist]; exact hlaid
      extent := by rw [hslist, hextent, h.extent, hdata]
      sent_xmit := h.sent_xmit
      unsent_xmit := fun seg hseg => not_not.mpr (hzero seg hseg)
      xmit_le := by
        intro seg hseg
        rw [hslist] at hseg
        rcases List.mem_append.mp hseg with hseg | hseg
        · exact h.xmit_le seg (by rw [h.slist]; exact List.mem_append_left _ hseg)
        · rw [hzero seg hseg]
          decide
      nxt := h.nxt
      recover := h.recover
      ctl_le := by
        have := h.ctl_le
        rw [List.length_append]
        omega }
  have hl := h.laid
  have he := h.extent
  have hzero : ∀ seg ∈ unsent, seg.xmit = 0 := fun seg hseg => not_not.mp (h.unsent_xmit seg hseg)
  rcases queue_slist s data false with hslist | ⟨front, back, hfront, hctrl, hback, hslist⟩
  · refine ⟨unsent ++ [_], hnew _ (by rw [hslist, h.slist, List.append_assoc]) ?_ ?_ ?_⟩
    · rw [← List.append_assoc, ← h.slist, laid_append]
      refine ⟨hl, ⟨?_, ?_⟩, trivial⟩
      · rw [h.una, ← UInt32.ofNat_add, he]
      · have := h.ctl_le
        simp only [Bool.false_eq_true, if_false]
        omega
    · rw [← List.append_assoc, ← h.slist, extent_append]
      simp
    · intro seg hseg
      rcases List.mem_append.mp hseg with hseg | hseg
      · exact hzero seg hseg
      · rw [List.mem_singleton.mp hseg]
  · have hsplit : sent ++ unsent = front ++ [back] := h.slist.symm.trans hfront
    rcases List.eq_nil_or_concat unsent with rfl | ⟨rest, last, rfl⟩
    · rw [List.append_nil] at hsplit
      exact absurd hback (h.sent_xmit back (by rw [hsplit]; simp))
    · rw [List.concat_eq_append, ← List.append_assoc] at hsplit
      obtain ⟨hrest, hlast⟩ := List.append_inj' hsplit rfl
      obtain rfl : last = back := by simpa using hlast
      rw [hfront] at hl he
      obtain ⟨hfl, hat, -⟩ := laid_append.mp hl
      have hsum : (last.len + s.queueLen data).toNat = last.len.toNat + (s.queueLen data).toNat := by
        rw [extent_append, extent_cons, extent_nil] at he
        simp only [SSegment.size] at he
        rw [UInt32.toNat_add, Nat.mod_eq_of_lt (by omega)]
      refine ⟨rest ++ [{ last with len := last.len + s.queueLen data }],
        hnew _ (by rw [hslist, ← List.append_assoc, hrest]) ?_ ?_ ?_⟩
      · rw [← List.append_assoc, hrest, laid_append]
        refine ⟨hfl, ⟨hat.1, ?_⟩, trivial⟩
        have hc := hat.2
        simpa only [hctrl, Bool.false_eq_true, if_false] using hc
      · rw [← List.append_assoc, hrest, hfront]
        simp only [extent_append, extent_cons, extent_nil, SSegment.size, hsum]
        omega
      · intro seg hseg
        rcases List.mem_append.mp hseg with hseg | hseg
        · exact hzero seg (by simp [hseg])
        · rw [List.mem_singleton.mp hseg]
          exact hback

theorem queueConnect_step (h : SendQueue s.toSender [] 0 base sent unsent) (hnil : s.slist = [])
    (data : List UInt8) :
    ∃ unsent', SendQueue (s.queue data true).2.toSender
      (data.take (s.queueLen data).toNat) (s.queueLen data).toNat base sent unsent' := by
  obtain ⟨-, hfit, hlen, hread, hwf, hdata, hcap⟩ := queue_sbuf h.wf h.capacity_lt data true
  have htake : (data.take (s.queueLen data).toNat).length = (s.queueLen data).toNat := by
    rw [List.length_take]
    omega
  have hlength := h.length
  rw [List.length_nil] at hlength
  obtain rfl : base = 0 := by omega
  have hempty : s.sbuf.readable = [] := by rw [← h.readable]; rfl
  have hsplit := h.slist.symm.trans hnil
  obtain ⟨rfl, rfl⟩ := List.append_eq_nil_iff.mp hsplit
  have hslist : (s.queue data true).2.slist =
      [⟨s.sndUna + UInt32.ofNat s.sbuf.dataLength, s.queueLen data, 0, true⟩] := by
    rcases queue_slist s data true with hslist | ⟨front, back, hfront, -⟩
    · rw [hslist, hnil, List.nil_append]
    · rw [hnil] at hfront
      exact absurd (congrArg List.length hfront) (by simp)
  refine ⟨[⟨s.sndUna + UInt32.ofNat s.sbuf.dataLength, s.queueLen data, 0, true⟩], ?_⟩
  have hzero : s.sbuf.dataLength = 0 := by omega
  exact {
    wf := hwf
    capacity_lt := by rw [hcap]; exact h.capacity_lt
    readable := by rw [hread, hempty]; rfl
    length := by rw [hdata, htake]; omega
    una := h.una
    slist := hslist
    laid := by
      rw [hslist]
      refine ⟨⟨?_, ?_⟩, trivial⟩
      · rw [h.una, hzero]
        rfl
      · simp [SSegment.size]
    extent := by
      rw [hslist, hdata, hzero]
      simp
    sent_xmit := by simp
    unsent_xmit := by simp
    xmit_le := by
      rw [hslist]
      simp
    nxt := h.nxt
    recover := h.recover
    ctl_le := by rw [htake] }

end Endpoint

/-- What holds of the sending half of an endpoint after every step. -/
structure SendInv (s : PseudoTcp) : Prop where
  queue : ∃ base sent unsent,
    SendQueue s.toSender s.queued s.connectMessage.length base sent unsent
  listen : s.state = .listen → s.slist = [] ∧ s.queued = []
  carries : ∀ c ∈ s.written, c.Carries s.queued s.connectMessage.length
  noEnd : Incident.endDeref ∉ s.incidents

theorem new_sendInv (env : Env) (conv : UInt32) : (new env conv).SendInv where
  queue := ⟨0, [], [], {
    wf := FifoBuffer.new_wf _ (by decide)
    capacity_lt := by simp only [new, FifoBuffer.new]; decide
    readable := rfl
    length := rfl
    una := rfl
    slist := rfl
    laid := trivial
    extent := rfl
    sent_xmit := by simp
    unsent_xmit := by simp
    xmit_le := by simp [new]
    nxt := rfl
    recover := fun _ => UInt32.le_refl _
    ctl_le := Nat.le_refl _ }⟩
  listen := fun _ => ⟨rfl, rfl⟩
  carries := by simp [new]
  noEnd := by simp [new]

theorem Carries.append {c : PacketCall} {stream more : List UInt8} {ctl : Nat}
    (h : c.Carries stream ctl) : c.Carries (stream ++ more) ctl := by
  rcases h with h | ⟨hin, p, head, hseq, hle, hbytes, hhead, hflags⟩
  · exact .inl h
  · refine .inr ⟨hin, p, head, hseq, ?_, ?_, hhead, hflags⟩
    · rw [List.length_append]
      omega
    · rw [hbytes, List.drop_append_of_le_length (by omega),
        List.take_append_of_le_length (by rw [List.length_drop]; omega)]

theorem packetCall_carries {s : PseudoTcp} {stream : List UInt8} {ctl base : Nat}
    {sent unsent : List SSegment} (h : SendQueue s.toSender stream ctl base sent unsent)
    {seq : UInt32} {flags : UInt8} {offset len : UInt32}
    (hr : Reads s.toSender seq flags offset len) :
    (s.packetCall seq flags offset len).Carries stream ctl := by
  rcases hr with hz | ⟨seg, hseg, rfl, rfl, rfl, hlen⟩
  · exact .inl hz
  · by_cases hz : len = 0
    · exact .inl hz
    · obtain ⟨p, hat, hbase, hend⟩ := h.laid.exists_place hseg
      rw [h.extent, h.length] at hend
      have hlength := h.length
      have hdata := h.dataLength_lt
      have hle := UInt32.le_iff_toNat_le.mp hlen
      have hpos : 0 < len.toNat := by
        rcases Nat.eq_zero_or_pos len.toNat with h0 | h0
        · exact absurd (UInt32.toNat_inj.mp h0) hz
        · exact h0
      simp only [SSegment.size] at hend
      have hoffset : (seg.seq - s.sndUna).toNat = p - base := by
        have hp : seg.seq = UInt32.ofNat base + UInt32.ofNat (p - base) := by
          rw [← UInt32.ofNat_add, Nat.add_sub_cancel' hbase, hat.1]
        rw [hp, h.una, UInt32.add_comm, UInt32.add_sub_cancel,
          UInt32.toNat_ofNat_of_lt' (by simp only [UInt32.size]; omega)]
      have hread := FifoBuffer.readOffset_success h.wf len.toNat
        (show p - base < s.sbuf.dataLength by omega)
      have hslice : (s.sbuf.readable.drop (p - base)).take len.toNat =
          (stream.drop p).take len.toNat := by
        rw [← h.readable, List.drop_drop, Nat.add_sub_cancel' hbase]
      have hpayload : s.payload (seg.seq - s.sndUna) len = (stream.drop p).take len.toNat := by
        have hfull : ((stream.drop p).take len.toNat).length = len.toNat := by
          rw [List.length_take, List.length_drop]
          omega
        simp only [payload, hoffset, hread, hslice, hfull]
        rw [List.drop_eq_nil_of_le (by simp : (List.map _ (List.range len.toNat)).length ≤ _),
          List.append_nil]
      refine .inr ⟨?_, p, s.header seg.seq (if seg.bCtrl then flagCtl else 0), hat.1, by
        simp only [packetCall]; omega, ?_, ?_, ?_⟩
      · simp only [packetCall, hoffset, FifoBuffer.getBuffered]
        omega
      · simp only [packetCall, hz, if_false, hpayload]
      · simp [header]
      · have hctl := hat.2
        simp only [packetCall]
        cases hb : seg.bCtrl <;> simp only [hb, SSegment.size, if_true, Bool.false_eq_true,
          if_false] at hctl ⊢
        · exact .inr ⟨trivial, hctl⟩
        · exact .inl ⟨trivial, by omega⟩

theorem SendInv.of_eq {s t : PseudoTcp} (h : s.SendInv) (hsender : t.toSender = s.toSender)
    (hwritten : t.written = s.written) (hconnect : t.connectMessage = s.connectMessage)
    (haccepted : t.accepted = s.accepted) (hlisten : t.state = .listen → s.state = .listen)
    (hnoEnd : Incident.endDeref ∈ t.incidents → Incident.endDeref ∈ s.incidents) :
    t.SendInv := by
  have hqueued : t.queued = s.queued := by rw [queued, queued, hconnect, haccepted]
  refine ⟨?_, fun hl => ?_, ?_, fun hmem => h.noEnd (hnoEnd hmem)⟩
  · rw [hsender, hqueued, hconnect]
    exact h.queue
  · rw [show t.slist = s.slist from congrArg Sender.slist hsender, hqueued]
    exact h.listen (hlisten hl)
  · rw [hwritten, hqueued, hconnect]
    exact h.carries

theorem SendInv.step {arriving : Segment → Prop} {s t : PseudoTcp} (hstep : Step arriving s t)
    (h : s.SendInv) (hclean : Incident.cutAck ∉ t.incidents) : t.SendInv := by
  obtain ⟨base, sent, unsent, hq⟩ := h.queue
  cases hstep with
  | tune hcore hlisten hopen =>
    exact h.of_eq (congrArg Core.sender hcore) (congrArg Core.written hcore)
      (congrArg Core.connectMessage hcore) (congrArg Core.accepted hcore) hlisten
      fun hmem => by rwa [show t.incidents = s.incidents from congrArg Core.incidents hcore] at hmem
  | write hr =>
    refine ⟨h.queue, h.listen, ?_, h.noEnd⟩
    intro c hc
    rcases List.mem_append.mp hc with hc | hc
    · exact h.carries c hc
    · rw [List.mem_singleton.mp hc]
      exact packetCall_carries hq hr
  | cut n hlist hsent hseg =>
    obtain ⟨unsent', hq'⟩ := hq.cut_step n hlist hsent hseg
    refine ⟨⟨base, sent, unsent', hq'⟩, fun hl => ?_, h.carries, h.noEnd⟩
    rw [(h.listen hl).1] at hlist
    exact absurd (congrArg List.length hlist) (by simp)
  | sent n hlist hsent hxmit hn =>
    obtain ⟨sent', unsent', hq'⟩ := hq.sent_step hlist hsent hxmit hn
    refine ⟨⟨base, sent', unsent', hq'⟩, fun hl => ?_, h.carries, h.noEnd⟩
    rw [(h.listen hl).1] at hlist
    exact absurd (congrArg List.length hlist) (by simp)
  | queueData data hstate =>
    obtain ⟨hwritten, -⟩ := queue_sbuf hq.wf hq.capacity_lt data false
    obtain ⟨unsent', hq'⟩ := queueData_step hq data
    have hqueued : s.connectMessage ++ (s.accepted ++ data.take (s.queue data false).1) =
        s.queued ++ data.take (s.queueLen data).toNat := by
      rw [queued, hwritten, List.append_assoc]
    refine ⟨⟨base, sent, unsent', ?_⟩, fun hl => ?_, fun c hc => ?_, h.noEnd⟩
    · change SendQueue _ (s.connectMessage ++ (s.accepted ++ _)) s.connectMessage.length _ _ _
      rw [hqueued]
      exact hq'
    · have hl' : s.state = .listen := hl
      rw [hstate] at hl'
      cases hl'
    · change c.Carries (s.connectMessage ++ (s.accepted ++ _)) s.connectMessage.length
      rw [hqueued]
      exact Carries.append (h.carries c hc)
  | queueConnect hl hs =>
    rename_i state
    obtain ⟨hslist, hempty⟩ := h.listen hl
    obtain ⟨hconnect, haccepted⟩ := List.append_eq_nil_iff.mp hempty
    have hq₀ : SendQueue s.toSender [] 0 base sent unsent := by
      rw [← hempty]
      rw [hconnect] at hq
      exact hq
    let s₁ : PseudoTcp := { s with
      state := state, sndWnd := UInt32.ofNat s.connectMessageBytes.length }
    obtain ⟨hwritten, -, hlen, -⟩ := queue_sbuf (s := s₁) hq₀.wf hq₀.capacity_lt s.connectMessageBytes true
    obtain ⟨unsent', hq'⟩ := queueConnect_step (s := s₁) hq₀ hslist s.connectMessageBytes
    have hmessage : s.connectMessage ++ s.connectMessageBytes.take
        (s₁.queue s.connectMessageBytes true).1 =
          s.connectMessageBytes.take (s₁.queueLen s.connectMessageBytes).toNat := by
      rw [hconnect, hwritten, List.nil_append]
    have hlength : (s.connectMessageBytes.take (s₁.queueLen s.connectMessageBytes).toNat).length =
        (s₁.queueLen s.connectMessageBytes).toNat := by
      rw [List.length_take]
      omega
    have hnone : ∀ c ∈ s.written, c.len = 0 := by
      intro c hc
      rcases h.carries c hc with hz | ⟨-, p, head, -, hle, -⟩
      · exact hz
      · rw [hempty, List.length_nil] at hle
        exact UInt32.toNat_inj.mp (Nat.le_zero.mp (Nat.le_trans (Nat.le_add_left _ _) hle))
    refine ⟨⟨base, sent, unsent', ?_⟩, fun hl => absurd hl hs, fun c hc => .inl (hnone c hc), h.noEnd⟩
    have hsender : { s with state := state }.queueConnectMessage.toSender =
        (s₁.queue s.connectMessageBytes true).2.toSender := rfl
    have hmsg : { s with state := state }.queueConnectMessage.connectMessage =
        s.connectMessage ++ s.connectMessageBytes.take (s₁.queue s.connectMessageBytes true).1 := rfl
    have hacc : { s with state := state }.queueConnectMessage.accepted = s.accepted := rfl
    rw [queued, hsender, hmsg, hacc, hmessage, haccepted, List.append_nil, hlength]
    exact hq'
  | ack now seg hlt hle =>
    have hb : onBoundary s.slist (seg.ack - s.sndUna) = true := by
      by_contra hb
      apply hclean
      change _ ∈ ((s.noteIf _ .cutAck).noteIf _ .endDeref).incidents
      exact mem_noteIf.mpr (.inl (mem_noteIf.mpr (.inr ⟨by simpa using hb, rfl⟩)))
    obtain ⟨henough, base', sent', hq'⟩ := hq.ack_step s.largest hlt hle hb
    refine ⟨⟨base', sent', unsent, hq'⟩, fun hl => ?_, h.carries, fun hmem => ?_⟩
    · refine ⟨?_, (h.listen hl).2⟩
      simp only [consumeAck, noteIf, (h.listen hl).1]
      rfl
    · change _ ∈ ((s.noteIf _ .cutAck).noteIf _ .endDeref).incidents at hmem
      simp only [mem_noteIf] at hmem
      rcases hmem with (hmem | ⟨-, hmem⟩) | ⟨hmem, -⟩
      · exact h.noEnd hmem
      · cases hmem
      · change (!(freeSegments s.slist (seg.ack - s.sndUna) s.largest).2.2) = true at hmem
        rw [henough] at hmem
        cases hmem
  | setRecover => exact ⟨⟨base, sent, unsent, hq.setRecover_step⟩, h.listen, h.carries, h.noEnd⟩
  | readEnd hend => exact absurd hend hq.not_readsEnd
  | resizeSend size =>
    exact ⟨⟨base, sent, unsent, hq.resize_step _ size⟩, h.listen, h.carries, h.noEnd⟩
  | resizeReceive size =>
    exact h.of_eq rfl rfl rfl rfl id (by simp [resizeReceiveBuffer])
  | read hread => exact h.of_eq rfl rfl rfl rfl id id
  | openWindow => exact h.of_eq rfl rfl rfl rfl id id
  | store seg sflags harrive =>
    obtain ⟨hcore, hstate, -, hincidents⟩ := store_frame s (s.fitted seg) sflags
    refine h.of_eq (congrArg Core.sender hcore) (congrArg Core.written hcore)
      (congrArg Core.connectMessage hcore) (congrArg Core.accepted hcore) (fun hl => ?_)
      fun hmem => ?_
    · rwa [hstate] at hl
    · rcases hincidents _ hmem with hmem | hmem | hmem | hmem
      · exact hmem
      all_goals cases hmem

/-- Segments that follow each other in sequence numbers, the first at `p`. -/
def Tiles : UInt32 → List SSegment → Prop
  | _, [] => True
  | p, seg :: rest => seg.seq = p ∧ Tiles (p + seg.len) rest

theorem tiles_of_laid {ctl p : Nat} {l : List SSegment}
    (h : Laid SSegment.size (SSegment.At ctl) p l) : Tiles (UInt32.ofNat p) l := by
  induction l generalizing p with
  | nil => trivial
  | cons seg rest ih =>
    refine ⟨h.1.1, ?_⟩
    have hrest := ih h.2
    rwa [UInt32.ofNat_add, SSegment.size, UInt32.ofNat_toNat] at hrest

theorem run_sendInv (env : Env) (conv : UInt32) (calls : List Call)
    (h : Incident.cutAck ∉ ((new env conv).run calls).incidents) :
    ((new env conv).run calls).SendInv := by
  have hback : ∀ s t, Step (fun _ => True) s t → Incident.cutAck ∉ t.incidents →
      Incident.cutAck ∉ s.incidents := fun _ _ hstep hc hmem => hc (hstep.incidents_subset hmem)
  exact Runs.invariant_of_clean hback (fun _ _ hstep hs hc => SendInv.step hstep hs hc)
    (run_steps _ calls) (new_sendInv env conv) h

/-- As long as no ack ends inside a segment, the segments tile the buffered
bytes, the transmitted ones first, every packet reads inside the buffer, and the
end of the list is never read. -/
theorem send_queue_tiled (env : Env) (conv : UInt32) (calls : List Call)
    (h : Incident.cutAck ∉ ((new env conv).run calls).incidents) :
    let s := (new env conv).run calls
    Tiles s.sndUna s.slist ∧
    (s.slist.map fun seg => seg.len.toNat).sum = s.sbuf.getBuffered ∧
    (∃ n, (∀ seg ∈ s.slist.take n, seg.xmit > 0) ∧ (∀ seg ∈ s.slist.drop n, seg.xmit = 0) ∧
      ((s.slist.take n).map fun seg => seg.len.toNat).sum = (s.sndNxt - s.sndUna).toNat) ∧
    (∀ c ∈ s.written, c.len ≠ 0 → c.offset.toNat + c.len.toNat ≤ c.buffered) ∧
    Incident.endDeref ∉ s.incidents := by
  intro s
  have hinv : s.SendInv := run_sendInv env conv calls h
  obtain ⟨base, sent, unsent, hq⟩ := hinv.queue
  refine ⟨?_, hq.extent, ⟨sent.length, ?_, ?_, ?_⟩, ?_, hinv.noEnd⟩
  · rw [hq.una]
    exact tiles_of_laid hq.laid
  · rw [hq.slist, List.take_left]
    exact fun seg hseg => UInt8.pos_iff_ne_zero.mpr (hq.sent_xmit seg hseg)
  · rw [hq.slist, List.drop_left]
    exact fun seg hseg => not_not.mp (hq.unsent_xmit seg hseg)
  · rw [hq.slist, List.take_left]
    exact hq.inFlight.symm
  · intro c hc hne
    rcases hinv.carries c hc with hz | ⟨hin, -⟩
    · exact absurd hz hne
    · exact hin

theorem send_queue_tiled_connected :
    let s := (new Env.still 7).run [.app .connect, .notifyPacket (plainPacket 0 4 0 []) fun _ => 0]
    s.sndUna = 4 ∧ Tiles s.sndUna s.slist ∧
      (s.slist.map fun seg => seg.len.toNat).sum = s.sbuf.getBuffered := by
  obtain ⟨htiles, hsum, -⟩ := send_queue_tiled Env.still 7
    [.app .connect, .notifyPacket (plainPacket 0 4 0 []) fun _ => 0] (by decide +kernel)
  exact ⟨by decide +kernel, htiles, hsum⟩

/-- An ack of half the connect message leaves its segment at the old number. -/
theorem partial_ack_misplaces_segment :
    let s := (new Env.still 7).run [.app .connect, .notifyPacket (plainPacket 0 2 0 []) fun _ => 0]
    s.sndUna = 2 ∧ s.slist = [⟨0, 2, 1, true⟩] ∧ ¬ Tiles s.sndUna s.slist := by
  have hlist : ((new Env.still 7).run [.app .connect, .notifyPacket (plainPacket 0 2 0 []) fun _ => 0]).slist =
      [⟨0, 2, 1, true⟩] := by decide +kernel
  have huna : ((new Env.still 7).run
      [.app .connect, .notifyPacket (plainPacket 0 2 0 []) fun _ => 0]).sndUna = 2 := by decide +kernel
  refine ⟨huna, hlist, ?_⟩
  rw [huna, hlist]
  rintro ⟨hseq, -⟩
  exact absurd hseq (by decide)

end PseudoTcp

end Libjingle
