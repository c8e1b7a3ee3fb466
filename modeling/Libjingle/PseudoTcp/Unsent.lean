import Libjingle.PseudoTcp.AckArithmetic

/-! The segments that were not yet transmitted follow what is in flight, whatever acks
came in. -/

namespace Libjingle.PseudoTcp

open Layout

/-- The segments from the first that was not transmitted on. -/
def unsent (l : List SSegment) : List SSegment := l.dropWhile (·.xmit ≠ 0)

/-- The unsent segments are in order from `m_snd_nxt` on, and `m_recover` lies before it. -/
structure Tracked (s : Sender) : Prop where
  tallied : ∃ sent, Tallied s sent (unsent s.slist)
  tiles : Tiles s.sndNxt (unsent s.slist)
  recover : s.sndUna ≤ s.sndNxt → s.recover ≤ s.sndNxt

section Unsent

variable {s : Sender} {sent rest : List SSegment}

theorem unsent_append (h : ∀ x ∈ sent, x.xmit ≠ 0) (rest : List SSegment) :
    unsent (sent ++ rest) = unsent rest :=
  List.dropWhile_append_of_pos fun x hx => decide_eq_true (h x hx)

theorem unsent_cons {seg : SSegment} (h : seg.xmit = 0) (rest : List SSegment) :
    unsent (seg :: rest) = seg :: rest :=
  List.dropWhile_cons_of_neg (by simp [h])

theorem unsent_eq (h : ∀ x ∈ rest, x.xmit = 0) : unsent rest = rest := by
  cases rest with
  | nil => rfl
  | cons seg rest => exact unsent_cons (h seg List.mem_cons_self) rest

theorem Tallied.unsent_eq {unsent' : List SSegment} (h : Tallied s sent unsent') :
    unsent s.slist = unsent' := by
  rw [h.slist, unsent_append h.sent_xmit]
  exact PseudoTcp.unsent_eq fun x hx => not_not.mp (h.unsent_xmit x hx)

theorem exists_tallied (h : ∃ sent unsent', Tallied s sent unsent') :
    ∃ sent, Tallied s sent (unsent s.slist) := by
  obtain ⟨sent, unsent', h⟩ := h
  refine ⟨sent, ?_⟩
  rw [h.unsent_eq]
  exact h

theorem tiles_concat {p : UInt32} {l : List SSegment} {seg : SSegment} :
    Tiles p (l ++ [seg]) ↔
      Tiles p l ∧ seg.seq = p + UInt32.ofNat (Layout.extent SSegment.size l) := by
  induction l generalizing p with
  | nil => simp [Tiles]
  | cons x l ih =>
    have hsum : p + x.len + UInt32.ofNat (Layout.extent SSegment.size l) =
        p + UInt32.ofNat (Layout.extent SSegment.size (x :: l)) := by
      rw [extent_cons, UInt32.ofNat_add, SSegment.size, UInt32.ofNat_toNat, UInt32.add_assoc]
    rw [List.cons_append, Tiles, Tiles, ih, hsum, and_assoc]

theorem tiles_cut {p : UInt32} {seg : SSegment} {post : List SSegment} (n : UInt32)
    (h : Tiles p (seg :: post)) : Tiles p (cut seg n ++ post) := by
  by_cases hlt : n < seg.len
  · have hlen : p + n + (seg.len - n) = p + seg.len := by
      rw [UInt32.add_assoc, UInt32.add_comm n, UInt32.sub_add_cancel]
    rw [cut, if_pos hlt]
    refine ⟨h.1, by rw [h.1], ?_⟩
    change Tiles (p + n + (seg.len - n)) post
    rw [hlen]
    exact h.2
  · rw [cut, if_neg hlt]
    exact h

theorem unsent_markSent {pre post : List SSegment} {seg : SSegment} {n : UInt32}
    (hpre : ∀ x ∈ pre, x.xmit ≠ 0) (hxmit : seg.xmit < 30) :
    unsent (pre ++ markSent seg n ++ post) =
      if seg.xmit = 0 then unsent ((cut seg n).tail ++ post) else unsent (pre ++ seg :: post) := by
  obtain ⟨first, rest, hcut⟩ := cut_eq_cons seg n
  have hfirst : first.xmit = seg.xmit := cut_xmit (by rw [hcut]; exact List.mem_cons_self)
  have hsent : first.xmit + 1 ≠ 0 := by
    intro hz
    rw [hfirst] at hz
    have hlt := UInt8.lt_iff_toNat_lt.mp hxmit
    have hval := UInt8.toNat_add seg.xmit 1
    rw [hz] at hval
    change seg.xmit.toNat < 30 at hlt
    change 0 = (seg.xmit.toNat + 1) % 256 at hval
    omega
  have hmark : markSent seg n = { first with xmit := first.xmit + 1 } :: rest := by
    rw [markSent, hcut]
  have hall : ∀ x ∈ pre ++ [{ first with xmit := first.xmit + 1 }], x.xmit ≠ 0 := by
    intro x hx
    rcases List.mem_append.mp hx with hx | hx
    · exact hpre x hx
    · rw [List.mem_singleton.mp hx]
      exact hsent
  have hlist : pre ++ markSent seg n ++ post =
      (pre ++ [{ first with xmit := first.xmit + 1 }]) ++ (rest ++ post) := by
    rw [hmark]
    simp
  rw [hlist, unsent_append hall, hcut, List.tail_cons]
  by_cases hzero : seg.xmit = 0
  · rw [if_pos hzero]
  · have hrest : ∀ x ∈ rest, x.xmit ≠ 0 := by
      intro x hx
      rw [@cut_xmit seg x n (by rw [hcut]; exact List.mem_cons_of_mem _ hx)]
      exact hzero
    have hold : ∀ x ∈ pre ++ [seg], x.xmit ≠ 0 := by
      intro x hx
      rcases List.mem_append.mp hx with hx | hx
      · exact hpre x hx
      · rw [List.mem_singleton.mp hx]
        exact hzero
    have hsplit : pre ++ seg :: post = (pre ++ [seg]) ++ post := by simp
    rw [if_neg hzero, unsent_append hrest, hsplit, unsent_append hold]

theorem unsent_split {pre post : List SSegment} {seg : SSegment} (hpre : ∀ x ∈ pre, x.xmit ≠ 0)
    (hzero : seg.xmit = 0) : unsent (pre ++ seg :: post) = seg :: post := by
  rw [unsent_append hpre, unsent_cons hzero]

/-- What `queue` does to the unsent segments: one more, of another kind than the last, or
the last one longer. -/
theorem unsent_queue {s : PseudoTcp} {sent u : List SSegment} (h : Tallied s.toSender sent u)
    (data : List UInt8) (bCtrl : Bool) :
    (∀ back, u.getLast? = some back → back.bCtrl ≠ bCtrl) ∧
      unsent (s.queue data bCtrl).2.slist =
        u ++ [⟨s.sndUna + UInt32.ofNat s.sbuf.dataLength, s.queueLen data, 0, bCtrl⟩] ∨
    ∃ u' back, u = u' ++ [back] ∧ back.bCtrl = bCtrl ∧
      unsent (s.queue data bCtrl).2.slist =
        u' ++ [{ back with len := back.len + s.queueLen data }] := by
  have hzero : ∀ x ∈ u, x.xmit = 0 := fun x hx => not_not.mp (h.unsent_xmit x hx)
  have hlist : s.slist = sent ++ u := h.slist
  have hend : ∀ u' : List SSegment, (∀ x ∈ u', x.xmit = 0) → unsent (sent ++ u') = u' :=
    fun u' hu' => (unsent_append h.sent_xmit u').trans (unsent_eq hu')
  have hfresh : unsent (s.slist ++
      [⟨s.sndUna + UInt32.ofNat s.sbuf.dataLength, s.queueLen data, 0, bCtrl⟩]) =
        u ++ [⟨s.sndUna + UInt32.ofNat s.sbuf.dataLength, s.queueLen data, 0, bCtrl⟩] := by
    rw [hlist, List.append_assoc]
    apply hend
    intro x hx
    rcases List.mem_append.mp hx with hx | hx
    · exact hzero x hx
    · rw [List.mem_singleton.mp hx]
  rcases List.eq_nil_or_concat u with rfl | ⟨u', last, rfl⟩
  · refine .inl ⟨by simp, ?_⟩
    simp only [queue]
    split
    · rename_i back hback
      have hmem : back ∈ sent := by
        have hmem := List.mem_of_getLast? hback
        rwa [hlist, List.append_nil] at hmem
      have hother : ¬ (back.bCtrl = bCtrl ∧ back.xmit = 0) :=
        fun hsame => h.sent_xmit back hmem hsame.2
      rw [if_neg hother]
      exact hfresh
    · exact hfresh
  · rw [List.concat_eq_append] at hlist hzero hfresh ⊢
    have hback : s.slist.getLast? = some last := by
      rw [hlist, ← List.append_assoc, List.getLast?_concat]
    have hlastZero : last.xmit = 0 := hzero last (by simp)
    by_cases hsame : last.bCtrl = bCtrl
    · refine .inr ⟨u', last, rfl, hsame, ?_⟩
      simp only [queue, hback]
      rw [if_pos ⟨hsame, hlastZero⟩, hlist, ← List.append_assoc, List.dropLast_concat,
        List.append_assoc]
      apply hend
      intro x hx
      rcases List.mem_append.mp hx with hx | hx
      · exact hzero x (List.mem_append_left _ hx)
      · rw [List.mem_singleton.mp hx]
        exact hlastZero
    · refine .inl ⟨?_, ?_⟩
      · intro back hlast
        rw [List.getLast?_concat] at hlast
        obtain rfl := Option.some.inj hlast
        exact hsame
      · simp only [queue, hback]
        rw [if_neg fun hboth => hsame hboth.1]
        exact hfresh

theorem recover_le_of_grow {una nxt nxt' recover : UInt32} {n n' : Nat}
    (h : una ≤ nxt → recover ≤ nxt) (hnxt : nxt = una + UInt32.ofNat n)
    (hnxt' : nxt' = una + UInt32.ofNat n') (hle : n ≤ n') (hlt : n' < 2 ^ 32)
    (hup : una ≤ nxt') : recover ≤ nxt' := by
  subst hnxt hnxt'
  have hnew := nxt_of_le hlt hup
  have hmod : (una + UInt32.ofNat n).toNat = (una.toNat + n) % 2 ^ 32 := by simp
  have hlt' := (una + UInt32.ofNat n').toNat_lt
  have hold : una ≤ una + UInt32.ofNat n := by
    rw [UInt32.le_iff_toNat_le, hmod, Nat.mod_eq_of_lt (by omega)]
    exact Nat.le_add_right _ _
  have hrec := UInt32.le_iff_toNat_le.mp (h hold)
  rw [nxt_of_le (by omega) hold] at hrec
  rw [UInt32.le_iff_toNat_le, hnew]
  omega

end Unsent

section Steps

variable {arriving : Segment → Prop} {s t : PseudoTcp}

theorem Tallied.unsent_cut {s : Sender} {sent u : List SSegment} (h : Tallied s sent u)
    {pre post : List SSegment} {seg : SSegment} (n : UInt32) (hlist : s.slist = pre ++ seg :: post)
    (hpre : ∀ x ∈ pre, x.xmit ≠ 0) (hzero : seg.xmit = 0) :
    unsent (pre ++ cut seg n ++ post) = cut seg n ++ post :=
  (h.cut_step n hlist hpre hzero).unsent_eq

theorem Tallied.unsent_ack {s : Sender} {sent u : List SSegment} (h : Tallied s sent u)
    {ack : UInt32} (largest : UInt32) (hlt : s.sndUna < ack) (hle : ack ≤ s.sndNxt) :
    unsent (freeSegments s.slist (ack - s.sndUna) largest).1 = u := by
  obtain ⟨sent', h'⟩ := h.ack_step largest hlt hle
  exact h'.unsent_eq

theorem add_eq_una_iff {una nxt n : UInt32} (h : (nxt - una).toNat + n.toNat < 4294967296) :
    nxt + n = una ↔ nxt = una ∧ n = 0 := by
  have huna := una.toNat_lt
  have hnxt := nxt.toNat_lt
  simp only [← UInt32.toNat_inj, UInt32.toNat_add, UInt32.toNat_sub, UInt32.toNat_zero] at h ⊢
  omega

theorem Tallied.flight_lt {s : Sender} {sent u : List SSegment} (h : Tallied s sent u)
    {pre post : List SSegment} {seg : SSegment} {n : UInt32} (hlist : s.slist = pre ++ seg :: post)
    (hpre : ∀ x ∈ pre, x.xmit ≠ 0) (hzero : seg.xmit = 0) (hn : n ≤ seg.len) :
    (s.sndNxt - s.sndUna).toNat + n.toNat < 4294967296 := by
  have hextent := h.extent
  have hlt := h.dataLength_lt
  have hin := h.inFlight
  have hle := UInt32.le_iff_toNat_le.mp hn
  rw [h.slist, ← h.unsent_eq, extent_append, hlist, unsent_split hpre hzero, extent_cons] at hextent
  simp only [SSegment.size] at hextent
  omega

theorem Tallied.unsent_sent {s : Sender} {sent u : List SSegment} (h : Tallied s sent u)
    {pre post : List SSegment} {seg : SSegment} {n : UInt32} (hlist : s.slist = pre ++ seg :: post)
    (hpre : ∀ x ∈ pre, x.xmit ≠ 0) (hxmit : seg.xmit < 30) :
    unsent (pre ++ markSent seg n ++ post) =
      if seg.xmit = 0 then (cut seg n).tail ++ post else unsent s.slist := by
  rw [unsent_markSent hpre hxmit]
  by_cases hzero : seg.xmit = 0
  · rw [if_pos hzero, if_pos hzero]
    apply PseudoTcp.unsent_eq
    intro x hx
    rcases List.mem_append.mp hx with hx | hx
    · rw [cut_xmit (List.mem_of_mem_tail hx), hzero]
    · have hmem : x ∈ u := by
        rw [← h.unsent_eq, hlist, unsent_split hpre hzero]
        exact List.mem_cons_of_mem _ hx
      exact not_not.mp (h.unsent_xmit x hmem)
  · rw [if_neg hzero, if_neg hzero, hlist]

theorem Tracked.sent_step (h : Tracked s.toSender) {pre post : List SSegment} {seg : SSegment}
    {n : UInt32} (hlist : s.slist = pre ++ seg :: post) (hpre : ∀ x ∈ pre, x.xmit ≠ 0)
    (hxmit : seg.xmit < 30) (hn : n ≤ seg.len) :
    Tracked { s.toSender with
      slist := pre ++ markSent seg n ++ post
      sndNxt := if seg.xmit = 0 then s.sndNxt + min n seg.len else s.sndNxt } := by
  obtain ⟨sent, htallied⟩ := h.tallied
  obtain ⟨sent', htallied'⟩ := exists_tallied (htallied.sent_step hlist hpre hxmit hn)
  have hunsent := htallied.unsent_sent (n := n) hlist hpre hxmit
  by_cases hzero : seg.xmit = 0
  · rw [if_pos hzero] at hunsent
    obtain ⟨first, rest, hcut⟩ := cut_eq_cons seg n
    have hsplit := @unsent_split pre post seg hpre hzero
    have htiles := tiles_cut n (by
      have hold := h.tiles
      rw [hlist, hsplit] at hold
      exact hold)
    have hfirst : first.len = min n seg.len := by
      simp only [cut] at hcut
      split at hcut
      · rename_i hlt
        obtain ⟨rfl, -⟩ := List.cons.inj hcut
        rw [← UInt32.toNat_inj, UInt32.toNat_min]
        have hle := UInt32.le_iff_toNat_le.mp hn
        exact (Nat.min_eq_left hle).symm
      · rename_i hge
        obtain ⟨rfl, -⟩ := List.cons.inj hcut
        rw [← UInt32.toNat_inj, UInt32.toNat_min]
        have hle := UInt32.le_iff_toNat_le.mp (UInt32.not_lt.mp hge)
        exact (Nat.min_eq_right hle).symm
    rw [hcut, List.cons_append] at htiles
    refine ⟨⟨sent', htallied'⟩, ?_, ?_⟩
    · change Tiles (if seg.xmit = 0 then s.sndNxt + min n seg.len else s.sndNxt)
        (unsent (pre ++ markSent seg n ++ post))
      rw [hunsent, if_pos hzero, hcut, List.tail_cons, ← hfirst]
      exact htiles.2
    · intro hup
      refine recover_le_of_grow h.recover htallied.nxt htallied'.nxt ?_
        (Nat.lt_of_le_of_lt htallied'.sent_le htallied'.dataLength_lt) hup
      have hall := htallied.extent
      have hall' := htallied'.extent
      rw [htallied.slist, extent_append, hlist, hsplit] at hall
      rw [htallied'.slist, extent_append] at hall'
      have hless : Layout.extent SSegment.size (unsent (pre ++ markSent seg n ++ post)) ≤
          Layout.extent SSegment.size (seg :: post) := by
        have hsize := cut_size seg n
        rw [hunsent, hcut, List.tail_cons, extent_append, extent_cons]
        rw [hcut, extent_cons] at hsize
        omega
      change _ = s.sbuf.dataLength at hall'
      change Layout.extent SSegment.size sent' +
        Layout.extent SSegment.size (unsent (pre ++ markSent seg n ++ post)) = _ at hall'
      omega
  · rw [if_neg hzero] at hunsent
    refine ⟨⟨sent', htallied'⟩, ?_, ?_⟩
    · change Tiles (if seg.xmit = 0 then s.sndNxt + min n seg.len else s.sndNxt)
        (unsent (pre ++ markSent seg n ++ post))
      rw [hunsent, if_neg hzero]
      exact h.tiles
    · change s.sndUna ≤ (if seg.xmit = 0 then _ else s.sndNxt) →
        s.recover ≤ if seg.xmit = 0 then _ else s.sndNxt
      rw [if_neg hzero]
      exact h.recover

theorem Tallied.fresh_seq {s : Sender} {sent u : List SSegment} (h : Tallied s sent u) :
    s.sndUna + UInt32.ofNat s.sbuf.dataLength =
      s.sndNxt + UInt32.ofNat (Layout.extent SSegment.size u) := by
  rw [h.nxt, ← h.extent, h.slist, extent_append, UInt32.ofNat_add, UInt32.add_assoc]

theorem Tracked.queue_step (h : Tracked s.toSender) (data : List UInt8) (bCtrl : Bool) :
    Tracked (s.queue data bCtrl).2.toSender := by
  obtain ⟨sent, htallied⟩ := h.tallied
  obtain ⟨unsent', htallied'⟩ := queue_tallied htallied data bCtrl
  have hseq := htallied.fresh_seq
  refine ⟨exists_tallied ⟨sent, unsent', htallied'⟩, ?_, h.recover⟩
  change Tiles s.sndNxt (unsent (s.queue data bCtrl).2.slist)
  have htiles := h.tiles
  rcases unsent_queue htallied data bCtrl with ⟨-, hlist⟩ | ⟨u', back, hu, -, hlist⟩
  · rw [hlist, tiles_concat]
    exact ⟨htiles, hseq⟩
  · rw [hu, tiles_concat] at htiles
    rw [hlist, tiles_concat]
    exact htiles

theorem Tracked.ack_step {s : Sender} (h : Tracked s) {ack : UInt32} (largest : UInt32)
    (hlt : s.sndUna < ack) (hle : ack ≤ s.sndNxt) :
    Tracked { s with
      sndUna := ack
      sbuf := s.sbuf.consumeReadData (ack - s.sndUna).toNat
      slist := (freeSegments s.slist (ack - s.sndUna) largest).1 } := by
  obtain ⟨sent, htallied⟩ := h.tallied
  obtain ⟨sent', htallied'⟩ := htallied.ack_step largest hlt hle
  refine ⟨exists_tallied ⟨sent', _, htallied'⟩, ?_, fun _ => ?_⟩
  · change Tiles s.sndNxt (unsent (freeSegments s.slist (ack - s.sndUna) largest).1)
    rw [htallied.unsent_ack largest hlt hle]
    exact h.tiles
  · exact h.recover (UInt32.le_trans (UInt32.le_of_lt hlt) hle)

theorem tracked_step (hstep : Step arriving s t) (h : Tracked s.toSender) :
    Tracked t.toSender := by
  obtain ⟨sent, htallied⟩ := h.tallied
  cases hstep with
  | tune hcore =>
    have hsender : t.toSender = s.toSender := congrArg Core.sender hcore
    exact hsender ▸ h
  | write => exact h
  | cut n hlist hsent hseg =>
    have htiles := h.tiles
    rw [hlist, unsent_split hsent hseg] at htiles
    refine ⟨exists_tallied ⟨_, _, htallied.cut_step n hlist hsent hseg⟩, ?_, h.recover⟩
    dsimp only
    rw [htallied.unsent_cut n hlist hsent hseg]
    exact tiles_cut n htiles
  | sent n hlist hsent hxmit hn => exact h.sent_step hlist hsent hxmit hn
  | queueData data => exact h.queue_step data false
  | queueConnect =>
    rename_i state _ _
    exact Tracked.queue_step (s := { s with
      state := state, sndWnd := UInt32.ofNat s.connectMessageBytes.length }) h
      s.connectMessageBytes true
  | ack now seg hlt hle => exact h.ack_step s.largest hlt hle
  | setRecover => exact ⟨⟨sent, { htallied with }⟩, h.tiles, fun _ => UInt32.le_refl _⟩
  | readEnd => exact h
  | resizeSend size => exact ⟨⟨sent, htallied.resize_step _ size⟩, h.tiles, h.recover⟩
  | resizeReceive => exact h
  | read => exact h
  | openWindow => exact h
  | store seg sflags =>
    obtain ⟨hcore, -⟩ := store_frame s (s.fitted seg) sflags
    have hsender : (s.store (s.fitted seg) sflags).2.2.toSender = s.toSender :=
      congrArg Core.sender hcore
    exact hsender ▸ h

theorem tracked_new (env : Env) (conv : UInt32) : Tracked (new env conv).toSender where
  tallied := ⟨[], {
    wf := FifoBuffer.new_wf _ (by decide)
    capacity_lt := by simp only [new, FifoBuffer.new]; decide
    slist := rfl
    extent := rfl
    sent_xmit := by simp
    unsent_xmit := by simp [new, unsent]
    nxt := rfl }⟩
  tiles := trivial
  recover := fun _ => UInt32.le_refl _

theorem tracked_steps (h : Steps arriving s t) (hs : Tracked s.toSender) : Tracked t.toSender := by
  induction h with
  | refl => exact hs
  | tail _ hlast ih => exact tracked_step hlast ih

theorem Tracked.first_sent {s : Sender} (h : Tracked s) (hflight : s.sndNxt ≠ s.sndUna) :
    ∃ seg rest, s.slist = seg :: rest ∧ seg.xmit ≠ 0 := by
  obtain ⟨sent, htallied⟩ := h.tallied
  cases sent with
  | nil =>
    have hnxt := htallied.nxt
    simp only [extent_nil] at hnxt
    exact absurd (hnxt.trans (UInt32.add_zero _)) hflight
  | cons seg sent =>
    exact ⟨seg, sent ++ unsent s.slist, htallied.slist, htallied.sent_xmit seg List.mem_cons_self⟩

theorem Tracked.not_readsEnd {s : Sender} (h : Tracked s) : ¬ ReadsEnd s := by
  obtain ⟨sent, htallied⟩ := h.tallied
  rintro (⟨hnil, hcase⟩ | ⟨hall, hne⟩)
  · have hsent : sent = [] := (List.append_eq_nil_iff.mp (htallied.slist.symm.trans hnil)).1
    have hnxt : s.sndNxt = s.sndUna := by
      rw [htallied.nxt, hsent]
      simp
    rcases hcase with hne | ⟨hlt, hle⟩
    · exact hne hnxt.symm
    · have hrecover := h.recover hle
      rw [hnxt] at hrecover
      exact absurd hlt (UInt32.not_lt.mpr hrecover)
  · have hunsent : unsent s.slist = [] := by
      apply List.eq_nil_iff_forall_not_mem.mpr
      intro seg hseg
      have hmem : seg ∈ s.slist := (List.dropWhile_sublist _).subset hseg
      exact htallied.unsent_xmit seg hseg (hall seg hmem)
    have hextent := htallied.extent
    rw [htallied.slist, hunsent, List.append_nil] at hextent
    apply hne
    rw [← htallied.inFlight.trans hextent, UInt32.ofNat_toNat]

end Steps

end Libjingle.PseudoTcp
