import Libjingle.PseudoTcp.SendQueue

/-! Acknowledgements where the sequence numbers cross `2 ^ 32`. Differences of
sequence numbers are taken modulo `2 ^ 32`, their order as plain numbers. -/

namespace Libjingle.PseudoTcp

open Layout

/-- The list and the send buffer hold the same bytes, those in flight among them. -/
structure Tallies (s : Sender) : Prop where
  extent : Layout.extent SSegment.size s.slist = s.sbuf.dataLength
  inFlight : (s.sndNxt - s.sndUna).toNat ≤ s.sbuf.dataLength

structure Tallied (s : Sender) (sent unsent : List SSegment) : Prop where
  wf : s.sbuf.Wf
  capacity_lt : s.sbuf.bufferLength < 2 ^ 32
  slist : s.slist = sent ++ unsent
  extent : Layout.extent SSegment.size s.slist = s.sbuf.dataLength
  sent_xmit : ∀ seg ∈ sent, seg.xmit ≠ 0
  unsent_xmit : ∀ seg ∈ unsent, ¬ seg.xmit ≠ 0
  nxt : s.sndNxt = s.sndUna + UInt32.ofNat (Layout.extent SSegment.size sent)

section Reachable

variable {s : Sender} {sent unsent : List SSegment}

theorem Tallied.dataLength_lt (h : Tallied s sent unsent) : s.sbuf.dataLength < 2 ^ 32 :=
  Nat.lt_of_le_of_lt h.wf.length_le h.capacity_lt

theorem Tallied.sent_le (h : Tallied s sent unsent) :
    Layout.extent SSegment.size sent ≤ s.sbuf.dataLength := by
  have he := h.extent
  rw [h.slist, extent_append] at he
  omega

theorem Tallied.inFlight (h : Tallied s sent unsent) :
    (s.sndNxt - s.sndUna).toNat = Layout.extent SSegment.size sent := by
  have hle := h.sent_le
  have hlt := h.dataLength_lt
  rw [h.nxt, UInt32.add_comm, UInt32.add_sub_cancel, UInt32.toNat_ofNat_of_lt' (by
    simp only [UInt32.size]; omega)]

theorem Tallied.tallies (h : Tallied s sent unsent) : Tallies s :=
  ⟨h.extent, h.inFlight ▸ h.sent_le⟩

theorem SSegment.exists_at (seg : SSegment) : ∃ ctl p, seg.At ctl p := by
  cases hb : seg.bCtrl with
  | false => exact ⟨seg.seq.toNat, seg.seq.toNat, by simp, by simp [hb]⟩
  | true => exact ⟨seg.seq.toNat + seg.size, seg.seq.toNat, by simp, by simp [hb]⟩

theorem markSent_size (seg : SSegment) (n : UInt32) :
    Layout.extent SSegment.size (markSent seg n) = seg.size := by
  have hsize := cut_size seg n
  obtain ⟨first, rest, hcut⟩ := cut_eq_cons seg n
  rw [hcut] at hsize
  simp only [markSent, hcut]
  exact hsize

theorem Tallied.cut_step (h : Tallied s sent unsent) {pre post : List SSegment} {seg : SSegment}
    (n : UInt32) (hlist : s.slist = pre ++ seg :: post) (hpre : ∀ x ∈ pre, x.xmit ≠ 0)
    (hseg : seg.xmit = 0) :
    Tallied { s with slist := pre ++ cut seg n ++ post } pre (cut seg n ++ post) := by
  obtain ⟨rfl, rfl⟩ := append_cons_unique hpre (not_not.mpr hseg) h.sent_xmit h.unsent_xmit
    (hlist.symm.trans h.slist)
  have hextent := h.extent
  rw [hlist] at hextent
  refine { h with
    slist := List.append_assoc _ _ _
    extent := (extent_replace (cut_size seg n)).trans hextent
    sent_xmit := hpre
    unsent_xmit := ?_ }
  intro x hx
  rcases List.mem_append.mp hx with hx | hx
  · rw [cut_xmit hx]
    exact not_not.mpr hseg
  · exact h.unsent_xmit x (List.mem_cons_of_mem _ hx)

theorem Tallied.sent_step (h : Tallied s sent unsent) {pre post : List SSegment} {seg : SSegment}
    {n : UInt32} (hlist : s.slist = pre ++ seg :: post) (hpre : ∀ x ∈ pre, x.xmit ≠ 0)
    (hxmit : seg.xmit < 30) (hn : n ≤ seg.len) :
    ∃ sent' unsent', Tallied { s with
      slist := pre ++ markSent seg n ++ post
      sndNxt := if seg.xmit = 0 then s.sndNxt + min n seg.len else s.sndNxt } sent' unsent' := by
  obtain ⟨ctl, p, hat⟩ := SSegment.exists_at seg
  obtain ⟨first, rest, hmark, -, hsize, hfirst, hne, -, hrest⟩ := markSent_eq hat hxmit hn
  have hextent := h.extent
  rw [hlist] at hextent
  have hsame : Layout.extent SSegment.size (pre ++ markSent seg n ++ post) = s.sbuf.dataLength :=
    (extent_replace (markSent_size seg n)).trans hextent
  by_cases hz : seg.xmit = 0
  · -- the first segment not yet transmitted moves over
    obtain ⟨rfl, rfl⟩ := append_cons_unique hpre (not_not.mpr hz) h.sent_xmit h.unsent_xmit
      (hlist.symm.trans h.slist)
    refine ⟨pre ++ [first], rest ++ post, { h with
      slist := by simp [hmark]
      extent := hsame
      sent_xmit := ?_
      unsent_xmit := ?_
      nxt := ?_ }⟩
    · intro x hx
      rcases List.mem_append.mp hx with hx | hx
      · exact hpre x hx
      · rw [List.mem_singleton.mp hx]
        exact hne
    · intro x hx
      rcases List.mem_append.mp hx with hx | hx
      · rw [hrest x hx]
        exact not_not.mpr hz
      · exact h.unsent_xmit x (List.mem_cons_of_mem _ hx)
    · rw [if_pos hz, extent_append, extent_cons, extent_nil, Nat.add_zero, hfirst, UInt32.ofNat_add,
        UInt32.ofNat_toNat, ← UInt32.add_assoc, ← h.nxt]
  · obtain ⟨sent₂, rfl, rfl⟩ := append_cons_split (p := fun x : SSegment => x.xmit ≠ 0) hz hpre
      h.unsent_xmit (hlist.symm.trans h.slist)
    refine ⟨pre ++ markSent seg n ++ sent₂, unsent, { h with
      slist := by simp
      extent := hsame
      sent_xmit := ?_
      unsent_xmit := h.unsent_xmit
      nxt := ?_ }⟩
    · rw [hmark]
      intro x hx
      simp only [List.mem_append, List.mem_cons] at hx
      rcases hx with (hx | rfl | hx) | hx
      · exact hpre x hx
      · exact hne
      · rw [hrest x hx]
        exact hz
      · exact h.sent_xmit x (by simp [hx])
    · rw [if_neg hz, extent_replace (markSent_size seg n)]
      exact h.nxt

theorem freeSegments_extent (l : List SSegment) {n : UInt32} (largest : UInt32)
    (h : n.toNat ≤ Layout.extent SSegment.size l) :
    Layout.extent SSegment.size (freeSegments l n largest).1 + n.toNat =
      Layout.extent SSegment.size l := by
  induction l generalizing n largest with
  | nil =>
    simp only [freeSegments, extent_nil] at h ⊢
    omega
  | cons seg rest ih =>
    simp only [freeSegments]
    by_cases hz : n = 0
    · simp [hz]
    · rw [if_neg hz]
      by_cases hlt : n < seg.len
      · have hsub := UInt32.toNat_sub_of_le _ _ (UInt32.le_of_lt hlt)
        have hle := UInt32.lt_iff_toNat_lt.mp hlt
        rw [if_pos hlt]
        simp only [extent_cons, SSegment.size, hsub]
        omega
      · have hle := UInt32.le_iff_toNat_le.mp (UInt32.not_lt.mp hlt)
        have hsub := UInt32.toNat_sub_of_le _ _ (UInt32.not_lt.mp hlt)
        rw [extent_cons] at h ⊢
        have hrest := ih (max largest seg.len) (n := n - seg.len) (by
          rw [hsub]
          simp only [SSegment.size] at h
          omega)
        rw [if_neg hlt]
        simp only [SSegment.size] at hrest ⊢
        omega

theorem freeSegments_append (sent unsent : List SSegment) {n : UInt32} (largest : UInt32)
    (h : n.toNat ≤ Layout.extent SSegment.size sent) (hx : ∀ seg ∈ sent, seg.xmit ≠ 0) :
    ∃ rest, (freeSegments (sent ++ unsent) n largest).1 = rest ++ unsent ∧
      ∀ seg ∈ rest, seg.xmit ≠ 0 := by
  induction sent generalizing n largest with
  | nil =>
    have hz : n = 0 := UInt32.toNat_inj.mp (Nat.le_zero.mp h)
    refine ⟨[], ?_, by simp⟩
    cases unsent <;> simp [freeSegments, hz]
  | cons seg sent ih =>
    simp only [List.cons_append, freeSegments]
    by_cases hz : n = 0
    · exact ⟨seg :: sent, by simp [hz], hx⟩
    · rw [if_neg hz]
      by_cases hlt : n < seg.len
      · refine ⟨{ seg with len := seg.len - n } :: sent, by simp [hlt], ?_⟩
        intro x hmem
        rcases List.mem_cons.mp hmem with rfl | hmem
        · exact hx seg List.mem_cons_self
        · exact hx x (List.mem_cons_of_mem _ hmem)
      · have hle := UInt32.le_iff_toNat_le.mp (UInt32.not_lt.mp hlt)
        have hsub := UInt32.toNat_sub_of_le _ _ (UInt32.not_lt.mp hlt)
        rw [extent_cons] at h
        rw [if_neg hlt]
        exact ih (max largest seg.len) (n := n - seg.len) (by
          rw [hsub]
          simp only [SSegment.size] at h
          omega) fun x hmem => hx x (List.mem_cons_of_mem _ hmem)

theorem Tallied.ack_le (h : Tallied s sent unsent) {ack : UInt32} (hlt : s.sndUna < ack)
    (hle : ack ≤ s.sndNxt) : (ack - s.sndUna).toNat ≤ Layout.extent SSegment.size sent := by
  rw [← h.inFlight, UInt32.toNat_sub_of_le _ _ (UInt32.le_of_lt hlt),
    UInt32.toNat_sub_of_le _ _ (UInt32.le_trans (UInt32.le_of_lt hlt) hle)]
  have := UInt32.le_iff_toNat_le.mp hle
  omega

theorem Tallied.ack_step (h : Tallied s sent unsent) {ack : UInt32} (largest : UInt32)
    (hlt : s.sndUna < ack) (hle : ack ≤ s.sndNxt) :
    ∃ sent', Tallied { s with
      sndUna := ack
      sbuf := s.sbuf.consumeReadData (ack - s.sndUna).toNat
      slist := (freeSegments s.slist (ack - s.sndUna) largest).1 } sent' unsent := by
  have hn := h.ack_le hlt hle
  have hdata := h.sent_le
  have hcap := h.wf.length_le
  have hpos : 0 < (ack - s.sndUna).toNat := by
    rw [UInt32.toNat_sub_of_le _ _ (UInt32.le_of_lt hlt)]
    have := UInt32.lt_iff_toNat_lt.mp hlt
    omega
  obtain ⟨rest, hfree, hrest⟩ := freeSegments_append sent unsent largest hn h.sent_xmit
  have hextent := freeSegments_extent s.slist largest (n := ack - s.sndUna) (by
    rw [h.extent]
    omega)
  have hsent : Layout.extent SSegment.size rest + (ack - s.sndUna).toNat =
      Layout.extent SSegment.size sent := by
    rw [h.slist, hfree, extent_append, extent_append] at hextent
    omega
  refine ⟨rest, {
    wf := FifoBuffer.consumeReadData_wf h.wf (by omega) _
    capacity_lt := h.capacity_lt
    slist := by rw [h.slist, hfree]
    extent := ?_
    sent_xmit := hrest
    unsent_xmit := h.unsent_xmit
    nxt := ?_ }⟩
  · rw [h.extent] at hextent
    simp only [FifoBuffer.consumeReadData]
    omega
  · change s.sndNxt = ack + _
    rw [h.nxt, ← hsent, UInt32.ofNat_add, UInt32.ofNat_toNat, UInt32.add_comm (UInt32.ofNat _),
      ← UInt32.add_assoc, UInt32.add_comm s.sndUna, UInt32.sub_add_cancel]

theorem queue_tallied {s : PseudoTcp} (h : Tallied s.toSender sent unsent) (data : List UInt8)
    (bCtrl : Bool) : ∃ unsent', Tallied (s.queue data bCtrl).2.toSender sent unsent' := by
  obtain ⟨-, hfit, -, -, hwf, hdata, hcap⟩ := queue_sbuf h.wf h.capacity_lt data bCtrl
  have hlt := h.capacity_lt
  have hextent := h.extent
  have hnew : ∀ unsent', (s.queue data bCtrl).2.slist = sent ++ unsent' →
      Layout.extent SSegment.size (sent ++ unsent') =
        Layout.extent SSegment.size s.slist + (s.queueLen data).toNat →
      (∀ seg ∈ unsent', seg.xmit = 0) → Tallied (s.queue data bCtrl).2.toSender sent unsent' := by
    intro unsent' hslist hsize hzero
    exact {
      wf := hwf
      capacity_lt := by rw [hcap]; exact hlt
      slist := hslist
      extent := by rw [hslist, hsize, h.extent, hdata]
      sent_xmit := h.sent_xmit
      unsent_xmit := fun seg hseg => not_not.mpr (hzero seg hseg)
      nxt := h.nxt }
  have hzero : ∀ seg ∈ unsent, seg.xmit = 0 := fun seg hseg => not_not.mp (h.unsent_xmit seg hseg)
  rcases queue_slist s data bCtrl with hslist | ⟨front, back, hfront, -, hback, hslist⟩
  · refine ⟨unsent ++ [_], hnew _ (by rw [hslist, h.slist, List.append_assoc]) ?_ ?_⟩
    · rw [← List.append_assoc, ← h.slist, extent_append]
      simp
    · intro seg hseg
      rcases List.mem_append.mp hseg with hseg | hseg
      · exact hzero seg hseg
      · rw [List.mem_singleton.mp hseg]
  · have hsplit : sent ++ unsent = front ++ [back] := h.slist.symm.trans hfront
    rcases List.eq_nil_or_concat unsent with rfl | ⟨rest, last, rfl⟩
    · rw [List.append_nil] at hsplit
      exact absurd hback (h.sent_xmit back (by rw [hsplit]; simp))
    · rw [List.concat_eq_append, ← List.append_assoc] at hsplit
      obtain ⟨hrest, hlast⟩ := List.append_inj' hsplit rfl
      obtain rfl : last = back := by simpa using hlast
      rw [hfront, extent_append, extent_cons, extent_nil] at hextent
      have hsum : (last.len + s.queueLen data).toNat = last.len.toNat + (s.queueLen data).toNat := by
        simp only [SSegment.size] at hextent
        rw [UInt32.toNat_add, Nat.mod_eq_of_lt (by omega)]
      refine ⟨rest ++ [{ last with len := last.len + s.queueLen data }],
        hnew _ (by rw [hslist, ← List.append_assoc, hrest]) ?_ ?_⟩
      · rw [← List.append_assoc, hrest, hfront]
        simp only [extent_append, extent_cons, extent_nil, SSegment.size, hsum]
        omega
      · intro seg hseg
        rcases List.mem_append.mp hseg with hseg | hseg
        · exact hzero seg (by simp [hseg])
        · rw [List.mem_singleton.mp hseg]
          exact hback

theorem Tallied.resize_step (h : Tallied s sent unsent) (heap : Nat → UInt8) (size : UInt32) :
    Tallied { s with sbufLen := size, sbuf := (s.sbuf.setCapacity heap size.toNat).2 }
      sent unsent := by
  have hsize := size.toNat_lt
  obtain ⟨-, hwf, hdata, hcap⟩ := FifoBuffer.setCapacity_keeps h.wf heap
    (show size.toNat ≤ maxAllocation by simp only [maxAllocation]; omega)
  have hlt := h.capacity_lt
  exact { h with
    wf := hwf
    capacity_lt := by
      rcases hcap with hcap | hcap
      · simp only [hcap, hlt]
      · simp only [hcap, hsize]
    extent := h.extent.trans hdata.symm }

theorem tallied_step {arriving : Segment → Prop} {s t : PseudoTcp} (hstep : Step arriving s t)
    (h : ∃ sent unsent, Tallied s.toSender sent unsent) :
    ∃ sent unsent, Tallied t.toSender sent unsent := by
  obtain ⟨sent, unsent, h⟩ := h
  cases hstep with
  | tune hcore =>
    have hsender : t.toSender = s.toSender := congrArg Core.sender hcore
    exact ⟨sent, unsent, hsender ▸ h⟩
  | write => exact ⟨sent, unsent, h⟩
  | cut n hlist hsent hseg => exact ⟨_, _, h.cut_step n hlist hsent hseg⟩
  | sent n hlist hsent hxmit hn => exact h.sent_step hlist hsent hxmit hn
  | queueData data =>
    obtain ⟨unsent', h'⟩ := queue_tallied h data false
    exact ⟨sent, unsent', h'⟩
  | queueConnect =>
    rename_i state _ _
    obtain ⟨unsent', h'⟩ := queue_tallied (s := { s with
      state := state, sndWnd := UInt32.ofNat s.connectMessageBytes.length }) h
      s.connectMessageBytes true
    exact ⟨sent, unsent', h'⟩
  | ack now seg hlt hle =>
    obtain ⟨sent', h'⟩ := h.ack_step s.largest hlt hle
    exact ⟨sent', unsent, h'⟩
  | setRecover => exact ⟨sent, unsent, { h with }⟩
  | readEnd => exact ⟨sent, unsent, h⟩
  | resizeSend size => exact ⟨sent, unsent, h.resize_step _ size⟩
  | resizeReceive => exact ⟨sent, unsent, h⟩
  | read => exact ⟨sent, unsent, h⟩
  | openWindow => exact ⟨sent, unsent, h⟩
  | store seg sflags =>
    obtain ⟨hcore, -⟩ := store_frame s (s.fitted seg) sflags
    have hsender : (s.store (s.fitted seg) sflags).2.2.toSender = s.toSender :=
      congrArg Core.sender hcore
    exact ⟨sent, unsent, hsender ▸ h⟩

/-- The tally holds in every state of every endpoint. -/
theorem run_tallies (env : Env) (conv : UInt32) (calls : List Call) :
    Tallies ((new env conv).run calls).toSender := by
  have hnew : ∃ sent unsent, Tallied (new env conv).toSender sent unsent := ⟨[], [], {
    wf := FifoBuffer.new_wf _ (by decide)
    capacity_lt := by simp only [new, FifoBuffer.new]; decide
    slist := rfl
    extent := rfl
    sent_xmit := by simp
    unsent_xmit := by simp
    nxt := rfl }⟩
  have hsteps : Steps (fun _ => True) (new env conv) ((new env conv).run calls) := run_steps _ calls
  have hrun : ∀ t, Steps (fun _ => True) (new env conv) t →
      ∃ sent unsent, Tallied t.toSender sent unsent := by
    intro t ht
    induction ht with
    | refl => exact hnew
    | tail _ hlast ih => exact tallied_step hlast ih
  obtain ⟨sent, unsent, h⟩ := hrun _ hsteps
  exact h.tallies

end Reachable

section Acknowledge

def totals (s : Sender) : UInt32 × Nat × Nat :=
  (s.sndUna, Layout.extent SSegment.size s.slist, s.sbuf.dataLength)

/-- A new acknowledgement, counted modulo `2 ^ 32`. -/
def Acks (s : Sender) (ack : UInt32) : Prop :=
  1 ≤ (ack - s.sndUna).toNat ∧ (ack - s.sndUna).toNat ≤ (s.sndNxt - s.sndUna).toNat

instance (s : Sender) (ack : UInt32) : Decidable (Acks s ack) := by
  unfold Acks
  infer_instance

/-- The totals once `ack` is taken: a new acknowledgement frees its bytes, any
other changes nothing. -/
def acked (s : Sender) (ack : UInt32) : UInt32 × Nat × Nat :=
  if Acks s ack then
    (ack, Layout.extent SSegment.size s.slist - (ack - s.sndUna).toNat,
      s.sbuf.dataLength - (ack - s.sndUna).toNat)
  else totals s

/-- The state in which `process` looks at the acknowledgement of a packet, if it does. -/
def atAck (s : PseudoTcp) (seg : Segment) : Option PseudoTcp :=
  if seg.conv ≠ s.conv ∨ s.state = .closed ∨ seg.flags &&& flagRst ≠ 0 then none
  else
    match s.noteReceived.control seg with
    | (none, _) => none
    | (some _, t) => some (t.updateTimestamp seg)

/-- The state once `process` has dealt with the acknowledgement. -/
def afterAck (s : PseudoTcp) (seg : Segment) : Option PseudoTcp :=
  (s.atAck seg).map fun t => (t.acknowledge (s.env.now s.ticks) seg).2

/-- What Nagle's test takes for data in flight. -/
def seesInFlight (s : PseudoTcp) : Bool := s.sndNxt > s.sndUna

theorem process_of_atAck {s t : PseudoTcp} {seg : Segment} (h : s.atAck seg = some t) :
    ∃ bConnect, s.process seg = match t.acknowledge (s.env.now s.ticks) seg with
      | (false, u) => (false, u)
      | (true, u) => (true, ((u.finishOpen bConnect).notifyWriteable).receive seg) := by
  simp only [atAck] at h
  split at h
  · cases h
  · rename_i hpass
    simp only [not_or, not_not] at hpass
    obtain ⟨hconv, hopen, hreset⟩ := hpass
    have hopen' : s.noteReceived.state ≠ .closed := hopen
    split at h
    · cases h
    · rename_i bConnect u hcontrol
      obtain rfl := Option.some.inj h
      refine ⟨bConnect, ?_⟩
      rw [process, if_neg (not_not.mpr hconv), processSegment, if_neg hopen',
        if_neg (not_not.mpr hreset), hcontrol]
      all_goals rfl

theorem transmit_totals (s : PseudoTcp) (i : Nat) (now : UInt32) :
    totals (s.transmit i now).2.toSender = totals s.toSender := by
  cases hseg : s.slist[i]? with
  | none => simp [transmit, hseg, noteIf, totals]
  | some seg =>
    obtain ⟨-, hsender, -⟩ : Steps (fun _ => True) s _ ∧ _ :=
      sendSegment_steps (List.mem_of_getElem? hseg)
    obtain ⟨hlist, hsplice⟩ := splice_eq hseg (markSent seg 0)
    simp only [transmit, hseg]
    by_cases hxmit : seg.xmit ≥ if s.state = .established then 15 else 30
    · rw [if_pos hxmit]
    · rw [if_neg hxmit]
      split <;> rename_i u hu <;> rw [hu] at hsender
      · exact congrArg totals hsender
      · rename_i n
        have hsize : Layout.extent SSegment.size (splice s.slist i (markSent seg n)) =
            Layout.extent SSegment.size s.slist := by
          rw [(splice_eq hseg (markSent seg n)).2, extent_replace (markSent_size seg n), ← hlist]
        have huna : u.sndUna = s.sndUna := congrArg Sender.sndUna hsender
        have hslist : u.slist = s.slist := congrArg Sender.slist hsender
        have hsbuf : u.sbuf = s.sbuf := congrArg Sender.sbuf hsender
        simp only [totals, huna, hslist, hsbuf, hsize]

theorem app_totals {s : PseudoTcp} (h : s.state = .closed) (c : AppCall) :
    (s.app c).state = .closed ∧ totals (s.app c).toSender = totals s.toSender := by
  cases c with
  | connect => simp [app, connect, h, totals]
  | send data => simp [app, send, h, totals]
  | recv len => simp [app, recv, h, totals]
  | close force => exact ⟨h, rfl⟩
  | notifyMTU mtu => simp [app, notifyMTU, h, totals]
  | setOption opt value =>
    cases opt with
    | noDelay => exact ⟨h, rfl⟩
    | ackDelay => exact ⟨h, rfl⟩
    | rcvBuf => exact ⟨h, rfl⟩
    | sndBuf =>
      refine ⟨h, ?_⟩
      have hdata : (s.sbuf.setCapacity (s.env.heap s.allocs) value.toNat).2.dataLength =
          s.sbuf.dataLength := by
        simp only [FifoBuffer.setCapacity]
        split
        · rfl
        · split <;> rfl
      simp only [app, setOption, resizeSendBuffer, totals, hdata]

theorem closedown_totals (s : PseudoTcp) (err : Errno) :
    totals (s.closedown err).toSender = totals s.toSender := by
  have hcalls : ∀ (calls : List AppCall) (t : PseudoTcp), t.state = .closed →
      totals (calls.foldl app t).toSender = totals t.toSender := by
    intro calls
    induction calls with
    | nil => intro t _; rfl
    | cons c rest ih =>
      intro t ht
      obtain ⟨hclosed, hsame⟩ := app_totals ht c
      exact (ih (t.app c) hclosed).trans hsame
  rw [closedown, notify]
  exact hcalls _ _ rfl

theorem consumeAck_totals {s : PseudoTcp} (now : UInt32) (seg : Segment) :
    totals (s.consumeAck now seg).toSender =
      (seg.ack,
        Layout.extent SSegment.size (freeSegments s.slist (seg.ack - s.sndUna) s.largest).1,
        s.sbuf.dataLength - (seg.ack - s.sndUna).toNat) := rfl

theorem acknowledge_totals (s : PseudoTcp) (now : UInt32) (seg : Segment) :
    ∃ u : PseudoTcp, u.toSender = s.toSender ∧ totals (s.acknowledge now seg).2.toSender =
      if seg.ack > s.sndUna ∧ seg.ack ≤ s.sndNxt then totals (u.consumeAck now seg).toSender
      else totals s.toSender := by
  obtain ⟨hcore, -, -⟩ := updateRtt_core s now seg.tsecr
  refine ⟨s.updateRtt now seg.tsecr, congrArg Core.sender hcore, ?_⟩
  simp only [acknowledge]
  by_cases hnew : seg.ack > s.sndUna ∧ seg.ack ≤ s.sndNxt
  · rw [if_pos hnew, if_pos hnew]
    have hsent := transmit_totals ((s.updateRtt now seg.tsecr).consumeAck now seg) 0 now
    split
    · split
      · rfl
      · split <;> rename_i v hv <;> rw [hv] at hsent
        · exact (closedown_totals v _).trans hsent
        · exact hsent
    · rfl
  · rw [if_neg hnew, if_neg hnew]
    split
    · split
      · rfl
      · split
        · split
          · let t : PseudoTcp := { s with
              sndWnd := seg.wnd.toUInt32 <<< s.swndScale.toUInt32
              dupAcks := s.dupAcks + 1 }
            have hsent : totals (t.transmit 0 now).2.toSender = totals s.toSender :=
              transmit_totals t 0 now
            split <;> rename_i v hv <;> rw [hv] at hsent
            · exact (closedown_totals v _).trans hsent
            · exact hsent
          · split <;> rfl
        · rfl
    · rfl

theorem atAck_sender {s t : PseudoTcp} {seg : Segment} (hopen : s.state = .established)
    (h : s.atAck seg = some t) : t.toSender = s.toSender := by
  simp only [atAck] at h
  split at h
  · cases h
  · split at h
    · cases h
    · rename_i bConnect u hcontrol
      obtain rfl := Option.some.inj h
      have hstamp : (u.updateTimestamp seg).toSender = u.toSender := by
        simp only [updateTimestamp]
        split <;> rfl
      rw [hstamp]
      have hoptions : ∀ data, (s.noteReceived.parseOptions data).toSender = s.toSender ∧
          (s.noteReceived.parseOptions data).state = s.state := by
        intro data
        obtain ⟨hcore, hstate, -⟩ := parseOptionList_core data.length data [] s.noteReceived
        have hsender := congrArg Core.sender hcore
        simp only [parseOptions]
        split <;> rename_i v hv <;> rw [hv] at hsender hstate
        · exact ⟨hsender, hstate⟩
        · split
          · exact ⟨hsender, hstate⟩
          · exact ⟨hsender, hstate⟩
      simp only [control] at hcontrol
      split at hcontrol
      · obtain ⟨-, rfl⟩ := Prod.mk.inj hcontrol
        rfl
      · split at hcontrol
        · cases (Prod.mk.inj hcontrol).1
        · split at hcontrol
          · obtain ⟨hsender, hstate⟩ := hoptions (seg.bytes.drop 1)
            split at hcontrol
            · rename_i hlisten
              rw [hstate, hopen] at hlisten
              cases hlisten
            · rename_i hsynSent
              rw [hstate, hopen] at hsynSent
              cases hsynSent
            · obtain ⟨-, rfl⟩ := Prod.mk.inj hcontrol
              exact hsender
          · cases (Prod.mk.inj hcontrol).1

theorem acks_iff {s : Sender} (hle : s.sndUna ≤ s.sndNxt) (ack : UInt32) :
    (ack > s.sndUna ∧ ack ≤ s.sndNxt) ↔ Acks s ack := by
  have huna := s.sndUna.toNat_lt
  have hnxt := s.sndNxt.toNat_lt
  have hack := ack.toNat_lt
  simp only [Acks, gt_iff_lt, UInt32.lt_iff_toNat_lt, UInt32.le_iff_toNat_le, UInt32.toNat_sub]
    at hle ⊢
  omega

/-- A packet that only acknowledges `ack`. -/
def ackSegment (s : PseudoTcp) (ack : UInt32) : Segment where
  conv := s.conv
  seq := s.rcvNxt
  ack := ack
  flags := 0
  wnd := 0
  data := fun _ => 0
  len := 0
  tsval := 0
  tsecr := 0

theorem afterAck_ackSegment {s : PseudoTcp} (hopen : s.state = .established) (ack : UInt32) :
    s.afterAck (s.ackSegment ack) = some
      ((s.noteReceived.updateTimestamp (s.ackSegment ack)).acknowledge (s.env.now s.ticks)
        (s.ackSegment ack)).2 := by
  have hpass : ¬ ((s.ackSegment ack).conv ≠ s.conv ∨ s.state = .closed ∨
      (s.ackSegment ack).flags &&& flagRst ≠ 0) := by
    simp [ackSegment, hopen]
  have hcontrol : s.noteReceived.control (s.ackSegment ack) = (some false, s.noteReceived) := by
    simp [control, ackSegment]
  simp only [afterAck, atAck, if_neg hpass, hcontrol, Option.map_some]

theorem totals_afterAck {s t : PseudoTcp} {seg : Segment} (h : Tallies s.toSender)
    (hopen : s.state = .established) (hle : s.sndUna ≤ s.sndNxt) (ht : s.afterAck seg = some t) :
    totals t.toSender = acked s.toSender seg.ack := by
  simp only [afterAck, Option.map_eq_some_iff] at ht
  obtain ⟨u, hu, rfl⟩ := ht
  have hsender := atAck_sender hopen hu
  obtain ⟨v, hv, htotals⟩ := acknowledge_totals u (s.env.now s.ticks) seg
  have hacks := acks_iff hle seg.ack
  rw [htotals, consumeAck_totals, hv, hsender, acked]
  by_cases hack : Acks s.toSender seg.ack
  · rw [if_pos (hacks.mpr hack), if_pos hack]
    have hfree := freeSegments_extent s.slist v.largest (n := seg.ack - s.sndUna) (by
      have hspan := h.inFlight
      have hin := hack.2
      rw [h.extent]
      omega)
    refine congrArg (Prod.mk seg.ack) (congrArg (Prod.mk · _) ?_)
    omega
  · rw [if_neg fun hnew => hack (hacks.mp hnew), if_neg hack]

theorem ackSegment_unnoticed {s : PseudoTcp} (hopen : s.state = .established)
    (hlt : s.sndNxt < s.sndUna) : ∃ t, s.afterAck (s.ackSegment s.sndNxt) = some t ∧
      totals t.toSender ≠ acked s.toSender s.sndNxt := by
  refine ⟨_, afterAck_ackSegment hopen s.sndNxt, fun heq => ?_⟩
  have hack : Acks s.toSender s.sndNxt := by
    have huna := s.sndUna.toNat_lt
    have hnxt := UInt32.lt_iff_toNat_lt.mp hlt
    simp only [Acks, UInt32.toNat_sub]
    omega
  have hsender : (s.noteReceived.updateTimestamp (s.ackSegment s.sndNxt)).toSender = s.toSender := by
    simp only [updateTimestamp]
    split <;> rfl
  obtain ⟨v, -, htotals⟩ := acknowledge_totals
    (s.noteReceived.updateTimestamp (s.ackSegment s.sndNxt)) (s.env.now s.ticks)
    (s.ackSegment s.sndNxt)
  have hold : ¬ ((s.ackSegment s.sndNxt).ack > s.sndUna ∧ (s.ackSegment s.sndNxt).ack ≤ s.sndNxt) :=
    fun hnew => UInt32.lt_asymm hlt hnew.1
  rw [hsender, if_neg hold] at htotals
  rw [htotals, acked, if_pos hack] at heq
  exact UInt32.ne_of_lt hlt (congrArg Prod.fst heq).symm

theorem seesInFlight_iff (s : PseudoTcp) :
    (s.seesInFlight ↔ s.sndNxt ≠ s.sndUna) ↔ s.sndUna ≤ s.sndNxt := by
  simp only [seesInFlight, decide_eq_true_eq, gt_iff_lt, UInt32.lt_iff_toNat_lt,
    UInt32.le_iff_toNat_le, ne_eq, ← UInt32.toNat_inj]
  omega

/-- An established endpoint takes acknowledgements, and sees data in flight, as
counted modulo `2 ^ 32` exactly if `m_snd_una` and `m_snd_nxt` are in order as
plain numbers. -/
theorem acks_modulo_iff {s : PseudoTcp} (h : Tallies s.toSender) (hopen : s.state = .established) :
    ((∀ seg t, s.afterAck seg = some t → totals t.toSender = acked s.toSender seg.ack) ↔
      s.sndUna ≤ s.sndNxt) ∧
    ((s.seesInFlight ↔ s.sndNxt ≠ s.sndUna) ↔ s.sndUna ≤ s.sndNxt) := by
  refine ⟨⟨fun hall => ?_, fun hle seg t ht => totals_afterAck h hopen hle ht⟩, seesInFlight_iff s⟩
  by_contra hgt
  obtain ⟨t, ht, hne⟩ := ackSegment_unnoticed hopen (UInt32.not_le.mp hgt)
  exact hne (hall _ t ht)

def wrapping : PseudoTcp := { new Env.still 7 with
  state := .established
  sndUna := 4294967286
  sndNxt := 10
  slist := [⟨4294967286, 20, 1, false⟩]
  sbuf := (FifoBuffer.new (fun _ => 0) defaultSndBufSize.toNat).consumeWriteBuffer 20 }

theorem acks_modulo_iff_wrapping :
    ¬ (wrapping.seesInFlight ↔ wrapping.sndNxt ≠ wrapping.sndUna) := by
  have htallies : Tallies wrapping.toSender := ⟨by decide, by decide⟩
  rw [(acks_modulo_iff htallies rfl).2]
  decide

/-- Across the wrap an ack of 15 of the bytes in flight is not taken, nor are they seen. -/
theorem wrapped_ack_ignored :
    Tallies wrapping.toSender ∧ wrapping.state = .established ∧
      (wrapping.sndNxt - wrapping.sndUna).toNat ≤ wrapping.sbufLen.toNat ∧
      Acks wrapping.toSender 5 ∧
      (wrapping.afterAck (wrapping.ackSegment 5)).map (fun t => totals t.toSender) =
        some (4294967286, 20, 20) ∧
      wrapping.seesInFlight = false := by
  refine ⟨⟨by decide, by decide⟩, rfl, by decide, by decide, ?_, by decide⟩
  decide +kernel

end Acknowledge

end Libjingle.PseudoTcp
