import Libjingle.PseudoTcp.AckArithmetic
import Libjingle.PseudoTcp.SendLoop

/-! Every call of an endpoint as a sequence of moves: the elementary steps told apart by
what they do to the state of the connection, the retransmission timer and the
congestion window. -/

namespace Libjingle.PseudoTcp

/-- What an endpoint meets: packets, readings of the clock, advice on the packet size,
options, and the congestion window, segment size and count of duplicate acks at which
an ack is looked at. -/
structure Limits where
  arriving : Segment → Prop
  clock : UInt32 → Prop
  advice : UInt16 → Prop
  option : TcpOption → UInt32 → Prop
  acks : UInt32 → UInt32 → UInt8 → Prop

def Limits.Allows (L : Limits) : AppCall → Prop
  | .notifyMTU mtu => L.advice mtu
  | .setOption opt value => L.option opt value
  | _ => True

structure Limits.Admits (L : Limits) (env : Env) : Prop where
  now : ∀ n, L.clock (env.now n)
  react : ∀ n, ∀ c ∈ env.react n, L.Allows c

def Limits.Acking (L : Limits) : Prop := ∃ cwnd mss dupAcks, L.acks cwnd mss dupAcks

structure Tuning where
  state : TcpState
  sndWnd : UInt32
  mss : UInt32
  mtuAdvise : UInt32
  rtoBase : UInt32
  ssthresh : UInt32
  cwnd : UInt32
  dupAcks : UInt8

def tuning (s : PseudoTcp) : Tuning where
  state := s.state
  sndWnd := s.sndWnd
  mss := s.mss
  mtuAdvise := s.mtuAdvise
  rtoBase := s.rtoBase
  ssthresh := s.ssthresh
  cwnd := s.cwnd
  dupAcks := s.dupAcks

/-- Why a segment behind `pre` is transmitted in `n` bytes: it is the next of the data that
is not in flight, or the first segment while something is in flight. -/
def Due (s : PseudoTcp) (pre : List SSegment) (seg : SSegment) (n : UInt32) : Prop :=
  (seg.xmit = 0 ∧ UInt32.ofNat s.sbuf.dataLength ≠ s.sndNxt - s.sndUna ∧ (seg.len ≠ 0 → n ≠ 0)) ∨
  pre = [] ∧
    (s.rtoBase ≠ 0 ∨ s.sndUna ≠ s.sndNxt ∨ s.sndUna < s.recover ∧ s.sndUna ≤ s.sndNxt)

def halfInFlight (s : PseudoTcp) : UInt32 := max ((s.sndNxt - s.sndUna) / 2) (2 * s.mss)

inductive Move (L : Limits) : PseudoTcp → PseudoTcp → Prop
  | tune {s t : PseudoTcp} (h : t.core = s.core) (htuning : t.tuning = s.tuning)
      (hopen : t.shutdown = .none → s.shutdown = .none) : Move L s t
  | write (s : PseudoTcp) {seq : UInt32} {flags : UInt8} {offset len : UInt32}
      (h : Reads s.toSender seq flags offset len) (hmss : len ≤ s.mss) :
      Move L s { s with written := s.written ++ [s.packetCall seq flags offset len] }
  | cut (s : PseudoTcp) {pre post : List SSegment} {seg : SSegment} {n : UInt32}
      (h : s.slist = pre ++ seg :: post) (hsent : ∀ x ∈ pre, x.xmit ≠ 0) (hseg : seg.xmit = 0)
      (hn : n ≠ 0) : Move L s { s with slist := pre ++ cut seg n ++ post }
  | sent (s : PseudoTcp) {pre post : List SSegment} {seg : SSegment} {n now : UInt32}
      (h : s.slist = pre ++ seg :: post) (hsent : ∀ x ∈ pre, x.xmit ≠ 0) (hxmit : seg.xmit < 30)
      (hn : n ≤ seg.len) (hclock : L.clock now) (hdue : s.Due pre seg n) :
      Move L s { s with
        slist := pre ++ markSent seg n ++ post
        sndNxt := if seg.xmit = 0 then s.sndNxt + min n seg.len else s.sndNxt
        rtoBase := if s.rtoBase = 0 then now else s.rtoBase }
  | queueData (s : PseudoTcp) (data : List UInt8) (h : s.state = .established) :
      Move L s { (s.queue data false).2 with
        accepted := s.accepted ++ data.take (s.queue data false).1 }
  | queueConnect (s : PseudoTcp) {state : TcpState} (h : s.state = .listen)
      (hs : state = .synSent ∨ state = .synReceived) :
      Move L s { s with state := state }.queueConnectMessage
  | ack (s : PseudoTcp) {now : UInt32} {seg : Segment} (h : seg.ack > s.sndUna)
      (h' : seg.ack ≤ s.sndNxt) (hclock : L.clock now) (hacks : L.Acking) :
      Move L s (s.consumeAck now seg)
  | enter (s : PseudoTcp) (h : s.dupAcks = 3) (hacks : L.Acking) :
      Move L s { s with
        recover := s.sndNxt, ssthresh := s.halfInFlight, cwnd := s.halfInFlight + 3 * s.mss }
  | readEnd (s : PseudoTcp) (h : ReadsEnd s.toSender) : Move L s (s.noteIf true .endDeref)
  | resizeSend (s : PseudoTcp) {size : UInt32} (h : L.option .sndBuf size) :
      Move L s (s.resizeSendBuffer size)
  | resizeReceive (s : PseudoTcp) {size : UInt32}
      (h : L.option .rcvBuf size ∨ size = defaultRcvBufSize) :
      Move L s (s.resizeReceiveBuffer size)
  | read (s : PseudoTcp) {len : Nat} {data : List UInt8} {rbuf : FifoBuffer}
      (h : s.rbuf.read len = (.success, data, rbuf)) :
      Move L s { s with rbuf := rbuf, returned := s.returned ++ data }
  | openWindow (s : PseudoTcp) :
      Move L s { s with rcvWnd := UInt32.ofNat s.rbuf.getWriteRemaining }
  | store (s : PseudoTcp) (seg : Segment) (sflags : SendFlags) (h : L.arriving seg) :
      Move L s (s.store (s.fitted seg) sflags).2.2
  | close (s : PseudoTcp) : Move L s { s with state := .closed }
  | establish (s : PseudoTcp) (h : s.state = .synSent ∨ s.state = .synReceived) :
      Move L s { s with state := .established }
  | advise (s : PseudoTcp) {mtu : UInt16} (h : L.advice mtu) :
      Move L s { s with mtuAdvise := mtu.toUInt32 }
  | adjust (s : PseudoTcp) : Move L s s.adjustMTU
  | lower (s : PseudoTcp) {size : UInt32} (h : size ∈ packetMaximums) (hsize : size ≠ 0) :
      Move L s { s with
        msslevel := s.msslevel + 1
        mss := size - packetOverhead
        cwnd := 2 * (size - packetOverhead) }
  | idle (s : PseudoTcp) : Move L s { s with cwnd := s.mss }
  | window (s : PseudoTcp) (wnd : UInt32) : Move L s { s with sndWnd := wnd }
  | grow (s : PseudoTcp) (h : s.dupAcks < 3) (hacks : L.acks s.cwnd s.mss s.dupAcks) :
      Move L s { s with
        dupAcks := 0
        cwnd := if s.cwnd < s.ssthresh then s.cwnd + s.mss
          else s.cwnd + max 1 (s.mss * s.mss / s.cwnd) }
  | partialAck (s : PseudoTcp) {nAcked : UInt32} (h : s.dupAcks ≥ 3)
      (hacks : L.acks s.cwnd s.mss s.dupAcks ∨ L.Acking ∧ s.cwnd = 2 * s.mss) :
      Move L s { s with cwnd := s.cwnd + (s.mss - min nAcked s.cwnd) }
  | exit (s : PseudoTcp) (h : s.dupAcks ≥ 3) (hrecover : s.sndUna ≥ s.recover) (hacks : L.Acking) :
      Move L s { s with cwnd := min s.ssthresh (s.sndNxt - s.sndUna + s.mss), dupAcks := 0 }
  | dupAck (s : PseudoTcp) (h : s.sndUna ≠ s.sndNxt) (hacks : L.acks s.cwnd s.mss s.dupAcks) :
      Move L s { s with dupAcks := s.dupAcks + 1 }
  | inflate (s : PseudoTcp) (h : s.dupAcks > 3) (hacks : L.acks s.cwnd s.mss (s.dupAcks - 1)) :
      Move L s { s with cwnd := s.cwnd + s.mss }
  | clearDup (s : PseudoTcp) (h : s.sndUna = s.sndNxt) (hacks : L.Acking) :
      Move L s { s with dupAcks := 0 }
  | timeout (s : PseudoTcp) {now : UInt32} (h : s.rtoBase ≠ 0) (hne : s.slist ≠ [])
      (hclock : L.clock now) :
      Move L s { s with ssthresh := s.halfInFlight, cwnd := s.mss, rtoBase := now }

abbrev Moves (L : Limits) := Relation.ReflTransGen (Move L)

variable {L : Limits}

theorem Move.steps {s t : PseudoTcp} (h : Move L s t) : Steps L.arriving s t := by
  cases h with
  | tune h htuning hopen =>
    have hstate : t.state = s.state := congrArg Tuning.state htuning
    exact .tune h (fun hl => hstate ▸ hl) hopen
  | write h => exact .single (.write s h)
  | cut h hsent hseg => exact .single (.cut s _ h hsent hseg)
  | sent h hsent hxmit hn =>
    exact .head (.sent s _ h hsent hxmit hn) (Steps.tune rfl id id)
  | queueData data h => exact .single (.queueData s data h)
  | queueConnect h hs =>
    refine .single (.queueConnect s h ?_)
    rcases hs with rfl | rfl <;> decide
  | ack h h' => exact .single (.ack s _ _ h h')
  | enter => exact .head (.setRecover s) (Steps.tune rfl id id)
  | readEnd h => exact .single (.readEnd s h)
  | resizeSend => exact .single (.resizeSend s _)
  | resizeReceive => exact .single (.resizeReceive s _)
  | read h => exact .single (.read s h)
  | openWindow => exact .single (.openWindow s)
  | store seg sflags h => exact .single (.store s seg sflags h)
  | close => exact .tune rfl (by simp) id
  | establish => exact .tune rfl (by simp) id
  | _ => exact .tune rfl id id

theorem Moves.steps {s t : PseudoTcp} (h : Moves L s t) : Steps L.arriving s t := by
  induction h with
  | refl => exact .refl
  | tail _ hlast ih => exact ih.trans hlast.steps

theorem Step.env {arriving : Segment → Prop} {s t : PseudoTcp} (h : Step arriving s t) :
    t.env = s.env := by
  cases h with
  | tune h => exact congrArg Core.env h
  | store seg sflags =>
    obtain ⟨hcore, -⟩ := store_frame s (s.fitted seg) sflags
    exact congrArg Core.env hcore
  | _ => rfl

theorem Moves.env {s t : PseudoTcp} (h : Moves L s t) : t.env = s.env := by
  have hsteps := h.steps
  clear h
  induction hsteps with
  | refl => rfl
  | tail _ hlast ih => exact hlast.env.trans ih

theorem Moves.admits {s t : PseudoTcp} (h : Moves L s t) (hadmits : L.Admits s.env) :
    L.Admits t.env := by
  rw [h.env]
  exact hadmits

theorem store_tuning (s : PseudoTcp) (seg : Segment) (sflags : SendFlags) :
    (s.store seg sflags).2.2.tuning = s.tuning := by
  simp only [store]
  split
  · rfl
  · split
    · split <;> rfl
    · split <;> rfl

theorem Moves.tune {s t : PseudoTcp} (h : t.core = s.core) (htuning : t.tuning = s.tuning)
    (hopen : t.shutdown = .none → s.shutdown = .none) : Moves L s t :=
  .single (.tune h htuning hopen)

section Output

theorem packet_tuning (s : PseudoTcp) (seq : UInt32) (flags : UInt8) (offset len : UInt32) :
    (s.packet seq flags offset len).2.tuning = s.tuning := by
  simp only [packet]
  split <;> rfl

theorem packet_moves (s : PseudoTcp) {seq : UInt32} {flags : UInt8} {offset len : UInt32}
    (h : Reads s.toSender seq flags offset len) (hmss : len ≤ s.mss) :
    Moves L s (s.packet seq flags offset len).2 := by
  obtain ⟨hcore, -, hopen⟩ := packet_core s seq flags offset len
  refine (Relation.ReflTransGen.single (.write s h hmss)).trans (Moves.tune hcore ?_ ?_)
  · exact packet_tuning s seq flags offset len
  · exact fun hl => hopen ▸ hl

/-- Sending changes at most the segment size, and the congestion window with it. -/
structure Shrunk (s t : PseudoTcp) : Prop where
  tuning : t.tuning = { s.tuning with mss := t.mss, cwnd := t.cwnd }
  sizes : t.mss = s.mss ∧ t.cwnd = s.cwnd ∨ t.cwnd = 2 * t.mss

theorem Shrunk.of_tuning {s t : PseudoTcp} (h : t.tuning = s.tuning) : Shrunk s t := by
  have hmss : t.mss = s.mss := congrArg Tuning.mss h
  have hcwnd : t.cwnd = s.cwnd := congrArg Tuning.cwnd h
  refine ⟨?_, .inl ⟨hmss, hcwnd⟩⟩
  rw [h, hmss, hcwnd]
  rfl

theorem Shrunk.trans {s t u : PseudoTcp} (h : Shrunk s t) (h' : Shrunk t u) : Shrunk s u := by
  refine ⟨?_, ?_⟩
  · rw [h'.tuning, h.tuning]
  · rcases h'.sizes with ⟨hmss, hcwnd⟩ | hcwnd
    · rw [hmss, hcwnd]
      exact h.sizes
    · exact .inr hcwnd

theorem shrink_moves {seq : UInt32} {flags : UInt8} {offset : UInt32} {sizes : List UInt32}
    (hsizes : sizes ⊆ packetMaximums) {n : UInt32} {s : PseudoTcp}
    (h : Reads s.toSender seq flags offset n) :
    Moves L s (shrink seq flags offset sizes n s).2 ∧
      Shrunk s (shrink seq flags offset sizes n s).2 := by
  induction sizes generalizing n s with
  | nil => exact ⟨.refl, .of_tuning rfl⟩
  | cons size smaller ih =>
    obtain ⟨hsize, hsmaller⟩ := List.cons_subset.mp hsizes
    simp only [shrink]
    by_cases hzero : size = 0
    · rw [if_pos hzero]
      exact ⟨.refl, .of_tuning rfl⟩
    · rw [if_neg hzero]
      let s' : PseudoTcp := { s with
        msslevel := s.msslevel + 1, mss := size - packetOverhead, cwnd := 2 * (size - packetOverhead) }
      have hlower : Move L s s' := .lower s hsize hzero
      have hshrunk : Shrunk s s' := ⟨rfl, .inr rfl⟩
      by_cases hlt : size - packetOverhead < n
      · rw [if_pos hlt]
        have hr : Reads s'.toSender seq flags offset (size - packetOverhead) :=
          h.mono (UInt32.le_of_lt hlt)
        have hp : Moves L s' _ := packet_moves s' hr (UInt32.le_refl _)
        have hs := packet_sender s' seq flags offset (size - packetOverhead)
        have htuning := packet_tuning s' seq flags offset (size - packetOverhead)
        split <;> rename_i t ht <;> rw [ht] at hp hs htuning
        · exact ⟨.head hlower hp, hshrunk.trans (.of_tuning htuning)⟩
        · exact ⟨.head hlower hp, hshrunk.trans (.of_tuning htuning)⟩
        · obtain ⟨hmoves, hrest⟩ := ih hsmaller (n := size - packetOverhead) (s := t) (by rwa [hs])
          exact ⟨.head hlower (hp.trans hmoves), (hshrunk.trans (.of_tuning htuning)).trans hrest⟩
      · rw [if_neg hlt]
        obtain ⟨hmoves, hrest⟩ := ih hsmaller (n := n) (s := s') h
        exact ⟨.head hlower hmoves, hshrunk.trans hrest⟩

theorem sendSegment_moves {s : PseudoTcp} {seg : SSegment} (h : seg ∈ s.slist) :
    Moves L s (s.sendSegment seg).2 ∧ Shrunk s (s.sendSegment seg).2 := by
  have hmin : min seg.len s.mss ≤ seg.len := by
    rw [UInt32.le_iff_toNat_le, UInt32.toNat_min]
    exact Nat.min_le_left _ _
  have hmss : min seg.len s.mss ≤ s.mss := by
    rw [UInt32.le_iff_toNat_le, UInt32.toNat_min]
    exact Nat.min_le_right _ _
  have hr : Reads s.toSender seg.seq (if seg.bCtrl then flagCtl else 0) (seg.seq - s.sndUna)
      (min seg.len s.mss) := .inr ⟨seg, h, rfl, rfl, rfl, hmin⟩
  have hp : Moves L s _ := packet_moves s hr hmss
  have hs := packet_sender s seg.seq (if seg.bCtrl then flagCtl else 0) (seg.seq - s.sndUna)
    (min seg.len s.mss)
  have htuning := packet_tuning s seg.seq (if seg.bCtrl then flagCtl else 0) (seg.seq - s.sndUna)
    (min seg.len s.mss)
  simp only [sendSegment]
  split <;> rename_i t ht <;> rw [ht] at hp hs htuning
  · exact ⟨hp, .of_tuning htuning⟩
  · exact ⟨hp, .of_tuning htuning⟩
  · have hrt : Reads t.toSender seg.seq (if seg.bCtrl then flagCtl else 0) (seg.seq - s.sndUna)
        (min seg.len s.mss) := by rwa [hs]
    obtain ⟨hmoves, hrest⟩ : Moves L t _ ∧ _ :=
      shrink_moves (List.drop_subset (t.msslevel + 1) packetMaximums) hrt
    exact ⟨hp.trans hmoves, (Shrunk.of_tuning htuning).trans hrest⟩

/-- What `transmit` leaves of the fields beside the core. -/
structure Transmitted (s t : PseudoTcp) : Prop where
  dupAcks : t.dupAcks = s.dupAcks
  sizes : t.mss = s.mss ∧ t.cwnd = s.cwnd ∨ t.cwnd = 2 * t.mss
  rtoBase : s.rtoBase ≠ 0 → t.rtoBase ≠ 0
  slist : s.slist ≠ [] → t.slist ≠ []

theorem cut_ne_nil (seg : SSegment) (n : UInt32) : cut seg n ≠ [] := by
  obtain ⟨first, rest, hcut⟩ := cut_eq_cons seg n
  simp [hcut]

theorem markSent_ne_nil (seg : SSegment) (n : UInt32) : markSent seg n ≠ [] := by
  obtain ⟨first, rest, hcut⟩ := cut_eq_cons seg n
  simp [markSent, hcut]

theorem transmit_moves {s : PseudoTcp} {i : Nat} {seg : SSegment} {now : UInt32}
    (h : s.slist[i]? = some seg) (hsent : ∀ x ∈ s.slist.take i, x.xmit ≠ 0) (hclock : L.clock now)
    (hdue : s.Due (s.slist.take i) seg s.mss) : Moves L s (s.transmit i now).2 ∧ Transmitted s (s.transmit i now).2 := by
  have hmem := List.mem_of_getElem? h
  have hne : s.slist ≠ [] := List.ne_nil_of_mem hmem
  obtain ⟨hmoves, hshrunk⟩ : Moves L s _ ∧ _ := sendSegment_moves hmem
  obtain ⟨-, hsender, hle⟩ : Steps (fun _ => True) s _ ∧ _ := sendSegment_steps hmem
  have hpos : s.mss ≠ 0 → seg.len ≠ 0 → ∀ k, (s.sendSegment seg).1 = some k → k ≠ 0 :=
    fun hmss hlen => sendSegment_pos hmss hlen
  simp only [transmit, h]
  by_cases hxmit : seg.xmit ≥ if s.state = .established then 15 else 30
  · rw [if_pos hxmit]
    exact ⟨.refl, rfl, .inl ⟨rfl, rfl⟩, id, id⟩
  · have hlt : seg.xmit < 30 := by
      split at hxmit
      · exact UInt8.lt_trans (UInt8.not_le.mp hxmit) (by decide)
      · exact UInt8.not_le.mp hxmit
    rw [if_neg hxmit]
    split <;> rename_i t ht <;> rw [ht] at hmoves hshrunk hsender hle hpos
    · have hlist : t.slist = s.slist := congrArg Sender.slist hsender
      exact ⟨hmoves, congrArg Tuning.dupAcks hshrunk.tuning, hshrunk.sizes,
        fun hr => (congrArg Tuning.rtoBase hshrunk.tuning).trans_ne hr, fun _ => hlist ▸ hne⟩
    · rename_i n
      obtain ⟨hlist, hsplice⟩ := splice_eq h (markSent seg n)
      have hslist : t.slist = s.slist := congrArg Sender.slist hsender
      have hrto : t.rtoBase = s.rtoBase := congrArg Tuning.rtoBase hshrunk.tuning
      have hdue' : t.Due (s.slist.take i) seg n := by
        rw [Due, hrto, hsender]
        refine hdue.imp_left fun hnew => ⟨hnew.1, hnew.2.1, fun hlen => ?_⟩
        exact hpos (hnew.2.2 hlen) hlen n rfl
      rw [hslist, hsplice]
      have hstep : Move L t _ :=
        .sent t (hslist.trans hlist) hsent hlt (hle n rfl) hclock hdue'
      refine ⟨hmoves.trans (.head hstep .refl), congrArg Tuning.dupAcks hshrunk.tuning, hshrunk.sizes,
        fun hr => ?_, fun _ => ?_⟩
      · dsimp only
        rw [hrto, if_neg hr]
        exact hr
      · simp [markSent_ne_nil]

theorem sendAck_moves (s : PseudoTcp) (sflags : SendFlags) : Moves L s (s.sendAck sflags) := by
  simp only [sendAck]
  split
  · exact .refl
  · split
    · exact packet_moves s (.inl rfl) UInt32.zero_le
    · exact .tune rfl rfl id

theorem sendLoop_moves {now : UInt32} (hclock : L.clock now) (fuel : Nat) (sflags : SendFlags)
    (s : PseudoTcp) : Moves L s (sendLoop now fuel sflags s) := by
  induction fuel generalizing sflags s with
  | zero => exact .refl
  | succ fuel ih =>
    simp only [sendLoop]
    split
    · exact sendAck_moves s sflags
    · rename_i havail
      split
      · exact .refl
      · split
        · rename_i hnone
          have hall : ∀ seg ∈ s.slist, seg.xmit ≠ 0 := by
            simpa [List.findIdx?_eq_none_iff] using hnone
          exact .single (.readEnd s (.inr ⟨hall, buffered_ne_of_available_ne havail⟩))
        · rename_i i hsome
          obtain ⟨pre, seg, post, hlist, rfl, hsent, hxmit, hsplice⟩ := round_cut hsome s.available
          have hcut : Move L s _ := .cut s hlist hsent hxmit havail
          obtain ⟨first, rest, hfirst⟩ := cut_eq_cons seg s.available
          have hfirstXmit : first.xmit = 0 :=
            (cut_xmit (by rw [hfirst]; exact List.mem_cons_self)).trans hxmit
          rw [hsplice]
          rw [hfirst] at hcut ⊢
          let t : PseudoTcp := { s with slist := pre ++ first :: rest ++ post }
          have hmid : t.slist[pre.length]? = some first := by simp [t]
          have hpre : ∀ x ∈ t.slist.take pre.length, x.xmit ≠ 0 := by simpa [t] using hsent
          have hdue : t.Due (t.slist.take pre.length) first t.mss :=
            .inl ⟨hfirstXmit, buffered_ne_of_available_ne havail, fun _ => mss_ne_of_available havail⟩
          obtain ⟨htrans, -⟩ : Moves L t _ ∧ _ := transmit_moves hmid hpre hclock hdue
          split <;> rename_i u hu <;> rw [hu] at htrans
          · exact .head hcut htrans
          · exact .head hcut (htrans.trans (ih .none u))

theorem attemptSend_moves (s : PseudoTcp) (sflags : SendFlags) (hadmits : L.Admits s.env) :
    Moves L s (s.attemptSend sflags) := by
  have htune : Moves L s { s with ticks := s.ticks + 1 } := .tune rfl rfl id
  have hidle : Move L { s with ticks := s.ticks + 1 } { s with ticks := s.ticks + 1, cwnd := s.mss } :=
    .idle _
  simp only [attemptSend]
  split
  · exact htune.trans (.head hidle (sendLoop_moves (hadmits.now _) _ _ _))
  · exact htune.trans (sendLoop_moves (hadmits.now _) _ _ _)

/-- Retransmission of the first segment, when something is in flight or the absence of a
segment would be noticed. -/
theorem transmit_first_moves {s : PseudoTcp} {now : UInt32} (hclock : L.clock now)
    (hdue : s.rtoBase ≠ 0 ∧ s.slist ≠ [] ∨ s.sndUna ≠ s.sndNxt ∨
      s.sndUna < s.recover ∧ s.sndUna ≤ s.sndNxt) :
    Moves L s (s.transmit 0 now).2 ∧ Transmitted s (s.transmit 0 now).2 := by
  cases hlist : s.slist with
  | nil =>
    have hnone : s.slist[0]? = none := by simp [hlist]
    have hend : ReadsEnd s.toSender := .inl ⟨hlist, hdue.resolve_left fun h => h.2 hlist⟩
    simp only [transmit, hnone]
    exact ⟨.single (.readEnd s hend), rfl, .inl ⟨rfl, rfl⟩, id, id⟩
  | cons seg rest =>
    have hsome : s.slist[0]? = some seg := by simp [hlist]
    exact transmit_moves hsome (by simp) hclock (.inr ⟨rfl, hdue.imp_left And.left⟩)

end Output

section Input

theorem recv_moves {s : PseudoTcp} (hadmits : L.Admits s.env) (len : Nat) :
    Moves L s (s.recv len) := by
  simp only [recv]
  split
  · exact .tune rfl rfl id
  · split
    · rename_i data rbuf hread
      have hstep : Move L s _ := .read s hread
      let t : PseudoTcp := { s with rbuf := rbuf, returned := s.returned ++ data }
      have hopen : Move L t _ := .openWindow t
      split
      · split
        · exact .head hstep (.head hopen (attemptSend_moves _ _ hadmits))
        · exact .head hstep (.single hopen)
      · exact .single hstep
    · exact .tune rfl rfl id

theorem send_moves {s : PseudoTcp} (hadmits : L.Admits s.env) (data : List UInt8) :
    Moves L s (s.send data) := by
  simp only [send]
  split
  · exact .tune rfl rfl id
  · rename_i hstate
    split
    · exact .tune rfl rfl id
    · have hstep : Move L s _ := .queueData s data (not_not.mp hstate)
      exact .head hstep (attemptSend_moves _ _ hadmits)

theorem connect_moves {s : PseudoTcp} (hadmits : L.Admits s.env) : Moves L s s.connect := by
  simp only [connect]
  split
  · exact .tune rfl rfl id
  · rename_i hlisten
    have hstep : Move L s _ := .queueConnect s (not_not.mp hlisten) (.inl rfl)
    exact .head hstep (attemptSend_moves _ _ hadmits)

theorem app_moves {s : PseudoTcp} (hadmits : L.Admits s.env) {c : AppCall} (hc : L.Allows c) :
    Moves L s (s.app c) := by
  cases c with
  | connect => exact connect_moves hadmits
  | send data => exact send_moves hadmits data
  | recv len => exact recv_moves hadmits len
  | close force =>
    refine .tune rfl rfl fun h => ?_
    simp only [app, close] at h
    split at h <;> cases h
  | notifyMTU mtu =>
    have hadvise : Move L s _ := .advise s hc
    simp only [app, notifyMTU]
    split
    · exact .head hadvise (.single (.adjust _))
    · exact .single hadvise
  | setOption opt value =>
    cases opt with
    | noDelay => exact .tune rfl rfl id
    | ackDelay => exact .tune rfl rfl id
    | sndBuf => exact .single (.resizeSend s hc)
    | rcvBuf => exact .single (.resizeReceive s (.inl hc))

theorem notify_moves (s : PseudoTcp) (n : Notification) (hadmits : L.Admits s.env) :
    Moves L s (s.notify n) := by
  have htune : Moves L s { s with notified := s.notified ++ [n] } := .tune rfl rfl id
  have hcalls : ∀ (calls : List AppCall) (t : PseudoTcp), L.Admits t.env →
      (∀ c ∈ calls, L.Allows c) → Moves L t (calls.foldl app t) := by
    intro calls
    induction calls with
    | nil => exact fun _ _ _ => .refl
    | cons c rest ih =>
      intro t ht hall
      have hfirst : Moves L t (t.app c) := app_moves ht (hall c List.mem_cons_self)
      have ht' : L.Admits (t.app c).env := Moves.admits hfirst ht
      exact hfirst.trans (ih (t.app c) ht' fun d hd => hall d (List.mem_cons_of_mem _ hd))
  exact htune.trans (hcalls _ _ hadmits (hadmits.react _))

theorem closedown_moves (s : PseudoTcp) (err : Errno) (hadmits : L.Admits s.env) :
    Moves L s (s.closedown err) := by
  have hclose : Move L s { s with state := .closed } := .close s
  exact .head hclose (notify_moves _ _ hadmits)

theorem established_moves (s : PseudoTcp) (hadmits : L.Admits s.env)
    (h : s.state = .synSent ∨ s.state = .synReceived) :
    Moves L s (({ s with state := .established }.adjustMTU).notify .opened) := by
  have hestablish : Move L s { s with state := .established } := .establish s h
  have hadjust : Move L { s with state := .established } _ := .adjust _
  exact .head hestablish (.head hadjust (notify_moves _ _ hadmits))

theorem parseOptionList_tuning (fuel : Nat) (data kinds : List UInt8) (s : PseudoTcp) :
    (parseOptionList fuel data kinds s).2.tuning = s.tuning := by
  induction fuel generalizing data kinds s with
  | zero => rfl
  | succ fuel ih =>
    cases data with
    | nil => rfl
    | cons kind rest =>
      have happly : ∀ bytes, (s.applyOption kind bytes).tuning = s.tuning := by
        intro bytes
        simp only [applyOption]
        split
        · split <;> rfl
        · rfl
      simp only [parseOptionList]
      split
      · rfl
      · split
        · exact ih _ _ _
        · split
          · exact (ih _ _ _).trans (happly _)
          · rfl

theorem parseOptions_moves (s : PseudoTcp) (data : List UInt8) : Moves L s (s.parseOptions data) := by
  obtain ⟨hcore, -, hopen⟩ := parseOptionList_core data.length data [] s
  have htune : Moves L s (s.parseOptionList data.length data []).2 :=
    .tune hcore (parseOptionList_tuning _ _ _ s) fun h => hopen ▸ h
  simp only [parseOptions]
  split <;> rename_i t ht <;> rw [ht] at htune
  · exact htune
  · split
    · have hresize : Move L t (t.resizeReceiveBuffer defaultRcvBufSize) :=
        .resizeReceive t (.inr rfl)
      exact htune.trans (.head hresize (Moves.tune rfl rfl id))
    · exact htune

theorem control_moves {s : PseudoTcp} (hadmits : L.Admits s.env) (seg : Segment) :
    Moves L s (s.control seg).2 := by
  have hoptions : Moves L s _ := parseOptions_moves s (seg.bytes.drop 1)
  have hadmits' : L.Admits (s.parseOptions (seg.bytes.drop 1)).env := Moves.admits hoptions hadmits
  simp only [control]
  split
  · exact .refl
  · split
    · exact .refl
    · split
      · split
        · rename_i hlisten
          have hqueue : Move L (s.parseOptions (seg.bytes.drop 1)) _ :=
            .queueConnect _ hlisten (.inr rfl)
          exact hoptions.trans (.single hqueue)
        · rename_i hsynSent
          exact hoptions.trans (established_moves _ hadmits' (.inl hsynSent))
        · exact hoptions
      · exact .refl

theorem updateRtt_tuning (s : PseudoTcp) (now tsecr : UInt32) :
    (s.updateRtt now tsecr).tuning = s.tuning := by
  simp only [updateRtt]
  split
  · rfl
  · split <;> rfl

theorem recover_moves {s : PseudoTcp} (hadmits : L.Admits s.env) {now : UInt32} (nAcked : UInt32)
    (hclock : L.clock now) (hacks : L.acks s.cwnd s.mss s.dupAcks) (hle : s.sndUna ≤ s.sndNxt) :
    Moves L s (if s.dupAcks ≥ 3 then
      if s.sndUna ≥ s.recover then
        (true, { s with cwnd := min s.ssthresh (s.sndNxt - s.sndUna + s.mss), dupAcks := 0 })
      else
        match s.transmit 0 now with
        | (false, s) => (false, s.closedown .econnaborted)
        | (true, s) => (true, { s with cwnd := s.cwnd + (s.mss - min nAcked s.cwnd) })
    else
      (true, { s with
        dupAcks := 0
        cwnd := if s.cwnd < s.ssthresh then s.cwnd + s.mss
          else s.cwnd + max 1 (s.mss * s.mss / s.cwnd) })).2 := by
  split
  · rename_i hdup
    split
    · rename_i hrecover
      exact .single (.exit s hdup hrecover ⟨_, _, _, hacks⟩)
    · rename_i hrecover
      obtain ⟨htrans, hsent⟩ : Moves L s _ ∧ _ :=
        transmit_first_moves hclock (.inr (.inr ⟨UInt32.not_le.mp hrecover, hle⟩))
      split <;> rename_i u hu <;> rw [hu] at htrans hsent
      · exact htrans.trans (closedown_moves _ _ (Moves.admits htrans hadmits))
      · have hpartial : Move L u { u with cwnd := u.cwnd + (u.mss - min nAcked u.cwnd) } := .partialAck u
          (by rw [hsent.dupAcks]; exact hdup) (by
            rcases hsent.sizes with ⟨hmss, hcwnd⟩ | hcwnd
            · rw [hmss, hcwnd, hsent.dupAcks]
              exact .inl hacks
            · exact .inr ⟨⟨_, _, _, hacks⟩, hcwnd⟩)
        exact htrans.trans (.single hpartial)
  · rename_i hdup
    exact .single (.grow s (UInt8.not_le.mp hdup) hacks)

theorem duplicate_moves {s : PseudoTcp} (hadmits : L.Admits s.env) {now : UInt32}
    (hclock : L.clock now) (hacks : L.acks s.cwnd s.mss (s.dupAcks - 1))
    (hflight : s.sndUna ≠ s.sndNxt) :
    Moves L s (if s.dupAcks = 3 then
      match s.transmit 0 now with
      | (false, s) => (false, s.closedown .econnaborted)
      | (true, s) =>
        let ssthresh := max ((s.sndNxt - s.sndUna) / 2) (2 * s.mss)
        (true, { s with
          recover := s.sndNxt
          ssthresh := ssthresh
          cwnd := ssthresh + 3 * s.mss })
    else if s.dupAcks > 3 then (true, { s with cwnd := s.cwnd + s.mss })
    else (true, s)).2 := by
  split
  · rename_i hthree
    obtain ⟨htrans, hsent⟩ : Moves L s _ ∧ _ := transmit_first_moves hclock (.inr (.inl hflight))
    split <;> rename_i u hu <;> rw [hu] at htrans hsent
    · exact htrans.trans (closedown_moves _ _ (Moves.admits htrans hadmits))
    · have henter : Move L u _ := .enter u (hsent.dupAcks.trans hthree) ⟨_, _, _, hacks⟩
      exact htrans.trans (.single henter)
  · split
    · rename_i hmore
      exact .single (.inflate s hmore hacks)
    · exact .refl

theorem acknowledge_moves {s : PseudoTcp} (hadmits : L.Admits s.env) {now : UInt32} (seg : Segment)
    (hclock : L.clock now) (hacks : L.acks s.cwnd s.mss s.dupAcks) :
    Moves L s (s.acknowledge now seg).2 := by
  simp only [acknowledge]
  split
  · rename_i hack
    obtain ⟨hcore, -, hopen⟩ := updateRtt_core s now seg.tsecr
    have htuning := updateRtt_tuning s now seg.tsecr
    have htune : Moves L s (s.updateRtt now seg.tsecr) := .tune hcore htuning fun h => hopen ▸ h
    have hsender : (s.updateRtt now seg.tsecr).toSender = s.toSender := congrArg Core.sender hcore
    have hack' : seg.ack > (s.updateRtt now seg.tsecr).sndUna ∧
        seg.ack ≤ (s.updateRtt now seg.tsecr).sndNxt := by
      rw [hsender]
      exact hack
    have hconsume : Move L (s.updateRtt now seg.tsecr) _ :=
      .ack _ hack'.1 hack'.2 hclock ⟨_, _, _, hacks⟩
    have hto : Moves L s _ := htune.trans (.single hconsume)
    refine hto.trans (recover_moves (Moves.admits hto hadmits) _ hclock ?_ hack'.2)
    have hcwnd : (s.updateRtt now seg.tsecr).cwnd = s.cwnd := congrArg Tuning.cwnd htuning
    have hmss : (s.updateRtt now seg.tsecr).mss = s.mss := congrArg Tuning.mss htuning
    have hdup : (s.updateRtt now seg.tsecr).dupAcks = s.dupAcks := congrArg Tuning.dupAcks htuning
    change L.acks (s.updateRtt now seg.tsecr).cwnd (s.updateRtt now seg.tsecr).mss
      (s.updateRtt now seg.tsecr).dupAcks
    rw [hcwnd, hmss, hdup]
    exact hacks
  · split
    · let t : PseudoTcp := { s with sndWnd := seg.wnd.toUInt32 <<< s.swndScale.toUInt32 }
      have hwindow : Move L s t := .window s _
      split
      · exact .single hwindow
      · split
        · rename_i hflight
          have hcount : Move L t { t with dupAcks := t.dupAcks + 1 } := .dupAck t hflight hacks
          refine .head hwindow (.head hcount ?_)
          refine duplicate_moves (s := { t with dupAcks := t.dupAcks + 1 }) hadmits hclock ?_ hflight
          change L.acks s.cwnd s.mss (s.dupAcks + 1 - 1)
          rw [UInt8.add_sub_cancel]
          exact hacks
        · rename_i hflight
          exact .head hwindow (.single (.clearDup t (not_not.mp hflight) ⟨_, _, _, hacks⟩))
    · exact .refl

theorem finishOpen_moves {s : PseudoTcp} (hadmits : L.Admits s.env) (bConnect : Bool) :
    Moves L s (s.finishOpen bConnect) := by
  simp only [finishOpen]
  split
  · rename_i hopen
    exact established_moves s hadmits (.inr hopen.1)
  · exact .refl

theorem notifyWriteable_moves {s : PseudoTcp} (hadmits : L.Admits s.env) :
    Moves L s s.notifyWriteable := by
  have htune : Moves L s { s with bWriteEnable := false } := .tune rfl rfl id
  simp only [notifyWriteable]
  split
  · exact htune.trans (notify_moves _ _ hadmits)
  · exact .refl

theorem notifyReadable_moves {s : PseudoTcp} (hadmits : L.Admits s.env) (bNewData : Bool) :
    Moves L s (s.notifyReadable bNewData) := by
  have htune : Moves L s { s with bReadEnable := false } := .tune rfl rfl id
  simp only [notifyReadable]
  split
  · exact htune.trans (notify_moves _ _ hadmits)
  · exact .refl

theorem receive_moves {s : PseudoTcp} (hadmits : L.Admits s.env) {seg : Segment}
    (h : L.arriving seg) : Moves L s (s.receive seg) := by
  have hstore : Moves L s _ := .single (.store s seg (s.ackFlags seg) h)
  have hadmits' := Moves.admits hstore hadmits
  have hsend := attemptSend_moves _ (s.store (s.fitted seg) (s.ackFlags seg)).2.1 hadmits'
  have hread := notifyReadable_moves (Moves.admits hsend hadmits')
    (s.store (s.fitted seg) (s.ackFlags seg)).1
  exact hstore.trans (hsend.trans hread)

theorem finish_moves {s : PseudoTcp} (hadmits : L.Admits s.env) (bConnect : Bool) {seg : Segment}
    (h : L.arriving seg) :
    Moves L s (((s.finishOpen bConnect).notifyWriteable).receive seg) := by
  have hopen := finishOpen_moves hadmits bConnect
  have hopenAdmits : L.Admits (s.finishOpen bConnect).env := Moves.admits hopen hadmits
  have hwrite := notifyWriteable_moves hopenAdmits
  exact hopen.trans (hwrite.trans (receive_moves (Moves.admits hwrite hopenAdmits) h))

theorem updateTimestamp_moves (s : PseudoTcp) (seg : Segment) :
    Moves L s (s.updateTimestamp seg) := by
  simp only [updateTimestamp]
  split
  · exact .tune rfl rfl id
  · exact .refl

theorem processSegment_moves (s : PseudoTcp) (hadmits : L.Admits s.env) {now : UInt32}
    {seg : Segment} (h : L.arriving seg) (hclock : L.clock now)
    (hacks : s.state ≠ .closed → seg.flags &&& flagRst = 0 →
      ∀ bConnect t, s.control seg = (some bConnect, t) →
        L.acks (t.updateTimestamp seg).cwnd (t.updateTimestamp seg).mss
          (t.updateTimestamp seg).dupAcks) :
    Moves L s (s.processSegment now seg).2 := by
  simp only [processSegment]
  split
  · exact .refl
  · rename_i hopen
    split
    · exact closedown_moves s .econnreset hadmits
    · rename_i hreset
      have hcontrol : Moves L s _ := control_moves hadmits seg
      split <;> rename_i u hu <;> rw [hu] at hcontrol
      · exact hcontrol
      · rename_i bConnect
        have hto : Moves L s (u.updateTimestamp seg) :=
          hcontrol.trans (updateTimestamp_moves u seg)
        have hack : Moves L (u.updateTimestamp seg) _ :=
          acknowledge_moves (Moves.admits hto hadmits) seg hclock
            (hacks hopen (not_not.mp hreset) bConnect u hu)
        split <;> rename_i v hv <;> rw [hv] at hack
        · exact hto.trans hack
        · have hdone : Moves L s v := hto.trans hack
          exact hdone.trans (finish_moves (Moves.admits hdone hadmits) bConnect h)

theorem noteReceived_moves (s : PseudoTcp) : Moves L s s.noteReceived := .tune rfl rfl id

theorem atAck_moves {s t : PseudoTcp} (hadmits : L.Admits s.env) {seg : Segment}
    (h : s.atAck seg = some t) : Moves L s t := by
  simp only [atAck] at h
  split at h
  · cases h
  · have hcontrol : Moves L s.noteReceived _ := control_moves (s := s.noteReceived) hadmits seg
    split at h <;> rename_i u hu <;> rw [hu] at hcontrol
    · cases h
    · obtain rfl := Option.some.inj h
      exact (noteReceived_moves s).trans (hcontrol.trans (updateTimestamp_moves u seg))

theorem process_moves {s : PseudoTcp} (hadmits : L.Admits s.env) {seg : Segment}
    (h : L.arriving seg)
    (hacks : ∀ t, s.atAck seg = some t → L.acks t.cwnd t.mss t.dupAcks) :
    Moves L s (s.process seg).2 := by
  simp only [process]
  split
  · exact .refl
  · rename_i hconv
    refine (noteReceived_moves s).trans (processSegment_moves s.noteReceived hadmits h
      (hadmits.now _) fun hopen hreset bConnect t ht => ?_)
    have hopen' : s.state ≠ .closed := hopen
    apply hacks
    rw [atAck, if_neg (by simp [not_not.mp hconv, hopen', hreset]), ht]

theorem notifyPacket_moves {s : PseudoTcp} (hadmits : L.Admits s.env) {buffer : List UInt8}
    {beyond : Nat → UInt8} (h : buffer.length ≤ maxPacket.toNat →
      ¬ UInt32.ofNat buffer.length < 12 →
      L.arriving (parseSegment (memory buffer beyond) (UInt32.ofNat buffer.length)))
    (hacks : ∀ t, s.atAck (parseSegment (memory buffer beyond) (UInt32.ofNat buffer.length)) = some t →
        L.acks t.cwnd t.mss t.dupAcks) :
    Moves L s (s.notifyPacket buffer beyond).2 := by
  simp only [notifyPacket, parse]
  split
  · exact .refl
  · rename_i hlen
    split
    · exact .refl
    · rename_i hsize
      exact process_moves hadmits (h (Nat.not_lt.mp hlen) hsize) hacks

theorem notifyClock_moves {s : PseudoTcp} (hadmits : L.Admits s.env) {now : UInt32}
    (hclock : L.clock now) : Moves L s (s.notifyClock now) := by
  have hretransmit : Moves L s (s.retransmit now).2 := by
    simp only [retransmit]
    split
    · rename_i hdue
      split
      · exact .refl
      · rename_i hne
        obtain ⟨htrans, hsent⟩ : Moves L s _ ∧ _ :=
          transmit_first_moves hclock (.inl ⟨hdue.1, hne⟩)
        split <;> rename_i u hu <;> rw [hu] at htrans hsent
        · exact htrans.trans (closedown_moves _ _ (Moves.admits htrans hadmits))
        · have htimeout : Move L u _ :=
            .timeout u (hsent.rtoBase hdue.1) (hsent.slist hne) hclock
          exact htrans.trans (.head htimeout (Moves.tune rfl rfl id))
    · exact .refl
  have hprobe : ∀ t : PseudoTcp, L.Admits t.env → Moves L t (t.probeWindow now).2 := by
    intro t ht
    simp only [probeWindow]
    split
    · split
      · exact closedown_moves _ _ ht
      · exact .trans (packet_moves t (.inl rfl) UInt32.zero_le) (Moves.tune rfl rfl id)
    · exact .refl
  simp only [notifyClock]
  split
  · exact .refl
  · split <;> rename_i t ht <;> rw [ht] at hretransmit
    · exact hretransmit
    · have hp := hprobe t (Moves.admits hretransmit hadmits)
      split <;> rename_i u hu <;> rw [hu] at hp
      · exact hretransmit.trans hp
      · split
        · exact hretransmit.trans (hp.trans (packet_moves u (.inl rfl) UInt32.zero_le))
        · exact hretransmit.trans hp

end Input

def Limits.AllowsCall (L : Limits) (s : PseudoTcp) : Call → Prop
  | .app c => L.Allows c
  | .notifyPacket buffer beyond =>
    let seg := parseSegment (memory buffer beyond) (UInt32.ofNat buffer.length)
    (buffer.length ≤ maxPacket.toNat → ¬ UInt32.ofNat buffer.length < 12 → L.arriving seg) ∧
    ∀ t, s.atAck seg = some t → L.acks t.cwnd t.mss t.dupAcks
  | .notifyClock now => L.clock now

theorem call_moves {s : PseudoTcp} (hadmits : L.Admits s.env) {c : Call} (h : L.AllowsCall s c) :
    Moves L s (s.call c) := by
  cases c with
  | app c => exact app_moves hadmits h
  | notifyPacket buffer beyond => exact notifyPacket_moves hadmits h.1 h.2
  | notifyClock now => exact notifyClock_moves hadmits h

theorem run_moves {s : PseudoTcp} (hadmits : L.Admits s.env) {calls : List Call}
    (h : Runs.Along call L.AllowsCall s calls) : Moves L s (s.run calls) := by
  have hstep : ∀ t c, L.Admits t.env → L.AllowsCall t c →
      L.Admits (t.call c).env ∧ Moves L t (t.call c) := by
    intro t c ht hc
    have hmoves := call_moves ht hc
    exact ⟨hmoves.env ▸ ht, hmoves⟩
  exact (Runs.Along.foldl (fun _ => .refl) (fun _ _ _ => .trans) hstep hadmits h).2

def Limits.any : Limits where
  arriving := fun _ => True
  clock := fun _ => True
  advice := fun _ => True
  option := fun _ _ => True
  acks := fun _ _ _ => True

theorem any_moves (s : PseudoTcp) (calls : List Call) : Moves .any s (s.run calls) := by
  have hallows : ∀ c, Limits.any.Allows c := by
    intro c
    cases c <;> trivial
  refine run_moves ⟨fun _ => trivial, fun _ c _ => hallows c⟩ (Runs.along_of_forall ?_ s)
  intro c _ t
  cases c with
  | app c => exact hallows c
  | notifyPacket buffer beyond => exact ⟨fun _ _ => trivial, fun _ _ => trivial⟩
  | notifyClock now => trivial

end Libjingle.PseudoTcp
