import Libjingle.Lib.Runs
import Libjingle.PseudoTcp.Input

/-! Every call of an endpoint is a sequence of elementary steps. A step changes
the send queue, the receive buffer or the record of packets in one way; timers,
estimates and options only matter through the steps they choose. -/

namespace Libjingle.PseudoTcp

structure Core where
  sender : Sender
  receiver : Receiver
  env : Env
  conv : UInt32
  written : List PacketCall
  connectMessage : List UInt8
  accepted : List UInt8
  returned : List UInt8
  incidents : List Incident

def core (s : PseudoTcp) : Core where
  sender := s.toSender
  receiver := s.toReceiver
  env := s.env
  conv := s.conv
  written := s.written
  connectMessage := s.connectMessage
  accepted := s.accepted
  returned := s.returned
  incidents := s.incidents

/-- The arguments of `packet` name bytes of a listed segment, or none at all. -/
def Reads (s : Sender) (seq : UInt32) (flags : UInt8) (offset len : UInt32) : Prop :=
  len = 0 ∨ ∃ seg ∈ s.slist, seq = seg.seq ∧ flags = (if seg.bCtrl then flagCtl else 0) ∧
    offset = seg.seq - s.sndUna ∧ len ≤ seg.len

/-- The end of `m_slist` is read: by a retransmission when nothing is listed, by
the search for a segment to send when all were sent. -/
def ReadsEnd (s : Sender) : Prop :=
  (s.slist = [] ∧ (s.sndUna ≠ s.sndNxt ∨ s.sndUna < s.recover ∧ s.sndUna ≤ s.sndNxt)) ∨
  ((∀ seg ∈ s.slist, seg.xmit ≠ 0) ∧ UInt32.ofNat s.sbuf.dataLength ≠ s.sndNxt - s.sndUna)

/-- An elementary step, where the incoming packets are all in `arriving`. -/
inductive Step (arriving : Segment → Prop) : PseudoTcp → PseudoTcp → Prop
  | tune {s t : PseudoTcp} (h : t.core = s.core) (hlisten : t.state = .listen → s.state = .listen)
      (hopen : t.shutdown = .none → s.shutdown = .none) : Step arriving s t
  | write (s : PseudoTcp) {seq : UInt32} {flags : UInt8} {offset len : UInt32}
      (h : Reads s.toSender seq flags offset len) :
      Step arriving s { s with written := s.written ++ [s.packetCall seq flags offset len] }
  | cut (s : PseudoTcp) {pre post : List SSegment} {seg : SSegment} (n : UInt32)
      (h : s.slist = pre ++ seg :: post) (hsent : ∀ x ∈ pre, x.xmit ≠ 0) (hseg : seg.xmit = 0) :
      Step arriving s { s with slist := pre ++ cut seg n ++ post }
  | sent (s : PseudoTcp) {pre post : List SSegment} {seg : SSegment} (n : UInt32)
      (h : s.slist = pre ++ seg :: post) (hsent : ∀ x ∈ pre, x.xmit ≠ 0) (hxmit : seg.xmit < 30)
      (hn : n ≤ seg.len) :
      Step arriving s { s with
        slist := pre ++ markSent seg n ++ post
        sndNxt := if seg.xmit = 0 then s.sndNxt + min n seg.len else s.sndNxt }
  | queueData (s : PseudoTcp) (data : List UInt8) (h : s.state = .established) :
      Step arriving s { (s.queue data false).2 with
        accepted := s.accepted ++ data.take (s.queue data false).1 }
  | queueConnect (s : PseudoTcp) {state : TcpState} (h : s.state = .listen) (hs : state ≠ .listen) :
      Step arriving s { s with state := state }.queueConnectMessage
  | ack (s : PseudoTcp) (now : UInt32) (seg : Segment) (h : seg.ack > s.sndUna)
      (h' : seg.ack ≤ s.sndNxt) : Step arriving s (s.consumeAck now seg)
  | setRecover (s : PseudoTcp) : Step arriving s { s with recover := s.sndNxt }
  | readEnd (s : PseudoTcp) (h : ReadsEnd s.toSender) : Step arriving s (s.noteIf true .endDeref)
  | resizeSend (s : PseudoTcp) (size : UInt32) : Step arriving s (s.resizeSendBuffer size)
  | resizeReceive (s : PseudoTcp) (size : UInt32) : Step arriving s (s.resizeReceiveBuffer size)
  | read (s : PseudoTcp) {len : Nat} {data : List UInt8} {rbuf : FifoBuffer}
      (h : s.rbuf.read len = (.success, data, rbuf)) :
      Step arriving s { s with rbuf := rbuf, returned := s.returned ++ data }
  | openWindow (s : PseudoTcp) :
      Step arriving s { s with rcvWnd := UInt32.ofNat s.rbuf.getWriteRemaining }
  | store (s : PseudoTcp) (seg : Segment) (sflags : SendFlags) (h : arriving seg) :
      Step arriving s (s.store (s.fitted seg) sflags).2.2

abbrev Steps (arriving : Segment → Prop) := Relation.ReflTransGen (Step arriving)

variable {arriving : Segment → Prop}

theorem Steps.tune {s t : PseudoTcp} (h : t.core = s.core)
    (hlisten : t.state = .listen → s.state = .listen)
    (hopen : t.shutdown = .none → s.shutdown = .none) : Steps arriving s t :=
  .single (.tune h hlisten hopen)

section Output

theorem packet_core (s : PseudoTcp) (seq : UInt32) (flags : UInt8) (offset len : UInt32) :
    (s.packet seq flags offset len).2.core =
      { s with written := s.written ++ [s.packetCall seq flags offset len] }.core ∧
    (s.packet seq flags offset len).2.state = s.state ∧
    (s.packet seq flags offset len).2.shutdown = s.shutdown := by
  simp only [packet]
  split <;> exact ⟨rfl, rfl, rfl⟩

theorem packet_sender (s : PseudoTcp) (seq : UInt32) (flags : UInt8) (offset len : UInt32) :
    (s.packet seq flags offset len).2.toSender = s.toSender :=
  congrArg Core.sender (packet_core s seq flags offset len).1

theorem packet_steps (s : PseudoTcp) {seq : UInt32} {flags : UInt8} {offset len : UInt32}
    (h : Reads s.toSender seq flags offset len) :
    Steps arriving s (s.packet seq flags offset len).2 := by
  obtain ⟨hcore, hstate, hopen⟩ := packet_core s seq flags offset len
  refine (Relation.ReflTransGen.single (.write s h)).trans (Steps.tune hcore ?_ ?_)
  · exact fun hl => hstate ▸ hl
  · exact fun hl => hopen ▸ hl

theorem Reads.mono {s : Sender} {seq : UInt32} {flags : UInt8} {offset len len' : UInt32}
    (h : Reads s seq flags offset len) (hlen : len' ≤ len) : Reads s seq flags offset len' := by
  rcases h with rfl | ⟨seg, hseg, hseq, hflags, hoffset, hle⟩
  · exact .inl (UInt32.le_zero_iff.mp hlen)
  · exact .inr ⟨seg, hseg, hseq, hflags, hoffset, UInt32.le_trans hlen hle⟩

theorem shrink_steps {seq : UInt32} {flags : UInt8} {offset : UInt32} (sizes : List UInt32)
    {n : UInt32} {s : PseudoTcp} (h : Reads s.toSender seq flags offset n) :
    Steps arriving s (shrink seq flags offset sizes n s).2 ∧
      (shrink seq flags offset sizes n s).2.toSender = s.toSender ∧
      ∀ k, (shrink seq flags offset sizes n s).1 = some k → k ≤ n := by
  induction sizes generalizing n s with
  | nil => exact ⟨.refl, rfl, by simp [shrink]⟩
  | cons size smaller ih =>
    simp only [shrink]
    split
    · exact ⟨.refl, rfl, by simp⟩
    · let s' : PseudoTcp := { s with
        msslevel := s.msslevel + 1, mss := size - packetOverhead, cwnd := 2 * (size - packetOverhead) }
      have htune : Steps arriving s s' := .tune rfl id id
      split
      · rename_i hlt
        have hr : Reads s'.toSender seq flags offset (size - packetOverhead) :=
          h.mono (UInt32.le_of_lt hlt)
        have hp : Steps arriving s' _ := packet_steps s' hr
        have hs := packet_sender s' seq flags offset (size - packetOverhead)
        split <;> rename_i t ht <;> rw [ht] at hp hs
        · refine ⟨htune.trans hp, hs, ?_⟩
          rintro k ⟨⟩
          exact UInt32.le_of_lt hlt
        · exact ⟨htune.trans hp, hs, by simp⟩
        · obtain ⟨hst, hse, hle⟩ := ih (n := size - packetOverhead) (s := t) (by rwa [hs])
          exact ⟨htune.trans (hp.trans hst), hse.trans hs,
            fun k hk => UInt32.le_trans (hle k hk) (UInt32.le_of_lt hlt)⟩
      · obtain ⟨hst, hse, hle⟩ := ih (n := n) (s := s') h
        exact ⟨htune.trans hst, hse, hle⟩

theorem sendSegment_steps {s : PseudoTcp} {seg : SSegment} (h : seg ∈ s.slist) :
    Steps arriving s (s.sendSegment seg).2 ∧ (s.sendSegment seg).2.toSender = s.toSender ∧
      ∀ k, (s.sendSegment seg).1 = some k → k ≤ seg.len := by
  have hmin : min seg.len s.mss ≤ seg.len := by
    rw [UInt32.le_iff_toNat_le]
    simp only [UInt32.toNat_min]
    omega
  have hr : Reads s.toSender seg.seq (if seg.bCtrl then flagCtl else 0) (seg.seq - s.sndUna)
      (min seg.len s.mss) := .inr ⟨seg, h, rfl, rfl, rfl, hmin⟩
  have hp : Steps arriving s _ := packet_steps s hr
  have hs := packet_sender s seg.seq (if seg.bCtrl then flagCtl else 0) (seg.seq - s.sndUna)
    (min seg.len s.mss)
  simp only [sendSegment]
  split <;> rename_i t ht <;> rw [ht] at hp hs
  · refine ⟨hp, hs, ?_⟩
    rintro k ⟨⟩
    exact hmin
  · exact ⟨hp, hs, by simp⟩
  · have hrt : Reads t.toSender seg.seq (if seg.bCtrl then flagCtl else 0) (seg.seq - s.sndUna)
        (min seg.len s.mss) := by rwa [hs]
    obtain ⟨hst, hse, hle⟩ : Steps arriving t _ ∧ _ :=
      shrink_steps (packetMaximums.drop (t.msslevel + 1)) hrt
    exact ⟨hp.trans hst, hse.trans hs, fun k hk => UInt32.le_trans (hle k hk) hmin⟩

theorem splice_eq {α : Type} {l : List α} {i : Nat} {a : α} (h : l[i]? = some a) (new : List α) :
    l = l.take i ++ a :: l.drop (i + 1) ∧ splice l i new = l.take i ++ new ++ l.drop (i + 1) := by
  obtain ⟨hi, rfl⟩ := List.getElem?_eq_some_iff.mp h
  exact ⟨by simp, rfl⟩

theorem transmit_steps {s : PseudoTcp} {i : Nat} {seg : SSegment} (h : s.slist[i]? = some seg)
    (hsent : ∀ x ∈ s.slist.take i, x.xmit ≠ 0) (now : UInt32) :
    Steps arriving s (s.transmit i now).2 := by
  obtain ⟨hsteps, hsender, hle⟩ : Steps arriving s _ ∧ _ :=
    sendSegment_steps (List.mem_of_getElem? h)
  simp only [transmit, h]
  by_cases hxmit : seg.xmit ≥ if s.state = .established then 15 else 30
  · rw [if_pos hxmit]
  · have hlt : seg.xmit < 30 := by
      split at hxmit
      · exact UInt8.lt_trans (UInt8.not_le.mp hxmit) (by decide)
      · exact UInt8.not_le.mp hxmit
    rw [if_neg hxmit]
    split <;> rename_i t ht <;> rw [ht] at hsteps hsender
    · exact hsteps
    · rename_i n
      obtain ⟨hlist, hsplice⟩ := splice_eq h (markSent seg n)
      have hn : n ≤ seg.len := hle n (by rw [ht])
      have hslist : t.slist = s.slist := congrArg Sender.slist hsender
      rw [hslist, hsplice]
      have hstep : Step arriving t _ := .sent t n (hslist.trans hlist) hsent hlt hn
      exact hsteps.trans (.trans (.single hstep) (Steps.tune rfl id id))

theorem sendAck_steps (s : PseudoTcp) (sflags : SendFlags) :
    Steps arriving s (s.sendAck sflags) := by
  simp only [sendAck]
  split
  · exact .refl
  · split
    · exact packet_steps s (.inl rfl)
    · exact .tune rfl id id

theorem buffered_ne_of_available_ne {s : PseudoTcp} (h : s.available ≠ 0) :
    UInt32.ofNat s.sbuf.dataLength ≠ s.sndNxt - s.sndUna := by
  intro heq
  apply h
  have hz : min (UInt32.ofNat s.sbuf.getBuffered - (s.sndNxt - s.sndUna)) s.mss = 0 := by
    rw [FifoBuffer.getBuffered, heq, UInt32.sub_self]
    rw [← UInt32.toNat_inj, UInt32.toNat_min]
    exact Nat.zero_min _
  simp only [available, hz]
  exact if_neg (UInt32.not_lt.mpr UInt32.zero_le)

theorem cut_eq_cons (seg : SSegment) (n : UInt32) : ∃ first rest, cut seg n = first :: rest := by
  simp only [cut]
  split
  · exact ⟨_, _, rfl⟩
  · exact ⟨_, _, rfl⟩

theorem round_cut {l : List SSegment} {i : Nat} (h : l.findIdx? (·.xmit = 0) = some i)
    (n : UInt32) : ∃ pre seg post, l = pre ++ seg :: post ∧ pre.length = i ∧
      (∀ x ∈ pre, x.xmit ≠ 0) ∧ seg.xmit = 0 ∧
      splice l i ((l[i]?.map (cut · n)).getD []) = pre ++ cut seg n ++ post := by
  obtain ⟨hi, hzero, hbefore⟩ := List.findIdx?_eq_some_iff_getElem.mp h
  have hseg : l[i]? = some l[i] := List.getElem?_eq_getElem hi
  have hsent : ∀ x ∈ l.take i, x.xmit ≠ 0 := by
    intro x hx
    obtain ⟨j, hj, rfl⟩ := List.mem_take_iff_getElem.mp hx
    simpa using hbefore j (by omega)
  have hlen : (l.take i).length = i := by
    rw [List.length_take]
    omega
  obtain ⟨hlist, hsplice⟩ := splice_eq hseg (cut l[i] n)
  refine ⟨l.take i, l[i], l.drop (i + 1), hlist, hlen, hsent, by simpa using hzero, ?_⟩
  rw [hseg]
  exact hsplice

theorem sendLoop_steps (now : UInt32) (fuel : Nat) (sflags : SendFlags) (s : PseudoTcp) :
    Steps arriving s (sendLoop now fuel sflags s) := by
  induction fuel generalizing sflags s with
  | zero => exact .refl
  | succ fuel ih =>
    simp only [sendLoop]
    split
    · exact sendAck_steps s sflags
    · rename_i havail
      split
      · exact .refl
      · split
        · rename_i hnone
          have hall : ∀ seg ∈ s.slist, seg.xmit ≠ 0 := by
            simpa [List.findIdx?_eq_none_iff] using hnone
          exact .single (.readEnd s (.inr ⟨hall, buffered_ne_of_available_ne havail⟩))
        · rename_i i hsome
          obtain ⟨pre, seg, post, hlist, rfl, hsent, hzero, hsplice⟩ := round_cut hsome s.available
          have hcut : Step arriving s _ := .cut s s.available hlist hsent hzero
          obtain ⟨first, rest, hfirst⟩ := cut_eq_cons seg s.available
          rw [hsplice]
          rw [hfirst] at hcut ⊢
          let t : PseudoTcp := { s with slist := pre ++ first :: rest ++ post }
          have hmid : t.slist[pre.length]? = some first := by simp [t]
          have hpre : ∀ x ∈ t.slist.take pre.length, x.xmit ≠ 0 := by simpa [t] using hsent
          have htrans : Steps arriving t _ := transmit_steps hmid hpre now
          split <;> rename_i u hu <;> rw [hu] at htrans
          · exact .head hcut htrans
          · exact .head hcut (htrans.trans (ih .none u))

theorem attemptSend_steps (s : PseudoTcp) (sflags : SendFlags) :
    Steps arriving s (s.attemptSend sflags) := by
  simp only [attemptSend]
  refine .trans (.single (.tune ?_ ?_ ?_)) (sendLoop_steps _ _ _ _) <;> split <;> first | rfl | exact id

end Output

section Input

theorem recv_steps (s : PseudoTcp) (len : Nat) : Steps arriving s (s.recv len) := by
  simp only [recv]
  split
  · exact .tune rfl id id
  · split
    · rename_i data rbuf hread
      have hstep : Step arriving s _ := .read s hread
      let t : PseudoTcp := { s with rbuf := rbuf, returned := s.returned ++ data }
      have hopen : Step arriving t _ := .openWindow t
      split
      · split
        · exact .head hstep (.head hopen (attemptSend_steps _ _))
        · exact .head hstep (.single hopen)
      · exact .single hstep
    · exact .tune rfl id id

theorem send_steps (s : PseudoTcp) (data : List UInt8) : Steps arriving s (s.send data) := by
  simp only [send]
  split
  · exact .tune rfl id id
  · rename_i hstate
    split
    · exact .tune rfl id id
    · have hstep : Step arriving s _ := .queueData s data (not_not.mp hstate)
      exact .head hstep (attemptSend_steps _ _)

theorem connect_steps (s : PseudoTcp) : Steps arriving s s.connect := by
  simp only [connect]
  split
  · exact .tune rfl id id
  · rename_i hlisten
    have hstep : Step arriving s _ := .queueConnect s (not_not.mp hlisten)
      (show TcpState.synSent ≠ .listen by decide)
    exact .head hstep (attemptSend_steps _ _)

theorem app_steps (s : PseudoTcp) (c : AppCall) : Steps arriving s (s.app c) := by
  cases c with
  | connect => exact connect_steps s
  | send data => exact send_steps s data
  | recv len => exact recv_steps s len
  | close force =>
    refine .tune rfl id fun h => ?_
    simp only [app, close] at h
    split at h <;> cases h
  | notifyMTU mtu =>
    simp only [app, notifyMTU]
    split <;> exact .tune rfl id id
  | setOption opt value =>
    cases opt with
    | noDelay => exact .tune rfl id id
    | ackDelay => exact .tune rfl id id
    | sndBuf => exact .single (.resizeSend s value)
    | rcvBuf => exact .single (.resizeReceive s value)

theorem notify_steps (s : PseudoTcp) (n : Notification) : Steps arriving s (s.notify n) := by
  have htune : Steps arriving s { s with notified := s.notified ++ [n] } := .tune rfl id id
  exact htune.trans (Runs.foldl_reflTransGen (fun t c _ => app_steps t c) _ fun _ _ => trivial)

theorem tune_notify_steps {s t : PseudoTcp} (h : t.core = s.core)
    (hlisten : t.state = .listen → s.state = .listen)
    (hopen : t.shutdown = .none → s.shutdown = .none) (n : Notification) :
    Steps arriving s (t.notify n) :=
  (Steps.tune h hlisten hopen).trans (notify_steps t n)

theorem closedown_steps (s : PseudoTcp) (err : Errno) : Steps arriving s (s.closedown err) := by
  rw [closedown]
  refine tune_notify_steps ?_ ?_ ?_ _
  · rfl
  · simp
  · exact id

theorem established_steps {s : PseudoTcp} :
    Steps arriving s (({ s with state := .established }.adjustMTU).notify .opened) := by
  refine tune_notify_steps ?_ ?_ ?_ _
  · rfl
  · simp [adjustMTU]
  · exact id

theorem parseOptionList_core (fuel : Nat) (data kinds : List UInt8) (s : PseudoTcp) :
    (parseOptionList fuel data kinds s).2.core = s.core ∧
      (parseOptionList fuel data kinds s).2.state = s.state ∧
      (parseOptionList fuel data kinds s).2.shutdown = s.shutdown := by
  induction fuel generalizing data kinds s with
  | zero => exact ⟨rfl, rfl, rfl⟩
  | succ fuel ih =>
    cases data with
    | nil => exact ⟨rfl, rfl, rfl⟩
    | cons kind rest =>
      have happly : ∀ bytes, (s.applyOption kind bytes).core = s.core ∧
          (s.applyOption kind bytes).state = s.state ∧
          (s.applyOption kind bytes).shutdown = s.shutdown := by
        intro bytes
        simp only [applyOption]
        split
        · split <;> exact ⟨rfl, rfl, rfl⟩
        · exact ⟨rfl, rfl, rfl⟩
      simp only [parseOptionList]
      split
      · exact ⟨rfl, rfl, rfl⟩
      · split
        · exact ih _ _ _
        · split
          · obtain ⟨hcore, hstate, hopen⟩ := ih (rest.tail.drop (rest.headD 0).toNat)
              (kind :: kinds) (s.applyOption kind (rest.tail.take (rest.headD 0).toNat))
            obtain ⟨hcore', hstate', hopen'⟩ := happly (rest.tail.take (rest.headD 0).toNat)
            exact ⟨hcore.trans hcore', hstate.trans hstate', hopen.trans hopen'⟩
          · exact ⟨rfl, rfl, rfl⟩

theorem parseOptions_steps (s : PseudoTcp) (data : List UInt8) :
    Steps arriving s (s.parseOptions data) := by
  obtain ⟨hcore, hstate, hopen⟩ := parseOptionList_core data.length data [] s
  have htune : Steps arriving s (s.parseOptionList data.length data []).2 :=
    .tune hcore (fun h => hstate ▸ h) fun h => hopen ▸ h
  simp only [parseOptions]
  split <;> rename_i t ht <;> rw [ht] at htune
  · exact htune
  · split
    · have hstep : Step arriving t _ := .resizeReceive t defaultRcvBufSize
      exact htune.trans (.head hstep (Steps.tune rfl id id))
    · exact htune

theorem control_steps (s : PseudoTcp) (seg : Segment) : Steps arriving s (s.control seg).2 := by
  have hoptions : Steps arriving s _ := parseOptions_steps s (seg.bytes.drop 1)
  simp only [control]
  split
  · exact .refl
  · split
    · exact .refl
    · split
      · split
        · rename_i hlisten
          have hstep : Step arriving (s.parseOptions (seg.bytes.drop 1)) _ :=
            .queueConnect _ hlisten (show TcpState.synReceived ≠ .listen by decide)
          exact hoptions.trans (.single hstep)
        · exact hoptions.trans established_steps
        · exact hoptions
      · exact .refl

theorem updateRtt_core (s : PseudoTcp) (now tsecr : UInt32) :
    (s.updateRtt now tsecr).core = s.core ∧ (s.updateRtt now tsecr).state = s.state ∧
      (s.updateRtt now tsecr).shutdown = s.shutdown := by
  simp only [updateRtt]
  split
  · exact ⟨rfl, rfl, rfl⟩
  · split <;> exact ⟨rfl, rfl, rfl⟩

/-- Retransmission of the first segment, when there is one or its absence would
be noticed. -/
theorem transmit_first_steps {s : PseudoTcp} (now : UInt32)
    (h : s.slist = [] → ReadsEnd s.toSender) : Steps arriving s (s.transmit 0 now).2 := by
  cases hlist : s.slist with
  | nil =>
    have hnone : s.slist[0]? = none := by simp [hlist]
    simp only [transmit, hnone]
    exact .single (.readEnd s (h hlist))
  | cons seg rest =>
    have hsome : s.slist[0]? = some seg := by simp [hlist]
    exact transmit_steps hsome (by simp) now

theorem acknowledge_steps (s : PseudoTcp) (now : UInt32) (seg : Segment) :
    Steps arriving s (s.acknowledge now seg).2 := by
  simp only [acknowledge]
  split
  · rename_i hack
    obtain ⟨hcore, hstate, hopen⟩ := updateRtt_core s now seg.tsecr
    have htune : Steps arriving s (s.updateRtt now seg.tsecr) :=
      .tune hcore (fun h => hstate ▸ h) fun h => hopen ▸ h
    have hsender : (s.updateRtt now seg.tsecr).toSender = s.toSender := congrArg Core.sender hcore
    let t := s.updateRtt now seg.tsecr
    have hack' : seg.ack > t.sndUna ∧ seg.ack ≤ t.sndNxt := by
      simp only [t, hsender]
      exact hack
    have hstep : Step arriving t (t.consumeAck now seg) := .ack t now seg hack'.1 hack'.2
    have hnxt : (t.consumeAck now seg).sndNxt = t.sndNxt := rfl
    have huna : (t.consumeAck now seg).sndUna = seg.ack := rfl
    have hto : Steps arriving s (t.consumeAck now seg) := htune.trans (.single hstep)
    split
    · split
      · exact hto.trans (Steps.tune rfl id id)
      · rename_i hrecover
        have hend : (t.consumeAck now seg).slist = [] →
            ReadsEnd (t.consumeAck now seg).toSender := by
          intro hnil
          refine .inl ⟨hnil, .inr ⟨UInt32.not_le.mp hrecover, ?_⟩⟩
          rw [huna, hnxt]
          exact hack'.2
        have htrans : Steps arriving _ _ := transmit_first_steps now hend
        split <;> rename_i u hu <;> rw [hu] at htrans
        · exact hto.trans (htrans.trans (closedown_steps _ _))
        · exact hto.trans (htrans.trans (Steps.tune rfl id id))
    · exact hto.trans (Steps.tune rfl id id)
  · split
    · split
      · exact .tune rfl id id
      · split
        · rename_i hflight
          split
          · let t : PseudoTcp := { s with
              sndWnd := seg.wnd.toUInt32 <<< s.swndScale.toUInt32, dupAcks := s.dupAcks + 1 }
            have htune : Steps arriving s t := .tune rfl id id
            have htrans : Steps arriving t _ :=
              transmit_first_steps now fun hnil => .inl ⟨hnil, .inl hflight⟩
            split <;> rename_i u hu <;> rw [hu] at htrans
            · exact htune.trans (htrans.trans (closedown_steps _ _))
            · have hstep : Step arriving u _ := .setRecover u
              exact htune.trans (htrans.trans (.head hstep (Steps.tune rfl id id)))
          · split <;> exact .tune rfl id id
        · exact .tune rfl id id
    · exact .refl

theorem finishOpen_steps (s : PseudoTcp) (bConnect : Bool) :
    Steps arriving s (s.finishOpen bConnect) := by
  simp only [finishOpen]
  split
  · exact established_steps
  · exact .refl

theorem notifyWriteable_steps (s : PseudoTcp) : Steps arriving s s.notifyWriteable := by
  simp only [notifyWriteable]
  split
  · refine tune_notify_steps ?_ ?_ ?_ _
    · rfl
    · exact id
    · exact id
  · exact .refl

theorem notifyReadable_steps (s : PseudoTcp) (bNewData : Bool) :
    Steps arriving s (s.notifyReadable bNewData) := by
  simp only [notifyReadable]
  split
  · refine tune_notify_steps ?_ ?_ ?_ _
    · rfl
    · exact id
    · exact id
  · exact .refl

theorem receive_steps (s : PseudoTcp) {seg : Segment} (h : arriving seg) :
    Steps arriving s (s.receive seg) := by
  have hstep : Step arriving s _ := .store s seg (s.ackFlags seg) h
  exact .head hstep ((attemptSend_steps _ _).trans (notifyReadable_steps _ _))

theorem processSegment_steps (s : PseudoTcp) (now : UInt32) {seg : Segment} (h : arriving seg) :
    Steps arriving s (s.processSegment now seg).2 := by
  simp only [processSegment]
  split
  · exact .refl
  · split
    · exact closedown_steps s .econnreset
    · have hcontrol : Steps arriving s _ := control_steps s seg
      split <;> rename_i u hu <;> rw [hu] at hcontrol
      · exact hcontrol
      · have htime : Steps arriving u (u.updateTimestamp seg) := by
          simp only [updateTimestamp]
          split
          · exact .tune rfl id id
          · exact .refl
        have hack : Steps arriving (u.updateTimestamp seg) _ :=
          acknowledge_steps (u.updateTimestamp seg) now seg
        split <;> rename_i v hv <;> rw [hv] at hack
        · exact hcontrol.trans (htime.trans hack)
        · exact hcontrol.trans (htime.trans (hack.trans ((finishOpen_steps v _).trans
            ((notifyWriteable_steps _).trans (receive_steps _ h)))))

theorem notifyPacket_steps (s : PseudoTcp) {buffer : List UInt8} {beyond : Nat → UInt8}
    (h : buffer.length ≤ maxPacket.toNat → ¬ UInt32.ofNat buffer.length < 12 →
      arriving (parseSegment (memory buffer beyond) (UInt32.ofNat buffer.length))) :
    Steps arriving s (s.notifyPacket buffer beyond).2 := by
  simp only [notifyPacket, parse, process]
  split
  · exact .refl
  · rename_i hlen
    split
    · exact .refl
    · rename_i hsize
      split
      · exact .refl
      · have htune : Steps arriving s s.noteReceived := .tune rfl id id
        exact htune.trans (processSegment_steps _ _ (h (Nat.not_lt.mp hlen) hsize))

theorem notifyClock_steps (s : PseudoTcp) (now : UInt32) :
    Steps arriving s (s.notifyClock now) := by
  have hretransmit : Steps arriving s (s.retransmit now).2 := by
    simp only [retransmit]
    split
    · split
      · exact .refl
      · rename_i hne
        have htrans : Steps arriving s _ := transmit_first_steps now fun hnil => absurd hnil hne
        split <;> rename_i u hu <;> rw [hu] at htrans
        · exact htrans.trans (closedown_steps _ _)
        · exact htrans.trans (Steps.tune rfl id id)
    · exact .refl
  have hprobe : ∀ t : PseudoTcp, Steps arriving t (t.probeWindow now).2 := by
    intro t
    simp only [probeWindow]
    split
    · split
      · exact closedown_steps _ _
      · exact .trans (packet_steps t (.inl rfl)) (Steps.tune rfl id id)
    · exact .refl
  simp only [notifyClock]
  split
  · exact .refl
  · split <;> rename_i t ht <;> rw [ht] at hretransmit
    · exact hretransmit
    · have hp := hprobe t
      split <;> rename_i u hu <;> rw [hu] at hp
      · exact hretransmit.trans hp
      · split
        · exact hretransmit.trans (hp.trans (packet_steps u (.inl rfl)))
        · exact hretransmit.trans hp

end Input

theorem run_steps (s : PseudoTcp) (calls : List Call) :
    Steps (fun _ => True) s (s.run calls) := by
  refine Runs.foldl_reflTransGen (fun t c _ => ?_) s fun _ _ => trivial
  cases c with
  | app c => exact app_steps t c
  | notifyPacket buffer beyond => exact notifyPacket_steps t fun _ _ => trivial
  | notifyClock now => exact notifyClock_steps t now

theorem store_frame (s : PseudoTcp) (seg : Segment) (sflags : SendFlags) :
    (s.store seg sflags).2.2.core = { s.core with
      receiver := (s.store seg sflags).2.2.toReceiver
      incidents := (s.store seg sflags).2.2.incidents } ∧
    (s.store seg sflags).2.2.state = s.state ∧
    (s.store seg sflags).2.2.shutdown = s.shutdown ∧
    ∀ i ∈ (s.store seg sflags).2.2.incidents,
      i ∈ s.incidents ∨ i = .lapHeld ∨ i = .skippedHeld ∨ i = .overrun := by
  simp only [store]
  split
  · exact ⟨rfl, rfl, rfl, fun i hi => .inl hi⟩
  · split
    · split
      · refine ⟨rfl, rfl, rfl, fun i hi => ?_⟩
        simp only [mem_noteIf] at hi
        rcases hi with (hi | hi) | hi
        · exact .inl hi
        · exact .inr (.inl hi.2)
        · exact .inr (.inr (.inl hi.2))
      · refine ⟨rfl, rfl, rfl, fun i hi => ?_⟩
        simp only [mem_noteIf] at hi
        rcases hi with hi | hi
        · exact .inl hi
        · exact .inr (.inl hi.2)
    · split
      all_goals
        refine ⟨rfl, rfl, rfl, fun i hi => ?_⟩
        simp only [mem_noteIf] at hi
        rcases hi with (hi | hi) | hi
        · exact .inl hi
        · exact .inr (.inl hi.2)
        · exact .inr (.inr (.inr hi.2))

/-- Data that is not stored: control data, and any data after `Close`. -/
def Ignores (s : PseudoTcp) (seg : Segment) : Prop :=
  seg.flags &&& flagCtl ≠ 0 ∨ s.shutdown ≠ .none

def overwritten (s : PseudoTcp) (seg : Segment) : Receiver :=
  { s.toReceiver with
    rbuf := (s.rbuf.writeOffset seg.bytes (seg.seq - s.rcvNxt).toNat).2.2 }

/-- What storing a payload does to the receiving half, and what it puts on record. -/
inductive Stored (s : PseudoTcp) (seg : Segment) (t : PseudoTcp) : Prop
  | nothing (hreceiver : t.toReceiver = s.toReceiver)
  | skipped (hlen : seg.len ≠ 0) (hignore : s.Ignores seg) (hseq : seg.seq = s.rcvNxt)
      (hreceiver : t.toReceiver = s.toReceiver.advance seg.len)
      (hlap : .lapHeld ∈ t.incidents ∨ s.rlist = [] ∨ s.rcvNxt.toNat + seg.len.toNat < 2 ^ 32)
      (hskip : .skippedHeld ∈ t.incidents ∨ s.rlist = [])
  | inOrder (hlen : seg.len ≠ 0) (hignore : ¬ s.Ignores seg) (hseq : seg.seq = s.rcvNxt)
      (hreceiver : t.toReceiver =
        (Receiver.recoverRanges s.rlist ((s.overwritten seg).commit seg.len)).2)
      (hlap : .lapHeld ∈ t.incidents ∨ s.rlist = [] ∨ s.rcvNxt.toNat + seg.len.toNat < 2 ^ 32)
      (hrun : .overrun ∈ t.incidents ∨ seg.len.toNat ≤ s.rcvWnd.toNat)
  | ahead (hlen : seg.len ≠ 0) (hignore : ¬ s.Ignores seg) (hseq : seg.seq ≠ s.rcvNxt)
      (hreceiver : t.toReceiver = { s.overwritten seg with
        rlist := Receiver.insertRange ⟨seg.seq, seg.len⟩ s.rlist })
      (hrun : .overrun ∈ t.incidents ∨
        (seg.seq - s.rcvNxt).toNat + seg.len.toNat ≤ s.rcvWnd.toNat)

theorem store_stored (s : PseudoTcp) (seg : Segment) (sflags : SendFlags) :
    Stored s seg (s.store seg sflags).2.2 := by
  have hlap : ∀ i : Incident, seg.seq = s.rcvNxt →
      i ∈ (s.noteIf (seg.seq = s.rcvNxt && s.rlist ≠ [] &&
        s.rcvNxt.toNat + seg.len.toNat ≥ 2 ^ 32) i).incidents ∨
        s.rlist = [] ∨ s.rcvNxt.toNat + seg.len.toNat < 2 ^ 32 := by
    intro i hseq
    rw [mem_noteIf]
    by_cases hnil : s.rlist = []
    · exact .inr (.inl hnil)
    · rcases Nat.lt_or_ge (s.rcvNxt.toNat + seg.len.toNat) (2 ^ 32) with hlt | hge
      · exact .inr (.inr hlt)
      · exact .inl (.inr ⟨by simpa [hseq, hnil] using hge, rfl⟩)
  simp only [store]
  split
  · exact .nothing rfl
  · rename_i hlen
    split
    · rename_i hignore
      split
      · rename_i hseq
        refine .skipped hlen hignore hseq rfl ?_ ?_
        · exact (hlap .lapHeld hseq).imp_left fun hmem => mem_noteIf.mpr (.inl hmem)
        · by_cases hnil : s.rlist = []
          · exact .inr hnil
          · exact .inl (mem_noteIf.mpr (.inr ⟨decide_eq_true hnil, rfl⟩))
      · exact .nothing rfl
    · rename_i hignore
      have hrun : .overrun ∈ ((s.noteIf (seg.seq = s.rcvNxt && s.rlist ≠ [] &&
            s.rcvNxt.toNat + seg.len.toNat ≥ 2 ^ 32) .lapHeld).noteIf
              ((seg.seq - s.rcvNxt).toNat + seg.len.toNat > s.rcvWnd.toNat) .overrun).incidents ∨
          (seg.seq - s.rcvNxt).toNat + seg.len.toNat ≤ s.rcvWnd.toNat := by
        rw [mem_noteIf]
        rcases Nat.lt_or_ge s.rcvWnd.toNat ((seg.seq - s.rcvNxt).toNat + seg.len.toNat) with hlt | hle
        · exact .inl (.inr ⟨decide_eq_true hlt, rfl⟩)
        · exact .inr hle
      split
      · rename_i hseq
        refine .inOrder hlen hignore hseq rfl ?_ (hrun.imp_right fun hle => ?_)
        · exact (hlap .lapHeld hseq).imp_left fun hmem => mem_noteIf.mpr (.inl hmem)
        · exact Nat.le_trans (Nat.le_add_left _ _) hle
      · rename_i hseq
        exact .ahead hlen hignore hseq rfl hrun

theorem Step.incidents_subset {s t : PseudoTcp} (h : Step arriving s t) :
    s.incidents ⊆ t.incidents := by
  have hnote : ∀ (s : PseudoTcp) (c : Bool) (i : Incident),
      s.incidents ⊆ (s.noteIf c i).incidents := by
    intro s c i j hj
    exact mem_noteIf.mpr (.inl hj)
  cases h with
  | tune h =>
    rw [show t.incidents = s.incidents from congrArg Core.incidents h]
    exact List.Subset.refl _
  | ack now seg => exact List.Subset.trans (hnote _ _ _) (hnote _ _ _)
  | readEnd => exact hnote _ _ _
  | resizeReceive size => exact List.Subset.trans (hnote _ _ _) (hnote _ _ _)
  | store seg sflags =>
    simp only [PseudoTcp.store]
    split
    · exact List.Subset.refl _
    · split
      · split
        · exact List.Subset.trans (hnote _ _ _) (hnote _ _ _)
        · exact hnote _ _ _
      · split <;> exact List.Subset.trans (hnote _ _ _) (hnote _ _ _)
  | _ => exact List.Subset.refl _

end Libjingle.PseudoTcp
