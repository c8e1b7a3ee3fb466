import Libjingle.PseudoTcp.Unsent
import Libjingle.PseudoTcp.SendLoop

/-! What `attemptSend` sends for the first time stays inside the window of the peer and
the congestion window. -/

namespace Libjingle.PseudoTcp

/-- How far beyond `m_snd_una` the loop of `attemptSend` may send. -/
def sendWindow (s : PseudoTcp) : Nat :=
  min s.sndWnd.toNat
    (s.cwnd.toNat + if s.dupAcks = 1 ∨ s.dupAcks = 2 then s.dupAcks.toNat * s.mss.toNat else 0)

/-- A round of the loop that looks for a segment: the state it starts in, and the segment
it chooses, unless the search runs to the end of `m_slist`. -/
structure Round where
  state : PseudoTcp
  chosen : Option SSegment

/-- The segment was not sent before and lies in the window. -/
def Round.Fits (r : Round) : Prop :=
  ∃ seg, r.chosen = some seg ∧ seg.xmit = 0 ∧
    (seg.seq - r.state.sndUna).toNat + seg.len.toNat ≤ r.state.sendWindow

/-- The rounds of `sendLoop` that look for a segment. -/
def choices (now : UInt32) : Nat → PseudoTcp → List Round
  | 0, _ => []
  | fuel + 1, s =>
    if s.available = 0 then []
    else if s.useNagling ∧ s.sndNxt > s.sndUna ∧ s.available < s.mss then []
    else
      match s.slist.findIdx? (·.xmit = 0) with
      | none => [⟨s, none⟩]
      | some i =>
        let cutList := splice s.slist i ((s.slist[i]?.map (cut · s.available)).getD [])
        ⟨s, cutList[i]?⟩ ::
          match { s with slist := cutList }.transmit i now with
          | (false, _) => []
          | (true, s) => choices now fuel s

/-- The state in which `attemptSend` enters its loop. -/
def loopStart (s : PseudoTcp) : PseudoTcp :=
  let now := s.env.now s.ticks
  let s := { s with ticks := s.ticks + 1 }
  if timeDiff now s.lastsend > s.rxRto.toNat then { s with cwnd := s.mss } else s

def attemptRounds (s : PseudoTcp) : List Round :=
  choices (s.env.now s.ticks) s.loopStart.sendRounds s.loopStart

/-- The packets written between two states satisfy `P`. -/
def Writes (P : PacketCall → Prop) (s t : PseudoTcp) : Prop :=
  ∃ packets, t.written = s.written ++ packets ∧ ∀ c ∈ packets, P c

section Writes

variable {P Q : PacketCall → Prop} {s t u : PseudoTcp}

theorem Writes.nothing (h : t.written = s.written) : Writes P s t := ⟨[], by simp [h], by simp⟩

theorem Writes.trans (h : Writes P s t) (h' : Writes P t u) : Writes P s u := by
  obtain ⟨first, hfirst, hP⟩ := h
  obtain ⟨second, hsecond, hP'⟩ := h'
  refine ⟨first ++ second, ?_, ?_⟩
  · rw [hsecond, hfirst, List.append_assoc]
  · intro c hc
    rcases List.mem_append.mp hc with hc | hc
    · exact hP c hc
    · exact hP' c hc

theorem Writes.imp (h : Writes P s t) (hPQ : ∀ c, P c → Q c) : Writes Q s t := by
  obtain ⟨packets, hpackets, hP⟩ := h
  exact ⟨packets, hpackets, fun c hc => hPQ c (hP c hc)⟩

theorem packet_writes (s : PseudoTcp) (seq : UInt32) (flags : UInt8) (offset len : UInt32) :
    Writes (fun c => c.seq = seq ∧ c.len = len) s (s.packet seq flags offset len).2 := by
  have hwritten : (s.packet seq flags offset len).2.written = _ :=
    congrArg Core.written (packet_core s seq flags offset len).1
  refine ⟨[s.packetCall seq flags offset len], hwritten, ?_⟩
  intro c hc
  rw [List.mem_singleton.mp hc]
  exact ⟨rfl, rfl⟩

theorem shrink_writes {seq : UInt32} {flags : UInt8} {offset : UInt32} (sizes : List UInt32)
    (n : UInt32) (s : PseudoTcp) :
    Writes (fun c => c.seq = seq ∧ c.len ≤ n) s (shrink seq flags offset sizes n s).2 := by
  induction sizes generalizing n s with
  | nil => exact .nothing rfl
  | cons size smaller ih =>
    simp only [shrink]
    by_cases hzero : size = 0
    · rw [if_pos hzero]
      exact .nothing rfl
    · rw [if_neg hzero]
      let s' : PseudoTcp := { s with
        msslevel := s.msslevel + 1, mss := size - packetOverhead, cwnd := 2 * (size - packetOverhead) }
      have hlower : ∀ Q, Writes Q s s' := fun Q => .nothing rfl
      by_cases hlt : size - packetOverhead < n
      · rw [if_pos hlt]
        have hle := UInt32.le_of_lt hlt
        have hp : Writes (fun c => c.seq = seq ∧ c.len ≤ n) s' _ :=
          (packet_writes s' seq flags offset (size - packetOverhead)).imp
            fun c hc => ⟨hc.1, hc.2 ▸ hle⟩
        split <;> rename_i t ht <;> rw [ht] at hp
        · exact (hlower _).trans hp
        · exact (hlower _).trans hp
        · have hrest : Writes (fun c => c.seq = seq ∧ c.len ≤ n) t _ :=
            (ih (size - packetOverhead) t).imp fun c hc => ⟨hc.1, UInt32.le_trans hc.2 hle⟩
          exact (hlower _).trans (hp.trans hrest)
      · rw [if_neg hlt]
        exact (hlower _).trans (ih n s')

theorem sendSegment_writes (s : PseudoTcp) (seg : SSegment) :
    Writes (fun c => c.seq = seg.seq ∧ c.len ≤ seg.len) s (s.sendSegment seg).2 := by
  have hmin : min seg.len s.mss ≤ seg.len := by
    rw [UInt32.le_iff_toNat_le, UInt32.toNat_min]
    exact Nat.min_le_left _ _
  have hp : Writes (fun c => c.seq = seg.seq ∧ c.len ≤ seg.len) s _ :=
    (packet_writes s seg.seq (if seg.bCtrl then flagCtl else 0) (seg.seq - s.sndUna)
      (min seg.len s.mss)).imp fun c hc => ⟨hc.1, hc.2 ▸ hmin⟩
  simp only [sendSegment]
  split <;> rename_i t ht <;> rw [ht] at hp
  · exact hp
  · exact hp
  · refine hp.trans (Writes.imp (shrink_writes _ _ t) fun c hc => ?_)
    exact ⟨hc.1, UInt32.le_trans hc.2 hmin⟩

theorem transmit_writes {i : Nat} {seg : SSegment} (h : s.slist[i]? = some seg) (now : UInt32) :
    Writes (fun c => c.seq = seg.seq ∧ c.len ≤ seg.len) s (s.transmit i now).2 := by
  have hsend := sendSegment_writes s seg
  simp only [transmit, h]
  by_cases hxmit : seg.xmit ≥ if s.state = .established then 15 else 30
  · rw [if_pos hxmit]
    exact .nothing rfl
  · rw [if_neg hxmit]
    split <;> rename_i t ht <;> rw [ht] at hsend
    · exact hsend
    · exact hsend.trans (.nothing rfl)

theorem sendAck_writes (s : PseudoTcp) (sflags : SendFlags) :
    Writes (fun c => c.len = 0) s (s.sendAck sflags) := by
  simp only [sendAck]
  split
  · exact .nothing rfl
  · split
    · exact (packet_writes s s.sndNxt 0 0 0).imp fun c hc => hc.2
    · exact .nothing rfl

end Writes

section Window

variable {s : PseudoTcp}

theorem available_le_window (h : s.available ≠ 0) :
    (s.sndNxt - s.sndUna).toNat + s.available.toNat ≤ s.sendWindow := by
  have hinner : ∀ wnd inFlight buffered mss : UInt32,
      let useable := if inFlight < wnd then wnd - inFlight else 0
      let n := if min (buffered - inFlight) mss > useable then
        (if useable * 4 < wnd then 0 else useable) else min (buffered - inFlight) mss
      n ≠ 0 → inFlight.toNat + n.toNat ≤ wnd.toNat := by
    intro wnd inFlight buffered mss useable n hn
    have huseable : inFlight < wnd → useable.toNat = wnd.toNat - inFlight.toNat := by
      intro hlt
      simp only [useable, if_pos hlt]
      exact UInt32.toNat_sub_of_le _ _ (UInt32.le_of_lt hlt)
    have hle : n.toNat ≤ useable.toNat := by
      simp only [n] at hn ⊢
      split
      · split
        · simp
        · exact Nat.le_refl _
      · rename_i hge
        exact UInt32.le_iff_toNat_le.mp (UInt32.not_lt.mp hge)
    by_cases hlt : inFlight < wnd
    · have hlt' := UInt32.lt_iff_toNat_lt.mp hlt
      rw [huseable hlt] at hle
      omega
    · have hzero : useable = 0 := if_neg hlt
      rw [hzero] at hle
      exact absurd (UInt32.toNat_inj.mp (Nat.le_zero.mp hle)) hn
  let cwnd := if s.dupAcks = 1 ∨ s.dupAcks = 2 then s.cwnd + s.dupAcks.toUInt32 * s.mss else s.cwnd
  have hcwnd : cwnd.toNat ≤ s.cwnd.toNat +
      if s.dupAcks = 1 ∨ s.dupAcks = 2 then s.dupAcks.toNat * s.mss.toNat else 0 := by
    simp only [cwnd]
    split
    · rw [UInt32.toNat_add, UInt32.toNat_mul, UInt8.toNat_toUInt32]
      have hmul := Nat.mod_le (s.dupAcks.toNat * s.mss.toNat) (2 ^ 32)
      have hsum := Nat.mod_le (s.cwnd.toNat + s.dupAcks.toNat * s.mss.toNat % 2 ^ 32) (2 ^ 32)
      omega
    · exact Nat.le_refl _
  have hmain := hinner (min s.sndWnd cwnd) (s.sndNxt - s.sndUna) (UInt32.ofNat s.sbuf.getBuffered)
    s.mss h
  rw [UInt32.toNat_min] at hmain
  rw [sendWindow]
  exact hmain.trans (le_min (Nat.min_le_left _ _) ((Nat.min_le_right _ _).trans hcwnd))

theorem chosen_fits (h : Tracked s.toSender) (havail : s.available ≠ 0) {pre post : List SSegment}
    {seg first : SSegment} {rest : List SSegment} (hlist : s.slist = pre ++ seg :: post)
    (hsent : ∀ x ∈ pre, x.xmit ≠ 0) (hzero : seg.xmit = 0)
    (hcut : cut seg s.available = first :: rest) : Round.Fits ⟨s, some first⟩ := by
  have htiles := h.tiles
  rw [hlist, unsent_split hsent hzero] at htiles
  have hwindow := available_le_window havail
  refine ⟨first, rfl, ?_, ?_⟩
  · rw [cut_xmit (by rw [hcut]; exact List.mem_cons_self), hzero]
  · have hfirst : first.seq = s.sndNxt ∧ first.len.toNat ≤ s.available.toNat := by
      rw [cut] at hcut
      split at hcut
      · obtain ⟨rfl, -⟩ := List.cons.inj hcut
        exact ⟨htiles.1, Nat.le_refl _⟩
      · rename_i hge
        obtain ⟨rfl, -⟩ := List.cons.inj hcut
        exact ⟨htiles.1, UInt32.le_iff_toNat_le.mp (UInt32.not_lt.mp hge)⟩
    rw [hfirst.1]
    exact (Nat.add_le_add_left hfirst.2 _).trans hwindow

def IsOf (rounds : List Round) (c : PacketCall) : Prop :=
  c.len ≠ 0 → ∃ r ∈ rounds, ∃ seg, r.chosen = some seg ∧ c.seq = seg.seq ∧ c.len ≤ seg.len

theorem sendLoop_choices (now : UInt32) (fuel : Nat) (sflags : SendFlags)
    (h : Tracked s.toSender) :
    (∀ r ∈ choices now fuel s, r.Fits) ∧
      Writes (IsOf (choices now fuel s)) s (sendLoop now fuel sflags s) := by
  induction fuel generalizing sflags s with
  | zero => exact ⟨by simp [choices], .nothing rfl⟩
  | succ fuel ih =>
    simp only [choices, sendLoop]
    by_cases havail : s.available = 0
    · rw [if_pos havail, if_pos havail]
      exact ⟨by simp, (sendAck_writes s sflags).imp fun c hc hne => absurd hc hne⟩
    · rw [if_neg havail, if_neg havail]
      by_cases hnagle : s.useNagling ∧ s.sndNxt > s.sndUna ∧ s.available < s.mss
      · rw [if_pos hnagle, if_pos hnagle]
        exact ⟨by simp, .nothing rfl⟩
      · rw [if_neg hnagle, if_neg hnagle]
        cases hfind : s.slist.findIdx? (·.xmit = 0) with
        | none =>
          have hall : ∀ seg ∈ s.slist, seg.xmit ≠ 0 := by
            simpa [List.findIdx?_eq_none_iff] using hfind
          exact absurd (.inr ⟨hall, buffered_ne_of_available_ne havail⟩) h.not_readsEnd
        | some i =>
          obtain ⟨pre, seg, post, hlist, rfl, hsent, hzero, hsplice⟩ := round_cut hfind s.available
          obtain ⟨first, rest, hfirst⟩ := cut_eq_cons seg s.available
          have hfits := chosen_fits h havail hlist hsent hzero hfirst
          have hcut : Step (fun _ => True) s _ := .cut s s.available hlist hsent hzero
          simp only [hsplice]
          rw [hfirst] at hcut ⊢
          let t : PseudoTcp := { s with slist := pre ++ first :: rest ++ post }
          have hmid : t.slist[pre.length]? = some first := by simp [t]
          have hpre : ∀ x ∈ t.slist.take pre.length, x.xmit ≠ 0 := by simpa [t] using hsent
          have ht : Tracked t.toSender := tracked_step hcut h
          have hsteps : Steps (fun _ => True) t _ := transmit_steps hmid hpre now
          have hwrites := transmit_writes hmid now
          have hchosen : (pre ++ first :: rest ++ post)[pre.length]? = some first := hmid
          rw [hchosen]
          cases htrans : t.transmit pre.length now with
          | mk sent u =>
            rw [htrans] at hsteps hwrites
            have hwritesFirst : ∀ rounds, Writes (IsOf (⟨s, some first⟩ :: rounds)) s u := by
              intro rounds
              refine Writes.trans (.nothing rfl) (hwrites.imp fun c hc _ => ?_)
              exact ⟨⟨s, some first⟩, List.mem_cons_self, first, rfl, hc.1, hc.2⟩
            cases sent with
            | false => exact ⟨by simpa using hfits, hwritesFirst []⟩
            | true =>
              have hu : Tracked u.toSender := tracked_steps hsteps ht
              obtain ⟨hrest, hmore⟩ := ih .none hu
              refine ⟨List.forall_mem_cons.mpr ⟨hfits, hrest⟩, (hwritesFirst _).trans ?_⟩
              refine hmore.imp fun c hc hne => ?_
              obtain ⟨r, hr, hseg⟩ := hc hne
              exact ⟨r, List.mem_cons_of_mem _ hr, hseg⟩

theorem attemptSend_eq (s : PseudoTcp) (sflags : SendFlags) :
    s.attemptSend sflags = sendLoop (s.env.now s.ticks) s.loopStart.sendRounds sflags s.loopStart :=
  rfl

/-- In every state that steps lead to, between two calls and inside one: whatever
`attemptSend` sends for the first time lies in the window as it stood when it was chosen,
the search ends at a segment, and the loop ends. -/
theorem attemptSend_in_window {env : Env} {conv : UInt32} {s : PseudoTcp}
    (h : Steps (fun _ => True) (new env conv) s) (sflags : SendFlags) :
    (∀ r ∈ s.attemptRounds, r.Fits) ∧
    Writes (IsOf s.attemptRounds) s (s.attemptSend sflags) ∧
    ∀ fuel, s.loopStart.sendRounds ≤ fuel →
      sendLoop (s.env.now s.ticks) fuel sflags s.loopStart = s.attemptSend sflags := by
  have hsame : s.loopStart.toSender = s.toSender ∧ s.loopStart.written = s.written := by
    simp only [loopStart]
    split <;> exact ⟨rfl, rfl⟩
  have htracked : Tracked s.loopStart.toSender := by
    rw [hsame.1]
    exact tracked_steps h (tracked_new env conv)
  obtain ⟨hfits, hwrites⟩ :=
    sendLoop_choices (s.env.now s.ticks) s.loopStart.sendRounds sflags htracked
  refine ⟨hfits, ?_, fun fuel hfuel => ?_⟩
  · exact Writes.trans (.nothing hsame.2) hwrites
  · rw [attemptSend_eq]
    exact attemptSend_finishes _ sflags s.loopStart hfuel

/-- The connect message is sent in one round. -/
theorem attemptSend_in_window_connecting :
    let s := { new Env.still 7 with state := .synSent }.queueConnectMessage
    s.attemptRounds.length = 1 ∧ ∀ r ∈ s.attemptRounds, r.Fits := by
  have hqueue : Steps (fun _ => True) (new Env.still 7)
      { new Env.still 7 with state := .synSent }.queueConnectMessage :=
    .single (.queueConnect _ rfl (by decide))
  exact ⟨by decide +kernel, (attemptSend_in_window hqueue .none).1⟩

end Window

end Libjingle.PseudoTcp
