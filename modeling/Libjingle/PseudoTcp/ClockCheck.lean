import Libjingle.Base.TimeUtils
import Libjingle.PseudoTcp.Moves
import Libjingle.PseudoTcp.SendWindow

/-! `GetNextClock` and `NotifyClock` agree on when there is something to do. -/

namespace Libjingle.PseudoTcp

def defaultTimeout : Int := 4000
def closedTimeout : Int := 60 * 1000

/-- `clock_check`, behind `GetNextClock`: the time until the next call of `NotifyClock`. -/
def clockCheck (s : PseudoTcp) (now : UInt32) : Option Int :=
  if s.shutdown = .forceful then none
  else if s.shutdown = .graceful ∧
      (s.state ≠ .established ∨ s.sbuf.getBuffered = 0 ∧ s.tAck = 0) then none
  else if s.state = .closed then some closedTimeout
  else
    let nTimeout := defaultTimeout
    let nTimeout := if s.tAck ≠ 0 then min nTimeout (timeDiff (s.tAck + s.ackDelay) now) else nTimeout
    let nTimeout := if s.rtoBase ≠ 0 then min nTimeout (timeDiff (s.rtoBase + s.rxRto) now) else nTimeout
    let nTimeout := if s.sndWnd = 0 then min nTimeout (timeDiff (s.lastsend + s.rxRto) now) else nTimeout
    some nTimeout

/-- When the timers that are armed go off: the delayed ack, the retransmission and the
window probe. -/
def deadlines (s : PseudoTcp) : List UInt32 :=
  (if s.tAck ≠ 0 then [s.tAck + s.ackDelay] else []) ++
    (if s.rtoBase ≠ 0 then [s.rtoBase + s.rxRto] else []) ++
    (if s.sndWnd = 0 then [s.lastsend + s.rxRto] else [])

theorem mem_deadlines {s : PseudoTcp} {deadline : UInt32} : deadline ∈ s.deadlines ↔
    s.tAck ≠ 0 ∧ deadline = s.tAck + s.ackDelay ∨ s.rtoBase ≠ 0 ∧ deadline = s.rtoBase + s.rxRto ∨
      s.sndWnd = 0 ∧ deadline = s.lastsend + s.rxRto := by
  simp only [deadlines, List.mem_append, List.mem_ite_nil_right, List.mem_singleton, or_assoc]

def Sends (s t : PseudoTcp) : Prop := ∃ c packets, t.written = s.written ++ c :: packets

section Timeout

variable {s : PseudoTcp} {now : UInt32} {t : Int}

theorem sooner_spec (n : Int) (armed : Prop) [Decidable armed] (deadline now : UInt32) :
    let m := if armed then min n (timeDiff deadline now) else n
    m ≤ n ∧ (∀ x ∈ (if armed then [deadline] else []), m ≤ timeDiff x now) ∧
      (m = n ∨ ∃ x ∈ (if armed then [deadline] else []), timeDiff x now = m) := by
  by_cases harmed : armed
  · simp only [if_pos harmed, List.mem_singleton, forall_eq, exists_eq_left]
    exact ⟨Int.min_le_left _ _, Int.min_le_right _ _, by omega⟩
  · simp [if_neg harmed]

theorem clockCheck_open (hopen : s.state ≠ .closed) (h : s.clockCheck now = some t) :
    (∀ deadline ∈ s.deadlines, t ≤ timeDiff deadline now) ∧
      (t < defaultTimeout → ∃ deadline ∈ s.deadlines, timeDiff deadline now = t) := by
  have hack := sooner_spec defaultTimeout (s.tAck ≠ 0) (s.tAck + s.ackDelay) now
  dsimp only at hack
  set first := if s.tAck ≠ 0 then min defaultTimeout (timeDiff (s.tAck + s.ackDelay) now)
    else defaultTimeout with hfirst
  have hrto := sooner_spec first (s.rtoBase ≠ 0) (s.rtoBase + s.rxRto) now
  dsimp only at hrto
  set second := if s.rtoBase ≠ 0 then min first (timeDiff (s.rtoBase + s.rxRto) now) else first
    with hsecond
  have hprobe := sooner_spec second (s.sndWnd = 0) (s.lastsend + s.rxRto) now
  dsimp only at hprobe
  have ht : (if s.sndWnd = 0 then min second (timeDiff (s.lastsend + s.rxRto) now) else second) = t := by
    simp only [clockCheck, if_neg hopen] at h
    split at h
    · cases h
    · split at h
      · cases h
      · exact Option.some.inj h
  rw [ht] at hprobe
  obtain ⟨hprobeLe, hprobeAll, hprobeSome⟩ := hprobe
  obtain ⟨hrtoLe, hrtoAll, hrtoSome⟩ := hrto
  obtain ⟨-, hackAll, hackSome⟩ := hack
  simp only [deadlines, List.mem_append]
  refine ⟨?_, fun hlt => ?_⟩
  · rintro x ((hx | hx) | hx)
    · exact Int.le_trans (Int.le_trans hprobeLe hrtoLe) (hackAll x hx)
    · exact Int.le_trans hprobeLe (hrtoAll x hx)
    · exact hprobeAll x hx
  · rcases hprobeSome with hprobeSome | ⟨x, hx, hdiff⟩
    · rcases hrtoSome with hrtoSome | ⟨x, hx, hdiff⟩
      · rcases hackSome with hackSome | ⟨x, hx, hdiff⟩
        · omega
        · exact ⟨x, .inl (.inl hx), by omega⟩
      · exact ⟨x, .inl (.inr hx), by omega⟩
    · exact ⟨x, .inr hx, hdiff⟩

theorem timeDiff_add (deadline now : UInt32) {d : Int}
    (hlow : -2147483648 ≤ timeDiff deadline now - d) (hhigh : timeDiff deadline now - d < 2147483648) :
    timeDiff deadline (now + UInt32.ofInt d) = timeDiff deadline now - d := by
  let n := timeOf 0 now
  have hnow : clockAt n = now := clockAt_timeOf 0 now
  have hdeadline : clockAt (n + timeDiff deadline now) = deadline := by
    have h := clockAt_timeOf n deadline
    rwa [timeOf, hnow] at h
  have hlater : now + UInt32.ofInt d = clockAt (n + d) := by
    rw [← clockAt_add_clockAt, hnow]
    rfl
  have hdiff := @timeDiff_clockAt (n + timeDiff deadline now) (n + d) (by omega) (by omega)
  rw [hdeadline, ← hlater] at hdiff
  have hsame : timeDiff deadline (now + UInt32.ofInt d) = Libjingle.timeDiff deadline (now + UInt32.ofInt d) := rfl
  omega

theorem notifyClock_early (h : ∀ deadline ∈ s.deadlines, 0 < timeDiff deadline now) :
    s.notifyClock now = s := by
  have hack : ¬ (s.tAck ≠ 0 ∧ timeDiff (s.tAck + s.ackDelay) now ≤ 0) := fun ⟨harmed, hdue⟩ =>
    absurd (h _ (mem_deadlines.mpr (.inl ⟨harmed, rfl⟩))) (Int.not_lt.mpr hdue)
  have hrto : ¬ (s.rtoBase ≠ 0 ∧ timeDiff (s.rtoBase + s.rxRto) now ≤ 0) := fun ⟨harmed, hdue⟩ =>
    absurd (h _ (mem_deadlines.mpr (.inr (.inl ⟨harmed, rfl⟩)))) (Int.not_lt.mpr hdue)
  have hprobe : ¬ (s.sndWnd = 0 ∧ timeDiff (s.lastsend + s.rxRto) now ≤ 0) := fun ⟨harmed, hdue⟩ =>
    absurd (h _ (mem_deadlines.mpr (.inr (.inr ⟨harmed, rfl⟩)))) (Int.not_lt.mpr hdue)
  simp only [notifyClock, retransmit, probeWindow, if_neg hack, if_neg hrto, if_neg hprobe]
  split <;> rfl

end Timeout

section Act

variable {s t u : PseudoTcp} {now : UInt32}

theorem Sends.trans {P : PacketCall → Prop} (h : Sends s t) (h' : Writes P t u) : Sends s u := by
  obtain ⟨c, packets, hfirst⟩ := h
  obtain ⟨more, hsecond, -⟩ := h'
  exact ⟨c, packets ++ more, by rw [hsecond, hfirst, List.append_assoc, List.cons_append]⟩

theorem packet_sends (s : PseudoTcp) (seq : UInt32) (flags : UInt8) (offset len : UInt32) :
    Sends s (s.packet seq flags offset len).2 :=
  ⟨s.packetCall seq flags offset len, [],
    congrArg Core.written (packet_core s seq flags offset len).1⟩

theorem sendSegment_sends (s : PseudoTcp) (seg : SSegment) : Sends s (s.sendSegment seg).2 := by
  have hp := packet_sends s seg.seq (if seg.bCtrl then flagCtl else 0) (seg.seq - s.sndUna)
    (min seg.len s.mss)
  simp only [sendSegment]
  split <;> rename_i v hv <;> rw [hv] at hp
  · exact hp
  · exact hp
  · exact hp.trans (shrink_writes _ _ v)

theorem transmit_sends {i : Nat} (h : s.transmit i now = (true, t)) : Sends s t := by
  simp only [transmit] at h
  split at h
  · cases h
  · rename_i seg hseg
    have hsend := sendSegment_sends s seg
    by_cases hxmit : seg.xmit ≥ if s.state = .established then 15 else 30
    · rw [if_pos hxmit] at h
      cases h
    · rw [if_neg hxmit] at h
      split at h <;> rename_i v hv <;> rw [hv] at hsend
      · cases h
      · obtain ⟨-, rfl⟩ := Prod.mk.inj h
        exact hsend

theorem closedown_closed (s : PseudoTcp) (err : Errno) : (s.closedown err).state = .closed := by
  have hcalls : ∀ (calls : List AppCall) (t : PseudoTcp), t.state = .closed →
      (calls.foldl app t).state = .closed := by
    intro calls
    induction calls with
    | nil => exact fun _ ht => ht
    | cons c rest ih => exact fun t ht => ih (t.app c) (app_totals ht c).1
  rw [closedown, notify]
  exact hcalls _ _ rfl

theorem retransmit_due (hlist : s.slist ≠ [])
    (hdue : s.rtoBase ≠ 0 ∧ timeDiff (s.rtoBase + s.rxRto) now ≤ 0) :
    ((s.retransmit now).1 = false → (s.retransmit now).2.state = .closed) ∧
      ((s.retransmit now).1 = true → Sends s (s.retransmit now).2) := by
  simp only [retransmit]
  rw [if_pos hdue, if_neg hlist]
  split
  · exact ⟨fun _ => closedown_closed _ _, fun h => by cases h⟩
  · rename_i v hv
    exact ⟨fun h => (by cases h), fun _ => (transmit_sends hv).trans (P := fun _ => True) (.nothing rfl)⟩

theorem probeWindow_due (hdue : s.sndWnd = 0 ∧ timeDiff (s.lastsend + s.rxRto) now ≤ 0) :
    ((s.probeWindow now).1 = false → (s.probeWindow now).2.state = .closed) ∧
      ((s.probeWindow now).1 = true → Sends s (s.probeWindow now).2) := by
  simp only [probeWindow]
  rw [if_pos hdue]
  by_cases hidle : timeDiff now s.lastrecv ≥ 15000
  · rw [if_pos hidle]
    exact ⟨fun _ => closedown_closed _ _, fun h => by cases h⟩
  · rw [if_neg hidle]
    exact ⟨fun h => (by cases h), fun _ =>
      (packet_sends s (s.sndNxt - 1) 0 0 0).trans (P := fun _ => True) (.nothing rfl)⟩

theorem probeWindow_writes (s : PseudoTcp) (now : UInt32) :
    ((s.probeWindow now).1 = false → (s.probeWindow now).2.state = .closed) ∧
      ((s.probeWindow now).1 = true → Writes (fun _ => True) s (s.probeWindow now).2) := by
  by_cases hdue : s.sndWnd = 0 ∧ timeDiff (s.lastsend + s.rxRto) now ≤ 0
  · obtain ⟨hfail, hsend⟩ := probeWindow_due hdue
    refine ⟨hfail, fun h => ?_⟩
    obtain ⟨c, packets, hwritten⟩ := hsend h
    exact ⟨c :: packets, hwritten, fun _ _ => trivial⟩
  · rw [probeWindow, if_neg hdue]
    exact ⟨fun h => (by cases h), fun _ => .nothing rfl⟩

theorem delayedAck_writes (s : PseudoTcp) (now : UInt32) :
    Writes (fun _ => True) s
      (if s.tAck ≠ 0 ∧ timeDiff (s.tAck + s.ackDelay) now ≤ 0 then (s.packet s.sndNxt 0 0 0).2
        else s) := by
  split
  · exact (packet_writes s s.sndNxt 0 0 0).imp fun _ _ => trivial
  · exact .nothing rfl

theorem notifyClock_due (hopen : s.state ≠ .closed) (hlist : s.rtoBase ≠ 0 → s.slist ≠ [])
    {deadline : UInt32} (h : deadline ∈ s.deadlines) (hdue : timeDiff deadline now ≤ 0) :
    (s.notifyClock now).state = .closed ∨ Sends s (s.notifyClock now) := by
  simp only [notifyClock]
  rw [if_neg hopen]
  by_cases hrto : s.rtoBase ≠ 0 ∧ timeDiff (s.rtoBase + s.rxRto) now ≤ 0
  · obtain ⟨hfail, hsend⟩ := retransmit_due (hlist hrto.1) hrto
    split <;> rename_i u hu <;> rw [hu] at hfail hsend
    · exact .inl (hfail rfl)
    · have hu' : Sends s u := hsend rfl
      obtain ⟨hclosed, hprobe⟩ := probeWindow_writes u now
      split <;> rename_i v hv <;> rw [hv] at hclosed hprobe
      · exact .inl (hclosed rfl)
      · exact .inr ((hu'.trans (hprobe rfl)).trans (delayedAck_writes v now))
  · have hidle : s.retransmit now = (true, s) := by rw [retransmit, if_neg hrto]
    rw [hidle]
    dsimp only
    by_cases hprobe : s.sndWnd = 0 ∧ timeDiff (s.lastsend + s.rxRto) now ≤ 0
    · obtain ⟨hclosed, hsend⟩ := probeWindow_due hprobe
      split <;> rename_i v hv <;> rw [hv] at hclosed hsend
      · exact .inl (hclosed rfl)
      · exact .inr (Sends.trans (hsend rfl) (delayedAck_writes v now))
    · have hnone : s.probeWindow now = (true, s) := by rw [probeWindow, if_neg hprobe]
      have hack : s.tAck ≠ 0 ∧ timeDiff (s.tAck + s.ackDelay) now ≤ 0 := by
        rcases mem_deadlines.mp h with ⟨harmed, rfl⟩ | ⟨harmed, rfl⟩ | ⟨harmed, rfl⟩
        · exact ⟨harmed, hdue⟩
        · exact absurd ⟨harmed, hdue⟩ hrto
        · exact absurd ⟨harmed, hdue⟩ hprobe
      rw [hnone]
      dsimp only
      rw [if_pos hack]
      exact .inr (packet_sends s s.sndNxt 0 0 0)

end Act

structure Waiting (s : PseudoTcp) : Prop where
  tracked : Tracked s.toSender
  listed : s.rtoBase ≠ 0 → s.slist ≠ []

section Waiting

variable {L : Limits} {s t : PseudoTcp}

theorem queue_ne_nil (s : PseudoTcp) (data : List UInt8) (bCtrl : Bool) :
    (s.queue data bCtrl).2.slist ≠ [] := by
  rcases queue_slist s data bCtrl with hlist | ⟨front, back, -, -, -, hlist⟩ <;> rw [hlist] <;> simp

theorem waiting_move (hmove : Move L s t) (h : s.Waiting) : t.Waiting := by
  refine ⟨tracked_steps hmove.steps h.tracked, ?_⟩
  have hlisted := h.listed
  cases hmove with
  | tune hcore htuning =>
    have hrto : t.rtoBase = s.rtoBase := congrArg Tuning.rtoBase htuning
    have hlist : t.slist = s.slist := congrArg (·.sender.slist) hcore
    rw [hrto, hlist]
    exact hlisted
  | cut => simp [cut_ne_nil]
  | sent => simp [markSent_ne_nil]
  | queueData data =>
    intro hrto
    exact queue_ne_nil s data false
  | @queueConnect state =>
    intro hrto
    exact queue_ne_nil { s with
      state := state, sndWnd := UInt32.ofNat s.connectMessageBytes.length } s.connectMessageBytes true
  | @ack now seg hlt hle =>
    -- what was not acknowledged is still listed
    obtain ⟨sent, htallied⟩ := h.tracked.tallied
    obtain ⟨sent', h'⟩ := htallied.ack_step s.largest hlt hle
    change (if seg.ack = s.sndNxt then 0 else now) ≠ 0 →
      (freeSegments s.slist (seg.ack - s.sndUna) s.largest).1 ≠ []
    intro hrto hnil
    have hne : s.sndNxt ≠ seg.ack := by
      rintro heq
      exact hrto (if_pos heq.symm)
    obtain ⟨first, rest, hfirst, -⟩ :=
      Tracked.first_sent (h.tracked.ack_step s.largest hlt hle) hne
    cases hnil.symm.trans hfirst
  | store seg sflags =>
    obtain ⟨hcore, -⟩ := store_frame s (s.fitted seg) sflags
    have hrto : (s.store (s.fitted seg) sflags).2.2.rtoBase = s.rtoBase :=
      congrArg Tuning.rtoBase (store_tuning s (s.fitted seg) sflags)
    have hlist : (s.store (s.fitted seg) sflags).2.2.slist = s.slist :=
      congrArg (·.sender.slist) hcore
    rw [hrto, hlist]
    exact hlisted
  | timeout hrto hne => exact fun _ => hne
  | _ => exact hlisted

theorem waiting_moves (hmoves : Moves L s t) (h : s.Waiting) : t.Waiting := by
  induction hmoves with
  | refl => exact h
  | tail _ hlast ih => exact waiting_move hlast ih

theorem run_waiting (env : Env) (conv : UInt32) (calls : List Call) :
    Waiting ((new env conv).run calls) :=
  waiting_moves (any_moves _ calls) ⟨tracked_new env conv, fun h => absurd rfl h⟩

/-- While a connection is open, `NotifyClock` does nothing before the time that
`GetNextClock` reports and something at that time, unless no timer is armed; no timer
goes off before. -/
theorem clockCheck_agrees (env : Env) (conv : UInt32) (calls : List Call) (now : UInt32) (t : Int) :
    let s := (new env conv).run calls
    s.state ≠ .closed → s.clockCheck now = some t →
      (∀ d < t, (∀ deadline ∈ s.deadlines, timeDiff deadline now - d < 2147483648) →
        s.notifyClock (now + UInt32.ofInt d) = s) ∧
      (t < defaultTimeout → (s.notifyClock (now + UInt32.ofInt t)).state = .closed ∨
        Sends s (s.notifyClock (now + UInt32.ofInt t))) ∧
      ∀ deadline ∈ s.deadlines, t ≤ timeDiff deadline now := by
  intro s hopen h
  obtain ⟨hle, hfirst⟩ := clockCheck_open hopen h
  refine ⟨fun d hd hnear => ?_, fun hlt => ?_, hle⟩
  · apply notifyClock_early
    intro deadline hdeadline
    have hlow := hle deadline hdeadline
    rw [timeDiff_add deadline now (by omega) (hnear deadline hdeadline)]
    omega
  · obtain ⟨deadline, hdeadline, hdiff⟩ := hfirst hlt
    refine notifyClock_due hopen (run_waiting env conv calls).listed hdeadline ?_
    rw [timeDiff_add deadline now (by omega) (by omega)]
    omega

def owing : List Call :=
  [.app .connect, .notifyPacket (plainPacket 0 0 flagCtl [0]) fun _ => 0]

theorem clockCheck_agrees_owing :
    let s := (new Env.still 7).run owing
    s.notifyClock (1000 + UInt32.ofInt 99) = s ∧ Sends s (s.notifyClock (1000 + UInt32.ofInt 100)) := by
  intro s
  have hopen : s.state ≠ .closed := by decide +kernel
  have htimeout : s.clockCheck 1000 = some 100 := by decide +kernel
  obtain ⟨hearly, hlate, -⟩ := clockCheck_agrees Env.still 7 owing 1000 100 hopen htimeout
  have hall : s.deadlines.all (fun deadline => timeDiff deadline 1000 - 99 < 2147483648) = true := by
    decide +kernel
  have hnear : ∀ deadline ∈ s.deadlines, timeDiff deadline 1000 - 99 < 2147483648 :=
    fun deadline hmem => of_decide_eq_true (List.all_eq_true.mp hall deadline hmem)
  refine ⟨hearly 99 (by decide) hnear, (hlate (by decide)).resolve_left ?_⟩
  decide +kernel

/-- The ack is due after 100 ms, the retransmission much later. -/
theorem deadline_after_timeout :
    let s := (new Env.still 7).run owing
    s.state = .established ∧ s.shutdown = .none ∧ s.clockCheck 1000 = some 100 ∧
      ∃ deadline ∈ s.deadlines, timeDiff deadline (1000 + UInt32.ofInt 100) > 0 := by
  intro s
  have hany : s.deadlines.any (fun deadline => timeDiff deadline (1000 + UInt32.ofInt 100) > 0) =
      true := by
    decide +kernel
  obtain ⟨deadline, hmem, hlate⟩ := List.any_eq_true.mp hany
  exact ⟨by decide +kernel, by decide +kernel, by decide +kernel, deadline, hmem,
    of_decide_eq_true hlate⟩

end Waiting

end Libjingle.PseudoTcp
