import Libjingle.PseudoTcp.Moves
import Libjingle.PseudoTcp.Unsent

/-! Fast recovery, from the third duplicate ack to the ack of everything that was in
flight then. The phase is kept in `m_dup_acks`, a counter of 8 bits. -/

namespace Libjingle.PseudoTcp

def quiet : Limits := { Limits.any with acks := fun _ _ _ => False }

theorem quiet_allows (c : AppCall) : quiet.Allows c := by
  cases c <;> trivial

theorem quiet_admits (env : Env) : quiet.Admits env := ⟨fun _ => trivial, fun _ c _ => quiet_allows c⟩

/-- The ack that `process` looks at in state `t` is a duplicate. -/
def IsDuplicate (t : PseudoTcp) (seg : Segment) : Prop :=
  seg.ack = t.sndUna ∧ seg.len = 0 ∧ t.sndUna ≠ t.sndNxt

def Ends (t : PseudoTcp) (seg : Segment) : Prop :=
  t.sndUna < seg.ack ∧ seg.ack ≤ t.sndNxt ∧ t.recover ≤ seg.ack

def ackAt (s : PseudoTcp) : Call → Option (PseudoTcp × Segment)
  | .notifyPacket buffer beyond =>
    if buffer.length > maxPacket.toNat ∨ UInt32.ofNat buffer.length < 12 then none
    else
      let seg := parseSegment (memory buffer beyond) (UInt32.ofNat buffer.length)
      (s.atAck seg).map (·, seg)
  | _ => none

instance (t : PseudoTcp) (seg : Segment) : Decidable (IsDuplicate t seg) :=
  inferInstanceAs (Decidable (_ ∧ _ ∧ _))

instance (t : PseudoTcp) (seg : Segment) : Decidable (Ends t seg) :=
  inferInstanceAs (Decidable (_ ∧ _ ∧ _))

def Starts (s : PseudoTcp) (c : Call) : Prop :=
  ∃ look ∈ s.ackAt c, IsDuplicate look.1 look.2 ∧ look.1.dupAcks = 2 ∧
    (look.1.acknowledge (s.env.now s.ticks) look.2).1 = true

/-- The call does not end recovery, nor is it a duplicate ack when `m_dup_acks` is full. -/
def Stays (s : PseudoTcp) (c : Call) : Prop :=
  ∀ look ∈ s.ackAt c, ¬ Ends look.1 look.2 ∧
    (IsDuplicate look.1 look.2 → look.1.dupAcks ≠ 255)

instance (s : PseudoTcp) (c : Call) : Decidable (Starts s c) :=
  inferInstanceAs (Decidable (∃ look ∈ s.ackAt c, _))

instance (s : PseudoTcp) (c : Call) : Decidable (Stays s c) :=
  inferInstanceAs (Decidable (∀ look ∈ s.ackAt c, _))

structure InRecovery (s : PseudoTcp) : Prop where
  tracked : Tracked s.toSender
  dupAcks : 3 ≤ s.dupAcks
  inFlight : s.sndUna ≠ s.sndNxt
  below : s.sndUna ≤ s.sndNxt → s.sndUna < s.recover

section Moves

variable {s t : PseudoTcp}

theorem quiet_move (hmove : Move quiet s t) (h : Tracked s.toSender) :
    t.dupAcks = s.dupAcks ∧ t.sndUna = s.sndUna ∧ t.recover = s.recover ∧
      ∃ n, t.sndNxt = s.sndNxt + n ∧ (s.sndNxt - s.sndUna).toNat + n.toNat < 4294967296 := by
  have hzero : ∃ n, s.sndNxt = s.sndNxt + n ∧
      (s.sndNxt - s.sndUna).toNat + n.toNat < 4294967296 :=
    ⟨0, (UInt32.add_zero _).symm, (s.sndNxt - s.sndUna).toNat_lt⟩
  have hnone : ¬ quiet.Acking := fun ⟨_, _, _, hacks⟩ => hacks
  cases hmove with
  | tune hcore htuning =>
    have hsender : t.toSender = s.toSender := congrArg Core.sender hcore
    rw [hsender]
    exact ⟨congrArg Tuning.dupAcks htuning, rfl, rfl, hzero⟩
  | @sent pre post seg n now hlist hsent hxmit hn =>
    refine ⟨rfl, rfl, rfl, ?_⟩
    by_cases hnew : seg.xmit = 0
    · obtain ⟨sent, htallied⟩ := h.tallied
      have hmin : min n seg.len = n := by
        rw [← UInt32.toNat_inj, UInt32.toNat_min]
        exact Nat.min_eq_left (UInt32.le_iff_toNat_le.mp hn)
      refine ⟨n, ?_, htallied.flight_lt hlist hsent hnew hn⟩
      dsimp only
      rw [if_pos hnew, hmin]
    · simpa [hnew] using hzero
  | store seg sflags =>
    obtain ⟨hcore, -⟩ := store_frame s (s.fitted seg) sflags
    have hsender : (s.store (s.fitted seg) sflags).2.2.toSender = s.toSender :=
      congrArg Core.sender hcore
    rw [hsender]
    exact ⟨congrArg Tuning.dupAcks (store_tuning s (s.fitted seg) sflags), rfl, rfl, hzero⟩
  | ack _ _ _ hacks => exact absurd hacks hnone
  | enter _ hacks => exact absurd hacks hnone
  | grow _ hacks => exact hacks.elim
  | exit _ _ hacks => exact absurd hacks hnone
  | dupAck _ hacks => exact hacks.elim
  | clearDup _ hacks => exact absurd hacks hnone
  | _ => exact ⟨rfl, rfl, rfl, hzero⟩

theorem flight_order {una nxt n : UInt32} (hne : una ≠ nxt)
    (h : (nxt - una).toNat + n.toNat < 4294967296) :
    una ≠ nxt + n ∧ (una ≤ nxt + n → una ≤ nxt) := by
  have huna := una.toNat_lt
  have hnxt := nxt.toNat_lt
  refine ⟨fun heq => hne ((add_eq_una_iff h).mp heq.symm).1.symm, fun hle => ?_⟩
  simp only [UInt32.le_iff_toNat_le, UInt32.toNat_add, UInt32.toNat_sub] at h hle ⊢
  omega

theorem quiet_moves (hmoves : Moves quiet s t) (h : Tracked s.toSender)
    (hflight : s.sndUna ≠ s.sndNxt) :
    t.dupAcks = s.dupAcks ∧ t.sndUna = s.sndUna ∧ t.recover = s.recover ∧ t.sndUna ≠ t.sndNxt ∧
      (t.sndUna ≤ t.sndNxt → s.sndUna ≤ s.sndNxt) := by
  induction hmoves with
  | refl => exact ⟨rfl, rfl, rfl, hflight, id⟩
  | @tail u v hsteps hlast ih =>
    obtain ⟨hdup, huna, hrecover, hne, hle⟩ := ih
    have htracked := tracked_steps (Moves.steps hsteps) h
    obtain ⟨hdup', huna', hrecover', n, hnxt, hlt⟩ := quiet_move hlast htracked
    obtain ⟨hne', hle'⟩ := flight_order hne hlt
    rw [hdup', huna', hrecover', hnxt]
    exact ⟨hdup, huna, hrecover, hne', fun h' => hle (hle' h')⟩

theorem inRecovery_moves (hmoves : Moves quiet s t) (h : s.InRecovery) : t.InRecovery := by
  obtain ⟨hdup, huna, hrecover, hne, hle⟩ := quiet_moves hmoves h.tracked h.inFlight
  refine ⟨tracked_steps (Moves.steps hmoves) h.tracked, hdup ▸ h.dupAcks, hne, fun h' => ?_⟩
  rw [huna, hrecover]
  exact h.below (hle h')

end Moves

section Recovery

variable {s t u : PseudoTcp} {seg : Segment}

theorem add_one_gt_three {n : UInt8} (h : 3 ≤ n) (hwrap : n ≠ 255) : n + 1 ≠ 3 ∧ n + 1 > 3 := by
  have hthree := UInt8.le_iff_toNat_le.mp h
  have hlt := n.toNat_lt
  have hne : n.toNat ≠ 255 := fun heq => hwrap (UInt8.toNat_inj.mp heq)
  change 3 ≤ n.toNat at hthree
  simp only [ne_eq, gt_iff_lt, UInt8.lt_iff_toNat_lt, ← UInt8.toNat_inj, UInt8.toNat_add]
  simp only [UInt8.reduceToNat, UInt8.toNat_one]
  omega

theorem InRecovery.inflate (h : t.InRecovery) (hdup : IsDuplicate t seg) (hwrap : t.dupAcks ≠ 255)
    (now : UInt32) : t.acknowledge now seg = (true, { t with
      sndWnd := seg.wnd.toUInt32 <<< t.swndScale.toUInt32
      dupAcks := t.dupAcks + 1
      cwnd := t.cwnd + t.mss }) := by
  obtain ⟨hack, hlen, hflight⟩ := hdup
  have hold : ¬ (seg.ack > t.sndUna ∧ seg.ack ≤ t.sndNxt) := by
    rw [hack]
    exact fun hnew => UInt32.lt_irrefl _ hnew.1
  have hempty : ¬ seg.len > 0 := by
    rw [hlen]
    exact UInt32.lt_irrefl _
  have hcount := add_one_gt_three h.dupAcks hwrap
  rw [acknowledge, if_neg hold, if_pos hack]
  dsimp only
  rw [if_neg hempty, if_pos hflight, if_neg hcount.1, if_pos hcount.2]

theorem InRecovery.consumeAck (h : t.InRecovery) (now : UInt32)
    (hnew : seg.ack > t.sndUna ∧ seg.ack ≤ t.sndNxt) (hends : ¬ Ends t seg) :
    ((t.updateRtt now seg.tsecr).consumeAck now seg).InRecovery := by
  obtain ⟨hcore, -⟩ := updateRtt_core t now seg.tsecr
  have hsender : (t.updateRtt now seg.tsecr).toSender = t.toSender := congrArg Core.sender hcore
  have hdup : (t.updateRtt now seg.tsecr).dupAcks = t.dupAcks :=
    congrArg Tuning.dupAcks (updateRtt_tuning t now seg.tsecr)
  have hnew' : seg.ack > (t.updateRtt now seg.tsecr).sndUna ∧
      seg.ack ≤ (t.updateRtt now seg.tsecr).sndNxt := by
    rw [hsender]
    exact hnew
  have hstep : Step (fun _ => True) (t.updateRtt now seg.tsecr) _ :=
    .ack _ now seg hnew'.1 hnew'.2
  have hpartial : seg.ack < t.recover :=
    UInt32.not_le.mp fun hle => hends ⟨hnew.1, hnew.2, hle⟩
  have hrecover : t.recover ≤ t.sndNxt :=
    h.tracked.recover (UInt32.le_trans (UInt32.le_of_lt hnew.1) hnew.2)
  refine ⟨tracked_step hstep (hsender ▸ h.tracked), ?_, ?_, fun _ => ?_⟩
  · change 3 ≤ (t.updateRtt now seg.tsecr).dupAcks
    rw [hdup]
    exact h.dupAcks
  · change seg.ack ≠ (t.updateRtt now seg.tsecr).sndNxt
    rw [hsender]
    exact UInt32.ne_of_lt (UInt32.lt_of_lt_of_le hpartial hrecover)
  · change seg.ack < (t.updateRtt now seg.tsecr).recover
    rw [hsender]
    exact hpartial

theorem InRecovery.acknowledge (h : t.InRecovery) (now : UInt32) (hends : ¬ Ends t seg)
    (hwrap : IsDuplicate t seg → t.dupAcks ≠ 255) : (t.acknowledge now seg).2.InRecovery := by
  by_cases hnew : seg.ack > t.sndUna ∧ seg.ack ≤ t.sndNxt
  · have hv := h.consumeAck now hnew hends
    have hle : ((t.updateRtt now seg.tsecr).consumeAck now seg).sndUna ≤
        ((t.updateRtt now seg.tsecr).consumeAck now seg).sndNxt := by
      obtain ⟨hcore, -⟩ := updateRtt_core t now seg.tsecr
      have hnxt : (t.updateRtt now seg.tsecr).sndNxt = t.sndNxt :=
        congrArg (·.sender.sndNxt) hcore
      change seg.ack ≤ (t.updateRtt now seg.tsecr).sndNxt
      rw [hnxt]
      exact hnew.2
    rw [PseudoTcp.acknowledge, if_pos hnew]
    generalize (t.updateRtt now seg.tsecr).consumeAck now seg = v at hv hle
    dsimp only
    have hbelow := hv.below hle
    obtain ⟨htrans, -⟩ : Moves quiet v (v.transmit 0 now).2 ∧ _ :=
      transmit_first_moves trivial (.inr (.inr ⟨hbelow, hle⟩))
    rw [if_pos hv.dupAcks, if_neg (UInt32.not_le.mpr hbelow)]
    split <;> rename_i u hu <;> rw [hu] at htrans
    · have hlost : Moves quiet v u := htrans
      have hclosed : Moves quiet u (u.closedown .econnaborted) :=
        closedown_moves u .econnaborted (quiet_admits u.env)
      exact inRecovery_moves (hlost.trans hclosed) hv
    · have hsent : Moves quiet v u := htrans
      have hu := inRecovery_moves hsent hv
      exact ⟨hu.tracked, hu.dupAcks, hu.inFlight, hu.below⟩
  · rw [PseudoTcp.acknowledge, if_neg hnew]
    by_cases hack : seg.ack = t.sndUna
    · by_cases hlen : seg.len > 0
      · rw [if_pos hack, if_pos hlen]
        exact ⟨h.tracked, h.dupAcks, h.inFlight, h.below⟩
      · have hdup : IsDuplicate t seg :=
          ⟨hack, UInt32.le_zero_iff.mp (UInt32.not_lt.mp hlen), h.inFlight⟩
        have hinflate := h.inflate hdup (hwrap hdup) now
        rw [PseudoTcp.acknowledge, if_neg hnew] at hinflate
        rw [hinflate]
        refine ⟨h.tracked, ?_, h.inFlight, h.below⟩
        have hcount := UInt8.lt_iff_toNat_lt.mp (add_one_gt_three h.dupAcks (hwrap hdup)).2
        exact UInt8.le_iff_toNat_le.mpr (Nat.le_of_lt hcount)
    · rw [if_neg hack]
      exact h

theorem inRecovery_start {now : UInt32} (h : Tracked t.toSender) (hdup : IsDuplicate t seg)
    (htwo : t.dupAcks = 2) (hsent : t.acknowledge now seg = (true, u)) : u.InRecovery := by
  obtain ⟨hack, hlen, hflight⟩ := hdup
  have hold : ¬ (seg.ack > t.sndUna ∧ seg.ack ≤ t.sndNxt) := by
    rw [hack]
    exact fun hnew => UInt32.lt_irrefl _ hnew.1
  have hempty : ¬ seg.len > 0 := by
    rw [hlen]
    exact UInt32.lt_irrefl _
  have hthree : t.dupAcks + 1 = 3 := by rw [htwo]; rfl
  rw [acknowledge, if_neg hold, if_pos hack] at hsent
  dsimp only at hsent
  rw [if_neg hempty, if_pos hflight, if_pos hthree] at hsent
  let v : PseudoTcp := { t with
    sndWnd := seg.wnd.toUInt32 <<< t.swndScale.toUInt32, dupAcks := t.dupAcks + 1 }
  obtain ⟨htrans, hsame⟩ : Moves quiet v (v.transmit 0 now).2 ∧ _ :=
    transmit_first_moves trivial (.inr (.inl hflight))
  have hv : Tracked v.toSender := h
  split at hsent <;> rename_i w hw
  · cases hsent
  · have hw' : v.transmit 0 now = (true, w) := hw
    rw [hw'] at htrans hsame
    obtain ⟨-, rfl⟩ := Prod.mk.inj hsent
    obtain ⟨-, -, -, hne, -⟩ := quiet_moves htrans hv hflight
    have htracked := tracked_steps (Moves.steps htrans) hv
    have hset : Step (fun _ => True) w _ := .setRecover w
    have hrecover : Tracked { w.toSender with recover := w.sndNxt } := tracked_step hset htracked
    refine ⟨hrecover, ?_, hne, fun hle => ?_⟩
    · have hdup : w.dupAcks = 3 := hsame.dupAcks.trans hthree
      change 3 ≤ w.dupAcks
      rw [hdup]
      exact UInt8.le_refl _
    · exact UInt32.lt_of_le_of_ne hle hne

theorem finish_inRecovery (h : u.InRecovery) (bConnect : Bool) (seg : Segment) :
    (((u.finishOpen bConnect).notifyWriteable).receive seg).InRecovery := by
  have hfinish : Moves quiet u (((u.finishOpen bConnect).notifyWriteable).receive seg) :=
    finish_moves (quiet_admits u.env) bConnect trivial
  exact inRecovery_moves hfinish h

theorem process_inRecovery (h : s.InRecovery)
    (hstays : ∀ t, s.atAck seg = some t → ¬ Ends t seg ∧ (IsDuplicate t seg → t.dupAcks ≠ 255)) :
    (s.process seg).2.InRecovery := by
  cases hat : s.atAck seg with
  | none =>
    have hmoves : Moves quiet s (s.process seg).2 :=
      process_moves (quiet_admits s.env) trivial fun t ht => by simp [hat] at ht
    exact inRecovery_moves hmoves h
  | some t =>
    obtain ⟨hends, hwrap⟩ := hstays t hat
    have ht := inRecovery_moves (atAck_moves (quiet_admits s.env) hat) h
    have hu := ht.acknowledge (s.env.now s.ticks) hends hwrap
    obtain ⟨bConnect, hprocess⟩ := process_of_atAck hat
    rw [hprocess]
    split <;> rename_i u hack <;> rw [hack] at hu
    · exact hu
    · dsimp only at hu ⊢
      exact finish_inRecovery hu bConnect seg

theorem call_inRecovery (h : s.InRecovery) {c : Call} (hstays : Stays s c) :
    (s.call c).InRecovery := by
  cases c with
  | app c => exact inRecovery_moves (app_moves (quiet_admits s.env) (quiet_allows c)) h
  | notifyPacket buffer beyond =>
    simp only [call, notifyPacket, parse]
    by_cases hlong : buffer.length > maxPacket.toNat
    · rw [if_pos hlong]
      exact h
    · by_cases hshort : UInt32.ofNat buffer.length < 12
      · rw [if_neg hlong, if_pos hshort]
        exact h
      · rw [if_neg hlong, if_neg hshort]
        refine process_inRecovery h fun t ht => hstays (t, _) ?_
        rw [Option.mem_def, ackAt, if_neg (not_or.mpr ⟨hlong, hshort⟩)]
        dsimp only
        rw [ht]
        rfl
  | notifyClock now =>
    have hmoves : Moves quiet s (s.notifyClock now) := notifyClock_moves (quiet_admits s.env) trivial
    exact inRecovery_moves hmoves h

theorem starts_inRecovery (h : Tracked s.toSender) {c : Call} (hstarts : Starts s c) :
    (s.call c).InRecovery := by
  obtain ⟨⟨t, seg⟩, hlook, hdup, htwo, hsent⟩ := hstarts
  rw [Option.mem_def] at hlook
  cases c with
  | app c => cases hlook
  | notifyClock now => cases hlook
  | notifyPacket buffer beyond =>
    simp only [ackAt] at hlook
    split at hlook
    · cases hlook
    · rename_i hsize
      obtain ⟨hlong, hshort⟩ := not_or.mp hsize
      obtain ⟨t', hat, heq⟩ := Option.map_eq_some_iff.mp hlook
      obtain ⟨rfl, rfl⟩ := Prod.mk.inj heq
      have htracked := tracked_steps (Moves.steps (atAck_moves (quiet_admits s.env) hat)) h
      obtain ⟨bConnect, hprocess⟩ := process_of_atAck hat
      simp only [call, notifyPacket, parse]
      rw [if_neg hlong, if_neg hshort, hprocess]
      split <;> rename_i u hack
      · rw [hack] at hsent
        cases hsent
      · have hu := inRecovery_start htracked hdup htwo hack
        dsimp only
        exact finish_inRecovery hu bConnect _

/-- In every run, from the third duplicate ack on until an ack ends recovery, `m_dup_acks`
is at least 3 and every further duplicate ack opens the congestion window by one segment
and leaves `m_ssthresh` alone, as long as none comes when the counter is at 255. -/
theorem recovery_phase (env : Env) (conv : UInt32) (before after : List Call) (third : Call)
    (hthird : Starts ((new env conv).run before) third)
    (hafter : Runs.Along call Stays ((new env conv).run (before ++ [third])) after) :
    let s := (new env conv).run (before ++ third :: after)
    3 ≤ s.dupAcks ∧ ∀ seg t u, s.atAck seg = some t → s.afterAck seg = some u →
      IsDuplicate t seg → t.dupAcks ≠ 255 →
        3 ≤ u.dupAcks ∧ u.cwnd = t.cwnd + t.mss ∧ u.ssthresh = t.ssthresh := by
  intro s
  have htracked : Tracked ((new env conv).run before).toSender :=
    tracked_steps (run_steps (new env conv) before) (tracked_new env conv)
  have hstart := starts_inRecovery htracked hthird
  have hfirst : (new env conv).run (before ++ [third]) = ((new env conv).run before).call third := by
    rw [run, List.foldl_append]
    rfl
  have hlast : s = ((new env conv).run (before ++ [third])).run after := by
    simp only [s, run, List.foldl_append, List.foldl_cons, List.foldl_nil]
  rw [hfirst] at hafter hlast
  have hstep : ∀ t c, InRecovery t → Stays t c → InRecovery (t.call c) ∧ True :=
    fun _ _ hi hstays => ⟨call_inRecovery hi hstays, trivial⟩
  have hs : s.InRecovery := by
    rw [hlast]
    exact (Runs.Along.invariant hstep hstart hafter).2
  refine ⟨hs.dupAcks, fun seg t u hat hafterAck hdup hwrap => ?_⟩
  have ht := inRecovery_moves (atAck_moves (quiet_admits s.env) hat) hs
  have hu : u = (t.acknowledge (s.env.now s.ticks) seg).2 := by
    rw [afterAck, hat] at hafterAck
    exact (Option.some.inj hafterAck).symm
  rw [ht.inflate hdup hwrap] at hu
  subst hu
  refine ⟨?_, rfl, rfl⟩
  exact UInt8.le_iff_toNat_le.mpr
    (Nat.le_of_lt (UInt8.lt_iff_toNat_lt.mp (add_one_gt_three ht.dupAcks hwrap).2))

/-- Both connect messages, and a byte in flight. -/
def oneByte : List Call :=
  [.app .connect, .notifyPacket (plainPacket 0 4 flagCtl [0]) fun _ => 0, .app (.send [1])]

def duplicateAck : Call := .notifyPacket (plainPacket 1 4 0 []) fun _ => 0

theorem recovery_phase_duplicates :
    let before := oneByte ++ [duplicateAck, duplicateAck]
    3 ≤ ((new Env.still 7).run (before ++ duplicateAck :: [duplicateAck])).dupAcks := by
  intro before
  have hthird : Starts ((new Env.still 7).run before) duplicateAck := by decide +kernel
  have hafter : Stays ((new Env.still 7).run (before ++ [duplicateAck])) duplicateAck := by
    decide +kernel
  exact (recovery_phase Env.still 7 before [duplicateAck] duplicateAck hthird ⟨hafter, trivial⟩).1

/-- The 253rd further duplicate ack clears the counter: recovery is over, and the window
did not grow. -/
theorem duplicate_ack_wraps :
    Starts ((new Env.still 7).run (oneByte ++ List.replicate 2 duplicateAck)) duplicateAck ∧
    let s := (new Env.still 7).run (oneByte ++ List.replicate 255 duplicateAck)
    let t := s.call duplicateAck
    s.dupAcks = 255 ∧ (∃ look ∈ s.ackAt duplicateAck, IsDuplicate look.1 look.2) ∧
      t.dupAcks = 0 ∧ t.cwnd = s.cwnd := by
  decide +kernel

end Recovery

end Libjingle.PseudoTcp
