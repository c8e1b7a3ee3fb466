import Libjingle.PseudoTcp.Steps

/-! The loop of `attemptSend` ends: every round sends a byte, or an empty segment,
that was not sent before. -/

namespace Libjingle.PseudoTcp

open Layout

theorem shrink_pos {seq : UInt32} {flags : UInt8} {offset : UInt32} (sizes : List UInt32)
    {n : UInt32} {s : PseudoTcp} (hsizes : ∀ size ∈ sizes, size ≠ 0 → size - packetOverhead ≠ 0)
    (hn : n ≠ 0) : ∀ k, (shrink seq flags offset sizes n s).1 = some k → k ≠ 0 := by
  induction sizes generalizing n s with
  | nil => simp [shrink]
  | cons size smaller ih =>
    have hsmaller : ∀ size ∈ smaller, size ≠ 0 → size - packetOverhead ≠ 0 :=
      fun size' h => hsizes size' (List.mem_cons_of_mem _ h)
    simp only [shrink]
    split
    · simp
    · rename_i hz
      have hmss : size - packetOverhead ≠ 0 := hsizes size List.mem_cons_self hz
      split
      · split
        · rintro k ⟨⟩
          exact hmss
        · simp
        · exact ih hsmaller hmss
      · exact ih hsmaller hn

theorem sendSegment_pos {s : PseudoTcp} {seg : SSegment} (hmss : s.mss ≠ 0) (hlen : seg.len ≠ 0) :
    ∀ k, (s.sendSegment seg).1 = some k → k ≠ 0 := by
  have hmin : min seg.len s.mss ≠ 0 := by
    intro hz
    rw [← UInt32.toNat_inj, UInt32.toNat_min] at hz
    rcases Nat.le_total seg.len.toNat s.mss.toNat with hle | hle
    · rw [Nat.min_eq_left hle] at hz
      exact hlen (UInt32.toNat_inj.mp hz)
    · rw [Nat.min_eq_right hle] at hz
      exact hmss (UInt32.toNat_inj.mp hz)
  have hsizes : ∀ size ∈ packetMaximums, size ≠ 0 → size - packetOverhead ≠ 0 := by
    simp [packetMaximums, packetOverhead]
  simp only [sendSegment]
  split
  · rintro k ⟨⟩
    exact hmin
  · simp
  · exact shrink_pos _ (fun size h => hsizes size (List.mem_of_mem_drop h)) hmin

theorem rounds_markSent {seg : SSegment} {n : UInt32} (hxmit : seg.xmit = 0) (hle : n ≤ seg.len)
    (hpos : seg.len ≠ 0 → n ≠ 0) :
    extent rounds (markSent seg n) + (if seg.len = 0 then 1 else 2) ≤ rounds seg := by
  have hle' := UInt32.le_iff_toNat_le.mp hle
  have hone : ∀ len, rounds ⟨seg.seq, len, 0 + 1, seg.bCtrl⟩ = 0 := by
    intro len
    simp [rounds]
  by_cases hz : seg.len = 0
  · simp [markSent, cut, rounds, hxmit, hz]
  · have hn := hpos hz
    have hnpos : 0 < n.toNat := Nat.pos_of_ne_zero fun h => hn (UInt32.toNat_inj.mp h)
    simp only [hz, if_false]
    by_cases hlt : n < seg.len
    · have hsub := UInt32.toNat_sub_of_le _ _ hle
      simp only [markSent, cut, hlt, if_true, extent_cons, extent_nil, rounds, hxmit, hsub]
      simp
      omega
    · simp only [markSent, cut, hlt, if_false, extent_cons, extent_nil, rounds, hxmit]
      simp
      omega

theorem rounds_cut {seg : SSegment} {n : UInt32} (hxmit : seg.xmit = 0) (hn : n ≠ 0)
    {first : SSegment} {rest : List SSegment} (h : cut seg n = first :: rest) :
    first.xmit = 0 ∧ rounds first + extent rounds rest <
      rounds seg + if first.len = 0 then 1 else 2 := by
  have hnpos : 0 < n.toNat := Nat.pos_of_ne_zero fun h => hn (UInt32.toNat_inj.mp h)
  simp only [cut] at h
  split at h
  · rename_i hlt
    obtain ⟨rfl, rfl⟩ := List.cons.inj h
    have hsub := UInt32.toNat_sub_of_le _ _ (UInt32.le_of_lt hlt)
    have hlt' := UInt32.lt_iff_toNat_lt.mp hlt
    refine ⟨hxmit, ?_⟩
    simp only [extent_cons, extent_nil, rounds, hxmit, hsub, hn, if_true, if_false]
    omega
  · obtain ⟨rfl, rfl⟩ := List.cons.inj h
    refine ⟨hxmit, ?_⟩
    split <;> simp

theorem transmit_slist {s t : PseudoTcp} {i : Nat} {seg : SSegment} {now : UInt32}
    (hseg : s.slist[i]? = some seg) (hmss : s.mss ≠ 0) (h : s.transmit i now = (true, t)) :
    ∃ n ≤ seg.len, (seg.len ≠ 0 → n ≠ 0) ∧ t.slist = splice s.slist i (markSent seg n) := by
  obtain ⟨-, hsender, hle⟩ : Steps (fun _ => True) s _ ∧ _ :=
    sendSegment_steps (List.mem_of_getElem? hseg)
  have hpos : seg.len ≠ 0 → ∀ k, (s.sendSegment seg).1 = some k → k ≠ 0 := sendSegment_pos hmss
  simp only [transmit, hseg] at h
  by_cases hxmit : seg.xmit ≥ if s.state = .established then 15 else 30
  · rw [if_pos hxmit] at h
    cases h
  · rw [if_neg hxmit] at h
    split at h
    · cases h
    · rename_i n u hu
      rw [hu] at hsender hle hpos
      obtain ⟨-, rfl⟩ := Prod.mk.inj h
      refine ⟨n, hle n rfl, fun hlen => hpos hlen n rfl, ?_⟩
      rw [show u.slist = s.slist from congrArg Sender.slist hsender]

theorem mss_ne_of_available {s : PseudoTcp} (h : s.available ≠ 0) : s.mss ≠ 0 := by
  intro hz
  apply h
  have hmin : min (UInt32.ofNat s.sbuf.getBuffered - (s.sndNxt - s.sndUna)) s.mss = 0 := by
    rw [hz, ← UInt32.toNat_inj, UInt32.toNat_min]
    exact Nat.min_zero _
  simp only [available, hmin]
  exact if_neg (UInt32.not_lt.mpr UInt32.zero_le)

theorem sendLoop_enough (now : UInt32) (fuel : Nat) (sflags : SendFlags) (s : PseudoTcp)
    (h : extent rounds s.slist < fuel) (more : Nat) :
    sendLoop now (fuel + more) sflags s = sendLoop now fuel sflags s := by
  induction fuel generalizing sflags s with
  | zero => omega
  | succ fuel ih =>
    rw [show fuel + 1 + more = fuel + more + 1 by omega]
    simp only [sendLoop]
    split
    · rfl
    · rename_i havail
      split
      · rfl
      · split
        · rfl
        · rename_i i hsome
          obtain ⟨pre, seg, post, hlist, rfl, -, hzero, hsplice⟩ := round_cut hsome s.available
          obtain ⟨first, rest, hfirst⟩ := cut_eq_cons seg s.available
          obtain ⟨hxmit, hcut⟩ := rounds_cut hzero havail hfirst
          rw [hsplice, hfirst]
          let t : PseudoTcp := { s with slist := pre ++ first :: rest ++ post }
          have hmid : t.slist[pre.length]? = some first := by simp [t]
          split
          · rfl
          · rename_i u hu
            obtain ⟨n, hle, hpos, hslist⟩ :=
              transmit_slist (s := t) hmid (mss_ne_of_available havail) hu
            apply ih
            obtain ⟨hmidlist, hmidsplice⟩ := splice_eq hmid (markSent first n)
            have hmark := rounds_markSent hxmit hle hpos
            rw [hslist, hmidsplice]
            have ht : extent rounds t.slist = extent rounds pre +
                (rounds first + extent rounds rest) + extent rounds post := by
              simp only [t, extent_append, extent_cons]
            rw [hmidlist, extent_append, extent_cons] at ht
            rw [hlist, extent_append, extent_cons] at h
            rw [extent_append, extent_append]
            omega

theorem attemptSend_finishes (now : UInt32) (sflags : SendFlags) (s : PseudoTcp) {fuel : Nat}
    (h : s.sendRounds ≤ fuel) : sendLoop now fuel sflags s = sendLoop now s.sendRounds sflags s := by
  rw [← Nat.add_sub_cancel' h]
  exact sendLoop_enough now _ sflags s (Nat.lt_succ_self _) _

end Libjingle.PseudoTcp
