import Libjingle.PseudoTcp.Moves
import Libjingle.PseudoTcp.Unsent
import Libjingle.PseudoTcp.ReceiveWindow

/-! The range of the segment size and the congestion window. -/

namespace Libjingle.PseudoTcp

/-- Segments fit into a packet, and neither they nor the windows are empty. -/
structure Fine (mss mtuAdvise ssthresh cwnd : UInt32) : Prop where
  mss_pos : 0 < mss.toNat
  mss_le : mss.toNat ≤ 65419
  advise_pos : 116 < mtuAdvise.toNat
  advise_le : mtuAdvise.toNat ≤ 65535
  ssthresh : 0 < ssthresh.toNat
  cwnd : 0 < cwnd.toNat

structure Sized (s : PseudoTcp) : Prop where
  tracked : Tracked s.toSender
  capacity : s.sbuf.bufferLength < 2147483648
  fine : Fine s.mss s.mtuAdvise s.ssthresh s.cwnd
  written : ∀ c ∈ s.written, c.len.toNat ≤ 65419

/-- No advice below what the headers take, no buffer without room or of negative size, and
no ack when the congestion window is at the end of its range. -/
def rangeLimits : Limits where
  arriving := fun _ => True
  clock := fun _ => True
  advice := fun mtu => 116 < mtu.toNat
  option := fun opt value =>
    (opt = .rcvBuf → value ≠ 0) ∧ (opt = .sndBuf → value.toNat < 2147483648)
  acks := fun cwnd mss _ => cwnd.toNat + mss.toNat < 4294967296

section Arithmetic

variable {mss mtuAdvise ssthresh cwnd : UInt32}

theorem square_le {m : Nat} (h : m ≤ 65419) : m * m ≤ 4279645561 :=
  Nat.mul_le_mul h h

theorem add_square_div_le {c m : Nat} (hc : 0 < c) (hm : 0 < m * m / c) :
    c + m * m / c ≤ m * m + 1 := by
  have hmul : c * (m * m / c) ≤ m * m := Nat.mul_div_le _ _
  generalize m * m / c = q at hm hmul ⊢
  obtain ⟨a, rfl⟩ := Nat.exists_eq_add_of_lt hc
  obtain ⟨b, rfl⟩ := Nat.exists_eq_add_of_lt hm
  have hexpand : (0 + a + 1) * (0 + b + 1) = a * b + a + b + 1 := by
    simp only [Nat.zero_add, Nat.add_mul, Nat.mul_add, Nat.mul_one, Nat.one_mul]
    omega
  omega

theorem Fine.avoid (h : Fine mss mtuAdvise ssthresh cwnd) (hroom : cwnd.toNat + mss.toNat < 4294967296) :
    0 < (cwnd + max 1 (mss * mss / cwnd)).toNat := by
  have hsquare := square_le h.mss_le
  have hmul : (mss * mss).toNat = mss.toNat * mss.toNat := by
    rw [UInt32.toNat_mul, Nat.mod_eq_of_lt (by omega)]
  have hmss := h.mss_pos
  have hcwnd := h.cwnd
  rw [UInt32.toNat_add, UInt32.toNat_max, UInt32.toNat_div, hmul, UInt32.toNat_one]
  by_cases hdiv : mss.toNat * mss.toNat / cwnd.toNat = 0
  · rw [hdiv]
    omega
  · have hle := add_square_div_le hcwnd (Nat.pos_of_ne_zero hdiv)
    omega

theorem double_toNat {x : UInt32} (h : x.toNat ≤ 65419) : (2 * x).toNat = 2 * x.toNat := by
  rw [UInt32.toNat_mul]
  change 2 * x.toNat % 4294967296 = _
  omega

theorem triple_toNat {x : UInt32} (h : x.toNat ≤ 65419) : (3 * x).toNat = 3 * x.toNat := by
  rw [UInt32.toNat_mul]
  change 3 * x.toNat % 4294967296 = _
  omega

theorem sub_overhead {x : UInt32} (h : 116 < x.toNat) :
    (x - packetOverhead).toNat = x.toNat - 116 :=
  UInt32.toNat_sub_of_le _ _ (UInt32.le_iff_toNat_le.mpr (Nat.le_of_lt h))

theorem pow_scaleFactor_le (fuel : Nat) {size : UInt32} (h : 0 < size.toNat) (hfuel : fuel ≤ 16) :
    2 ^ (scaleFactor fuel size).toNat ≤ size.toNat := by
  induction fuel generalizing size with
  | zero => exact h
  | succ fuel ih =>
    simp only [scaleFactor]
    split
    · rename_i hgt
      have hgt' := UInt32.lt_iff_toNat_lt.mp hgt
      change 65535 < size.toNat at hgt'
      have hhalf : (size >>> 1).toNat = size.toNat / 2 := by
        rw [UInt32.toNat_shiftRight]
        exact Nat.shiftRight_one _
      have hrest := @ih (size >>> 1) (by omega) (by omega)
      have hle := scaleFactor_le fuel (size >>> 1) (by omega)
      have hadd : (scaleFactor fuel (size >>> 1) + 1).toNat =
          (scaleFactor fuel (size >>> 1)).toNat + 1 := by
        rw [UInt8.toNat_add]
        simp only [UInt8.toNat_one]
        omega
      rw [hadd, Nat.pow_succ]
      omega
    · exact h

theorem roundedSize_pos {size : UInt32} (h : 0 < size.toNat) : 0 < (roundedSize size).toNat := by
  have hpow := pow_scaleFactor_le 16 h (Nat.le_refl _)
  have hle := scaleFactor_le 16 size (Nat.le_refl _)
  have hmod : (scaleFactor 16 size).toUInt32.toNat % 32 = (scaleFactor 16 size).toNat := by
    rw [UInt8.toNat_toUInt32]
    omega
  have hlt := size.toNat_lt
  have hdiv := Nat.div_mul_le_self size.toNat (2 ^ (scaleFactor 16 size).toNat)
  have hone : 0 < size.toNat / 2 ^ (scaleFactor 16 size).toNat :=
    Nat.div_pos hpow (Nat.two_pow_pos _)
  rw [roundedSize, UInt32.toNat_shiftLeft, UInt32.toNat_shiftRight, hmod, Nat.shiftLeft_eq,
    Nat.shiftRight_eq_div_pow, Nat.mod_eq_of_lt (by omega)]
  exact Nat.mul_pos hone (Nat.two_pow_pos _)

end Arithmetic

section Sized

variable {s t : PseudoTcp}

theorem Sized.inFlight_lt (h : s.Sized) : (s.sndNxt - s.sndUna).toNat < 2147483648 := by
  obtain ⟨sent, htallied⟩ := h.tracked.tallied
  have hin := htallied.inFlight
  have hle := htallied.sent_le
  have hwf := htallied.wf.length_le
  have hcap := h.capacity
  rw [hin]
  exact Nat.lt_of_le_of_lt (Nat.le_trans hle hwf) hcap

theorem Sized.halfInFlight (h : s.Sized) :
    0 < s.halfInFlight.toNat ∧ s.halfInFlight.toNat < 1073741824 := by
  have hin := h.inFlight_lt
  have hpos := h.fine.mss_pos
  have hle := h.fine.mss_le
  have hhalf : ((s.sndNxt - s.sndUna) / 2).toNat = (s.sndNxt - s.sndUna).toNat / 2 :=
    UInt32.toNat_div _ _
  rw [PseudoTcp.halfInFlight, UInt32.toNat_max, double_toNat hle, hhalf]
  omega

theorem sized_new (env : Env) (conv : UInt32) : (new env conv).Sized where
  tracked := tracked_new env conv
  capacity := by simp only [new, FifoBuffer.new]; decide
  fine := ⟨by simp only [new]; decide, by simp only [new]; decide, by simp only [new]; decide,
    by simp only [new]; decide, by simp only [new]; decide, by simp only [new]; decide⟩
  written := by simp [new]

theorem Sized.of_eq (h : s.Sized) (htracked : Tracked t.toSender)
    (hcapacity : t.sbuf.bufferLength = s.sbuf.bufferLength) (htuning : t.mss = s.mss ∧
      t.mtuAdvise = s.mtuAdvise ∧ t.ssthresh = s.ssthresh ∧ t.cwnd = s.cwnd)
    (hwritten : t.written = s.written) : t.Sized := by
  obtain ⟨hmss, hadvise, hssthresh, hcwnd⟩ := htuning
  refine ⟨htracked, hcapacity ▸ h.capacity, ?_, hwritten ▸ h.written⟩
  rw [hmss, hadvise, hssthresh, hcwnd]
  exact h.fine

theorem sized_move (hmove : Move rangeLimits s t) (h : s.Sized) : t.Sized := by
  have htracked := tracked_steps hmove.steps h.tracked
  obtain ⟨sent, htallied⟩ := h.tracked.tallied
  have hfine := h.fine
  cases hmove with
  | tune hcore htuning =>
    refine h.of_eq htracked (congrArg (·.sender.sbuf.bufferLength) hcore) ⟨congrArg Tuning.mss htuning,
      congrArg Tuning.mtuAdvise htuning, congrArg Tuning.ssthresh htuning,
      congrArg Tuning.cwnd htuning⟩ (congrArg Core.written hcore)
  | write _ hmss =>
    refine ⟨htracked, h.capacity, hfine, fun c hc => ?_⟩
    rcases List.mem_append.mp hc with hc | hc
    · exact h.written c hc
    · rw [List.mem_singleton.mp hc]
      exact Nat.le_trans (UInt32.le_iff_toNat_le.mp hmss) hfine.mss_le
  | queueData data =>
    obtain ⟨-, -, -, -, -, -, hcap⟩ := queue_sbuf htallied.wf htallied.capacity_lt data false
    exact h.of_eq htracked hcap ⟨rfl, rfl, rfl, rfl⟩ rfl
  | @queueConnect state =>
    obtain ⟨-, -, -, -, -, -, hcap⟩ := queue_sbuf (s := { s with
      state := state, sndWnd := UInt32.ofNat s.connectMessageBytes.length }) htallied.wf
      htallied.capacity_lt s.connectMessageBytes true
    exact h.of_eq htracked hcap ⟨rfl, rfl, rfl, rfl⟩ rfl
  | @resizeSend size hsize =>
    have hlt := hsize.2 rfl
    obtain ⟨-, -, -, hcap⟩ := FifoBuffer.setCapacity_keeps htallied.wf (s.env.heap s.allocs)
      (show size.toNat ≤ maxAllocation by simp only [maxAllocation]; omega)
    refine ⟨htracked, ?_, hfine, h.written⟩
    rcases hcap with hcap | hcap
    · exact hcap ▸ h.capacity
    · exact hcap ▸ hlt
  | @resizeReceive size hsize =>
    have hpos : 0 < size.toNat := by
      rcases hsize with hsize | rfl
      · exact Nat.pos_of_ne_zero fun hz => hsize.1 rfl (UInt32.toNat_inj.mp hz)
      · decide
    exact ⟨htracked, h.capacity, { hfine with ssthresh := roundedSize_pos hpos }, h.written⟩
  | store seg sflags =>
    obtain ⟨hcore, -⟩ := store_frame s (s.fitted seg) sflags
    have htuning := store_tuning s (s.fitted seg) sflags
    exact h.of_eq htracked (congrArg (·.sender.sbuf.bufferLength) hcore)
      ⟨congrArg Tuning.mss htuning, congrArg Tuning.mtuAdvise htuning,
        congrArg Tuning.ssthresh htuning, congrArg Tuning.cwnd htuning⟩ (congrArg Core.written hcore)
  | enter =>
    obtain ⟨hpos, hlt⟩ := h.halfInFlight
    refine ⟨htracked, h.capacity, { hfine with ssthresh := hpos, cwnd := ?_ }, h.written⟩
    have hle := hfine.mss_le
    rw [UInt32.toNat_add, triple_toNat hle, Nat.mod_eq_of_lt (by omega)]
    omega
  | @advise mtu hmtu =>
    refine ⟨htracked, h.capacity, { hfine with advise_pos := ?_, advise_le := ?_ }, h.written⟩
    · exact hmtu
    · exact Nat.le_of_lt_succ mtu.toNat_lt
  | adjust =>
    have hsub := sub_overhead hfine.advise_pos
    have hpos := hfine.advise_pos
    have hle := hfine.advise_le
    have hssthresh := hfine.ssthresh
    have hcwnd := hfine.cwnd
    refine ⟨htracked, h.capacity, { hfine with
      mss_pos := ?_, mss_le := ?_, ssthresh := ?_, cwnd := ?_ }, h.written⟩
    · change 0 < (s.mtuAdvise - packetOverhead).toNat
      omega
    · change (s.mtuAdvise - packetOverhead).toNat ≤ 65419
      omega
    · change 0 < (max s.ssthresh (2 * (s.mtuAdvise - packetOverhead))).toNat
      rw [UInt32.toNat_max]
      omega
    · change 0 < (max s.cwnd (s.mtuAdvise - packetOverhead)).toNat
      rw [UInt32.toNat_max]
      omega
  | @lower size hmem hzero =>
    have hrange : 116 < size.toNat ∧ size.toNat ≤ 65535 := by
      simp only [packetMaximums, List.mem_cons, List.not_mem_nil, or_false] at hmem
      rcases hmem with rfl | rfl | rfl | rfl | rfl | rfl | rfl | rfl | rfl | rfl | rfl <;>
        first | exact absurd rfl hzero | decide
    have hsub := sub_overhead hrange.1
    refine ⟨htracked, h.capacity, { hfine with mss_pos := ?_, mss_le := ?_, cwnd := ?_ },
      h.written⟩
    · change 0 < (size - packetOverhead).toNat
      omega
    · change (size - packetOverhead).toNat ≤ 65419
      omega
    · change 0 < (2 * (size - packetOverhead)).toNat
      rw [double_toNat (by omega)]
      omega
  | idle => exact ⟨htracked, h.capacity, { hfine with cwnd := hfine.mss_pos }, h.written⟩
  | grow _ hroom =>
    refine ⟨htracked, h.capacity, { hfine with cwnd := ?_ }, h.written⟩
    have hcwnd := hfine.cwnd
    have hroom' : s.cwnd.toNat + s.mss.toNat < 4294967296 := hroom
    dsimp only
    split
    · rw [UInt32.toNat_add]
      omega
    · exact hfine.avoid hroom
  | @partialAck nAcked _ hacks =>
    refine ⟨htracked, h.capacity, { hfine with cwnd := ?_ }, h.written⟩
    have hcwnd := hfine.cwnd
    have hpos := hfine.mss_pos
    have hle := hfine.mss_le
    have hroom : s.cwnd.toNat + s.mss.toNat < 4294967296 := by
      rcases hacks with hroom | ⟨-, htwice⟩
      · exact hroom
      · rw [htwice, double_toNat hle]
        omega
    change 0 < (s.cwnd + (s.mss - min nAcked s.cwnd)).toNat
    have hmin : (min nAcked s.cwnd).toNat ≤ s.cwnd.toNat := by
      rw [UInt32.toNat_min]
      exact Nat.min_le_right _ _
    have hsum : (s.cwnd + (s.mss - min nAcked s.cwnd)).toNat =
        s.cwnd.toNat - (min nAcked s.cwnd).toNat + s.mss.toNat := by
      rw [UInt32.toNat_add, UInt32.toNat_sub]
      omega
    omega
  | exit =>
    refine ⟨htracked, h.capacity, { hfine with cwnd := ?_ }, h.written⟩
    have hin := h.inFlight_lt
    have hpos := hfine.mss_pos
    have hle := hfine.mss_le
    have hssthresh := hfine.ssthresh
    rw [UInt32.toNat_min, UInt32.toNat_add]
    omega
  | inflate _ hroom =>
    refine ⟨htracked, h.capacity, { hfine with cwnd := ?_ }, h.written⟩
    have hcwnd := hfine.cwnd
    have hroom' : s.cwnd.toNat + s.mss.toNat < 4294967296 := hroom
    rw [UInt32.toNat_add]
    omega
  | timeout =>
    exact ⟨htracked, h.capacity, { hfine with
      ssthresh := h.halfInFlight.1, cwnd := hfine.mss_pos }, h.written⟩
  | _ => exact h.of_eq htracked rfl ⟨rfl, rfl, rfl, rfl⟩ rfl

theorem sized_moves (hmoves : Moves rangeLimits s t) (h : s.Sized) : t.Sized := by
  induction hmoves with
  | refl => exact h
  | tail _ hlast ih => exact sized_move hlast ih

/-- The congestion arithmetic is in range: no division by zero, no product that does not
fit, no packet that is too long. -/
structure InRange (s : PseudoTcp) : Prop where
  mss_pos : 0 < s.mss
  mss_le : s.mss ≤ maxPacket - packetOverhead
  cwnd : 1 ≤ s.cwnd
  square : s.mss.toNat * s.mss.toNat < 2 ^ 32
  written : ∀ c ∈ s.written, headerSize.toNat + c.len.toNat ≤ maxPacket.toNat

theorem Sized.inRange (h : s.Sized) : s.InRange where
  mss_pos := UInt32.lt_iff_toNat_lt.mpr h.fine.mss_pos
  mss_le := UInt32.le_iff_toNat_le.mpr h.fine.mss_le
  cwnd := UInt32.le_iff_toNat_le.mpr h.fine.cwnd
  square := Nat.lt_of_le_of_lt (square_le h.fine.mss_le) (by decide)
  written := fun c hc => by
    have hlen := h.written c hc
    change 24 + c.len.toNat ≤ 65535
    omega

theorem Sized.atAck (h : s.Sized) (hadmits : rangeLimits.Admits s.env) {seg : Segment}
    (ht : s.atAck seg = some t) : t.Sized :=
  sized_moves (atAck_moves hadmits ht) h

/-- In every run in which advice, options and acks are as `rangeLimits` has them the
congestion arithmetic is in range, at the end and when an ack is looked at. -/
theorem run_inRange (env : Env) (conv : UInt32) (calls : List Call)
    (hadmits : rangeLimits.Admits env)
    (hcalls : Runs.Along call rangeLimits.AllowsCall (new env conv) calls) :
    InRange ((new env conv).run calls) ∧
      ∀ seg t, ((new env conv).run calls).atAck seg = some t → t.InRange := by
  have hadmits' : rangeLimits.Admits (new env conv).env := hadmits
  have hmoves := run_moves hadmits' hcalls
  have hsized := sized_moves hmoves (sized_new env conv)
  exact ⟨hsized.inRange, fun seg t ht => (hsized.atAck (Moves.admits hmoves hadmits') ht).inRange⟩

/-- Both connect messages, and advice on the packet size. -/
def advised (mtu : UInt16) : List Call :=
  [.app .connect, .notifyPacket (plainPacket 0 4 flagCtl [0]) fun _ => 0, .app (.send [1]),
    .app (.notifyMTU mtu)]

theorem run_inRange_advised : InRange ((new Env.still 7).run (advised 1500)) := by
  have hadmits : rangeLimits.Admits Env.still := ⟨fun _ => trivial, by simp [Env.still]⟩
  have hack : ((((new Env.still 7).call (.app .connect)).atAck (parseSegment
      (memory (plainPacket 0 4 flagCtl [0]) fun _ => 0)
        (UInt32.ofNat (plainPacket 0 4 flagCtl [0]).length))).all fun t =>
        t.cwnd.toNat + t.mss.toNat < 4294967296) = true := by
    decide +kernel
  refine (run_inRange Env.still 7 (advised 1500) hadmits ?_).1
  have hadvice : (116 : Nat) < (1500 : UInt16).toNat := by decide
  refine ⟨trivial, ⟨fun _ _ => trivial, fun t ht => ?_⟩, trivial, hadvice, trivial⟩
  rw [ht] at hack
  have hroom : t.cwnd.toNat + t.mss.toNat < 4294967296 := of_decide_eq_true hack
  exact hroom

def lastAck : Segment := parseSegment (memory (plainPacket 1 5 0 []) fun _ => 0) 24

/-- Advice of just the headers' size leaves no room for data; after a timeout the ack of
what was in flight divides by zero. -/
theorem no_room_divides_by_zero :
    let s := (new Env.still 7).run (advised 116 ++ [.notifyClock 10000])
    ¬ s.InRange ∧ s.mss = 0 ∧
      ∃ t, s.atAck lastAck = some t ∧ (lastAck.ack > t.sndUna ∧ lastAck.ack ≤ t.sndNxt) ∧
        t.dupAcks < 3 ∧ ¬ t.cwnd < t.ssthresh ∧ t.cwnd = 0 := by
  intro s
  have hmss : s.mss = 0 := by decide +kernel
  have hack : ((s.atAck lastAck).any fun t =>
      (lastAck.ack > t.sndUna && lastAck.ack ≤ t.sndNxt) && t.dupAcks < 3 &&
        !decide (t.cwnd < t.ssthresh) && t.cwnd = 0) = true := by
    decide +kernel
  refine ⟨fun h => absurd h.mss_pos (by rw [hmss]; decide), hmss, ?_⟩
  cases ht : s.atAck lastAck with
  | none => simp [ht] at hack
  | some t =>
    refine ⟨t, rfl, ?_⟩
    simpa [ht, and_assoc] using hack

end Sized

end Libjingle.PseudoTcp
