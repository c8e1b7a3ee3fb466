import Libjingle.PseudoTcp.Moves
import Libjingle.PseudoTcp.Unsent

/-! The retransmission timer. `m_rto_base` is a reading of the clock, and 0 says that the
timer is off: it is armed while data is in flight as long as the clock does not read 0. -/

namespace Libjingle.PseudoTcp

open Layout

/-- Only the last segment may be empty, and only if it is not a control segment. -/
structure Solid (l : List SSegment) : Prop where
  control : ∀ seg ∈ l, seg.bCtrl = true → seg.len ≠ 0
  inner : ∀ seg ∈ l.dropLast, seg.len ≠ 0

section Solid

variable {l : List SSegment} {seg : SSegment}

theorem solid_nil : Solid [] := ⟨by simp, by simp⟩

theorem Solid.tail (h : Solid (seg :: l)) : Solid l := by
  refine ⟨fun x hx => h.control x (List.mem_cons_of_mem _ hx), fun x hx => ?_⟩
  cases l with
  | nil => cases hx
  | cons next l => exact h.inner x (List.mem_cons_of_mem _ hx)

theorem Solid.first (h : Solid (seg :: l)) (hl : l ≠ []) : seg.len ≠ 0 := by
  cases l with
  | nil => exact absurd rfl hl
  | cons next l => exact h.inner seg List.mem_cons_self

theorem Solid.cons (h : Solid l) (hseg : seg.len ≠ 0) : Solid (seg :: l) := by
  refine ⟨List.forall_mem_cons.mpr ⟨fun _ => hseg, h.control⟩, ?_⟩
  cases l with
  | nil => exact fun x hx => nomatch hx
  | cons next l => exact List.forall_mem_cons.mpr ⟨hseg, h.inner⟩

theorem solid_concat : Solid (l ++ [seg]) ↔
    (∀ x ∈ l, x.len ≠ 0) ∧ (seg.bCtrl = true → seg.len ≠ 0) := by
  constructor
  · intro h
    refine ⟨fun x hx => h.inner x ?_, h.control seg (by simp)⟩
    rwa [List.dropLast_concat]
  · rintro ⟨hall, hseg⟩
    refine ⟨fun x hx => ?_, fun x hx => hall x (by rwa [List.dropLast_concat] at hx)⟩
    rcases List.mem_append.mp hx with hx | hx
    · exact fun _ => hall x hx
    · rw [List.mem_singleton.mp hx]
      exact hseg

theorem Solid.cut (h : Solid (seg :: l)) {n : UInt32} (hn : n ≠ 0) :
    Solid (PseudoTcp.cut seg n ++ l) := by
  rw [PseudoTcp.cut]
  by_cases hlt : n < seg.len
  · have hrest : seg.len - n ≠ 0 := by
      intro hz
      have hsub := UInt32.toNat_sub_of_le _ _ (UInt32.le_of_lt hlt)
      have hlt' := UInt32.lt_iff_toNat_lt.mp hlt
      rw [hz] at hsub
      simp only [UInt32.toNat_zero] at hsub
      omega
    rw [if_pos hlt]
    exact (h.tail.cons hrest).cons hn
  · rw [if_neg hlt]
    exact h

theorem Solid.cut_tail (h : Solid (seg :: l)) {n : UInt32} (hn : n ≠ 0) :
    Solid ((PseudoTcp.cut seg n).tail ++ l) := by
  by_cases hlt : n < seg.len
  · have hcut := h.cut hn
    rw [PseudoTcp.cut, if_pos hlt] at hcut ⊢
    exact hcut.tail
  · rw [PseudoTcp.cut, if_neg hlt]
    exact h.tail

end Solid

/-- The retransmission timer is on exactly while something is in flight. -/
structure Timed (s : PseudoTcp) : Prop where
  tracked : Tracked s.toSender
  armed : s.rtoBase ≠ 0 ↔ s.sndNxt ≠ s.sndUna
  solid : Solid (unsent s.slist)
  capacity : s.sbuf.bufferLength ≠ 0
  listen : s.state = .listen → s.slist = []

section Timed

variable {L : Limits} {s t : PseudoTcp}

/-- The clock never reads 0, and the send buffer always has room for a byte. -/
structure Ticking (L : Limits) : Prop where
  clock : ∀ now, L.clock now → now ≠ 0
  option : ∀ size, L.option .sndBuf size → size ≠ 0

theorem timed_new (env : Env) (conv : UInt32) : (new env conv).Timed where
  tracked := tracked_new env conv
  armed := by simp [new]
  solid := solid_nil
  capacity := by simp [new, FifoBuffer.new, defaultSndBufSize]
  listen := fun _ => rfl

theorem Timed.of_eq (h : s.Timed) (hsender : t.toSender = s.toSender)
    (hrto : t.rtoBase = s.rtoBase) (hlisten : t.state = .listen → s.state = .listen) : t.Timed where
  tracked := hsender ▸ h.tracked
  armed := by
    rw [hrto, hsender]
    exact h.armed
  solid := by
    rw [hsender]
    exact h.solid
  capacity := by
    rw [hsender]
    exact h.capacity
  listen := fun hl => by
    rw [hsender]
    exact h.listen (hlisten hl)

theorem Timed.inFlight (h : s.Timed) (hdue : s.rtoBase ≠ 0 ∨ s.sndUna ≠ s.sndNxt ∨
    s.sndUna < s.recover ∧ s.sndUna ≤ s.sndNxt) : s.sndNxt ≠ s.sndUna := by
  rcases hdue with hrto | hne | ⟨hlt, hle⟩
  · exact h.armed.mp hrto
  · exact hne.symm
  · intro heq
    have hrecover := h.tracked.recover hle
    rw [heq] at hrecover
    exact absurd hlt (UInt32.not_lt.mpr hrecover)

theorem Timed.due_pos (h : s.Timed) {pre post : List SSegment} {seg : SSegment} {n : UInt32}
    (hlist : s.slist = pre ++ seg :: post) (hsent : ∀ x ∈ pre, x.xmit ≠ 0) (hzero : seg.xmit = 0)
    (hdue : s.Due pre seg n) : n ≠ 0 := by
  rcases hdue with ⟨-, hdata, hpos⟩ | ⟨rfl, hdue⟩
  · obtain ⟨sent, htallied⟩ := h.tracked.tallied
    have hextent := htallied.extent
    have hin := htallied.inFlight
    have hsolid := h.solid
    rw [htallied.slist, extent_append, hlist, unsent_split hsent hzero, extent_cons] at hextent
    rw [hlist, unsent_split hsent hzero] at hsolid
    apply hpos
    intro hlen
    by_cases hpost : post = []
    · apply hdata
      simp only [hpost, extent_nil, SSegment.size, hlen, UInt32.toNat_zero, Nat.add_zero] at hextent
      rw [← hextent, ← hin, UInt32.ofNat_toNat]
    · exact hsolid.first hpost hlen
  · obtain ⟨first, rest, hfirst, hxmit⟩ := h.tracked.first_sent (h.inFlight hdue)
    rw [hlist] at hfirst
    obtain ⟨rfl, -⟩ := List.cons.inj hfirst
    exact absurd hzero hxmit

theorem Timed.sent_step (h : s.Timed) {pre post : List SSegment} {seg : SSegment}
    {n now : UInt32} (hlist : s.slist = pre ++ seg :: post) (hsent : ∀ x ∈ pre, x.xmit ≠ 0)
    (hxmit : seg.xmit < 30) (hn : n ≤ seg.len) (hnow : now ≠ 0) (hdue : s.Due pre seg n) :
    Timed { s with
      slist := pre ++ markSent seg n ++ post
      sndNxt := if seg.xmit = 0 then s.sndNxt + min n seg.len else s.sndNxt
      rtoBase := if s.rtoBase = 0 then now else s.rtoBase } := by
  obtain ⟨sent, htallied⟩ := h.tracked.tallied
  have hunsent := htallied.unsent_sent (n := n) hlist hsent hxmit
  have harmed : (if s.rtoBase = 0 then now else s.rtoBase) ≠ 0 := by
    split
    · exact hnow
    · assumption
  refine ⟨h.tracked.sent_step hlist hsent hxmit hn, iff_of_true harmed ?_, ?_, h.capacity,
    fun hl => ?_⟩
  · change (if seg.xmit = 0 then s.sndNxt + min n seg.len else s.sndNxt) ≠ s.sndUna
    by_cases hzero : seg.xmit = 0
    · have hmin : min n seg.len = n := by
        rw [← UInt32.toNat_inj, UInt32.toNat_min]
        exact Nat.min_eq_left (UInt32.le_iff_toNat_le.mp hn)
      rw [if_pos hzero, hmin, Ne, add_eq_una_iff (htallied.flight_lt hlist hsent hzero hn)]
      exact fun hboth => h.due_pos hlist hsent hzero hdue hboth.2
    · rw [if_neg hzero]
      rcases hdue with hnew | hdue
      · exact absurd hnew.1 hzero
      · exact h.inFlight hdue.2
  · change Solid (unsent (pre ++ markSent seg n ++ post))
    rw [hunsent]
    by_cases hzero : seg.xmit = 0
    · have hsolid := h.solid
      rw [hlist, unsent_split hsent hzero] at hsolid
      rw [if_pos hzero]
      exact hsolid.cut_tail (h.due_pos hlist hsent hzero hdue)
    · rw [if_neg hzero]
      exact h.solid
  · have hnil := h.listen hl
    rw [hlist] at hnil
    simp at hnil

theorem Timed.queueData_solid (h : s.Timed) (data : List UInt8) :
    Solid (unsent (s.queue data false).2.slist) := by
  obtain ⟨sent, htallied⟩ := h.tracked.tallied
  have hsolid := h.solid
  rcases unsent_queue htallied data false with ⟨hother, hlist⟩ | ⟨u', back, hu, hkind, hlist⟩
  · -- the last segment is a control segment, or there is none
    rw [hlist, solid_concat]
    refine ⟨?_, nofun⟩
    rcases List.eq_nil_or_concat (unsent s.slist) with hnil | ⟨u', back, hu⟩
    · simp [hnil]
    · rw [List.concat_eq_append] at hu
      rw [hu, solid_concat] at hsolid
      rw [hu, List.getLast?_concat] at hother
      intro x hx
      rw [hu] at hx
      rcases List.mem_append.mp hx with hx | hx
      · exact hsolid.1 x hx
      · rw [List.mem_singleton.mp hx]
        exact hsolid.2 ((Bool.not_eq_false _).mp (hother back rfl))
  · rw [hu, solid_concat] at hsolid
    rw [hlist, solid_concat]
    exact ⟨hsolid.1, fun hctl => absurd hkind (ne_of_eq_of_ne hctl nofun)⟩

theorem Timed.queueConnect_solid (h : s.Timed) (hnil : s.slist = []) {data : List UInt8}
    (hdata : data ≠ []) (hlen : data.length < 2 ^ 32) :
    Solid (unsent (s.queue data true).2.slist) := by
  obtain ⟨sent, htallied⟩ := h.tracked.tallied
  have hempty : unsent s.slist = [] := by rw [hnil]; rfl
  have hbuffered : s.sbuf.dataLength = 0 := by
    rw [← htallied.extent, hnil]
    rfl
  have hroom : UInt32.ofNat s.sbuf.getWriteRemaining ≠ 0 := by
    intro hz
    have hval := congrArg UInt32.toNat hz
    rw [FifoBuffer.getWriteRemaining, hbuffered, Nat.sub_zero,
      UInt32.toNat_ofNat_of_lt' htallied.capacity_lt] at hval
    exact h.capacity hval
  have hqueue : s.queueLen data ≠ 0 := by
    simp only [queueLen]
    split
    · exact hroom
    · intro hz
      have hval := congrArg UInt32.toNat hz
      rw [UInt32.toNat_ofNat_of_lt' hlen] at hval
      exact hdata (List.length_eq_zero_iff.mp hval)
  rcases unsent_queue htallied data true with ⟨-, hlist⟩ | ⟨u', back, hu, -, -⟩
  · rw [hlist, hempty]
    exact solid_nil.cons hqueue
  · rw [hempty] at hu
    simp at hu

theorem timed_move (hticking : Ticking L) (hmove : Move L s t) (h : s.Timed) : t.Timed := by
  have htracked := tracked_steps hmove.steps h.tracked
  obtain ⟨sent, htallied⟩ := h.tracked.tallied
  cases hmove with
  | tune hcore htuning =>
    have hstate : t.state = s.state := congrArg Tuning.state htuning
    exact h.of_eq (congrArg Core.sender hcore) (congrArg Tuning.rtoBase htuning)
      fun hl => hstate ▸ hl
  | cut hlist hsent hseg hn =>
    have hsolid := h.solid
    rw [hlist, unsent_split hsent hseg] at hsolid
    refine ⟨htracked, h.armed, ?_, h.capacity, fun hl => ?_⟩
    · dsimp only
      rw [htallied.unsent_cut _ hlist hsent hseg]
      exact hsolid.cut hn
    · have hnil := h.listen hl
      rw [hlist] at hnil
      simp at hnil
  | sent hlist hsent hxmit hn hclock hdue =>
    exact h.sent_step hlist hsent hxmit hn (hticking.clock _ hclock) hdue
  | queueData data hopen =>
    obtain ⟨-, -, -, -, -, -, hcap⟩ := queue_sbuf htallied.wf htallied.capacity_lt data false
    refine ⟨htracked, h.armed, h.queueData_solid data, ?_, fun hl => ?_⟩
    · exact hcap ▸ h.capacity
    · cases hopen.symm.trans hl
  | @queueConnect state hlisten hs =>
    let u : PseudoTcp := { s with
      state := state, sndWnd := UInt32.ofNat s.connectMessageBytes.length }
    have hsize : s.connectMessageBytes ≠ [] ∧ s.connectMessageBytes.length < 2 ^ 32 := by
      simp only [connectMessageBytes]
      split <;> simp
    have hu : u.Timed := h.of_eq rfl rfl fun _ => hlisten
    obtain ⟨-, -, -, -, -, -, hcap⟩ :=
      queue_sbuf (s := u) htallied.wf htallied.capacity_lt s.connectMessageBytes true
    refine ⟨htracked, h.armed, ?_, ?_, fun hl => ?_⟩
    · exact hu.queueConnect_solid (h.listen hlisten) hsize.1 hsize.2
    · exact hcap ▸ h.capacity
    · have hstate : state = .listen := hl
      rcases hs with rfl | rfl <;> cases hstate
  | @ack now seg hlt hle hclock =>
    refine ⟨htracked, ?_, ?_, h.capacity, fun hl => ?_⟩
    · change (if seg.ack = s.sndNxt then 0 else now) ≠ 0 ↔ s.sndNxt ≠ seg.ack
      by_cases hall : seg.ack = s.sndNxt
      · simp [hall]
      · rw [if_neg hall]
        exact iff_of_true (hticking.clock _ hclock) (Ne.symm hall)
    · change Solid (unsent (freeSegments s.slist (seg.ack - s.sndUna) s.largest).1)
      rw [htallied.unsent_ack s.largest hlt hle]
      exact h.solid
    · change (freeSegments s.slist (seg.ack - s.sndUna) s.largest).1 = []
      rw [h.listen hl]
      rfl
  | @resizeSend size hsize =>
    have hpos := hticking.option _ hsize
    have hlt := size.toNat_lt
    obtain ⟨-, -, -, hcap⟩ := FifoBuffer.setCapacity_keeps htallied.wf (s.env.heap s.allocs)
      (show size.toNat ≤ maxAllocation by simp only [maxAllocation]; omega)
    refine ⟨htracked, h.armed, h.solid, ?_, h.listen⟩
    rcases hcap with hcap | hcap
    · exact hcap ▸ h.capacity
    · exact hcap ▸ fun hz => hpos (UInt32.toNat_inj.mp hz)
  | store seg sflags =>
    obtain ⟨hcore, hstate, -⟩ := store_frame s (s.fitted seg) sflags
    exact h.of_eq (congrArg Core.sender hcore)
      (congrArg Tuning.rtoBase (store_tuning s (s.fitted seg) sflags)) fun hl => hstate ▸ hl
  | timeout hrto hne hclock =>
    exact ⟨htracked, iff_of_true (hticking.clock _ hclock) (h.armed.mp hrto), h.solid, h.capacity,
      h.listen⟩
  | close => exact h.of_eq rfl rfl (by simp)
  | establish => exact h.of_eq rfl rfl (by simp)
  | enter => exact ⟨htracked, h.armed, h.solid, h.capacity, h.listen⟩
  | _ => exact h.of_eq rfl rfl id

theorem timed_moves (hticking : Ticking L) (hmoves : Moves L s t) (h : s.Timed) : t.Timed := by
  induction hmoves with
  | refl => exact h
  | tail _ hlast ih => exact timed_move hticking hlast ih

/-- Anything but a clock that reads 0 and a send buffer set to no capacity. -/
def tickingLimits : Limits where
  arriving := fun _ => True
  clock := fun now => now ≠ 0
  advice := fun _ => True
  option := fun opt value => opt = .sndBuf → value ≠ 0
  acks := fun _ _ _ => True

/-- A call neither tells the time 0 nor takes the send buffer's room. -/
def Call.Ticks : Call → Prop
  | .notifyClock now => now ≠ 0
  | .app c => tickingLimits.Allows c
  | .notifyPacket _ _ => True

/-- The timer is armed exactly while data is in flight, and then the first segment was
sent. -/
def TimerRight (s : PseudoTcp) : Prop :=
  (s.rtoBase ≠ 0 ↔ s.sndNxt ≠ s.sndUna) ∧
    (s.rtoBase ≠ 0 → ∃ seg rest, s.slist = seg :: rest ∧ seg.xmit ≠ 0)

theorem run_timerRight (env : Env) (conv : UInt32) (calls : List Call) (hnow : ∀ n, env.now n ≠ 0)
    (hreact : ∀ n, ∀ c ∈ env.react n, tickingLimits.Allows c) (hcalls : ∀ c ∈ calls, c.Ticks) :
    TimerRight ((new env conv).run calls) := by
  have hticking : Ticking tickingLimits := ⟨fun _ h => h, fun _ h => h rfl⟩
  have halong : Runs.Along call tickingLimits.AllowsCall (new env conv) calls := by
    refine Runs.along_of_forall (fun c hc s => ?_) _
    have hticks := hcalls c hc
    cases c with
    | app c => exact hticks
    | notifyPacket buffer beyond => exact ⟨fun _ _ => trivial, fun _ _ => trivial⟩
    | notifyClock now => exact hticks
  have hadmits : tickingLimits.Admits (new env conv).env := ⟨hnow, hreact⟩
  have htimed := timed_moves hticking (run_moves hadmits halong) (timed_new env conv)
  exact ⟨htimed.armed, fun hrto => htimed.tracked.first_sent (htimed.armed.mp hrto)⟩

/-- The connect message is sent and the timer armed. -/
theorem run_timerRight_connecting :
    let s := (new Env.still 7).run [.app .connect]
    s.rtoBase = 1000 ∧ TimerRight s :=
  ⟨by decide +kernel, run_timerRight Env.still 7 [.app .connect] (by simp [Env.still])
    (by simp [Env.still]) (by simp [Call.Ticks, Limits.Allows])⟩

/-- When the clock reads 0 the connect message is in flight with no timer. When the send
buffer had no room for it, the timer is armed with nothing in flight. -/
theorem clock_zero_disarms :
    let still : Env := { Env.still with now := fun _ => 0 }
    let failing : Env := { Env.still with result := fun n => if n = 0 then .success else .fail }
    ¬ TimerRight ((new still 7).run [.app .connect]) ∧
    ¬ TimerRight ((new failing 7).run [.app (.setOption .sndBuf 0), .app .connect,
      .app (.setOption .sndBuf 1000), .notifyPacket (plainPacket 0 0 flagCtl [0]) fun _ => 0,
      .app (.send [1])]) := by
  intro still failing
  have hidle : ((new still 7).run [.app .connect]).rtoBase = 0 ∧
      ((new still 7).run [.app .connect]).sndNxt ≠ ((new still 7).run [.app .connect]).sndUna := by
    decide +kernel
  refine ⟨fun h => h.1.mpr hidle.2 hidle.1, fun h => ?_⟩
  have hbusy : ((new failing 7).run [.app (.setOption .sndBuf 0), .app .connect,
        .app (.setOption .sndBuf 1000), .notifyPacket (plainPacket 0 0 flagCtl [0]) fun _ => 0,
        .app (.send [1])]).rtoBase ≠ 0 := by
    decide +kernel
  have hnone : ((new failing 7).run [.app (.setOption .sndBuf 0), .app .connect,
        .app (.setOption .sndBuf 1000), .notifyPacket (plainPacket 0 0 flagCtl [0]) fun _ => 0,
        .app (.send [1])]).sndNxt = ((new failing 7).run [.app (.setOption .sndBuf 0),
        .app .connect, .app (.setOption .sndBuf 1000),
        .notifyPacket (plainPacket 0 0 flagCtl [0]) fun _ => 0, .app (.send [1])]).sndUna := by
    decide +kernel
  exact h.1.mp hbusy hnone

end Timed

end Libjingle.PseudoTcp
