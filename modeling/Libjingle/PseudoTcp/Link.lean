import Libjingle.PseudoTcp.Delivery
import Libjingle.PseudoTcp.SendQueue

/-! Two endpoints and the network between them. The network delivers any packet
that was written, in any order, any number of times or never. -/

namespace Libjingle

structure PacketCall.Framed (c : PacketCall) : Prop where
  length : c.bytes.length = 24 + c.len.toNat
  seq (beyond : Nat → UInt8) : PseudoTcp.readLong (PseudoTcp.memory c.bytes beyond) 4 = c.seq
  flags (beyond : Nat → UInt8) : PseudoTcp.memory c.bytes beyond 13 = c.flags

namespace PseudoTcp

theorem length_payload (s : PseudoTcp) (offset len : UInt32)
    (h : (s.sbuf.readOffset len.toNat offset.toNat).2.length ≤ len.toNat) :
    (s.payload offset len).length = len.toNat := by
  simp only [payload, List.length_append, List.length_drop, List.length_map, List.length_range]
  omega

theorem readOffset_length_le (f : FifoBuffer) (bytes offset : Nat) :
    (f.readOffset bytes offset).2.length ≤ bytes := by
  simp only [FifoBuffer.readOffset, FifoBuffer.readOffsetLocked]
  split
  · exact Nat.zero_le _
  · simp only [FifoBuffer.load, FifoBuffer.readPieces, List.flatMap_cons, List.flatMap_nil,
      List.length_append, Circular.length_slice, List.length_nil]
    omega

theorem packetCall_framed (s : PseudoTcp) (seq : UInt32) (flags : UInt8) (offset len : UInt32) :
    (s.packetCall seq flags offset len).Framed where
  length := by
    simp only [packetCall, header, List.length_append, length_longToBytes, length_shortToBytes,
      List.length_cons, List.length_nil]
    split
    · rename_i hz
      simp [hz]
    · rw [length_payload _ _ _ (readOffset_length_le _ _ _)]
  seq := by
    intro beyond
    have hbytes : [memory (s.packetCall seq flags offset len).bytes beyond 4,
        memory (s.packetCall seq flags offset len).bytes beyond 5,
        memory (s.packetCall seq flags offset len).bytes beyond 6,
        memory (s.packetCall seq flags offset len).bytes beyond 7] = longToBytes seq := by
      simp [memory, packetCall, header, longToBytes, BigEndian.encode]
    rw [readLong, hbytes, bytesToLong_longToBytes]
    rfl
  flags := by
    intro beyond
    simp [memory, packetCall, header, longToBytes, BigEndian.encode]

theorem parse_honest {c : PacketCall} {stream : List UInt8} {ctl : Nat} (hframed : c.Framed)
    (hcarries : c.Carries stream ctl) (hlt : stream.length < 2 ^ 32) (beyond : Nat → UInt8) :
    (parseSegment (memory c.bytes beyond) (UInt32.ofNat c.bytes.length)).Honest stream ctl := by
  have hlen : UInt32.ofNat c.bytes.length - headerSize = c.len := by
    rw [hframed.length, UInt32.ofNat_add, UInt32.ofNat_toNat, UInt32.add_comm]
    exact UInt32.add_sub_cancel _ _
  simp only [Segment.Honest, parseSegment, hlen, hframed.seq, hframed.flags]
  rcases hcarries with hz | ⟨-, p, head, hseq, hle, hbytes, hhead, hflags⟩
  · exact .inl hz
  · by_cases hz : c.len = 0
    · exact .inl hz
    · have hpos : 0 < c.len.toNat := Nat.pos_of_ne_zero fun h => hz (UInt32.toNat_inj.mp h)
      have hp : c.seq.toNat = p := by
        rw [hseq, UInt32.toNat_ofNat_of_lt' (by simp only [UInt32.size]; omega)]
      rw [hp]
      refine .inr ⟨hle, fun i hi => ?_, ?_⟩
      · rw [memory, hbytes, List.getD_eq_getElem?_getD, List.getElem?_append_right (by omega), hhead,
          Nat.add_sub_cancel_left, List.getElem?_take_of_lt hi, List.getElem?_drop,
          List.getElem?_eq_getElem (by omega), Option.getD_some]
      · rcases hflags with ⟨hf, hctl⟩ | ⟨hf, hctl⟩
        · rw [if_pos (by rw [hf]; decide)]
          exact hctl
        · rw [if_neg (by rw [hf]; decide)]
          exact hctl

/-- The stream of queued bytes got longer, or the connect message was queued as
the first of it. -/
def Grows (s t : PseudoTcp) : Prop :=
  s.queued = [] ∨ (∃ more, t.queued = s.queued ++ more) ∧ t.connectMessage = s.connectMessage

theorem Grows.refl (s : PseudoTcp) : s.Grows s := .inr ⟨⟨[], by simp⟩, rfl⟩

theorem Grows.trans {s t u : PseudoTcp} (h : s.Grows t) (h' : t.Grows u) : s.Grows u := by
  rcases h with hnil | ⟨⟨more, hmore⟩, hctl⟩
  · exact .inl hnil
  · rcases h' with hnil | ⟨⟨more', hmore'⟩, hctl'⟩
    · rw [hnil] at hmore
      exact .inl (List.append_eq_nil_iff.mp hmore.symm).1
    · exact .inr ⟨⟨more ++ more', by rw [hmore', hmore, List.append_assoc]⟩, hctl'.trans hctl⟩

theorem Grows.of_eq {s t : PseudoTcp} (hconnect : t.connectMessage = s.connectMessage)
    (haccepted : t.accepted = s.accepted) : s.Grows t :=
  .inr ⟨⟨[], by rw [queued, queued, hconnect, haccepted, List.append_nil]⟩, hconnect⟩

section Step

variable {arriving : Segment → Prop} {s t : PseudoTcp}

theorem Step.grows (hstep : Step arriving s t) (h : s.SendInv) : s.Grows t := by
  cases hstep with
  | tune hcore => exact .of_eq (congrArg Core.connectMessage hcore) (congrArg Core.accepted hcore)
  | queueData data hstate =>
    refine .inr ⟨⟨data.take (s.queue data false).1, ?_⟩, rfl⟩
    change s.connectMessage ++ (s.accepted ++ _) = (s.connectMessage ++ s.accepted) ++ _
    rw [List.append_assoc]
  | queueConnect hlisten hs => exact .inl (h.listen hlisten).2
  | store seg sflags harrive =>
    obtain ⟨hcore, -⟩ := store_frame s (s.fitted seg) sflags
    exact .of_eq (congrArg Core.connectMessage hcore) (congrArg Core.accepted hcore)
  | _ => exact .of_eq rfl rfl

theorem Step.queued_length_le (hstep : Step arriving s t) : s.queued.length ≤ t.queued.length := by
  have hsame : ∀ u : PseudoTcp, u.connectMessage = s.connectMessage → u.accepted = s.accepted →
      s.queued.length ≤ u.queued.length := by
    intro u hconnect haccepted
    rw [queued, queued, hconnect, haccepted]
  cases hstep with
  | tune hcore => exact hsame _ (congrArg Core.connectMessage hcore) (congrArg Core.accepted hcore)
  | queueData data hstate =>
    change (s.connectMessage ++ s.accepted).length ≤
      (s.connectMessage ++ (s.accepted ++ data.take (s.queue data false).1)).length
    simp only [List.length_append]
    omega
  | queueConnect hlisten hs =>
    change (s.connectMessage ++ s.accepted).length ≤
      ((s.connectMessage ++ List.take _ _) ++ s.accepted).length
    simp only [List.length_append]
    omega
  | store seg sflags harrive =>
    obtain ⟨hcore, -⟩ := store_frame s (s.fitted seg) sflags
    exact hsame _ (congrArg Core.connectMessage hcore) (congrArg Core.accepted hcore)
  | _ => exact hsame _ rfl rfl

theorem Step.framed (hstep : Step arriving s t) (h : ∀ c ∈ s.written, c.Framed) :
    ∀ c ∈ t.written, c.Framed := by
  cases hstep with
  | tune hcore =>
    rw [show t.written = s.written from congrArg Core.written hcore]
    exact h
  | write hr =>
    intro c hc
    rcases List.mem_append.mp hc with hc | hc
    · exact h c hc
    · rw [List.mem_singleton.mp hc]
      exact packetCall_framed _ _ _ _ _
  | store seg sflags harrive =>
    obtain ⟨hcore, -⟩ := store_frame s (s.fitted seg) sflags
    rw [show (s.store (s.fitted seg) sflags).2.2.written = s.written from congrArg Core.written hcore]
    exact h
  | _ => exact h

theorem Follows.grows {peer peer' : PseudoTcp} (h : s.Follows peer.queued peer.connectMessage.length)
    (hgrows : peer.Grows peer') : s.Follows peer'.queued peer'.connectMessage.length := by
  rcases hgrows with hnil | ⟨⟨more, hmore⟩, hctl⟩
  · rw [hnil] at h
    exact Receiver.Follows.begin h _ _
  · rw [hmore, hctl]
    refine Receiver.Follows.append h more ?_
    rw [queued, List.length_append]
    exact Nat.le_add_right _ _

end Step

structure EndInv (s peer : PseudoTcp) : Prop where
  send : s.SendInv
  framed : ∀ c ∈ s.written, c.Framed
  follows : s.Follows peer.queued peer.connectMessage.length

theorem EndInv.steps {s t peer : PseudoTcp} (h : s.EndInv peer)
    (hsteps : Steps (fun seg => seg.Honest peer.queued peer.connectMessage.length) s t)
    (hlt : peer.queued.length < 2 ^ 32) (hclean : t.Undisturbed) : t.EndInv peer ∧ s.Grows t := by
  have hkeep : ∀ u v : PseudoTcp,
      Step (fun seg => seg.Honest peer.queued peer.connectMessage.length) u v →
      u.EndInv peer ∧ s.Grows u → v.Undisturbed → v.EndInv peer ∧ s.Grows v := by
    rintro u v hstep ⟨hu, hgrows⟩ hv
    exact ⟨⟨hu.send.step hstep hv.1, hstep.framed hu.framed, hu.follows.step hlt hstep hv⟩,
      hgrows.trans (hstep.grows hu.send)⟩
  exact Runs.invariant_of_clean Undisturbed.of_step hkeep hsteps ⟨h, .refl s⟩ hclean

theorem new_follows (env : Env) (conv : UInt32) : (new env conv).Follows [] 0 where
  wf := FifoBuffer.new_wf _ (by decide)
  capacity_lt := by simp only [new, FifoBuffer.new]; decide
  nxt_le := Nat.le_refl _
  delivered := List.prefix_refl _
  data := fun _ => rfl
  held := by simp [new]

theorem new_endInv (env env' : Env) (conv : UInt32) : (new env conv).EndInv (new env' conv) where
  send := new_sendInv env conv
  framed := by simp [new]
  follows := new_follows env conv

end PseudoTcp

inductive Side
  | left
  | right
  deriving DecidableEq, Repr

def Side.other : Side → Side
  | .left => .right
  | .right => .left

@[simp] theorem Side.other_other (x : Side) : x.other.other = x := by
  cases x <;> rfl

theorem Side.eq_or (x y : Side) : y = x ∨ y = x.other := by
  cases x <;> cases y <;> simp [Side.other]

structure Link where
  left : PseudoTcp
  right : PseudoTcp

/-- What can happen: a call of the application, a call of `NotifyClock`, or the
delivery of the `i`-th packet the other side has written. -/
inductive Event
  | app (side : Side) (call : AppCall)
  | clock (side : Side) (now : UInt32)
  | deliver (side : Side) (i : Nat) (beyond : Nat → UInt8)

namespace Link

def new (leftEnv rightEnv : Env) (conv : UInt32) : Link :=
  ⟨.new leftEnv conv, .new rightEnv conv⟩

def side (link : Link) : Side → PseudoTcp
  | .left => link.left
  | .right => link.right

def set (link : Link) (s : PseudoTcp) : Side → Link
  | .left => { link with left := s }
  | .right => { link with right := s }

def act (link : Link) : Event → Link
  | .app x call => link.set ((link.side x).app call) x
  | .clock x now => link.set ((link.side x).notifyClock now) x
  | .deliver x i beyond =>
    match (link.side x.other).written[i]? with
    | none => link
    | some c => link.set ((link.side x).notifyPacket c.bytes beyond).2 x

def run (link : Link) (events : List Event) : Link := events.foldl act link

@[simp] theorem side_set (link : Link) (s : PseudoTcp) (x : Side) : (link.set s x).side x = s := by
  cases x <;> rfl

@[simp] theorem side_other_set (link : Link) (s : PseudoTcp) (x : Side) :
    (link.set s x).side x.other = link.side x.other := by
  cases x <;> rfl

/-- Both endpoints are undisturbed, and fewer than `2 ^ 32` bytes were queued on
either side. -/
def Undisturbed (link : Link) : Prop :=
  ∀ x, (link.side x).Undisturbed ∧ (link.side x).queued.length < 2 ^ 32

instance (link : Link) : Decidable link.Undisturbed :=
  decidable_of_iff
    (((link.side .left).Undisturbed ∧ (link.side .left).queued.length < 2 ^ 32) ∧
      (link.side .right).Undisturbed ∧ (link.side .right).queued.length < 2 ^ 32)
    ⟨fun h x => by cases x; exacts [h.1, h.2], fun h => ⟨h .left, h .right⟩⟩

def Inv (link : Link) : Prop := ∀ x, (link.side x).EndInv (link.side x.other)

/-- One endpoint moves, and no segment arrives that is not a piece of the
other's stream. -/
theorem Inv.set {link : Link} (h : link.Inv) (x : Side) {t : PseudoTcp}
    (hsteps : PseudoTcp.Steps (fun seg => seg.Honest (link.side x.other).queued
      (link.side x.other).connectMessage.length) (link.side x) t)
    (hclean : (link.set t x).Undisturbed) : (link.set t x).Inv := by
  have hlt := (hclean x.other).2
  have ht := (hclean x).1
  rw [side_other_set] at hlt
  rw [side_set] at ht
  obtain ⟨hinv, hgrows⟩ := (h x).steps hsteps hlt ht
  intro y
  rcases x.eq_or y with rfl | rfl
  · rw [side_set, side_other_set]
    exact hinv
  · have hother := h x.other
    rw [Side.other_other] at hother
    rw [Side.other_other, side_set, side_other_set]
    exact ⟨hother.send, hother.framed, hother.follows.grows hgrows⟩

theorem act_cases (link : Link) (e : Event) : link.act e = link ∨ ∃ x t, link.act e = link.set t x ∧
    PseudoTcp.Steps (fun _ => True) (link.side x) t := by
  cases e with
  | app x call => exact .inr ⟨x, _, rfl, PseudoTcp.app_steps _ call⟩
  | clock x now => exact .inr ⟨x, _, rfl, PseudoTcp.notifyClock_steps _ now⟩
  | deliver x i beyond =>
    simp only [act]
    split
    · exact .inl rfl
    · exact .inr ⟨x, _, rfl, PseudoTcp.notifyPacket_steps _ fun _ _ => trivial⟩

theorem undisturbed_of_act (link : Link) (e : Event) (h : (link.act e).Undisturbed) :
    link.Undisturbed := by
  rcases link.act_cases e with heq | ⟨x, t, heq, hsteps⟩
  · rwa [heq] at h
  · rw [heq] at h
    intro y
    have hy := h y
    rcases x.eq_or y with rfl | rfl
    · rw [side_set] at hy
      have hback : ∀ u v : PseudoTcp, PseudoTcp.Step (fun _ => True) u v →
          v.Undisturbed ∧ v.queued.length < 2 ^ 32 → u.Undisturbed ∧ u.queued.length < 2 ^ 32 := by
        rintro u v hstep ⟨hv, hlt⟩
        exact ⟨hv.of_step u v hstep, Nat.lt_of_le_of_lt hstep.queued_length_le hlt⟩
      exact Runs.clean_of_clean hback hsteps hy
    · rwa [side_other_set] at hy

theorem Inv.act {link : Link} (h : link.Inv) (e : Event) (hclean : (link.act e).Undisturbed) :
    (link.act e).Inv := by
  have hbefore := link.undisturbed_of_act e hclean
  cases e with
  | app x call => exact h.set x (PseudoTcp.app_steps _ call) hclean
  | clock x now => exact h.set x (PseudoTcp.notifyClock_steps _ now) hclean
  | deliver x i beyond =>
    simp only [Link.act] at hclean ⊢
    split at hclean
    · exact h
    · rename_i c hc
      refine h.set x (PseudoTcp.notifyPacket_steps _ fun _ _ => ?_) hclean
      have hother := h x.other
      have hmem : c ∈ (link.side x.other).written := List.mem_of_getElem? hc
      exact PseudoTcp.parse_honest (hother.framed c hmem) (hother.send.carries c hmem)
        (hbefore x.other).2 beyond

theorem run_inv {link : Link} (h : link.Inv) (events : List Event)
    (hclean : (link.run events).Undisturbed) : (link.run events).Inv := by
  have hrun : Relation.ReflTransGen (fun l l' : Link => ∃ e, l' = l.act e) link (link.run events) :=
    Runs.foldl_reflTransGen (fun l e _ => .single ⟨e, rfl⟩) link fun _ _ => trivial
  refine Runs.invariant_of_clean ?_ ?_ hrun h hclean
  · rintro l _ ⟨e, rfl⟩ hl
    exact l.undisturbed_of_act e hl
  · rintro l _ ⟨e, rfl⟩ hl hclean
    exact hl.act e hclean

/-- As long as both endpoints are undisturbed, what one side has returned is a
prefix of what the other has accepted. -/
theorem stream_integrity (leftEnv rightEnv : Env) (conv : UInt32) (events : List Event)
    (h : ((new leftEnv rightEnv conv).run events).Undisturbed) (x : Side) :
    (((new leftEnv rightEnv conv).run events).side x).returned <+:
      (((new leftEnv rightEnv conv).run events).side x.other).accepted := by
  have hnew : (new leftEnv rightEnv conv).Inv := by
    intro y
    cases y with
    | left => exact PseudoTcp.new_endInv leftEnv rightEnv conv
    | right => exact PseudoTcp.new_endInv rightEnv leftEnv conv
  have hinv := run_inv hnew events h x
  have hdelivered := hinv.follows.delivered
  rw [PseudoTcp.queued, List.drop_left] at hdelivered
  exact (List.prefix_append _ _).trans hdelivered

theorem stream_integrity_connected :
    let events : List Event := [.app .left .connect,
      .deliver .right 0 fun _ => 0, .deliver .left 0 fun _ => 0,
      .app .left (.send [1, 2, 3]), .deliver .right 1 fun _ => 0, .deliver .right 1 fun _ => 0,
      .app .right (.recv 2)]
    let link := (new .still .still 7).run events
    (link.side .right).returned = [1, 2] ∧
      (link.side .right).returned <+: (link.side Side.right.other).accepted := by
  intro events
  exact ⟨by decide +kernel, stream_integrity .still .still 7 events (by decide +kernel) .right⟩

/-- Both sides connect. When the connect message of one comes in after its second
piece of data, the bytes skipped for it move the place of that piece. -/
theorem late_connect_misplaces_data :
    let link := (new .still .still 7).run [.app .left (.setOption .noDelay 1),
      .app .left .connect, .app .right .connect, .deliver .left 0 fun _ => 0,
      .app .left (.send [1, 2]), .app .left (.send [3, 4]),
      .deliver .right 2 fun _ => 0, .deliver .right 0 fun _ => 0, .deliver .right 1 fun _ => 0,
      .app .right (.recv 4)]
    (link.side .right).returned = [1, 2, 0, 0] ∧ (link.side .left).accepted = [1, 2, 3, 4] ∧
      ¬ (link.side .right).returned <+: (link.side .left).accepted := by
  decide +kernel

end Link

end Libjingle
