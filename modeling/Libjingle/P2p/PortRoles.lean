import Libjingle.P2p.UnknownAddress
import Libjingle.P2p.IceRole
import Libjingle.Lib.Runs

/-! The role and the protocol of the ports that own connections. A channel tells them to the
ports of its newest allocator session only, while those of the sessions before keep their
connections. -/

namespace Libjingle.P2PTransportChannel

variable {P : Type} [DecidableEq P]

def UpToDate (ch : P2PTransportChannel P) (port : LocalPort) : Prop :=
  port.role = ch.role ∧ port.iceProtocol = ch.protocolType

def pair (ch : P2PTransportChannel P) (c : ChannelConnection P) : Connection Unit :=
  let port := ch.heap c.port
  Connection.create () port.role port.generation (port.candidates.getD c.localIndex {})
    c.remoteCandidate

structure Uniform (ch : P2PTransportChannel P) : Prop where
  owners : ∀ c ∈ ch.connections, ch.UpToDate (ch.heap c.port)
  pings : ∀ c ∈ ch.connections, ch.protocolType = .rfc5245 →
    ∀ transactionId useCandidate retransmits localPriority type role,
      (type = stunAttrIceControlling ∧ role = .controlling ∨
        type = stunAttrIceControlled ∧ role = .controlled) →
      Port.statedRole ((ch.heap c.port).toPort.unsignedPing transactionId c.remoteCandidate
        useCandidate retransmits localPriority) type =
          if ch.role = role then some (ch.heap c.port).tiebreaker else none
  priorities : ∀ c ∈ ch.connections,
    (ch.pair c).priority = { ch.pair c with role := ch.role }.priority
  comparable : ∀ a ∈ ch.connections, ∀ b ∈ ch.connections,
    (ch.heap a.port).iceProtocol = (ch.heap b.port).iceProtocol

omit [DecidableEq P] in
theorem uniform_of_owners {ch : P2PTransportChannel P}
    (h : ∀ c ∈ ch.connections, ch.UpToDate (ch.heap c.port)) : ch.Uniform := by
  refine ⟨h, ?_, ?_, ?_⟩
  · intro c hc hprotocol transactionId useCandidate retransmits localPriority type role htype
    obtain ⟨hrole, hport⟩ := h c hc
    rw [Port.statedRole_unsignedPing (hport.trans hprotocol) transactionId htype, hrole]
  · intro c hc
    rw [← (h c hc).1]
    rfl
  · intro a ha b hb
    exact (h a ha).2.trans (h b hb).2.symm

/-- A change of the role or the protocol comes while the connections are all of ports that are
told of it, and no request makes a connection on a port that was not. -/
def Reaches (ch : P2PTransportChannel P) : Event P → Prop
  | .setRole role => ch.role ≠ role → ∀ c ∈ ch.connections, c.port ∈ ch.ports
  | .setIceProtocolType type => ch.protocolType ≠ type → ∀ c ∈ ch.connections, c.port ∈ ch.ports
  | .unknownAddress r => ch.Enabled (.unknownAddress r) = true →
      ch.knowsUsername r.remoteUsername = true → ch.Accepts r → ch.UpToDate (ch.heap r.port)
  | _ => True

/-- Ports, role and protocol are as before, and connections have only been added, of ports that
satisfy `Q`. -/
structure Extends (Q : P → Prop) (ch ch' : P2PTransportChannel P) : Prop where
  heap : ch'.heap = ch.heap
  ports : ch'.ports = ch.ports
  role : ch'.role = ch.role
  protocolType : ch'.protocolType = ch.protocolType
  mem : ∀ c ∈ ch'.connections, (∃ old ∈ ch.connections, old.port = c.port) ∨ Q c.port

section Extends

variable {Q : P → Prop} {R : P → Candidate → Prop} {ch ch' ch'' : P2PTransportChannel P}

omit [DecidableEq P] in
theorem Adds.toExtends (h : Adds R ch ch') (hQ : ∀ p c, R p c → Q p) : Extends Q ch ch' := by
  refine ⟨h.heap_eq, h.ports_eq, ?_, ?_, ?_⟩
  · rw [h.frame]
  · rw [h.frame]
  · intro c hc
    rcases h.mem c hc with ⟨old, hold, hport, -⟩ | hR
    · exact .inl ⟨old, hold, hport⟩
    · exact .inr (hQ _ _ hR)

omit [DecidableEq P] in
theorem Extends.trans (h : Extends Q ch ch') (h' : Extends Q ch' ch'') : Extends Q ch ch'' := by
  refine ⟨h'.heap.trans h.heap, h'.ports.trans h.ports, h'.role.trans h.role,
    h'.protocolType.trans h.protocolType, ?_⟩
  intro c hc
  rcases h'.mem c hc with ⟨old, hold, hport⟩ | hQ
  · rcases h.mem old hold with ⟨older, holder, hport'⟩ | hQ
    · exact .inl ⟨older, holder, hport'.trans hport⟩
    · exact .inr (hport ▸ hQ)
  · exact .inr hQ

omit [DecidableEq P] in
theorem extends_rememberRemoteCandidate (ch : P2PTransportChannel P) (remote : Candidate)
    (originPort : Option P) : Extends Q ch (ch.rememberRemoteCandidate remote originPort) := by
  rw [rememberRemoteCandidate]
  split <;> exact ⟨rfl, rfl, rfl, rfl, fun c hc => .inl ⟨c, hc, rfl⟩⟩

theorem extends_createConnections (ch : P2PTransportChannel P) (remote : Candidate)
    (originPort : Option P) (readable : Bool) :
    Extends (fun p => p ∈ ch.ports ∨ some p = originPort ∧ ch.Admits p (ch.completed remote) originPort)
      ch (ch.createConnections remote originPort readable).1 := by
  obtain ⟨tried, -, hresult, hadds⟩ := createConnections_eq ch remote originPort readable
  rw [hresult]
  refine (hadds.toExtends ?_).trans (extends_rememberRemoteCandidate tried.1 _ _)
  rintro p c ⟨hp | hp, -, hadmits⟩
  · exact .inl hp
  · exact .inr ⟨hp, hadmits⟩

theorem extends_onUnknownAddress (ch : P2PTransportChannel P) (computeCrc32 : List UInt8 → UInt32)
    (r : Request P) : Extends (fun p => p ∈ ch.ports ∨ p = r.port ∧
      ch.knowsUsername r.remoteUsername = true ∧ ch.Accepts r) ch
        (ch.onUnknownAddress computeCrc32 r).channel := by
  rw [onUnknownAddress]
  by_cases hknown : ch.knowsUsername r.remoteUsername = true
  · rw [if_neg (by simp [hknown])]
    have hcreate := extends_createConnections ch (ch.requestCandidate computeCrc32 r) (some r.port) true
    have hcreated : Extends (fun p => p ∈ ch.ports ∨ p = r.port ∧
        ch.knowsUsername r.remoteUsername = true ∧ ch.Accepts r) ch
          (ch.createConnections (ch.requestCandidate computeCrc32 r) (some r.port) true).1 := by
      refine ⟨hcreate.heap, hcreate.ports, hcreate.role, hcreate.protocolType, ?_⟩
      intro c hc
      refine (hcreate.mem c hc).imp_right (Or.imp_right ?_)
      rintro ⟨hport, hadmits⟩
      have hport : c.port = r.port := Option.some_inj.mp hport
      rw [hport] at hadmits
      exact ⟨hport, hknown, (admits_iff_accepts computeCrc32).mp hadmits⟩
    dsimp only
    split
    · exact hcreated.trans
        ((adds_receivedPing (Q := fun _ _ => False) _ _ _).toExtends fun _ _ h => h.elim)
    · exact hcreated
  · rw [if_pos (by simpa using hknown)]
    exact ⟨rfl, rfl, rfl, rfl, fun c hc => .inl ⟨c, hc, rfl⟩⟩

end Extends

def Told (ch : P2PTransportChannel P) : Prop := ∀ p ∈ ch.ports, ch.UpToDate (ch.heap p)

def Owned (ch : P2PTransportChannel P) : Prop := ∀ c ∈ ch.connections, ch.UpToDate (ch.heap c.port)

section Steps

variable {Q : P → Prop} {ch ch' : P2PTransportChannel P}

omit [DecidableEq P] in
theorem Extends.upToDate_iff (h : Extends Q ch ch') (port : LocalPort) :
    ch'.UpToDate port ↔ ch.UpToDate port := by
  rw [UpToDate, UpToDate, h.role, h.protocolType]

omit [DecidableEq P] in
theorem Told.of_extends (htold : ch.Told) (h : Extends Q ch ch') : ch'.Told := by
  intro p hp
  rw [h.upToDate_iff, h.heap]
  exact htold p (h.ports ▸ hp)

omit [DecidableEq P] in
theorem Owned.of_extends (howned : ch.Owned) (h : Extends Q ch ch')
    (hQ : ∀ p, Q p → ch.UpToDate (ch.heap p)) : ch'.Owned := by
  intro c hc
  rw [h.upToDate_iff, h.heap]
  rcases h.mem c hc with ⟨old, hold, hport⟩ | hnew
  · exact hport ▸ howned old hold
  · exact hQ _ hnew

theorem told_setRole (h : ch.Told) (role : TransportRole) : (ch.setRole role).Told := by
  rw [setRole]
  split
  · intro p hp
    have hmem : p ∈ ch.ports := hp
    simp only [UpToDate, modifyPorts, if_pos hmem]
    exact ⟨trivial, (h p hmem).2⟩
  · exact h

theorem told_setIceProtocolType (h : ch.Told) (type : TransportProtocol) :
    (ch.setIceProtocolType type).Told := by
  intro p hp
  have hmem : p ∈ ch.ports := hp
  simp only [UpToDate, setIceProtocolType, modifyPorts, if_pos hmem]
  exact ⟨(h p hmem).1, trivial⟩

theorem upToDate_addPort (ch : P2PTransportChannel P) (p : P) (port : LocalPort) :
    (ch.addPort p port).UpToDate ((ch.addPort p port).heap p) := by
  simp [UpToDate, addPort]

theorem told_onPortReady (h : ch.Told) (p : P) (port : LocalPort) :
    (ch.onPortReady p port).Told := by
  have hadded : (ch.addPort p port).Told := by
    intro q hq
    by_cases heq : q = p
    · exact heq ▸ upToDate_addPort ch p port
    · have hq : q ∈ ch.ports := by simpa [addPort, heq] using hq
      simpa [addPort, UpToDate, heq] using h q hq
  exact hadded.of_extends ((adds_onPortReady ch p port).toExtends (Q := fun _ => True) fun _ _ _ => trivial)

theorem owned_onPortReady (hwired : ch.Wired) (h : ch.Owned) {p : P} (hp : p ∉ ch.live)
    (port : LocalPort) : (ch.onPortReady p port).Owned := by
  have hadded : (ch.addPort p port).Owned := by
    intro c hc
    have hne : c.port ≠ p := fun heq => hp (heq ▸ hwired.connections c hc)
    simpa [addPort, UpToDate, hne] using h c hc
  apply hadded.of_extends ((adds_onPortReady ch p port).toExtends (Q := fun q => q = p) fun _ _ h => h.1)
  rintro q rfl
  exact upToDate_addPort ch q port

theorem told_step (h : ch.Told) (computeCrc32 : List UInt8 → UInt32)
    (e : Event P) : (ch.step computeCrc32 e).Told := by
  rw [P2PTransportChannel.step]
  by_cases henabled : ch.Enabled e = true
  · rw [if_pos henabled]
    cases e with
    | setRole role => exact told_setRole h role
    | setTiebreaker tiebreaker =>
      rw [handle, setTiebreaker]
      split <;> exact h
    | setIceProtocolType type => exact told_setIceProtocolType h type
    | setIceCredentials iceUfrag icePwd =>
      rw [handle, setIceCredentials]
      split <;> exact h
    | setRemoteIceCredentials iceUfrag icePwd =>
      rw [handle, setRemoteIceCredentials]
      dsimp only
      split <;> exact h
    | setRemoteIceMode mode => exact h
    | connect =>
      rw [handle, connect]
      split <;> exact h
    | signalingReady =>
      rw [handle, onSignalingReady]
      split
      · exact fun _ hp => absurd hp List.not_mem_nil
      · exact h
    | portReady p port => exact told_onPortReady h p port
    | candidate candidate => exact h.of_extends (extends_createConnections ch candidate none false)
    | unknownAddress r => exact h.of_extends (extends_onUnknownAddress ch computeCrc32 r)
    | portDestroyed p => exact fun q hq => h q (List.mem_of_mem_erase hq)
    | connectionDestroyed c => exact h
    | reset connectRequested =>
      rw [handle, reset]
      split <;> exact fun _ hp => absurd hp List.not_mem_nil
  · rw [if_neg henabled]
    exact h

theorem owned_setRole_iff (h : ch.Owned) (role : TransportRole) :
    (ch.role ≠ role → ∀ c ∈ ch.connections, c.port ∈ ch.ports) ↔ (ch.setRole role).Owned := by
  rw [setRole]
  by_cases hrole : ch.role = role
  · simp [hrole, h]
  · rw [if_pos hrole]
    constructor
    · intro hports c hc
      have hmem := hports hrole c hc
      simp only [UpToDate, modifyPorts, if_pos hmem]
      exact ⟨trivial, (h c hc).2⟩
    · intro howned _ c hc
      by_contra hmem
      have hnew := (howned c hc).1
      simp only [modifyPorts, if_neg hmem] at hnew
      exact hrole ((h c hc).1.symm.trans hnew)

theorem owned_setIceProtocolType_iff (h : ch.Owned) (type : TransportProtocol) :
    (ch.protocolType ≠ type → ∀ c ∈ ch.connections, c.port ∈ ch.ports) ↔
      (ch.setIceProtocolType type).Owned := by
  constructor
  · intro hports c hc
    by_cases hmem : c.port ∈ ch.ports
    · simp only [UpToDate, setIceProtocolType, modifyPorts, if_pos hmem]
      exact ⟨(h c hc).1, trivial⟩
    · have htype : ch.protocolType = type := by
        by_contra hne
        exact hmem (hports hne c hc)
      simp only [UpToDate, setIceProtocolType, modifyPorts, if_neg hmem]
      exact ⟨(h c hc).1, (h c hc).2.trans htype⟩
  · intro howned htype c hc
    by_contra hmem
    have hnew := (howned c hc).2
    simp only [setIceProtocolType, modifyPorts, if_neg hmem] at hnew
    exact htype ((h c hc).2.symm.trans hnew)

theorem owned_onUnknownAddress_iff (hwired : ch.Wired) (htold : ch.Told) (h : ch.Owned)
    (computeCrc32 : List UInt8 → UInt32) (r : Request P)
    (hnone : ch.getConnection r.port r.address = none) :
    (ch.knowsUsername r.remoteUsername = true → ch.Accepts r → ch.UpToDate (ch.heap r.port)) ↔
      (ch.onUnknownAddress computeCrc32 r).channel.Owned := by
  have hextends := extends_onUnknownAddress ch computeCrc32 r
  constructor
  · intro hreaches
    apply h.of_extends hextends
    rintro p (hp | ⟨rfl, hknown, haccepts⟩)
    · exact htold p hp
    · exact hreaches hknown haccepts
  · intro howned hknown haccepts
    obtain ⟨c, hc, hport⟩ := exists_connection computeCrc32 hwired hnone hknown haccepts
    have hnew := howned c hc
    rw [hextends.upToDate_iff, hextends.heap, hport] at hnew
    exact hnew

theorem owned_step_iff (hwired : ch.Wired) (htold : ch.Told) (h : ch.Owned)
    (computeCrc32 : List UInt8 → UInt32) (e : Event P) :
    ch.Reaches e ↔ (ch.step computeCrc32 e).Owned := by
  rw [P2PTransportChannel.step]
  by_cases henabled : ch.Enabled e = true
  · rw [if_pos henabled]
    cases e with
    | setRole role => exact owned_setRole_iff h role
    | setTiebreaker tiebreaker =>
      refine iff_of_true trivial ?_
      rw [handle, setTiebreaker]
      split <;> exact h
    | setIceProtocolType type => exact owned_setIceProtocolType_iff h type
    | setIceCredentials iceUfrag icePwd =>
      refine iff_of_true trivial ?_
      rw [handle, setIceCredentials]
      split <;> exact h
    | setRemoteIceCredentials iceUfrag icePwd =>
      refine iff_of_true trivial ?_
      rw [handle, setRemoteIceCredentials]
      dsimp only
      split <;> exact h
    | setRemoteIceMode mode => exact iff_of_true trivial h
    | connect =>
      refine iff_of_true trivial ?_
      rw [handle, connect]
      split <;> exact h
    | signalingReady =>
      refine iff_of_true trivial ?_
      rw [handle, onSignalingReady]
      split <;> exact h
    | portReady p port =>
      exact iff_of_true trivial (owned_onPortReady hwired h (by simpa [Enabled] using henabled) port)
    | candidate candidate =>
      refine iff_of_true trivial ?_
      apply h.of_extends (extends_createConnections ch candidate none false)
      rintro p (hp | ⟨hp, -⟩)
      · exact htold p hp
      · cases hp
    | unknownAddress r =>
      have hnone : ch.getConnection r.port r.address = none := by
        simp only [Enabled, Bool.and_eq_true, Option.isNone_iff_eq_none] at henabled
        exact henabled.2
      have hiff := owned_onUnknownAddress_iff hwired htold h computeCrc32 r hnone
      exact ⟨fun hreaches => hiff.mp (hreaches henabled), fun howned _ => hiff.mpr howned⟩
    | portDestroyed p => exact iff_of_true trivial h
    | connectionDestroyed c =>
      exact iff_of_true trivial fun d hd => h d (List.mem_of_mem_erase hd)
    | reset connectRequested =>
      refine iff_of_true trivial ?_
      rw [handle, reset]
      split <;> exact fun _ hp => absurd hp List.not_mem_nil
  · rw [if_neg henabled]
    refine iff_of_true ?_ h
    cases e with
    | setRole role => exact absurd rfl henabled
    | setIceProtocolType type => exact absurd rfl henabled
    | unknownAddress r => exact fun h => absurd h henabled
    | _ => trivial

end Steps

omit [DecidableEq P] in
theorem uniform_iff {ch : P2PTransportChannel P} : ch.Uniform ↔ ch.Owned :=
  ⟨fun h => h.owners, uniform_of_owners⟩

theorem roles_reach_iff (computeCrc32 : List UInt8 → UInt32) (component : Int) (filter : UInt32)
    (heap : P → LocalPort) (events : List (Event P)) :
    Runs.Along (fun ch e => ch.step computeCrc32 e) Reaches (start component filter heap) events ↔
      ∀ n, ((start component filter heap).run computeCrc32 (events.take n)).Uniform := by
  have hstart : (start component filter heap).Owned :=
    fun _ hc => absurd hc List.not_mem_nil
  have hafter := @Runs.along_after_iff _ _ (fun ch e => ch.step computeCrc32 e) _ _ hstart events
  simp only [uniform_iff, run]
  rw [← hafter]
  apply @Runs.along_iff _ _ _ _ _ fun ch : P2PTransportChannel P => ch.Wired ∧ ch.Told ∧ ch.Owned
  · intro ch e h
    exact owned_step_iff h.1 h.2.1 h.2.2 computeCrc32 e
  · intro ch e h hreaches
    exact ⟨h.1.step computeCrc32 e, told_step h.2.1 computeCrc32 e,
      (owned_step_iff h.1 h.2.1 h.2.2 computeCrc32 e).mp hreaches⟩
  · exact ⟨.start component filter heap, fun _ hp => absurd hp List.not_mem_nil, hstart⟩

def restartEvents : List (Event Unit) :=
  [.setIceCredentials [97] [98], .connect, .signalingReady, .setRole .controlling,
    .portReady () (examplePort .udp localPortType),
    .candidate { protocol := ProtocolType.udp.name, address := .ofIP (.inet 2) 7 },
    .setIceCredentials [99] [98], .signalingReady, .setRole .controlled]

theorem role_left_behind : ¬ ((start 1 portAllocatorFilterAllowNone
    fun _ => examplePort .udp localPortType).run (fun _ => 0) restartEvents).Uniform := by
  generalize hch : (start 1 portAllocatorFilterAllowNone
    fun _ : Unit => examplePort .udp localPortType).run (fun _ => 0) restartEvents = ch
  have hroles : ch.connections.map (fun c => (ch.heap c.port).role) = [.controlling] ∧
      ch.role = .controlled := by
    rw [← hch]
    decide +kernel
  intro huniform
  have hmem : TransportRole.controlling ∈ ch.connections.map fun c => (ch.heap c.port).role := by
    rw [hroles.1]
    exact List.mem_singleton_self _
  obtain ⟨c, hc, hrole⟩ := List.mem_map.mp hmem
  have hsame := (huniform.owners c hc).1
  rw [hrole, hroles.2] at hsame
  cases hsame

end Libjingle.P2PTransportChannel
