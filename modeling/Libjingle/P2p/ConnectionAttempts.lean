import Libjingle.P2p.P2PTransportChannel

/-! What an attempt of `CreateConnection` comes to, and what a series of attempts leaves as it
was: nothing but the connections changes, and a connection is either one that was there or one
that the filter and the port let through. -/

namespace Libjingle.P2PTransportChannel

variable {P : Type}

def withConnection (ch : P2PTransportChannel P) (p : P) (index : Nat) (remote : Candidate) :
    P2PTransportChannel P :=
  { ch with connections := ch.connections ++ [⟨p, index, remote, .readInit, ch.remoteIceMode⟩] }

section Adds

variable {ch ch' ch'' : P2PTransportChannel P}

/-- Nothing but the connections differs, and those that are new satisfy `Q`. -/
structure Adds (Q : P → Candidate → Prop) (ch ch' : P2PTransportChannel P) : Prop where
  frame : ch' = { ch with connections := ch'.connections }
  mem : ∀ c ∈ ch'.connections, (∃ old ∈ ch.connections, old.port = c.port ∧
    old.remoteCandidate = c.remoteCandidate) ∨ Q c.port c.remoteCandidate

namespace Adds

variable {Q R : P → Candidate → Prop}

theorem refl (ch : P2PTransportChannel P) : Adds Q ch ch :=
  ⟨rfl, fun c hc => .inl ⟨c, hc, rfl, rfl⟩⟩

theorem trans (h : Adds Q ch ch') (h' : Adds Q ch' ch'') : Adds Q ch ch'' := by
  refine ⟨?_, ?_⟩
  · rw [h'.frame, h.frame]
  · intro c hc
    rcases h'.mem c hc with ⟨old, hold, hport, hremote⟩ | hQ
    · rcases h.mem old hold with ⟨older, holder, hport', hremote'⟩ | hQ
      · exact .inl ⟨older, holder, hport'.trans hport, hremote'.trans hremote⟩
      · exact .inr (hport ▸ hremote ▸ hQ)
    · exact .inr hQ

theorem imp (h : Adds Q ch ch') (hQR : ∀ p c, Q p c → R p c) : Adds R ch ch' :=
  ⟨h.frame, fun c hc => (h.mem c hc).imp_right (hQR _ _)⟩

theorem heap_eq (h : Adds Q ch ch') : ch'.heap = ch.heap := by
  rw [h.frame]

theorem filter_eq (h : Adds Q ch ch') : ch'.filter = ch.filter := by
  rw [h.frame]

theorem live_eq (h : Adds Q ch ch') : ch'.live = ch.live := by
  rw [h.frame]

theorem ports_eq (h : Adds Q ch ch') : ch'.ports = ch.ports := by
  rw [h.frame]

theorem remoteCandidates_eq (h : Adds Q ch ch') : ch'.remoteCandidates = ch.remoteCandidates := by
  rw [h.frame]

theorem passesFilter_eq (h : Adds Q ch ch') (port : LocalPort) (remote : Candidate) :
    ch'.passesFilter port remote = ch.passesFilter port remote := by
  rw [passesFilter, h.filter_eq, passesFilter]

theorem foldl {ι : Type} {f : P2PTransportChannel P → ι → P2PTransportChannel P} {l : List ι}
    (hf : ∀ s, Adds Q ch s → ∀ i ∈ l, Adds Q s (f s i)) (h : Adds Q ch ch') :
    Adds Q ch (l.foldl f ch') := by
  induction l generalizing ch' with
  | nil => exact h
  | cons i rest ih =>
    have hfirst := h.trans (hf ch' h i List.mem_cons_self)
    exact ih (fun s hs j hj => hf s hs j (List.mem_cons_of_mem _ hj)) hfirst

end Adds

end Adds

variable [DecidableEq P]

inductive Attempt (ch : P2PTransportChannel P) (p : P) (remote : Candidate)
    (originPort : Option P) (readable : Bool) : P2PTransportChannel P × Bool → Prop
  | filtered (h : ch.passesFilter (ch.heap p) remote = false) :
    Attempt ch p remote originPort readable (ch, false)
  | taken (c : ChannelConnection P) (h : ch.getConnection p remote.address = some c) :
    Attempt ch p remote originPort readable (ch, false)
  | known (c : ChannelConnection P) (hc : ch.getConnection p remote.address = some c) :
    Attempt ch p remote originPort readable
      (if readable then ch.receivedPing p remote.address else ch, true)
  | incoming (h : getOrigin p originPort = .message) :
    Attempt ch p remote originPort readable (ch, false)
  | refused (h : (ch.heap p).createConnection remote (getOrigin p originPort) = none) :
    Attempt ch p remote originPort readable (ch, false)
  | made (index : Nat) (hfilter : ch.passesFilter (ch.heap p) remote = true)
    (hnew : ch.getConnection p remote.address = none)
    (hport : (ch.heap p).createConnection remote (getOrigin p originPort) = some index) :
    Attempt ch p remote originPort readable
      (if readable then (ch.withConnection p index remote).receivedPing p remote.address
        else ch.withConnection p index remote, true)

theorem createConnection_attempt (ch : P2PTransportChannel P) (p : P) (remote : Candidate)
    (originPort : Option P) (readable : Bool) : Attempt ch p remote originPort readable
      (ch.createConnection p remote originPort readable) := by
  rw [createConnection]
  by_cases hfilter : ch.passesFilter (ch.heap p) remote = false
  · rw [if_pos hfilter]
    exact .filtered hfilter
  · rw [if_neg hfilter]
    cases hconn : ch.getConnection p remote.address with
    | some c =>
      dsimp only
      by_cases hequiv : remote.isEquivalent c.remoteCandidate = false
      · rw [if_pos hequiv]
        exact .taken c hconn
      · rw [if_neg hequiv]
        exact .known c hconn
    | none =>
      dsimp only
      by_cases hmessage : getOrigin p originPort = .message ∧ ch.incomingOnly
      · rw [if_pos hmessage]
        exact .incoming hmessage.1
      · rw [if_neg hmessage]
        cases hport : (ch.heap p).createConnection remote (getOrigin p originPort) with
        | none => exact .refused hport
        | some index => exact .made index (Bool.eq_true_of_not_eq_false hfilter) hconn hport

theorem adds_receivedPing {Q : P → Candidate → Prop} (ch : P2PTransportChannel P) (p : P)
    (addr : SocketAddress) : Adds Q ch (ch.receivedPing p addr) := by
  refine ⟨rfl, ?_⟩
  intro c hc
  obtain ⟨old, hold, rfl⟩ := List.mem_map.mp hc
  refine .inl ⟨old, hold, ?_⟩
  split <;> exact ⟨rfl, rfl⟩

theorem adds_pinged {Q : P → Candidate → Prop} (ch : P2PTransportChannel P) (p : P)
    (addr : SocketAddress) (readable : Bool) : Adds Q ch (if readable then ch.receivedPing p addr else ch) := by
  cases readable with
  | false => exact .refl ch
  | true => exact adds_receivedPing ch p addr

/-- The connection that an attempt makes is one of the port that was tried, to the candidate, and
passes the filter. -/
theorem adds_createConnection (ch : P2PTransportChannel P) (p : P) (remote : Candidate)
    (originPort : Option P) (readable : Bool) :
    Adds (fun q c => q = p ∧ c = remote ∧ ch.passesFilter (ch.heap p) remote = true ∧
        (ch.heap p).createConnection remote (getOrigin p originPort) ≠ none)
      ch (ch.createConnection p remote originPort readable).1 := by
  have hattempt := createConnection_attempt ch p remote originPort readable
  generalize ch.createConnection p remote originPort readable = s at hattempt ⊢
  cases hattempt with
  | filtered h => exact .refl ch
  | taken c h => exact .refl ch
  | known c h => exact adds_pinged ch p remote.address readable
  | incoming h => exact .refl ch
  | refused h => exact .refl ch
  | made index hfilter hnew hport =>
    refine Adds.trans ⟨rfl, ?_⟩ (adds_pinged _ p remote.address readable)
    intro c hc
    rcases List.mem_append.mp hc with hc | hc
    · exact .inl ⟨c, hc, rfl, rfl⟩
    · rw [List.mem_singleton.mp hc]
      exact .inr ⟨rfl, rfl, hfilter, by rw [hport]; exact Option.some_ne_none _⟩

section Series

variable {ch : P2PTransportChannel P} {remote : Candidate} {originPort : Option P}
  {readable : Bool}

def Admits (ch : P2PTransportChannel P) (p : P) (remote : Candidate) (originPort : Option P) :
    Prop :=
  ch.passesFilter (ch.heap p) remote = true ∧
    (ch.heap p).createConnection remote (getOrigin p originPort) ≠ none

theorem Adds.admits_iff {Q : P → Candidate → Prop} {ch' : P2PTransportChannel P}
    (h : Adds Q ch ch') (p : P) : ch'.Admits p remote originPort ↔ ch.Admits p remote originPort := by
  rw [Admits, Admits, h.passesFilter_eq, h.heap_eq]

theorem adds_tryPort (s : P2PTransportChannel P × Bool) (p : P) :
    Adds (fun q c => q = p ∧ c = remote ∧ s.1.Admits p remote originPort) s.1
      (tryPort remote originPort readable s p).1 :=
  adds_createConnection s.1 p remote originPort readable

theorem adds_foldl_tryPort (l : List P) (s : P2PTransportChannel P × Bool) :
    Adds (fun q c => q ∈ l ∧ c = remote ∧ s.1.Admits q remote originPort) s.1
      (l.foldl (tryPort remote originPort readable) s).1 := by
  induction l generalizing s with
  | nil => exact .refl _
  | cons p rest ih =>
    have hfirst := @adds_tryPort P _ remote originPort readable s p
    refine (hfirst.imp ?_).trans ((ih (tryPort remote originPort readable s p)).imp ?_)
    · rintro q c ⟨rfl, rfl, hadmits⟩
      exact ⟨List.mem_cons_self, rfl, hadmits⟩
    · rintro q c ⟨hq, rfl, hadmits⟩
      exact ⟨List.mem_cons_of_mem _ hq, rfl, (hfirst.admits_iff q).mp hadmits⟩

theorem mem_candidatePorts {p : P} :
    p ∈ ch.candidatePorts originPort ↔ p ∈ ch.ports ∨ some p = originPort := by
  by_cases h : p ∈ ch.ports
  · simp [candidatePorts, h]
  · simp [candidatePorts, h, eq_comm]

theorem createConnections_eq (ch : P2PTransportChannel P) (remote : Candidate)
    (originPort : Option P) (readable : Bool) : ∃ tried : P2PTransportChannel P × Bool,
      tried = (ch.candidatePorts originPort).foldl
        (tryPort (ch.completed remote) originPort readable) (ch, false) ∧
      ch.createConnections remote originPort readable =
        (tried.1.rememberRemoteCandidate (ch.completed remote) originPort, tried.2) ∧
      Adds (fun q c => (q ∈ ch.ports ∨ some q = originPort) ∧ c = ch.completed remote ∧
        ch.Admits q (ch.completed remote) originPort) ch tried.1 := by
  refine ⟨_, rfl, rfl, ?_⟩
  refine (adds_foldl_tryPort _ (ch, false)).imp ?_
  rintro q c ⟨hq, hc, hadmits⟩
  exact ⟨mem_candidatePorts.mp hq, hc, hadmits⟩

theorem adds_onPortReady (ch : P2PTransportChannel P) (p : P) (port : LocalPort) :
    Adds (fun q c => q = p ∧ ∃ known ∈ ch.remoteCandidates, c = known.candidate ∧
        (ch.addPort p port).Admits p c known.originPort)
      (ch.addPort p port) (ch.onPortReady p port) := by
  apply Adds.foldl _ (.refl _)
  intro s hs known hknown
  refine (adds_createConnection s p known.candidate known.originPort false).imp ?_
  rintro q c ⟨rfl, rfl, hadmits⟩
  exact ⟨rfl, known, hknown, rfl, (hs.admits_iff q).mp hadmits⟩

end Series

/-- The connections are of ports that are still there, as are the ports in `ports`. -/
structure Wired (ch : P2PTransportChannel P) : Prop where
  ports : ∀ p ∈ ch.ports, p ∈ ch.live
  nodup : ch.ports.Nodup
  connections : ∀ c ∈ ch.connections, c.port ∈ ch.live

namespace Wired

variable {ch : P2PTransportChannel P}

omit [DecidableEq P] in
theorem of_adds {Q : P → Candidate → Prop} {ch' : P2PTransportChannel P} (h : ch.Wired)
    (hadds : Adds Q ch ch') (hQ : ∀ p c, Q p c → p ∈ ch.live) : ch'.Wired := by
  refine ⟨?_, ?_, ?_⟩
  · rw [hadds.ports_eq, hadds.live_eq]
    exact h.ports
  · rw [hadds.ports_eq]
    exact h.nodup
  · intro c hc
    rw [hadds.live_eq]
    rcases hadds.mem c hc with ⟨old, hold, hport, -⟩ | hnew
    · exact hport ▸ h.connections old hold
    · exact hQ _ _ hnew

omit [DecidableEq P] in
theorem rememberRemoteCandidate (h : ch.Wired) (remote : Candidate) (originPort : Option P) :
    (ch.rememberRemoteCandidate remote originPort).Wired := by
  rw [P2PTransportChannel.rememberRemoteCandidate]
  split <;> exact ⟨h.ports, h.nodup, h.connections⟩

theorem createConnections (h : ch.Wired) {remote : Candidate} {originPort : Option P}
    {readable : Bool} (horigin : ∀ p, some p = originPort → p ∈ ch.live) :
    (ch.createConnections remote originPort readable).1.Wired := by
  obtain ⟨tried, -, hresult, hadds⟩ := createConnections_eq ch remote originPort readable
  rw [hresult]
  apply rememberRemoteCandidate
  apply h.of_adds hadds
  rintro p c ⟨hp | hp, -, -⟩
  · exact h.ports p hp
  · exact horigin p hp

theorem addPort (h : ch.Wired) {p : P} (hp : p ∉ ch.live) (port : LocalPort) :
    (ch.addPort p port).Wired := by
  refine ⟨?_, ?_, ?_⟩
  · intro q hq
    rcases List.mem_append.mp hq with hq | hq
    · exact List.mem_append_left _ (h.ports q hq)
    · exact List.mem_append_right _ hq
  · refine List.nodup_append.mpr ⟨h.nodup, List.pairwise_singleton _ p, ?_⟩
    intro q hq q' hq' heq
    rw [List.mem_singleton.mp hq'] at heq
    exact hp (heq ▸ h.ports q hq)
  · intro c hc
    exact List.mem_append_left _ (h.connections c hc)

theorem onPortReady (h : ch.Wired) {p : P} (hp : p ∉ ch.live) (port : LocalPort) :
    (ch.onPortReady p port).Wired := by
  apply (h.addPort hp port).of_adds (adds_onPortReady ch p port)
  rintro q c ⟨rfl, -⟩
  exact List.mem_append_right _ (List.mem_singleton_self q)

theorem onPortDestroyed (h : ch.Wired) {p : P} (hp : ∀ c ∈ ch.connections, c.port ≠ p) :
    (ch.onPortDestroyed p).Wired := by
  refine ⟨?_, h.nodup.erase p, ?_⟩
  · intro q hq
    obtain ⟨hne, hq⟩ := h.nodup.mem_erase_iff.mp hq
    exact (List.mem_erase_of_ne hne).mpr (h.ports q hq)
  · intro c hc
    exact (List.mem_erase_of_ne (hp c hc)).mpr (h.connections c hc)

theorem step (h : ch.Wired) (computeCrc32 : List UInt8 → UInt32) (e : Event P) :
    (ch.step computeCrc32 e).Wired := by
  rw [P2PTransportChannel.step]
  by_cases henabled : ch.Enabled e = true
  · rw [if_pos henabled]
    cases e with
    | setRole role =>
      rw [handle, setRole]
      split
      · exact ⟨h.ports, h.nodup, h.connections⟩
      · exact h
    | setTiebreaker tiebreaker =>
      rw [handle, setTiebreaker]
      split
      · exact h
      · exact ⟨h.ports, h.nodup, h.connections⟩
    | setIceProtocolType type => exact ⟨h.ports, h.nodup, h.connections⟩
    | setIceCredentials iceUfrag icePwd =>
      rw [handle, setIceCredentials]
      split <;> exact ⟨h.ports, h.nodup, h.connections⟩
    | setRemoteIceCredentials iceUfrag icePwd =>
      rw [handle, setRemoteIceCredentials]
      dsimp only
      split <;> exact ⟨h.ports, h.nodup, h.connections⟩
    | setRemoteIceMode mode => exact ⟨h.ports, h.nodup, h.connections⟩
    | connect =>
      rw [handle, connect]
      split <;> exact ⟨h.ports, h.nodup, h.connections⟩
    | signalingReady =>
      rw [handle, onSignalingReady]
      split
      · exact ⟨by simp [addAllocatorSession], List.nodup_nil, h.connections⟩
      · exact h
    | portReady p port => exact h.onPortReady (by simpa [Enabled] using henabled) port
    | candidate candidate => exact h.createConnections fun _ hp => by cases hp
    | unknownAddress r =>
      have hlive : r.port ∈ ch.live := by
        simp only [Enabled, Bool.and_eq_true, decide_eq_true_eq] at henabled
        exact henabled.1
      rw [handle, onUnknownAddress]
      split
      · exact h
      · have hcreated : (ch.createConnections (ch.requestCandidate computeCrc32 r) r.port true).1.Wired :=
          h.createConnections fun p hp => Option.some_inj.mp hp ▸ hlive
        dsimp only
        split
        · exact hcreated.of_adds (adds_receivedPing (Q := fun _ _ => False) _ _ _) fun _ _ h => h.elim
        · exact hcreated
    | portDestroyed p =>
      apply h.onPortDestroyed
      simp only [Enabled, Bool.and_eq_true, List.all_eq_true, decide_eq_true_eq] at henabled
      exact henabled.2
    | connectionDestroyed c =>
      exact ⟨h.ports, h.nodup, fun d hd => h.connections d (List.mem_of_mem_erase hd)⟩
    | reset connectRequested =>
      rw [handle, reset]
      split <;> exact ⟨fun _ hp => absurd hp List.not_mem_nil, List.nodup_nil,
        fun _ hc => absurd hc List.not_mem_nil⟩
  · rw [if_neg henabled]
    exact h

omit [DecidableEq P] in
theorem start (component : Int) (filter : UInt32) (heap : P → LocalPort) :
    (P2PTransportChannel.start component filter heap).Wired :=
  ⟨fun _ hp => absurd hp List.not_mem_nil, List.nodup_nil, fun _ hc => absurd hc List.not_mem_nil⟩

end Wired

def run (ch : P2PTransportChannel P) (computeCrc32 : List UInt8 → UInt32)
    (events : List (Event P)) : P2PTransportChannel P :=
  events.foldl (fun ch e => ch.step computeCrc32 e) ch

/-- What every step keeps, given that the connections are of ports that are there, a run
keeps. -/
theorem run_induction {inv : P2PTransportChannel P → Prop} {ch : P2PTransportChannel P}
    (computeCrc32 : List UInt8 → UInt32)
    (hstep : ∀ ch e, Wired ch → inv ch → inv (ch.step computeCrc32 e)) (hwired : ch.Wired)
    (h : inv ch) (events : List (Event P)) :
    (ch.run computeCrc32 events).Wired ∧ inv (ch.run computeCrc32 events) := by
  induction events generalizing ch with
  | nil => exact ⟨hwired, h⟩
  | cons e rest ih => exact ih (hwired.step computeCrc32 e) (hstep ch e hwired h)

end Libjingle.P2PTransportChannel
