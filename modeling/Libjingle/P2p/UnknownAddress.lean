import Libjingle.P2p.ConnectionAttempts
import Libjingle.Base.AddressComparison

/-! How a channel answers a request from an address that it has no connection to. It relies on
the port to connect to the sender, which not every port does for every candidate. -/

namespace Libjingle.P2PTransportChannel

variable {P : Type} [DecidableEq P]

def onPort (ch : P2PTransportChannel P) (p : P) : List (ChannelConnection P) :=
  ch.connections.filter (·.port = p)

section Ports

variable {ch : P2PTransportChannel P} {p q : P} {addr : SocketAddress} {remote : Candidate}
  {originPort : Option P} {readable : Bool}

theorem sameKey_eq_equal (a b : SocketAddress) : (!a.less b && !b.less a) = a.equal b := by
  rw [Bool.eq_iff_iff, ← SocketAddress.incomparable_iff_equal]
  simp

theorem getConnection_eq (ch : P2PTransportChannel P) (p : P) (addr : SocketAddress) :
    ch.getConnection p addr =
      (ch.onPort p).find? fun c => c.remoteCandidate.address.equal addr := by
  simp [getConnection, onPort, List.find?_filter, Bool.and_assoc, sameKey_eq_equal]

theorem getConnection_eq_none : ch.getConnection p addr = none ↔
    ∀ c ∈ ch.onPort p, c.remoteCandidate.address.equal addr = false := by
  simp [getConnection_eq]

theorem onPort_receivedPing (ch : P2PTransportChannel P) (p q : P) (addr : SocketAddress) :
    (ch.receivedPing p addr).onPort q = (ch.onPort q).map fun c =>
      if c.port = p && c.remoteCandidate.address.equal addr then
        { c with readState := .readable }
      else c := by
  simp only [onPort, receivedPing, List.filter_map, Bool.and_assoc, sameKey_eq_equal]
  congr 1
  apply List.filter_congr
  intro c hc
  dsimp only [Function.comp]
  split <;> rfl

theorem onPort_receivedPing_of_ne (hne : q ≠ p) : (ch.receivedPing p addr).onPort q = ch.onPort q := by
  rw [onPort_receivedPing]
  apply (List.map_congr_left _).trans (List.map_id _)
  intro c hc
  have hport : c.port = q := by simpa using (List.mem_filter.mp hc).2
  simp [hport, hne]

theorem onPort_withConnection (ch : P2PTransportChannel P) (p q : P) (index : Nat)
    (remote : Candidate) : (ch.withConnection p index remote).onPort q =
      ch.onPort q ++ if p = q then [⟨p, index, remote, .readInit, ch.remoteIceMode⟩] else [] := by
  by_cases h : p = q <;> simp [onPort, withConnection, h]

theorem onPort_pinged_of_ne (hne : q ≠ p) : (if readable then ch.receivedPing p addr else ch).onPort q =
    ch.onPort q := by
  cases readable with
  | false => rfl
  | true => exact onPort_receivedPing_of_ne hne

theorem onPort_createConnection_of_ne (hne : q ≠ p) :
    (ch.createConnection p remote originPort readable).1.onPort q = ch.onPort q := by
  have hattempt := createConnection_attempt ch p remote originPort readable
  generalize ch.createConnection p remote originPort readable = s at hattempt ⊢
  cases hattempt with
  | known c hc => exact onPort_pinged_of_ne hne
  | made index hfilter hnew hport =>
    rw [onPort_pinged_of_ne hne, onPort_withConnection, if_neg hne.symm, List.append_nil]
  | _ => rfl

theorem foldl_tryPort_of_notMem {l : List P} (h : p ∉ l) (s : P2PTransportChannel P × Bool) :
    (l.foldl (tryPort remote (some p) readable) s).1.onPort p = s.1.onPort p ∧
      (l.foldl (tryPort remote (some p) readable) s).2 = s.2 := by
  induction l generalizing s with
  | nil => exact ⟨rfl, rfl⟩
  | cons q rest ih =>
    have hne : p ≠ q := fun heq => h (heq ▸ List.mem_cons_self)
    obtain ⟨hconnections, hcreated⟩ := ih (fun hmem => h (List.mem_cons_of_mem _ hmem))
      (tryPort remote (some p) readable s q)
    rw [List.foldl_cons, hconnections, hcreated]
    refine ⟨onPort_createConnection_of_ne hne, ?_⟩
    simp [tryPort, hne.symm]

theorem createConnection_thisPort (hnone : ch.getConnection p remote.address = none) :
    (ch.Admits p remote (some p) → ∃ c : ChannelConnection P,
      (ch.createConnection p remote (some p) true).1.onPort p = ch.onPort p ++ [c] ∧
      c.remoteCandidate = remote ∧ c.readState = .readable ∧
      (ch.createConnection p remote (some p) true).2 = true) ∧
    (¬ ch.Admits p remote (some p) →
      (ch.createConnection p remote (some p) true).1.onPort p = ch.onPort p ∧
      (ch.createConnection p remote (some p) true).2 = false) := by
  have hattempt := createConnection_attempt ch p remote (some p) true
  generalize ch.createConnection p remote (some p) true = s at hattempt ⊢
  cases hattempt with
  | filtered h =>
    refine ⟨fun hadmits => ?_, fun _ => ⟨rfl, rfl⟩⟩
    rw [hadmits.1] at h
    cases h
  | taken c h =>
    rw [hnone] at h
    cases h
  | known c h =>
    rw [hnone] at h
    cases h
  | incoming h => simp [getOrigin] at h
  | refused h => exact ⟨fun hadmits => absurd h hadmits.2, fun _ => ⟨rfl, rfl⟩⟩
  | made index hfilter hnew hport =>
    have hadmits : ch.Admits p remote (some p) :=
      ⟨hfilter, by rw [hport]; exact Option.some_ne_none _⟩
    refine ⟨fun _ => ?_, fun h => absurd hadmits h⟩
    refine ⟨⟨p, index, remote, .readable, ch.remoteIceMode⟩, ?_, rfl, rfl, rfl⟩
    rw [if_pos rfl, onPort_receivedPing, onPort_withConnection, if_pos rfl, List.map_append]
    congr 1
    · apply (List.map_congr_left _).trans (List.map_id _)
      intro c hc
      have hother := getConnection_eq_none.mp hnone c hc
      simp [hother]
    · simp [SocketAddress.equal_refl]

theorem candidatePorts_split (hwired : ch.Wired) (p : P) : ∃ before after,
    ch.candidatePorts (some p) = before ++ p :: after ∧ p ∉ before ∧ p ∉ after := by
  have hreverse : ch.ports.reverse.Nodup :=
    List.pairwise_reverse.mpr (hwired.nodup.imp fun hne => hne.symm)
  have hnodup : (ch.candidatePorts (some p)).Nodup := by
    by_cases h : p ∈ ch.ports
    · simpa [candidatePorts, h] using hreverse
    · simp only [candidatePorts, Option.toList_some, h, not_false_eq_true, decide_true,
        List.filter_cons_of_pos, List.filter_nil]
      refine List.nodup_append.mpr ⟨hreverse, List.pairwise_singleton _ p, ?_⟩
      intro q hq q' hq' heq
      rw [List.mem_singleton.mp hq'] at heq
      exact h (heq ▸ List.mem_reverse.mp hq)
  have hmem : p ∈ ch.candidatePorts (some p) := mem_candidatePorts.mpr (.inr rfl)
  obtain ⟨before, after, hsplit⟩ := List.append_of_mem hmem
  rw [hsplit] at hnodup
  have hparts := List.nodup_append.mp hnodup
  refine ⟨before, after, hsplit, ?_, (List.nodup_cons.mp hparts.2.1).1⟩
  intro hbefore
  exact hparts.2.2 p hbefore p List.mem_cons_self rfl

theorem onPort_rememberRemoteCandidate :
    (ch.rememberRemoteCandidate remote originPort).onPort p = ch.onPort p := by
  rw [rememberRemoteCandidate]
  split <;> rfl

theorem createConnections_thisPort (hwired : ch.Wired)
    (hnone : ch.getConnection p remote.address = none) :
    (ch.Admits p (ch.completed remote) (some p) → ∃ c : ChannelConnection P,
      (ch.createConnections remote (some p) true).1.onPort p = ch.onPort p ++ [c] ∧
      c.remoteCandidate = ch.completed remote ∧ c.readState = .readable ∧
      (ch.createConnections remote (some p) true).2 = true) ∧
    (¬ ch.Admits p (ch.completed remote) (some p) →
      (ch.createConnections remote (some p) true).1.onPort p = ch.onPort p ∧
      (ch.createConnections remote (some p) true).2 = false) := by
  obtain ⟨tried, htried, hresult, -⟩ := createConnections_eq ch remote (some p) true
  obtain ⟨before, after, hsplit, hbefore, hafter⟩ := candidatePorts_split hwired p
  rw [hresult, onPort_rememberRemoteCandidate]
  rw [hsplit, List.foldl_append, List.foldl_cons] at htried
  generalize hs : before.foldl (tryPort (ch.completed remote) (some p) true) (ch, false) = s
    at htried
  have hadds : Adds _ ch s.1 := hs ▸ adds_foldl_tryPort before (ch, false)
  obtain ⟨hsconn, hscreated⟩ := @foldl_tryPort_of_notMem P _ p (ch.completed remote) true before
    hbefore (ch, false)
  rw [hs] at hsconn hscreated
  obtain ⟨htconn, htcreated⟩ := @foldl_tryPort_of_notMem P _ p (ch.completed remote) true after
    hafter (tryPort (ch.completed remote) (some p) true s p)
  rw [← htried] at htconn htcreated
  have hsnone : s.1.getConnection p (ch.completed remote).address = none := by
    rw [getConnection_eq] at hnone ⊢
    rw [hsconn]
    exact hnone
  obtain ⟨hmade, hrefused⟩ := createConnection_thisPort hsnone
  rw [hadds.admits_iff, hsconn] at hmade hrefused
  have hcreated : tried.2 = (s.1.createConnection p (ch.completed remote) (some p) true).2 := by
    rw [htcreated]
    simp [tryPort, hscreated]
  rw [htconn, hcreated]
  exact ⟨hmade, hrefused⟩

end Ports

section Requests

variable (ch : P2PTransportChannel P) (r : Request P)

def requestProtocol : List UInt8 := ((ch.matching r).map (·.protocol)).getD r.proto.name

def requestType : List UInt8 :=
  ((ch.matching r).map (·.type)).getD
    (if (ch.heap r.port).type = relayPortType ∨ (ch.heap r.port).sharedSocket then stunPortType
      else (ch.heap r.port).type)

structure Accepts : Prop where
  filter : ch.filter = portAllocatorFilterAllowTurn →
    (ch.heap r.port).type = relayPortType ∨ ch.requestType r = relayPortType
  address : (ch.heap r.port).isCompatibleAddress r.address = true
  protocol : match (ch.heap r.port).kind with
    | .udp | .turn => ch.requestProtocol r = ProtocolType.udp.name
    | .tcp _ => ch.requestProtocol r = ProtocolType.tcp.name
    | .relay => True
  loopback : (ch.heap r.port).kind = .relay → ch.requestType r ≠ (ch.heap r.port).type
  shared : (ch.heap r.port).kind = .udp → (ch.heap r.port).sharedSocket = true →
    (ch.heap r.port).candidates.head?.map (·.type) = some localPortType

/-- The request is answered once, by a success together with a readable connection to its
sender, or by an error and no connection, and the assertion holds. -/
structure Meets (o : Outcome P) : Prop where
  asserted : o.asserted = false
  answered : (o.answers = [.success] ∧ ∃ c : ChannelConnection P,
      o.channel.onPort r.port = ch.onPort r.port ++ [c] ∧
      c.remoteCandidate.address.equal r.address = true ∧ c.readState = .readable) ∨
    ∃ e, o.answers = [.error e] ∧ o.channel.onPort r.port = ch.onPort r.port

variable {ch r}

omit [DecidableEq P] in
theorem matching_equal {c : Candidate} (h : ch.matching r = some c)
    (hshared : ch.ufragPerPort = false) : c.address.equal r.address = true := by
  obtain ⟨known, hknown, rfl⟩ := Option.map_eq_some_iff.mp h
  have hfound := List.find?_some hknown
  simp only [hshared, Bool.false_or, Bool.and_eq_true] at hfound
  exact hfound.2.1

variable (computeCrc32 : List UInt8 → UInt32)

omit [DecidableEq P] in
theorem address_requestCandidate :
    (ch.requestCandidate computeCrc32 r).address.equal r.address = true := by
  rw [requestCandidate]
  cases hmatch : ch.matching r with
  | none => exact SocketAddress.equal_refl _
  | some c =>
    dsimp only
    by_cases hshared : ch.ufragPerPort = true
    · rw [if_pos hshared]
      exact SocketAddress.equal_refl _
    · rw [if_neg hshared]
      exact matching_equal hmatch (Bool.eq_false_iff.mpr hshared)

omit [DecidableEq P] in
theorem type_requestCandidate : (ch.requestCandidate computeCrc32 r).type = ch.requestType r := by
  rw [requestCandidate, requestType]
  cases ch.matching r with
  | none => rfl
  | some c =>
    dsimp only
    split <;> rfl

omit [DecidableEq P] in
theorem protocol_requestCandidate :
    (ch.requestCandidate computeCrc32 r).protocol = ch.requestProtocol r := by
  rw [requestCandidate, requestProtocol]
  cases ch.matching r with
  | none => rfl
  | some c =>
    dsimp only
    split <;> rfl

theorem createConnection_thisPort_iff (port : LocalPort) (c : Candidate) :
    port.createConnection c .thisPort ≠ none ↔ port.isCompatibleAddress c.address = true ∧
      (match port.kind with
        | .udp | .turn => c.protocol = ProtocolType.udp.name
        | .tcp _ => c.protocol = ProtocolType.tcp.name
        | .relay => True) ∧
      (port.kind = .relay → c.type ≠ port.type) ∧
      (port.kind = .udp → port.sharedSocket = true →
        port.candidates.head?.map (·.type) = some localPortType) := by
  have hnames : ProtocolType.tcp.name ≠ ProtocolType.ssltcp.name := by decide
  rw [LocalPort.createConnection]
  cases hkind : port.kind with
  | udp => simp; tauto
  | tcp incomingOnly =>
    by_cases hprotocol : c.protocol = ProtocolType.tcp.name
    · simp [hprotocol, hnames]
    · by_cases hssltcp : c.protocol = ProtocolType.ssltcp.name <;> simp [hprotocol, hssltcp, hnames.symm]
  | relay => simp; tauto
  | turn => simp; tauto

theorem isCompatibleAddress_congr {port : LocalPort} {a b : SocketAddress}
    (h : a.equal b = true) : port.isCompatibleAddress a = port.isCompatibleAddress b := by
  rw [LocalPort.isCompatibleAddress, LocalPort.isCompatibleAddress, SocketAddress.equal_ip h]

theorem admits_iff_accepts : ch.Admits r.port
    (ch.completed (ch.requestCandidate computeCrc32 r)) (some r.port) ↔ ch.Accepts r := by
  generalize hcandidate : ch.completed (ch.requestCandidate computeCrc32 r) = candidate
  have haddress : (ch.heap r.port).isCompatibleAddress candidate.address =
      (ch.heap r.port).isCompatibleAddress r.address := by
    rw [← hcandidate]
    exact isCompatibleAddress_congr (address_requestCandidate computeCrc32)
  have htype : candidate.type = ch.requestType r := by
    rw [← hcandidate]
    exact type_requestCandidate computeCrc32
  have hprotocol : candidate.protocol = ch.requestProtocol r := by
    rw [← hcandidate]
    exact protocol_requestCandidate computeCrc32
  have hfilter : ch.passesFilter (ch.heap r.port) candidate = true ↔
      (ch.filter = portAllocatorFilterAllowTurn →
        (ch.heap r.port).type = relayPortType ∨ ch.requestType r = relayPortType) := by
    simp only [passesFilter, htype]
    by_cases hturn : ch.filter = portAllocatorFilterAllowTurn <;> simp [hturn]
  have hport := createConnection_thisPort_iff (ch.heap r.port) candidate
  rw [haddress, htype, hprotocol] at hport
  have horigin : getOrigin r.port (some r.port) = .thisPort := if_pos rfl
  rw [Admits, hfilter, horigin]
  constructor
  · rintro ⟨hpass, haccepts⟩
    obtain ⟨haddr, hproto, hloop, hshared⟩ := hport.mp haccepts
    exact ⟨hpass, haddr, hproto, hloop, hshared⟩
  · intro h
    exact ⟨h.filter, hport.mpr ⟨h.address, h.protocol, h.loopback, h.shared⟩⟩

theorem getConnection_congr {a b : SocketAddress} (h : a.equal b = true) (p : P) :
    ch.getConnection p a = ch.getConnection p b := by
  have hkey := SocketAddress.equal_iff.mp h
  rw [getConnection_eq, getConnection_eq]
  congr 1
  funext c
  rw [Bool.eq_iff_iff, SocketAddress.equal_iff, SocketAddress.equal_iff, hkey]

theorem meets_iff (hwired : ch.Wired) (hnone : ch.getConnection r.port r.address = none)
    (hknown : ch.knowsUsername r.remoteUsername = true) :
    ch.Meets r (ch.onUnknownAddress computeCrc32 r) ↔ ch.Accepts r := by
  have haddress : (ch.requestCandidate computeCrc32 r).address.equal r.address = true :=
    address_requestCandidate computeCrc32
  have hnot : ¬ ch.knowsUsername r.remoteUsername = false := by simp [hknown]
  obtain ⟨hmade, hrefused⟩ := createConnections_thisPort hwired
    ((getConnection_congr haddress r.port).trans hnone)
  rw [admits_iff_accepts] at hmade hrefused
  rw [onUnknownAddress, if_neg hnot]
  generalize ch.createConnections (ch.requestCandidate computeCrc32 r) r.port true = s
    at hmade hrefused
  obtain ⟨mid, created⟩ := s
  dsimp only at hmade hrefused ⊢
  constructor
  · intro hmeets
    by_contra haccepts
    obtain ⟨-, rfl⟩ := hrefused haccepts
    cases hmeets.asserted
  · intro haccepts
    obtain ⟨c, hconn, hremote, hreadable, hcreated⟩ := hmade haccepts
    have hequal : c.remoteCandidate.address.equal r.address = true := by
      rw [hremote]
      exact haddress
    rw [if_pos hcreated]
    refine ⟨rfl, .inl ⟨rfl, ?_⟩⟩
    refine ⟨if c.port = r.port && c.remoteCandidate.address.equal r.address then
      { c with readState := .readable } else c, ?_, ?_, ?_⟩
    · rw [onPort_receivedPing, hconn, List.map_append]
      congr 1
      apply (List.map_congr_left _).trans (List.map_id _)
      intro old hold
      have hother := getConnection_eq_none.mp hnone old hold
      simp [hother]
    · split <;> exact hequal
    · split
      · rfl
      · exact hreadable

theorem exists_connection (hwired : ch.Wired) (hnone : ch.getConnection r.port r.address = none)
    (hknown : ch.knowsUsername r.remoteUsername = true) (haccepts : ch.Accepts r) :
    ∃ c ∈ (ch.onUnknownAddress computeCrc32 r).channel.connections, c.port = r.port := by
  have hmeets := (meets_iff computeCrc32 hwired hnone hknown).mpr haccepts
  have hanswers : ∀ e, (ch.onUnknownAddress computeCrc32 r).answers = [.error e] →
      (ch.onUnknownAddress computeCrc32 r).asserted = true := by
    intro e he
    rw [onUnknownAddress, if_neg (by simp [hknown])] at he ⊢
    dsimp only at he ⊢
    split
    · next hcreated =>
      rw [if_pos hcreated] at he
      cases he
    · rfl
  rcases hmeets.answered with ⟨-, c, hconn, -⟩ | ⟨e, he, -⟩
  · have hmem : c ∈ (ch.onUnknownAddress computeCrc32 r).channel.onPort r.port := by
      rw [hconn]
      exact List.mem_append_right _ (List.mem_singleton_self c)
    obtain ⟨hc, hport⟩ := List.mem_filter.mp hmem
    exact ⟨c, hc, by simpa using hport⟩
  · cases (hanswers e he).symm.trans hmeets.asserted

end Requests

section Filter

variable {ch : P2PTransportChannel P}

/-- Where only relays are allowed, a relay is at one end of each connection. -/
def Screened (ch : P2PTransportChannel P) : Prop :=
  ∀ c ∈ ch.connections, ch.passesFilter (ch.heap c.port) c.remoteCandidate = true

omit [DecidableEq P] in
theorem Screened.of_adds {Q : P → Candidate → Prop} {ch' : P2PTransportChannel P}
    (h : ch.Screened) (hadds : Adds Q ch ch')
    (hQ : ∀ p c, Q p c → ch.passesFilter (ch.heap p) c = true) : ch'.Screened := by
  intro c hc
  rw [hadds.passesFilter_eq, hadds.heap_eq]
  rcases hadds.mem c hc with ⟨old, hold, hport, hremote⟩ | hnew
  · exact hport ▸ hremote ▸ h old hold
  · exact hQ _ _ hnew

omit [DecidableEq P] in
theorem Screened.congr {ch' : P2PTransportChannel P} (h : ch.Screened)
    (hfilter : ch'.filter = ch.filter) (hconnections : ∀ c ∈ ch'.connections, c ∈ ch.connections)
    (htype : ∀ c ∈ ch.connections, (ch'.heap c.port).type = (ch.heap c.port).type) :
    ch'.Screened := by
  intro c hc
  have hold := hconnections c hc
  have hpass := h c hold
  rw [passesFilter] at hpass ⊢
  rw [hfilter, htype c hold]
  exact hpass

theorem Screened.createConnections (h : ch.Screened) (remote : Candidate) (originPort : Option P)
    (readable : Bool) : (ch.createConnections remote originPort readable).1.Screened := by
  obtain ⟨tried, -, hresult, hadds⟩ := createConnections_eq ch remote originPort readable
  have htried : tried.1.Screened := by
    apply h.of_adds hadds
    rintro p c ⟨-, rfl, hadmits⟩
    exact hadmits.1
  rw [hresult, rememberRemoteCandidate]
  split <;> exact htried

theorem Screened.step (hwired : ch.Wired) (h : ch.Screened) (computeCrc32 : List UInt8 → UInt32)
    (e : Event P) : (ch.step computeCrc32 e).Screened := by
  rw [P2PTransportChannel.step]
  by_cases henabled : ch.Enabled e = true
  · rw [if_pos henabled]
    cases e with
    | setRole role =>
      rw [handle, setRole]
      split
      · refine h.congr rfl (fun c hc => hc) ?_
        intro c hc
        dsimp only [modifyPorts]
        split <;> rfl
      · exact h
    | setTiebreaker tiebreaker =>
      rw [handle, setTiebreaker]
      split <;> exact h
    | setIceProtocolType type =>
      refine h.congr rfl (fun c hc => hc) ?_
      intro c hc
      dsimp only [handle, setIceProtocolType, modifyPorts]
      split <;> rfl
    | setIceCredentials iceUfrag icePwd =>
      rw [handle, setIceCredentials]
      split <;> exact h
    | setRemoteIceCredentials iceUfrag icePwd =>
      rw [handle, setRemoteIceCredentials]
      dsimp only
      split <;> exact h
    | setRemoteIceMode mode => exact h
    | connect =>
      rw [handle, connect]
      split <;> exact h
    | signalingReady =>
      rw [handle, onSignalingReady]
      split <;> exact h
    | portReady p port =>
      have hp : p ∉ ch.live := by simpa [Enabled] using henabled
      have hadded : (ch.addPort p port).Screened := by
        refine h.congr rfl (fun c hc => hc) ?_
        intro c hc
        have hne : c.port ≠ p := fun heq => hp (heq ▸ hwired.connections c hc)
        simp [addPort, hne]
      apply hadded.of_adds (adds_onPortReady ch p port)
      rintro q c ⟨rfl, known, -, rfl, hadmits⟩
      exact hadmits.1
    | candidate candidate => exact h.createConnections candidate none false
    | unknownAddress r =>
      rw [handle, onUnknownAddress]
      split
      · exact h
      · have hcreated := h.createConnections (ch.requestCandidate computeCrc32 r) (some r.port) true
        dsimp only
        split
        · exact hcreated.of_adds (adds_receivedPing (Q := fun _ _ => False) _ _ _) fun _ _ h => h.elim
        · exact hcreated
    | portDestroyed p => exact h
    | connectionDestroyed c =>
      exact h.congr rfl (fun d hd => List.mem_of_mem_erase hd) fun _ _ => rfl
    | reset connectRequested =>
      rw [handle, reset]
      split <;> exact fun _ hc => absurd hc List.not_mem_nil
  · rw [if_neg henabled]
    exact h

end Filter

theorem answers_requests_iff (computeCrc32 : List UInt8 → UInt32) (component : Int)
    (filter : UInt32) (heap : P → LocalPort) (events : List (Event P)) :
    let ch := (start component filter heap).run computeCrc32 events
    (∀ r, ch.Enabled (.unknownAddress r) = true → ch.knowsUsername r.remoteUsername = true →
      (ch.Meets r (ch.onUnknownAddress computeCrc32 r) ↔ ch.Accepts r)) ∧
    ∀ c ∈ ch.connections, ch.filter = portAllocatorFilterAllowTurn →
      (ch.heap c.port).type = relayPortType ∨ c.remoteCandidate.type = relayPortType := by
  intro ch
  obtain ⟨hwired, hscreened⟩ : ch.Wired ∧ ch.Screened :=
    run_induction computeCrc32 (fun ch e hw h => Screened.step hw h computeCrc32 e)
      (.start component filter heap) (fun _ hc => absurd hc List.not_mem_nil) events
  constructor
  · intro r henabled hknown
    have hnone : ch.getConnection r.port r.address = none := by
      simp only [Enabled, Bool.and_eq_true, Option.isNone_iff_eq_none] at henabled
      exact henabled.2
    exact meets_iff computeCrc32 hwired hnone hknown
  · intro c hc hturn
    have hpass := hscreened c hc
    simp only [passesFilter, hturn] at hpass
    by_cases htype : (ch.heap c.port).type = relayPortType
    · exact .inl htype
    · exact .inr (by simpa [htype] using hpass)

def examplePort (kind : PortKind) (type : List UInt8) : LocalPort where
  iceUsernameFragment := [97]
  password := []
  kind := kind
  type := type
  ip := .inet 1

def exampleRun (filter : UInt32) (port : LocalPort) (type : List UInt8) :
    P2PTransportChannel Unit :=
  (start 1 filter fun _ => port).run (fun _ => 0)
    [.portReady () port, .candidate
      { protocol := ProtocolType.udp.name, address := .ofIP (.inet 2) 7, username := [98],
        password := [99], type := type }]

def exampleRequest (port : UInt16) : Request Unit where
  port := ()
  address := .ofIP (.inet 2) port
  proto := .udp
  remoteUsername := [98]
  portMuxed := false
  id := [100]

def filteredRun : P2PTransportChannel Unit :=
  exampleRun portAllocatorFilterAllowTurn (examplePort .udp localPortType) stunPortType

def loopbackRun : P2PTransportChannel Unit :=
  exampleRun portAllocatorFilterAllowNone (examplePort .relay relayPortType) relayPortType

/-- Where only relays are allowed, no connection is made between two other ends, and a relay
port makes none to another relay. The channel counts on one in both cases. -/
theorem answer_asserted :
    (filteredRun.Enabled (.unknownAddress (exampleRequest 8)) = true ∧
      filteredRun.knowsUsername [98] = true ∧ ¬ filteredRun.Meets (exampleRequest 8)
        (filteredRun.onUnknownAddress (fun _ => 0) (exampleRequest 8))) ∧
    (loopbackRun.Enabled (.unknownAddress (exampleRequest 7)) = true ∧
      loopbackRun.knowsUsername [98] = true ∧ ¬ loopbackRun.Meets (exampleRequest 7)
        (loopbackRun.onUnknownAddress (fun _ => 0) (exampleRequest 7))) := by
  have hfilter : (filteredRun.onUnknownAddress (fun _ => 0) (exampleRequest 8)).asserted = true := by
    decide +kernel
  have hrelay : (loopbackRun.onUnknownAddress (fun _ => 0) (exampleRequest 7)).asserted = true := by
    decide +kernel
  refine ⟨⟨by decide +kernel, by decide +kernel, ?_⟩, by decide +kernel, by decide +kernel, ?_⟩
  · intro hmeets
    exact absurd (hfilter.symm.trans hmeets.asserted) (by decide)
  · intro hmeets
    exact absurd (hrelay.symm.trans hmeets.asserted) (by decide)

/-- A UDP port connects to the sender. -/
theorem answers_requests_udp :
    let ch := exampleRun portAllocatorFilterAllowNone (examplePort .udp localPortType) stunPortType
    ch.Meets (exampleRequest 8) (ch.onUnknownAddress (fun _ => 0) (exampleRequest 8)) := by
  have h := answers_requests_iff (fun _ => 0) 1 portAllocatorFilterAllowNone
    (fun _ : Unit => examplePort .udp localPortType)
    [.portReady () (examplePort .udp localPortType), .candidate
      { protocol := ProtocolType.udp.name, address := .ofIP (.inet 2) 7, username := [98],
        password := [99], type := stunPortType }]
  apply (h.1 (exampleRequest 8) (by decide +kernel) (by decide +kernel)).mpr
  have hprotocol : requestProtocol (exampleRun portAllocatorFilterAllowNone
      (examplePort .udp localPortType) stunPortType) (exampleRequest 8) =
      ProtocolType.udp.name := by
    decide +kernel
  exact ⟨nofun, by decide +kernel, hprotocol, nofun, nofun⟩

end Libjingle.P2PTransportChannel
