import Libjingle.Turn.Effects

/-! The internal sockets of the server. An allocation keeps a pointer to the one its client
came on, which a close of that socket does not know of. -/

namespace Libjingle

namespace TurnServer

/-- The server with `server_sockets_`, of which some were accepted from a listening socket. -/
structure Sockets where
  server : TurnServer := {}
  sockets : List (Nat × ProtocolType) := []
  accepted : List Nat := []
  next : Nat := 0
  deriving DecidableEq, Repr

namespace Sockets

inductive Event
  | addInternalSocket (proto : ProtocolType)
  | acceptConnection (proto : ProtocolType)
  | internalSocketClose (socket : Nat)
  | server (e : TurnServer.Event)

def addInternalSocket (s : Sockets) (proto : ProtocolType) : Sockets :=
  { s with sockets := s.sockets ++ [(s.next, proto)], next := s.next + 1 }

def acceptConnection (s : Sockets) (proto : ProtocolType) : Sockets :=
  { s.addInternalSocket proto with accepted := s.accepted ++ [s.next] }

def destroyInternalSocket (s : Sockets) (socket : Nat) : Sockets :=
  { s with sockets := s.sockets.filter (·.1 ≠ socket) }

def findSocket (s : Sockets) (socket : Nat) : Option ProtocolType :=
  (s.sockets.find? (·.1 = socket)).map Prod.snd

/-- `OnAllocationDestroyed`, unless the socket that it asserts is not found. A datagram socket
is shared and stays. -/
def onAllocationDestroyed (s : Sockets) (a : Allocation) : Option Sockets :=
  match s.findSocket a.conn.socket with
  | none => none
  | some .udp => some s
  | some _ => some (s.destroyInternalSocket a.conn.socket)

/-- A packet comes on a socket with its protocol. An allocation is destroyed after
`OnAllocationDestroyed` was called. -/
def step (cfg : Settings) (s : Sockets) : Event → Option Sockets
  | .addInternalSocket proto => some (s.addInternalSocket proto)
  | .acceptConnection proto => some (s.acceptConnection proto)
  | .internalSocketClose socket =>
    if socket ∈ s.accepted ∧ s.findSocket socket ≠ none then some (s.destroyInternalSocket socket)
    else none
  | .server e =>
    match s.server.step cfg e with
    | none => none
    | some (t, _) =>
      match e with
      | .internalPacket conn _ _ _ =>
        if s.findSocket conn.socket = some conn.proto then some { s with server := t } else none
      | .allocationTimeout id =>
        match (s.server.allocation id).bind s.onAllocationDestroyed with
        | some u => some { u with server := t }
        | none => none
      | _ => some { s with server := t }

def Live (s : Sockets) : Prop :=
  ∀ entry ∈ s.server.allocations, s.findSocket entry.2.conn.socket ≠ none

/-- A socket that an allocation still uses is destroyed: it is closed, or another allocation
on it expires. -/
def Strands (s : Sockets) : Event → Prop
  | .internalSocketClose socket => ∃ entry ∈ s.server.allocations, entry.2.conn.socket = socket
  | .server (.allocationTimeout id) => ∃ a, s.server.allocation id = some a ∧
      s.findSocket a.conn.socket ≠ some .udp ∧
      ∃ entry ∈ s.server.allocations, entry.1 ≠ id ∧ entry.2.conn.socket = a.conn.socket
  | _ => False

inductive ReachableWhen (cfg : Settings) (C : Sockets → Event → Prop) : Sockets → Prop
  | initial : ReachableWhen cfg C {}
  | step {s t : Sockets} {e : Event} (hs : ReachableWhen cfg C s) (hC : C s e)
      (hstep : s.step cfg e = some t) : ReachableWhen cfg C t

section

variable {cfg : Settings} {s t : Sockets} {u : TurnServer} {e : Event} {a : Allocation}
  {socket : Nat} {proto : ProtocolType}

theorem findSocket_add (h : s.findSocket socket ≠ none) :
    (s.addInternalSocket proto).findSocket socket = s.findSocket socket := by
  have hfind : s.sockets.find? (·.1 = socket) ≠ none := fun hnone =>
    h (Option.map_eq_none_iff.mpr hnone)
  obtain ⟨entry, hentry⟩ := Option.ne_none_iff_exists'.mp hfind
  rw [findSocket, addInternalSocket, List.find?_append, hentry, findSocket, hentry]
  rfl

theorem findSocket_destroy_self : (s.destroyInternalSocket socket).findSocket socket = none := by
  refine Option.map_eq_none_iff.mpr (List.find?_eq_none.mpr fun entry hentry => ?_)
  simpa using (List.mem_filter.mp hentry).2

theorem findSocket_destroy {other : Nat} (h : other ≠ socket) :
    (s.destroyInternalSocket socket).findSocket other = s.findSocket other := by
  rw [findSocket, destroyInternalSocket, List.find?_filter, findSocket]
  congr 2
  funext entry
  by_cases hentry : entry.1 = other
  · simp [hentry, h]
  · simp [hentry]

theorem onAllocationDestroyed_cases (h : s.onAllocationDestroyed a = some t) :
    s.findSocket a.conn.socket = some .udp ∧ t = s ∨
      s.findSocket a.conn.socket ≠ some .udp ∧ t = s.destroyInternalSocket a.conn.socket := by
  rw [onAllocationDestroyed] at h
  split at h
  · cases h
  · rename_i hudp
    exact .inl ⟨hudp, (Option.some.inj h).symm⟩
  · rename_i proto hne hfind
    refine .inr ⟨?_, (Option.some.inj h).symm⟩
    rw [hfind]
    exact fun heq => hne (Option.some.inj heq)

theorem isSome_onAllocationDestroyed (h : s.findSocket a.conn.socket ≠ none) :
    (s.onAllocationDestroyed a).isSome = true := by
  rw [onAllocationDestroyed]
  split
  · rename_i hnone
    exact absurd hnone h
  · rfl
  · rfl

end

end Sockets

section

variable {cfg : Settings} {s t : TurnServer} {e : Event} {id : Nat}

theorem conn_update {f : Allocation → Allocation} {entry : Nat × Allocation}
    (hentry : entry ∈ (s.update id f).allocations)
    (hf : ∀ a, (id, a) ∈ s.allocations → (f a).conn = a.conn) :
    ∃ a, (entry.1, a) ∈ s.allocations ∧ a.conn = entry.2.conn := by
  rcases mem_update hentry with ⟨hmem, -⟩ | ⟨a, hmem, rfl⟩
  · exact ⟨entry.2, hmem, rfl⟩
  · exact ⟨a, hmem, (hf a hmem).symm⟩

theorem conn_effect (hinv : Inv cfg s) (h : Effect cfg s e t) : ∀ entry ∈ t.allocations,
    (∃ a, (entry.1, a) ∈ s.allocations ∧ a.conn = entry.2.conn) ∨
      ∃ conn found data socket, e = .internalPacket conn found data socket ∧
        entry.2.conn = conn := by
  intro entry hentry
  cases h with
  | quiet hallocations hrecord hnext =>
    exact .inl ⟨entry.2, hallocations ▸ hentry, rfl⟩
  | noted nonce => exact .inl (conn_update hentry fun _ _ => rfl)
  | @handled conn j data socket b msg nonce hb hreq hauth htype husername =>
    have hconn : (Allocation.handleTurnMessage cfg { b with lastNonce := nonce } s.now msg).1.conn =
        b.conn :=
      (Allocation.handles_handleTurnMessage
        (r := requestOf cfg s.now j { b with lastNonce := nonce } msg data false) rfl).conn
    have hupdate : entry ∈ (s.update j fun _ =>
      (Allocation.handleTurnMessage cfg { b with lastNonce := nonce } s.now msg).1).allocations :=
      hentry
    refine .inl (conn_update hupdate fun a ha => ?_)
    have hsame : a = b := by
      have heq := List.inj_on_of_nodup_map hinv.nodup ha (mem_of_allocation hb) rfl
      exact congrArg Prod.snd heq
    rw [hconn, hsame]
  | created hreq hauth htype =>
    rcases List.mem_append.mp hentry with hmem | hmem
    · exact .inl ⟨entry.2, hmem, rfl⟩
    · rw [List.mem_singleton.mp hmem]
      exact .inr ⟨_, _, _, _, rfl, rfl⟩
  | expired ha hdue => exact .inl ⟨entry.2, List.mem_of_mem_filter hentry, rfl⟩
  | permission => exact .inl (conn_update hentry fun _ _ => rfl)
  | channel => exact .inl (conn_update hentry fun _ _ => rfl)

theorem allocations_expired {outputs : List Output}
    (hstep : s.step cfg (.allocationTimeout id) = some (t, outputs)) :
    t.allocations = s.allocations.filter (·.1 ≠ id) := by
  simp only [TurnServer.step] at hstep
  split at hstep
  · split at hstep
    · obtain ⟨rfl, -⟩ := Prod.mk.inj (Option.some.inj hstep)
      rfl
    · cases hstep
  · cases hstep

end

namespace Sockets

variable {cfg : Settings} {s t : Sockets} {e : Event} {u : TurnServer} {outputs : List Output}

theorem live_server {e : TurnServer.Event} (hinv : Inv cfg s.server) (h : s.Live)
    (hstep : s.server.step cfg e = some (u, outputs))
    (hpacket : ∀ conn found data socket, e = .internalPacket conn found data socket →
      s.findSocket conn.socket = some conn.proto) : Live { s with server := u } := by
  intro entry hentry
  rcases conn_effect hinv (hinv.effect hstep) entry hentry with
    ⟨a, ha, hconn⟩ | ⟨conn, found, data, socket, he, hconn⟩
  · have hlive := h _ ha
    rw [hconn] at hlive
    exact hlive
  · have hfind : findSocket { s with server := u } entry.2.conn.socket = some conn.proto := by
      rw [hconn]
      exact hpacket conn found data socket he
    rw [hfind]
    exact Option.some_ne_none _

theorem live_step_iff (hinv : Inv cfg s.server) (h : s.Live) (hstep : s.step cfg e = some t) :
    t.Live ↔ ¬ s.Strands e := by
  cases e with
  | addInternalSocket proto =>
    obtain rfl := Option.some.inj hstep
    refine iff_of_true (fun entry hentry => ?_) id
    have hlive := h entry hentry
    rwa [findSocket_add hlive]
  | acceptConnection proto =>
    obtain rfl := Option.some.inj hstep
    refine iff_of_true (fun entry hentry => ?_) id
    have hlive := h entry hentry
    have hsame : (s.addInternalSocket proto).findSocket entry.2.conn.socket = _ :=
      findSocket_add hlive
    exact fun hnone => hlive (hsame.symm.trans hnone)
  | internalSocketClose socket =>
    simp only [step] at hstep
    split at hstep
    · obtain rfl := Option.some.inj hstep
      constructor
      · rintro hlive ⟨entry, hentry, rfl⟩
        exact hlive entry hentry findSocket_destroy_self
      · intro hno entry hentry
        rw [findSocket_destroy fun heq => hno ⟨entry, hentry, heq⟩]
        exact h entry hentry
    · cases hstep
  | server e =>
    simp only [step] at hstep
    split at hstep
    · cases hstep
    · rename_i u outputs hserver
      cases e with
      | internalPacket conn found data socket =>
        dsimp only at hstep
        split at hstep
        · rename_i hfind
          obtain rfl := Option.some.inj hstep
          refine iff_of_true (live_server hinv h hserver ?_) id
          rintro _ _ _ _ ⟨⟩
          exact hfind
        · cases hstep
      | allocationTimeout id =>
        dsimp only at hstep
        split at hstep
        · rename_i v hv
          obtain rfl := Option.some.inj hstep
          obtain ⟨a, ha, hdestroyed⟩ := Option.bind_eq_some_iff.mp hv
          have hallocations := allocations_expired hserver
          have hstrands : s.Strands (.server (.allocationTimeout id)) ↔
              s.findSocket a.conn.socket ≠ some .udp ∧ ∃ entry ∈ s.server.allocations,
                entry.1 ≠ id ∧ entry.2.conn.socket = a.conn.socket := by
            constructor
            · rintro ⟨b, hb, hrest⟩
              obtain rfl := Option.some.inj (ha.symm.trans hb)
              exact hrest
            · exact fun hrest => ⟨a, ha, hrest⟩
          have hmem : ∀ entry, entry ∈ u.allocations ↔
              entry ∈ s.server.allocations ∧ entry.1 ≠ id := by
            intro entry
            rw [hallocations, List.mem_filter]
            simp
          rw [hstrands]
          rcases onAllocationDestroyed_cases hdestroyed with ⟨hudp, rfl⟩ | ⟨hstream, rfl⟩
          · refine iff_of_true (fun entry hentry => ?_) fun hno => hno.1 hudp
            exact h entry ((hmem entry).mp hentry).1
          · constructor
            · rintro hlive ⟨-, entry, hentry, hid, hsame⟩
              refine hlive entry ((hmem entry).mpr ⟨hentry, hid⟩) ?_
              rw [hsame]
              exact findSocket_destroy_self
            · intro hno entry hentry
              obtain ⟨hold, hid⟩ := (hmem entry).mp hentry
              have hsame : (s.destroyInternalSocket a.conn.socket).findSocket
                  entry.2.conn.socket = _ :=
                findSocket_destroy fun heq => hno ⟨hstream, entry, hold, hid, heq⟩
              exact fun hnone => h entry hold (hsame.symm.trans hnone)
        · cases hstep
      | externalPacket id data addr transactionId =>
        obtain rfl := Option.some.inj hstep
        exact iff_of_true (live_server hinv h hserver fun _ _ _ _ he => by cases he) fun hno => hno
      | advance time =>
        obtain rfl := Option.some.inj hstep
        exact iff_of_true (live_server hinv h hserver fun _ _ _ _ he => by cases he) fun hno => hno
      | permissionTimeout id peer =>
        obtain rfl := Option.some.inj hstep
        exact iff_of_true (live_server hinv h hserver fun _ _ _ _ he => by cases he) fun hno => hno
      | channelTimeout id number =>
        obtain rfl := Option.some.inj hstep
        exact iff_of_true (live_server hinv h hserver fun _ _ _ _ he => by cases he) fun hno => hno

theorem reachable_server (hs : Reachable cfg s.server) (hstep : s.step cfg e = some t) :
    Reachable cfg t.server := by
  cases e with
  | addInternalSocket proto =>
    obtain rfl := Option.some.inj hstep
    exact hs
  | acceptConnection proto =>
    obtain rfl := Option.some.inj hstep
    exact hs
  | internalSocketClose socket =>
    simp only [step] at hstep
    split at hstep
    · obtain rfl := Option.some.inj hstep
      exact hs
    · cases hstep
  | server e =>
    simp only [step] at hstep
    split at hstep
    · cases hstep
    · rename_i u outputs hserver
      have hu : Reachable cfg u := .step hs hserver
      split at hstep
      · split at hstep
        · obtain rfl := Option.some.inj hstep
          exact hu
        · cases hstep
      · split at hstep
        · obtain rfl := Option.some.inj hstep
          exact hu
        · cases hstep
      · obtain rfl := Option.some.inj hstep
        exact hu

theorem live_of_reachable (hs : ReachableWhen cfg (fun s e => ¬ s.Strands e) s) :
    Reachable cfg s.server ∧ s.Live := by
  induction hs with
  | initial => exact ⟨.initial, fun _ hentry => absurd hentry List.not_mem_nil⟩
  | step hs hC hstep ih =>
    exact ⟨reachable_server ih.1 hstep,
      (live_step_iff (inv_of_reachable ih.1) ih.2 hstep).mpr hC⟩

/-- In a run that strands no socket the socket of every allocation is one of the server's,
and it is found when the allocation is destroyed. A step that strands one ends this. -/
theorem sockets_live (cfg : Settings) {s : Sockets}
    (hs : ReachableWhen cfg (fun s e => ¬ s.Strands e) s) :
    (∀ entry ∈ s.server.allocations, s.findSocket entry.2.conn.socket ≠ none ∧
      (s.onAllocationDestroyed entry.2).isSome = true) ∧
      ∀ e t, s.step cfg e = some t → (t.Live ↔ ¬ s.Strands e) := by
  obtain ⟨hserver, hlive⟩ := live_of_reachable hs
  exact ⟨fun entry hentry => ⟨hlive entry hentry, isSome_onAllocationDestroyed (hlive entry hentry)⟩,
    fun e t hstep => live_step_iff (inv_of_reachable hserver) hlive hstep⟩

def run (cfg : Settings) (s : Sockets) (events : List Event) : Option Sockets :=
  events.foldlM (step cfg) s

theorem reachableWhen_run {C : Sockets → Event → Prop} (hs : ReachableWhen cfg C s)
    {events : List Event} (hC : ∀ e ∈ events, ∀ s, C s e) (hrun : run cfg s events = some t) :
    ReachableWhen cfg C t := by
  induction events generalizing s with
  | nil =>
    obtain rfl := Option.some.inj hrun
    exact hs
  | cons e rest ih =>
    rw [run, List.foldlM_cons] at hrun
    obtain ⟨u, hu, hrest⟩ := Option.bind_eq_some_iff.mp hrun
    exact ih (.step hs (hC e List.mem_cons_self s) hu)
      (fun e he => hC e (List.mem_cons_of_mem _ he)) hrest

def streamEvents : List Event :=
  [.acceptConnection .tcp, .server (.internalPacket ⟨.ofIP (.inet 1) 1000, .tcp, 0⟩ none
    (signedRequest stunAllocateRequest ⟨stunAttrRequestedTransport, .uint32 0x11000000⟩)
    (some (.ofIP (.inet 2) 3000)))]

set_option maxRecDepth 20000 in
theorem sockets_live_stream : ∃ s a, run plainSettings {} streamEvents = some s ∧
    (0, a) ∈ s.server.allocations ∧ s.findSocket a.conn.socket ≠ none ∧
      (s.onAllocationDestroyed a).isSome = true := by
  have hrun : ((run plainSettings {} streamEvents).bind fun s =>
      (s.server.allocation 0).map fun _ => true) = some true := by
    decide +kernel
  obtain ⟨s, hs, hallocation⟩ := Option.bind_eq_some_iff.mp hrun
  obtain ⟨a, ha, -⟩ := Option.map_eq_some_iff.mp hallocation
  have hC : ∀ e ∈ streamEvents, ∀ s : Sockets, ¬ s.Strands e := by
    intro e he s
    simp only [streamEvents, List.mem_cons, List.not_mem_nil, or_false] at he
    rcases he with rfl | rfl
    · exact id
    · exact id
  have h := (sockets_live plainSettings (reachableWhen_run .initial hC hs)).1 _ (mem_of_allocation ha)
  exact ⟨s, a, hs, mem_of_allocation ha, h.1, h.2⟩

set_option maxRecDepth 20000 in
/-- The client closes its connection before the allocation expires. -/
theorem socket_dangles : ∃ s a,
    run plainSettings {} (streamEvents ++ [.internalSocketClose 0]) = some s ∧
      (0, a) ∈ s.server.allocations ∧ s.findSocket a.conn.socket = none ∧
      s.onAllocationDestroyed a = none := by
  have hrun : ((run plainSettings {} (streamEvents ++ [.internalSocketClose 0])).bind fun s =>
      (s.server.allocation 0).map fun a => (s.findSocket a.conn.socket, s.onAllocationDestroyed a)) =
        some (none, none) := by
    decide +kernel
  obtain ⟨s, hs, hallocation⟩ := Option.bind_eq_some_iff.mp hrun
  obtain ⟨a, ha, hnone⟩ := Option.map_eq_some_iff.mp hallocation
  obtain ⟨hfind, hdestroyed⟩ := Prod.mk.inj hnone
  exact ⟨s, a, hs, mem_of_allocation ha, hfind, hdestroyed⟩

end Sockets

end TurnServer

end Libjingle
