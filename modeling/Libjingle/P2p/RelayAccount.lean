import Libjingle.P2p.RelayTables

/-! What a `RelayServer` keeps along its runs, as long as no client sends to a peer whose
address pair already is a connection of another binding. -/

namespace Libjingle

namespace RelayServer

/-- The steps of the tables, with the address pair and the binding that a packet names. -/
inductive Tables.Move (t : Tables) (opened : Option (SocketAddressPair.Key × Nat)) : Tables → Prop
  | same : t.Move opened t
  | connect (b : Nat) (k : SocketAddressPair.Key) (internal : Bool)
      (live : ∃ e, t.binds.entry b = some e) (free : t.conns.index k = none)
      (names : opened = some (k, b)) : t.Move opened (t.connect b k internal)
  | create (username : List UInt8) (k : SocketAddressPair.Key)
      (new : t.binds.index username = none) (free : t.conns.index k = none)
      (names : opened = some (k, t.binds.next)) :
      t.Move opened ((t.bind username).connect t.binds.next k true)
  | unbind (b : Nat) : t.Move opened (t.unbind b)

theorem Tables.Move.sound {t t' : Tables} {opened : Option (SocketAddressPair.Key × Nat)}
    (h : t.Move opened t') (hs : t.Sound) : t'.Sound := by
  cases h with
  | same => exact hs
  | connect b k internal live free _ => exact hs.connect internal live free
  | create username k new free _ =>
    exact (hs.bind new).connect true ⟨_, Registry.entry_add_self⟩ free
  | unbind b => exact hs.unbind b

theorem Tables.Move.entry {t t' : Tables} {opened : Option (SocketAddressPair.Key × Nat)}
    (h : t.Move opened t') {c b : Nat} {k : SocketAddressPair.Key}
    (hc : t'.conns.entry c = some (b, k)) :
    t.conns.entry c = some (b, k) ∨ opened = some (k, b) := by
  cases h with
  | same => exact .inl hc
  | connect d l internal _ _ names =>
    rcases Registry.entry_of_entry_add hc with ⟨-, heq⟩ | hold
    · obtain ⟨rfl, rfl⟩ := Prod.mk.inj heq
      exact .inr names
    · exact .inl hold
  | create username l _ _ names =>
    rcases Registry.entry_of_entry_add hc with ⟨-, heq⟩ | hold
    · obtain ⟨rfl, rfl⟩ := Prod.mk.inj heq
      exact .inr names
    · exact .inl hold
  | unbind d =>
    refine .inl ?_
    unfold Tables.unbind at hc
    split at hc
    next => exact hc
    next =>
      simp only [Registry.entry_removeAll] at hc
      split at hc
      next => cases hc
      next => exact hc

variable (s : RelayServer)

def allocateRequest (bytes : List UInt8) : Option (List UInt8) := do
  let request ← StunMessage.read .relay bytes
  let username ← bytesOf request stunAttrUsername
  if request.type = stunAllocateRequest then some username else none

def sendRequest (ap : SocketAddressPair) (bytes : List UInt8) : Option (Nat × SocketAddress) := do
  let conn ← (s.connections ap.key).bind s.connection
  let b ← s.binding conn.binding
  let request ← StunMessage.read .relay bytes
  let extAddr ← addressOf request stunAttrDestinationAddress
  let _ ← bytesOf request stunAttrData
  if hasMagicCookie bytes ∧ bytesOf request stunAttrUsername = some b.username ∧
      request.type = stunSendRequest then
    some (conn.binding, extAddr)
  else none

/-- The address pair that a packet opens to a binding: the peer presents the username of the
binding, or a client of the binding sends to the peer. -/
def opens : Event → Option (SocketAddressPair.Key × Nat)
  | .internalPacket _ ap bytes _ _ =>
    if (s.connections ap.key).isSome then
      (s.sendRequest ap bytes).bind fun (b, extAddr) =>
        (s.peerPair extAddr).map fun peer => (peer.2.key, b)
    else (allocateRequest bytes).map fun username =>
      (ap.key, (s.bindings username).getD s.nextBinding)
  | .externalPacket _ ap bytes _ =>
    ((presentedUsername bytes).bind s.bindings).map fun b => (ap.key, b)
  | _ => none

/-- When a client sends to a peer that its binding has no connection to, no other binding
has one with this peer's address pair. -/
def Orderly : Event → Prop
  | .internalPacket _ ap bytes _ _ =>
    ∀ r ∈ s.sendRequest ap bytes, ∀ x ∈ s.binding r.1, s.getExternalConnection x r.2 = none →
      ∀ peer ∈ s.peerPair r.2, s.connections peer.2.key = none
  | _ => True

variable {s}

theorem live_of_bindings (h : s.tables.Sound) {u : List UInt8} {b : Nat}
    (hu : s.bindings u = some b) : ∃ e, s.tables.binds.entry b = some e := by
  obtain ⟨p, hp⟩ := h.binds.live u b hu
  exact ⟨_, hp⟩

theorem move_handleStunAllocate (h : s.tables.Sound) (socket : Nat) {ap : SocketAddressPair}
    (bytes : List UInt8) (random : Nat) (now : UInt32) (hfree : s.connections ap.key = none) :
    s.tables.Move (s.opens (.internalPacket socket ap bytes random now))
      (s.handleStunAllocate socket ap bytes random now).1.tables := by
  unfold handleStunAllocate
  split
  next => exact .same
  next request hread =>
    split
    next => exact .same
    next username huser =>
      split
      next => exact .same
      next htype =>
        have hrequest : allocateRequest bytes = some username := by
          simp [allocateRequest, hread, huser, not_not.mp htype]
        simp only [tables_answerAllocate, tables_newConnection]
        unfold findOrCreate
        split
        next b hb =>
          refine .connect b ap.key true (live_of_bindings h hb) hfree ?_
          simp [opens, hfree, hrequest, hb]
        next hnew =>
          simp only [tables_newBinding]
          refine .create username ap.key hnew hfree ?_
          simp [opens, hfree, hrequest, hnew]
          rfl

theorem move_findOrConnect {opened : Option (SocketAddressPair.Key × Nat)} {b : Nat} {x : Binding}
    {extAddr : SocketAddress} {now : UInt32} (hb : s.binding b = some x)
    (hopened : ∀ socket peer, s.peerPair extAddr = some (socket, peer) →
      opened = some (peer.key, b))
    (hfree : ∀ socket peer, s.getExternalConnection x extAddr = none →
      s.peerPair extAddr = some (socket, peer) → s.connections peer.key = none) :
    s.tables.Move opened (s.findOrConnect b x extAddr now).1.tables := by
  unfold findOrConnect
  split
  next => exact .same
  next hnone =>
    split
    next => exact .same
    next socket peer hpeer =>
      simp only [tables_newConnection]
      exact .connect b peer.key false ⟨_, entry_of_binding hb⟩ (hfree socket peer hnone hpeer)
        (hopened socket peer hpeer)

theorem tables_handleStunSend {c : Nat} {conn : Connection} {b : Binding} {request : StunMessage}
    {now : UInt32} {extAddr : SocketAddress} {data : List UInt8}
    (haddr : addressOf request stunAttrDestinationAddress = some extAddr)
    (hdata : bytesOf request stunAttrData = some data) :
    (s.handleStunSend c conn b request now).1.tables =
      (s.findOrConnect conn.binding b extAddr now).1.tables := by
  unfold handleStunSend
  rw [haddr, hdata]
  simp only
  split
  next t ht => rw [ht]
  next t e ht =>
    rw [ht, tables_lockTo]
    split
    next ext _ =>
      split
      next => exact t.tables_send ..
      next => rfl
    next => rfl

theorem move_handleStunSend {socket : Nat} {ap : SocketAddressPair} {bytes : List UInt8}
    {random : Nat} {now : UInt32} {c : Nat} {conn : Connection} {b : Binding}
    {request : StunMessage} (horderly : s.Orderly (.internalPacket socket ap bytes random now))
    (hap : s.connections ap.key = some c) (hc : s.connection c = some conn)
    (hb : s.binding conn.binding = some b) (hcookie : hasMagicCookie bytes = true)
    (hread : StunMessage.read .relay bytes = some request)
    (huser : bytesOf request stunAttrUsername = some b.username)
    (htype : request.type = stunSendRequest) :
    s.tables.Move (s.opens (.internalPacket socket ap bytes random now))
      (s.handleStunSend c conn b request now).1.tables := by
  cases haddr : addressOf request stunAttrDestinationAddress with
  | none =>
    unfold handleStunSend
    rw [haddr]
    exact .same
  | some extAddr =>
    cases hdata : bytesOf request stunAttrData with
    | none =>
      unfold handleStunSend
      rw [haddr, hdata]
      exact .same
    | some data =>
      have hrequest : s.sendRequest ap bytes = some (conn.binding, extAddr) := by
        simp [sendRequest, hap, hc, hb, hread, haddr, hdata, hcookie, huser, htype]
      rw [tables_handleStunSend haddr hdata]
      refine move_findOrConnect hb (fun _ peer hpeer => ?_) fun _ peer hnone hpeer =>
        horderly _ hrequest b hb hnone _ hpeer
      simp [opens, hap, hrequest, hpeer]

theorem move_onInternalPacket (h : s.tables.Sound) {socket : Nat} {ap : SocketAddressPair}
    {bytes : List UInt8} {random : Nat} {now : UInt32}
    (horderly : s.Orderly (.internalPacket socket ap bytes random now)) :
    s.tables.Move (s.opens (.internalPacket socket ap bytes random now))
      (s.onInternalPacket socket ap bytes random now).1.tables := by
  unfold onInternalPacket
  split
  next hfree => exact move_handleStunAllocate h socket bytes random now hfree
  next c hap =>
    split
    next => exact .same
    next conn hc =>
      split
      next => exact .same
      next b hb =>
        split
        next hcookie =>
          unfold handleStun
          split
          next => exact .same
          next request hread =>
            split
            next => exact .same
            next username huser =>
              split
              next => exact .same
              next heq =>
                rw [not_not.mp heq] at huser
                split
                next htype =>
                  exact move_handleStunSend horderly hap hc hb hcookie hread huser htype
                next =>
                  split
                  next =>
                    rw [tables_answerAllocate]
                    exact .same
                  next => exact .same
        next =>
          split
          next => exact .same
          next =>
            split
            next => exact .same
            next e _ =>
              split
              next => exact .same
              next ext _ =>
                split
                next =>
                  rw [tables_send]
                  exact .same
                next => exact .same

theorem move_onExternalPacket (h : s.tables.Sound) (socket : Nat) (ap : SocketAddressPair)
    (bytes : List UInt8) (now : UInt32) :
    s.tables.Move (s.opens (.externalPacket socket ap bytes now))
      (s.onExternalPacket socket ap bytes now).1.tables := by
  unfold onExternalPacket
  split
  next c _ =>
    split
    next => exact .same
    next ext _ =>
      rw [tables_lock, tables_forward]
      exact .same
  next hfree =>
    split
    next => exact .same
    next b hb =>
      rw [tables_forward, tables_lock, tables_newConnection]
      obtain ⟨username, _, hu⟩ := Option.bind_eq_some_iff.mp hb
      refine .connect b ap.key false (live_of_bindings h hu) hfree ?_
      simp [opens, hb]

theorem move_step (h : s.tables.Sound) {e : Event} (he : s.Orderly e) :
    s.tables.Move (s.opens e) (s.step e).tables := by
  cases e with
  | addExternalSocket socket localAddress => exact .same
  | removeExternalSocket socket => exact .same
  | internalPacket socket ap bytes random now => exact move_onInternalPacket h he
  | externalPacket socket ap bytes now => exact move_onExternalPacket h socket ap bytes now
  | timer b now =>
    have hsame : (s.step (.timer b now)).tables = s.tables := s.tables_onTimer b now
    rw [hsame]
    exact .same
  | dispatch =>
    show s.tables.Move _ s.dispatch.tables
    unfold dispatch
    split
    next => exact .same
    next b doomed _ =>
      have hs : ({ s with doomed := doomed } : RelayServer).tables.Sound := h
      exact tables_deleteBinding hs b ▸ .unbind b

variable (s)

structure Accountable : Prop where
  mapped : ∀ c x, s.connection c = some x → s.connections x.addrPair.key = some c
  distinct : ∀ c d x y, s.connection c = some x → s.connection d = some y →
    x.addrPair.key = y.addrPair.key → c = d
  bound : ∀ b x, s.binding b = some x → s.bindings x.username = some b
  asserted : s.asserted = true

/-- A binding that is deleted takes its own connections with it and no others. -/
def Destroys (e : Event) : Prop :=
  ∀ b rest, e = .dispatch → s.doomed = b :: rest →
    (∀ c x, (s.step e).connection c = some x ↔ s.connection c = some x ∧ x.binding ≠ b) ∧
    ∀ k c, (s.step e).connections k = some c ↔
      s.connections k = some c ∧ ∀ x, s.connection c = some x → x.binding ≠ b

/-- A server with the address pairs that were opened to bindings so far. -/
structure Run where
  server : RelayServer := {}
  introduced : List (SocketAddressPair.Key × Nat) := []

def Run.step (r : Run) (e : Event) : Run where
  server := r.server.step e
  introduced := r.introduced ++ (r.server.opens e).toList

/-- A packet of a peer goes to internal connections of a binding that it was opened to. -/
def Run.Forwards (r : Run) (e : Event) : Prop :=
  ∀ socket ap bytes now, e = .externalPacket socket ap bytes now →
    ∀ o ∈ (r.server.handle e).2, ∃ b x i, o.connection = some i ∧
      (r.step e).server.binding b = some x ∧ i ∈ x.internalConnections ∧
      (ap.key, b) ∈ (r.step e).introduced

def Run.Holds (r : Run) (e : Event) : Prop :=
  r.server.Accountable ∧ r.server.Destroys e ∧ r.Forwards e

structure Run.Inv (r : Run) : Prop where
  sound : r.server.tables.Sound
  known : ∀ c b k, r.server.tables.conns.entry c = some (b, k) → (k, b) ∈ r.introduced

variable {s}

theorem accountable_of_sound (h : s.tables.Sound) : s.Accountable where
  mapped _ x hc := (connections_iff h).mpr ⟨x, hc, rfl⟩
  distinct _ _ _ _ hc hd hk :=
    h.conns.unique (entry_of_connection hc) (hk ▸ entry_of_connection hd)
  bound b _ hb := h.binds.indexed b _ _ (entry_of_binding hb)
  asserted := h.asserted

theorem destroys_of_sound (h : s.tables.Sound) (e : Event) : s.Destroys e := by
  rintro b rest rfl hdoomed
  have hstep : s.step .dispatch = ({ s with doomed := rest } : RelayServer).deleteBinding b := by
    show s.dispatch = _
    rw [dispatch, hdoomed]
  have hs : ({ s with doomed := rest } : RelayServer).tables.Sound := h
  rw [hstep]
  exact ⟨connection_deleteBinding hs b, fun k c => connections_deleteBinding hs b c k⟩

theorem getInternalConnection_mem {b : Binding} {extAddr : SocketAddress} {i : Nat}
    (h : s.getInternalConnection b extAddr = some i) : i ∈ b.internalConnections := by
  rcases Option.or_eq_some_iff.mp h with hfind | ⟨-, hhead⟩
  · exact List.mem_of_find?_eq_some hfind
  · exact List.mem_of_mem_head? hhead

theorem mem_forward {b : Nat} {bytes : List UInt8} {sender : SocketAddress} {now : UInt32}
    {o : Output} (ho : o ∈ (s.forward b bytes sender now).2) :
    ∃ x i, o.connection = some i ∧ s.binding b = some x ∧ i ∈ x.internalConnections := by
  unfold forward at ho
  split at ho
  next => cases ho
  next i hi =>
    obtain ⟨x, hx, hget⟩ := Option.bind_eq_some_iff.mp hi
    split at ho
    next => cases ho
    next conn _ =>
      have hone : o.connection = some i := by
        unfold sendFrom at ho
        split at ho <;> exact List.mem_singleton.mp ho ▸ rfl
      exact ⟨x, i, hone, hx, getInternalConnection_mem hget⟩

theorem binding_of_tables {t : RelayServer} (h : t.tables = s.tables) {b : Nat} {x : Binding}
    (hb : s.binding b = some x) :
    ∃ y, t.binding b = some y ∧ y.internalConnections = x.internalConnections := by
  have hentry := entry_of_binding hb
  rw [← h] at hentry
  obtain ⟨y, hy, heq⟩ := Option.map_eq_some_iff.mp hentry
  exact ⟨y, hy, congrArg (fun e => e.1.1) heq⟩

namespace Run

variable {r : Run}

theorem Inv.forwards (h : r.Inv) (e : Event) : r.Forwards e := by
  rintro socket ap bytes now rfl o ho
  have hstep : (r.step (.externalPacket socket ap bytes now)).server =
      (r.server.onExternalPacket socket ap bytes now).1 := rfl
  have hintroduced : (r.step (.externalPacket socket ap bytes now)).introduced =
      r.introduced ++ (r.server.opens (.externalPacket socket ap bytes now)).toList := rfl
  rw [hstep, hintroduced]
  replace ho : o ∈ (r.server.onExternalPacket socket ap bytes now).2 := ho
  unfold onExternalPacket at ho ⊢
  split at ho
  next c hc =>
    split at ho
    next => cases ho
    next ext hext =>
      obtain ⟨x, i, hi, hx, hmem⟩ := mem_forward ho
      obtain ⟨y, hy, heq⟩ := binding_of_tables (t := (r.server.forward ext.binding bytes
        ext.addrPair.source now).1.lock c) (by simp) hx
      obtain ⟨b, hlive⟩ := h.sound.conns.live ap.key c hc
      have hb : ext.binding = b :=
        (Prod.mk.inj (Option.some.inj ((entry_of_connection hext).symm.trans hlive))).1
      refine ⟨ext.binding, y, i, hi, ?_, heq ▸ hmem, List.mem_append_left _ ?_⟩
      · exact hy
      · exact hb ▸ h.known c b ap.key hlive
  next hfree =>
    split at ho
    next => cases ho
    next b hb =>
      obtain ⟨x, i, hi, hx, hmem⟩ := mem_forward ho
      obtain ⟨y, hy, heq⟩ := binding_of_tables (t := (((r.server.newConnection b ap socket false
        now).lock r.server.nextConnection).forward b bytes ap.source now).1) (by simp) hx
      refine ⟨b, y, i, hi, ?_, heq ▸ hmem, List.mem_append_right _ ?_⟩
      · exact hy
      · simp [opens, hb]

theorem Inv.step (h : r.Inv) {e : Event} (he : r.server.Orderly e) : (r.step e).Inv where
  sound := (move_step h.sound he).sound h.sound
  known c b k hc := by
    rcases (move_step h.sound he).entry hc with hold | hopened
    · exact List.mem_append_left _ (h.known c b k hold)
    · exact List.mem_append_right _ (Option.mem_toList.mpr hopened)

theorem inv_initial : Inv {} where
  sound :=
    { conns := ⟨fun _ _ _ => nofun, fun _ _ => nofun, fun _ _ => rfl⟩
      binds := ⟨fun _ _ _ => nofun, fun _ _ => nofun, fun _ _ => rfl⟩
      owned := fun _ _ _ => nofun
      owns := fun _ _ _ _ => nofun
      asserted := rfl }
  known _ _ _ := nofun

section Examples

def exampleRequest (type length user : UInt8) : List UInt8 :=
  [0, type, 0, length, 0x21, 0x12, 0xA4, 0x42] ++ List.replicate 12 7 ++
    [0, 0x0F, 0, 4] ++ turnMagicCookieValue ++ [0, 6, 0, 4] ++ List.replicate 4 user

def exampleDestination : List UInt8 :=
  [0, 0x11, 0, 8, 0, 1, 0x1F, 0x90, 10, 0, 0, 9] ++ [0, 0x13, 0, 4, 1, 2, 3, 4]

def examplePair (remote : UInt32) (remotePort : UInt16) (near : UInt32) : SocketAddressPair :=
  ⟨.ofIP (.inet remote) remotePort, .ofIP (.inet near) 5000⟩

def exampleAllocate (client : UInt32) (user : UInt8) : Event :=
  .internalPacket 0 (examplePair client 6000 1) (exampleRequest 3 16 user) 0 0

def exampleSend (client : UInt32) (user : UInt8) : Event :=
  .internalPacket 0 (examplePair client 6000 1) (exampleRequest 4 36 user ++ exampleDestination)
    0 0

end Examples

end Run

end RelayServer

end Libjingle
