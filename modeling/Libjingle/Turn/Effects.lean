import Libjingle.Turn.NonceReuse

/-! What a step of the server does to its allocations and its record. -/

namespace Libjingle

open StunMessage

namespace TurnServer

def handled (cfg : Settings) (s : TurnServer) (id : Nat) (a : Allocation) (msg : StunMessage)
    (data : List UInt8) : TurnServer :=
  { s.update id fun _ => (a.handleTurnMessage cfg s.now msg).1 with
    record := s.record ++ [requestOf cfg s.now id a msg data false] }

def created (cfg : Settings) (s : TurnServer) (a : Allocation) (msg : StunMessage)
    (data : List UInt8) : TurnServer :=
  { s with
    allocations := s.allocations ++ [(s.next, (a.handleAllocateRequest cfg s.now msg).1)]
    next := s.next + 1
    record := s.record ++ [requestOf cfg s.now s.next a msg data true] }

inductive Effect (cfg : Settings) (s : TurnServer) : Event → TurnServer → Prop
  | quiet {e : Event} {t : TurnServer} (hallocations : t.allocations = s.allocations)
      (hrecord : t.record = s.record) (hnext : t.next = s.next) : Effect cfg s e t
  | noted {conn : Connection} {id : Nat} {data : List UInt8} {socket : Option SocketAddress}
      (nonce : List UInt8) : Effect cfg s (.internalPacket conn (some id) data socket)
        (s.update id fun a => { a with lastNonce := nonce })
  | handled {conn : Connection} {id : Nat} {data : List UInt8} {socket : Option SocketAddress}
      {a : Allocation} {msg : StunMessage} {nonce : List UInt8} (ha : s.allocation id = some a)
      (hreq : requestIn data = some msg)
      (hauth : checkAuthorization cfg s.now (some a) msg data a.key = .ok nonce)
      (htype : msg.type ≠ stunAllocateRequest ∨ msg.transactionId = a.transactionId)
      (husername : bytesOf msg stunAttrUsername = some a.username) :
      Effect cfg s (.internalPacket conn (some id) data socket)
        (handled cfg s id { a with lastNonce := nonce } msg data)
  | created {conn : Connection} {data : List UInt8} {relayed : SocketAddress} {msg : StunMessage}
      {key nonce : List UInt8} (hreq : requestIn data = some msg)
      (hauth : checkAuthorization cfg s.now none msg data key = .ok nonce)
      (htype : msg.type = stunAllocateRequest) :
      Effect cfg s (.internalPacket conn none data (some relayed))
        (created cfg s { conn := conn, relayed := relayed, key := key } msg data)
  | expired {id : Nat} {a : Allocation} (ha : s.allocation id = some a)
      (hdue : ∃ due ∈ a.timeouts, due ≤ s.now) :
      Effect cfg s (.allocationTimeout id)
        { s with allocations := s.allocations.filter (·.1 ≠ id) }
  | permission {id : Nat} {peer : IPAddress} : Effect cfg s (.permissionTimeout id peer)
      (s.update id fun a => { a with perms := a.perms.filter (·.peer ≠ peer) })
  | channel {id number : Nat} : Effect cfg s (.channelTimeout id number)
      (s.update id fun a => { a with channels := a.channels.filter (·.id ≠ number) })

section

variable {cfg : Settings} {s t : TurnServer} {id : Nat} {a : Allocation} {e : Event}

theorem Effect.refl (e : Event) : Effect cfg s e s := .quiet rfl rfl rfl

theorem update_update (f g : Allocation → Allocation) :
    (s.update id f).update id g = s.update id (g ∘ f) := by
  simp only [TurnServer.update, List.map_map]
  congr 1
  refine List.map_congr_left fun entry _ => ?_
  by_cases hid : entry.1 = id
  · simp [hid]
  · simp [hid]

structure IsRequest (data : List UInt8) (msg : StunMessage) : Prop where
  long : turnChannelHeaderSize ≤ data.length
  message : isTurnChannelData (getBE16 data 0) = false
  reads : StunMessage.read .turn data = some msg
  other : msg.type ≠ stunBindingRequestType
  request : isStunRequestType msg.type = true

theorem isRequest_of_requestIn {data : List UInt8} {msg : StunMessage}
    (h : requestIn data = some msg) : IsRequest data msg := by
  rw [requestIn] at h
  split at h
  · cases h
  · rename_i hhead
    rw [not_or, not_lt, Bool.not_eq_true] at hhead
    split at h
    · cases h
    · rename_i m hread
      split at h
      · rename_i htype
        obtain rfl := Option.some.inj h
        exact ⟨hhead.1, hhead.2, hread, htype.1, htype.2⟩
      · cases h

theorem Inv.state_of_no_request (h : Inv cfg s) {conn : Connection}
    {found : Option (Nat × Allocation)} {data : List UInt8} {socket : Option SocketAddress}
    (hreq : requestIn data = none)
    (hfound : ∀ entry, found = some entry → s.allocation entry.1 = some entry.2) :
    (s.onInternalPacket cfg conn found data socket).1 = s := by
  rw [onInternalPacket.eq_def]
  by_cases hshort : data.length < turnChannelHeaderSize
  · rw [if_pos hshort]
  · rw [if_neg hshort]
    by_cases hchannel : isTurnChannelData (getBE16 data 0) = true
    · rw [if_pos hchannel]
      split <;> rfl
    · rw [if_neg hchannel, handleStunMessage]
      rw [requestIn, if_neg (not_or.mpr ⟨hshort, hchannel⟩)] at hreq
      split
      · rfl
      · rename_i msg hread
        simp only [hread] at hreq
        by_cases hbinding : msg.type = stunBindingRequestType
        · rw [if_pos hbinding]
        · have hother : ¬ isStunRequestType msg.type = true := by
            intro htype
            rw [if_pos ⟨hbinding, htype⟩] at hreq
            cases hreq
          rw [if_neg hbinding]
          dsimp only
          rw [if_neg hother, handleAuthorized.eq_def]
          split
          · rw [if_neg (fun htype => hother (by rw [htype]; decide))]
          · rename_i id a
            split
            · rw [if_neg (fun hand => hother hand.1), dispatch_other (Bool.not_eq_true _ ▸ hother)]
              have hsame : (a.handleTurnMessage cfg s.now msg).1 = a :=
                (Allocation.handles_handleTurnMessage
                  (r := requestOf cfg s.now id a msg data false) rfl).frame
                  (Bool.not_eq_true _ ▸ hother)
              rw [hsame]
              exact h.update_self (hfound _ rfl)
            · rfl

theorem effect_some (h : Inv cfg s) (ha : s.allocation id = some a) {conn : Connection}
    {data : List UInt8} {socket : Option SocketAddress} :
    Effect cfg s (.internalPacket conn (some id) data socket)
      (s.onInternalPacket cfg conn (some (id, a)) data socket).1 := by
  cases hreq : requestIn data with
  | none =>
    have hfound : ∀ entry, some (id, a) = some entry → s.allocation entry.1 = some entry.2 := by
      rintro _ ⟨⟩
      exact ha
    rw [h.state_of_no_request hreq hfound]
    exact .refl _
  | some msg =>
    rw [onInternalPacket_request hreq]
    dsimp only [Option.map_some]
    cases hauth : checkAuthorization cfg s.now (some a) msg data a.key with
    | error output => exact .refl _
    | ok nonce =>
      dsimp only
      rw [handleAuthorized]
      dsimp only
      split
      · rename_i htype
        split
        · exact .noted nonce
        · rename_i husername
          have hrequest : isStunRequestType msg.type = true := (isRequest_of_requestIn hreq).request
          rw [not_and, not_not] at husername
          rw [dispatch_request hrequest, update_update]
          exact .handled ha hreq hauth htype (husername hrequest)
      · exact .noted nonce

theorem dispatch_created (h : Inv cfg s) {conn : Connection} {relayed : SocketAddress}
    {msg : StunMessage} {data key : List UInt8} (htype : msg.type = stunAllocateRequest) :
    (TurnServer.dispatch cfg
      { s with
        allocations := s.allocations ++ [(s.next, { conn := conn, relayed := relayed, key := key })]
        next := s.next + 1 }
      s.next { conn := conn, relayed := relayed, key := key } msg data true).1 =
      created cfg s { conn := conn, relayed := relayed, key := key } msg data := by
  have hrequest : isStunRequestType msg.type = true := by
    rw [htype]
    decide
  have hhandle : ∀ a : Allocation,
      a.handleTurnMessage cfg s.now msg = a.handleAllocateRequest cfg s.now msg := fun a =>
    if_pos htype
  have hsame : ∀ f : Nat × Allocation → Nat × Allocation, (∀ entry, entry.1 ≠ s.next →
      f entry = entry) → s.allocations.map f = s.allocations := by
    intro f hf
    exact (List.map_congr_left fun entry hentry =>
      hf entry (h.lt_next entry hentry).ne).trans (List.map_id _)
  rw [dispatch_request hrequest, created, hhandle]
  simp only [TurnServer.update, List.map_append, List.map_cons, List.map_nil, if_true]
  rw [hsame _ fun entry hne => if_neg hne]

theorem effect_none (h : Inv cfg s) {conn : Connection} {data : List UInt8}
    {socket : Option SocketAddress} :
    Effect cfg s (.internalPacket conn none data socket)
      (s.onInternalPacket cfg conn none data socket).1 := by
  cases hreq : requestIn data with
  | none =>
    rw [h.state_of_no_request hreq fun entry hentry => by cases hentry]
    exact .refl _
  | some msg =>
    rw [onInternalPacket_request hreq]
    dsimp only [Option.map_none]
    cases hauth : checkAuthorization cfg s.now none msg data (getKey cfg msg) with
    | error output => exact .refl _
    | ok nonce =>
      dsimp only
      rw [handleAuthorized]
      by_cases htype : msg.type = stunAllocateRequest
      · rw [if_pos htype]
        unfold handleAllocateRequest
        split
        · exact .refl _
        · split
          · exact .refl _
          · split
            · exact .refl _
            · rw [dispatch_created h htype]
              exact .created hreq hauth htype
      · rw [if_neg htype]
        exact .refl _

theorem Inv.effect (h : Inv cfg s) {outputs : List Output}
    (hstep : s.step cfg e = some (t, outputs)) : Effect cfg s e t := by
  cases e with
  | internalPacket conn found data socket =>
    cases found with
    | none =>
      simp only [TurnServer.step] at hstep
      split at hstep
      · have heffect := @effect_none cfg s h conn data socket
        rwa [Option.some.inj hstep] at heffect
      · cases hstep
    | some id =>
      simp only [TurnServer.step] at hstep
      split at hstep
      · rename_i a ha
        split at hstep
        · have heffect := @effect_some cfg s id a h ha conn data socket
          rwa [Option.some.inj hstep] at heffect
        · cases hstep
      · cases hstep
  | externalPacket id data addr transactionId =>
    simp only [TurnServer.step] at hstep
    split at hstep
    · split at hstep
      · obtain ⟨rfl, -⟩ := Prod.mk.inj (Option.some.inj hstep)
        exact .refl _
      · cases hstep
    · cases hstep
  | advance time =>
    obtain ⟨rfl, -⟩ := Prod.mk.inj (Option.some.inj hstep)
    exact .quiet rfl rfl rfl
  | allocationTimeout id =>
    simp only [TurnServer.step] at hstep
    split at hstep
    · rename_i a ha
      split at hstep
      · rename_i hdue
        obtain ⟨rfl, -⟩ := Prod.mk.inj (Option.some.inj hstep)
        exact .expired ha hdue
      · cases hstep
    · cases hstep
  | permissionTimeout id peer =>
    simp only [TurnServer.step] at hstep
    split at hstep
    · split at hstep
      · obtain ⟨rfl, -⟩ := Prod.mk.inj (Option.some.inj hstep)
        exact .permission
      · cases hstep
    · cases hstep
  | channelTimeout id number =>
    simp only [TurnServer.step] at hstep
    split at hstep
    · split at hstep
      · obtain ⟨rfl, -⟩ := Prod.mk.inj (Option.some.inj hstep)
        exact .channel
      · cases hstep
    · cases hstep

inductive ReachableWhen (cfg : Settings) (C : TurnServer → Event → Prop) : TurnServer → Prop
  | initial : ReachableWhen cfg C {}
  | step {s t : TurnServer} {e : Event} {outputs : List Output} (hs : ReachableWhen cfg C s)
      (hC : C s e) (hstep : step cfg s e = some (t, outputs)) : ReachableWhen cfg C t

theorem ReachableWhen.reachable {C : TurnServer → Event → Prop} (hs : ReachableWhen cfg C s) :
    Reachable cfg s := by
  induction hs with
  | initial => exact .initial
  | step _ _ hstep ih => exact .step ih hstep

theorem reachableWhen_run {C : TurnServer → Event → Prop} (hs : ReachableWhen cfg C s)
    {events : List Event} (hC : ∀ e ∈ events, ∀ s, C s e) (hrun : run cfg s events = some t) :
    ReachableWhen cfg C t := by
  induction events generalizing s with
  | nil =>
    obtain rfl := Option.some.inj hrun
    exact hs
  | cons e rest ih =>
    rw [run, List.foldlM_cons] at hrun
    obtain ⟨u, hu, hrest⟩ := Option.bind_eq_some_iff.mp hrun
    obtain ⟨⟨u', outputs⟩, hstep, rfl⟩ := Option.map_eq_some_iff.mp hu
    exact ih (.step hs (hC e List.mem_cons_self s) hstep)
      (fun e he => hC e (List.mem_cons_of_mem _ he)) hrest

/-- A property that an allocation has from its creation on, whatever happens to it. -/
structure Lasting (cfg : Settings) (P : Allocation → Prop) : Prop where
  fresh : ∀ now conn relayed key msg,
    P (Allocation.handleAllocateRequest cfg { conn := conn, relayed := relayed, key := key } now msg).1
  noted : ∀ a nonce, P a → P { a with lastNonce := nonce }
  handled : ∀ now a msg, P a → P (a.handleTurnMessage cfg now msg).1
  permission : ∀ a peer, P a → P { a with perms := a.perms.filter (·.peer ≠ peer) }
  channel : ∀ a number, P a → P { a with channels := a.channels.filter (·.id ≠ number) }

theorem forall_update {P : Allocation → Prop} (h : ∀ entry ∈ s.allocations, P entry.2)
    {f : Allocation → Allocation} (hf : ∀ a, P a → P (f a)) :
    ∀ entry ∈ (s.update id f).allocations, P entry.2 := by
  intro entry hentry
  rcases mem_update hentry with ⟨hmem, -⟩ | ⟨a, hmem, rfl⟩
  · exact h entry hmem
  · exact hf a (h _ hmem)

theorem Lasting.effect {P : Allocation → Prop} (hP : Lasting cfg P)
    (h : ∀ entry ∈ s.allocations, P entry.2) (heffect : Effect cfg s e t) :
    ∀ entry ∈ t.allocations, P entry.2 := by
  cases heffect with
  | quiet hallocations hrecord hnext =>
    rw [hallocations]
    exact h
  | noted nonce => exact forall_update h fun a => hP.noted a nonce
  | handled ha hreq hauth htype husername =>
    exact forall_update h fun _ _ => hP.handled _ _ _ (hP.noted _ _ (h _ (mem_of_allocation ha)))
  | created hreq hauth htype =>
    intro entry hentry
    rcases List.mem_append.mp hentry with hentry | hentry
    · exact h entry hentry
    · rw [List.mem_singleton.mp hentry]
      exact hP.fresh _ _ _ _ _
  | expired ha hdue => exact fun entry hentry => h entry (List.mem_of_mem_filter hentry)
  | permission => exact forall_update h fun a => hP.permission a _
  | channel => exact forall_update h fun a => hP.channel a _

theorem Lasting.reachable {P : Allocation → Prop} (hP : Lasting cfg P) (hs : Reachable cfg s) :
    ∀ entry ∈ s.allocations, P entry.2 := by
  induction hs with
  | initial => exact fun _ hentry => absurd hentry List.not_mem_nil
  | step hs hstep ih => exact hP.effect ih ((inv_of_reachable hs).effect hstep)

end

end TurnServer

end Libjingle
