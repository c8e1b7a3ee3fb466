import Libjingle.Turn.Authorization
import Mathlib.Data.List.Chain

/-! One-time nonces: an allocation remembers the nonce of the last request that was
authorized, and the next one may not have it. -/

namespace Libjingle

open StunMessage

namespace TurnServer

def requestIn (data : List UInt8) : Option StunMessage :=
  if data.length < turnChannelHeaderSize ∨ isTurnChannelData (getBE16 data 0) then none
  else match StunMessage.read .turn data with
    | none => none
    | some msg =>
      if msg.type ≠ stunBindingRequestType ∧ isStunRequestType msg.type then some msg else none

structure Acceptance where
  conn : Connection
  allocation : Option Nat
  nonce : List UInt8
  deriving DecidableEq, Repr

/-- The request for which `CheckAuthorization` returns true. -/
def accepted (cfg : Settings) (s : TurnServer) : Event → Option Acceptance
  | .internalPacket conn found data _ =>
    match requestIn data with
    | none => none
    | some msg =>
      let a := found.bind s.allocation
      let key := match a with
        | some a => a.key
        | none => getKey cfg msg
      match checkAuthorization cfg s.now a msg data key with
      | .ok nonce => some ⟨conn, found, nonce⟩
      | .error _ => none
  | _ => none

/-- The requests that are authorized in a run, in their order. -/
def acceptances (cfg : Settings) : TurnServer → List Event → List Acceptance
  | _, [] => []
  | s, e :: rest =>
    match s.step cfg e with
    | none => []
    | some (t, _) => (accepted cfg s e).toList ++ acceptances cfg t rest

/-- The nonces of the requests on an allocation. -/
def noncesOn (id : Nat) (l : List Acceptance) : List (List UInt8) :=
  (l.filter (·.allocation = some id)).map Acceptance.nonce

/-- The nonce that is remembered for a live allocation. -/
def memory (s : TurnServer) (id : Nat) : Option (List UInt8) :=
  (s.allocation id).map Allocation.lastNonce

section Memory

variable {cfg : Settings} {s t u : TurnServer} {id j : Nat} {a : Allocation} {e : Event}

theorem allocation_update (f : Allocation → Allocation) :
    (s.update id f).allocation j = if j = id then (s.allocation j).map f else s.allocation j := by
  simp only [allocation, TurnServer.update]
  induction s.allocations with
  | nil => simp
  | cons entry rest ih =>
    by_cases hentry : entry.1 = id
    · by_cases hj : j = id
      · simp [hentry, hj]
      · have hne : ¬ id = j := fun h => hj h.symm
        simpa [hentry, hj, hne, -List.find?_map, -Option.map_map] using ih
    · by_cases hj : entry.1 = j
      · have hne : ¬ j = id := fun h => hentry (hj.trans h)
        simp [hj, hne]
      · simpa [hentry, hj, -List.find?_map, -Option.map_map] using ih

theorem memory_update (f : Allocation → Allocation) (hf : ∀ a, (f a).lastNonce = a.lastNonce) :
    (s.update id f).memory j = s.memory j := by
  rw [memory, memory, allocation_update]
  by_cases hj : j = id
  · simp [hj, Function.comp_def, hf]
  · simp [hj]

/-- The state after a packet, as far as the nonces of the allocations go that were there. -/
structure Remembers (s t : TurnServer) : Prop where
  next : s.next ≤ t.next
  memory : ∀ id < s.next, t.memory id = s.memory id

theorem Remembers.refl (s : TurnServer) : Remembers s s := ⟨le_rfl, fun _ _ => rfl⟩

theorem next_dispatch {msg : StunMessage} {data : List UInt8} {creates : Bool} :
    (s.dispatch cfg id a msg data creates).1.next = s.next := by
  by_cases hreq : isStunRequestType msg.type = true
  · rw [dispatch_request hreq]
    rfl
  · rw [dispatch_other (Bool.not_eq_true _ ▸ hreq)]
    rfl

theorem memory_dispatch {msg : StunMessage} {data : List UInt8} {creates : Bool} :
    (s.dispatch cfg id a msg data creates).1.memory j =
      if j = id then (s.allocation id).map fun _ => a.lastNonce else s.memory j := by
  have hnonce : (a.handleTurnMessage cfg s.now msg).1.lastNonce = a.lastNonce :=
    (Allocation.handles_handleTurnMessage
      (r := requestOf cfg s.now id a msg data creates) rfl).lastNonce
  have hallocation : (s.dispatch cfg id a msg data creates).1.allocation j =
      (s.update id fun _ => (a.handleTurnMessage cfg s.now msg).1).allocation j := by
    by_cases hreq : isStunRequestType msg.type = true
    · rw [dispatch_request hreq]
      rfl
    · rw [dispatch_other (Bool.not_eq_true _ ▸ hreq)]
  rw [memory, hallocation, allocation_update]
  by_cases hj : j = id
  · simp [hj, Function.comp_def, hnonce]
  · simp [hj, memory]

theorem remembers_dispatch (ha : s.allocation id = some a) {msg : StunMessage}
    {data : List UInt8} {creates : Bool} :
    Remembers s (s.dispatch cfg id a msg data creates).1 := by
  refine ⟨next_dispatch.ge, fun j _ => ?_⟩
  rw [memory_dispatch]
  by_cases hj : j = id
  · simp [hj, ha, memory]
  · simp [hj]

theorem remembers_append :
    Remembers s { s with allocations := s.allocations ++ [(s.next, a)], next := s.next + 1 } := by
  refine ⟨Nat.le_succ _, fun j hj => ?_⟩
  have hne : ¬ s.next = j := hj.ne'
  simp [memory, allocation, List.find?_append, hne]

theorem remembers_allocate {conn : Connection} {msg : StunMessage} {data key : List UInt8}
    {socket : Option SocketAddress} :
    Remembers s (s.handleAllocateRequest cfg conn msg data key socket).1 := by
  unfold handleAllocateRequest
  split
  · exact .refl s
  · split
    · exact .refl s
    · split
      · exact .refl s
      · rename_i relayed
        have happend := remembers_append (s := s)
          (a := { conn := conn, relayed := relayed, key := key })
        refine ⟨?_, fun j hj => ?_⟩
        · dsimp only
          rw [next_dispatch]
          exact happend.next
        · dsimp only
          rw [memory_dispatch, if_neg hj.ne]
          exact happend.memory j hj

theorem remembers_handleAuthorized {conn : Connection} {found : Option (Nat × Allocation)}
    {msg : StunMessage} {data key : List UInt8} {socket : Option SocketAddress}
    (hfound : ∀ entry, found = some entry → s.allocation entry.1 = some entry.2) :
    Remembers s (s.handleAuthorized cfg conn found msg data key socket).1 := by
  unfold handleAuthorized
  split
  · split
    · exact remembers_allocate
    · exact .refl s
  · rename_i id a
    split
    · split
      · exact .refl s
      · exact remembers_dispatch (hfound _ rfl)
    · exact .refl s

theorem remembers_of_no_request {conn : Connection} {found : Option (Nat × Allocation)}
    {data : List UInt8} {socket : Option SocketAddress} (hreq : requestIn data = none)
    (hfound : ∀ entry, found = some entry → s.allocation entry.1 = some entry.2) :
    Remembers s (s.onInternalPacket cfg conn found data socket).1 := by
  rw [onInternalPacket.eq_def]
  by_cases hshort : data.length < turnChannelHeaderSize
  · rw [if_pos hshort]
    exact .refl s
  · rw [if_neg hshort]
    by_cases hchannel : isTurnChannelData (getBE16 data 0) = true
    · rw [if_pos hchannel]
      split <;> exact .refl s
    · rw [if_neg hchannel, handleStunMessage]
      rw [requestIn, if_neg (not_or.mpr ⟨hshort, hchannel⟩)] at hreq
      split
      · exact .refl s
      · rename_i msg hread
        simp only [hread] at hreq
        by_cases hbinding : msg.type = stunBindingRequestType
        · rw [if_pos hbinding]
          exact .refl s
        · have hother : ¬ isStunRequestType msg.type = true := by
            intro htype
            rw [if_pos ⟨hbinding, htype⟩] at hreq
            cases hreq
          rw [if_neg hbinding]
          dsimp only
          rw [if_neg hother]
          exact remembers_handleAuthorized hfound

theorem onInternalPacket_request {conn : Connection} {found : Option (Nat × Allocation)}
    {data : List UInt8} {socket : Option SocketAddress} {msg : StunMessage}
    (hreq : requestIn data = some msg) :
    s.onInternalPacket cfg conn found data socket =
      let key := match found with
        | some (_, a) => a.key
        | none => getKey cfg msg
      match checkAuthorization cfg s.now (found.map Prod.snd) msg data key with
      | .error output => (s, [output])
      | .ok nonce =>
        match found with
        | some (id, a) =>
          (s.update id fun a => { a with lastNonce := nonce }).handleAuthorized cfg conn
            (some (id, { a with lastNonce := nonce })) msg data key socket
        | none => s.handleAuthorized cfg conn none msg data key socket := by
  rw [requestIn] at hreq
  by_cases hhead : data.length < turnChannelHeaderSize ∨ isTurnChannelData (getBE16 data 0) = true
  · rw [if_pos hhead] at hreq
    cases hreq
  · rw [if_neg hhead] at hreq
    rw [not_or] at hhead
    rw [onInternalPacket.eq_def, if_neg hhead.1, if_neg hhead.2, handleStunMessage]
    split at hreq
    · cases hreq
    · rename_i m hread
      split at hreq
      · rename_i htype
        obtain rfl := Option.some.inj hreq
        simp only [hread, htype.1, htype.2, if_false, if_true]
        all_goals rfl
      · cases hreq

/-- The last nonces after a step: that of a request that was authorized is noted, and the
others stay unless the allocation is gone. -/
structure Follows (cfg : Settings) (s : TurnServer) (e : Event) (t : TurnServer) : Prop where
  next : s.next ≤ t.next
  noted : ∀ acc id, accepted cfg s e = some acc → acc.allocation = some id →
    t.memory id = some acc.nonce ∧
      ∃ last, s.memory id = some last ∧ (cfg.enableOtuNonce = true → last ≠ acc.nonce)
  others : ∀ id < s.next, (∀ acc, accepted cfg s e = some acc → acc.allocation ≠ some id) →
    t.memory id = s.memory id ∨ t.memory id = none

theorem Remembers.follows (h : Remembers s t) (hno : ∀ acc id, accepted cfg s e = some acc →
    acc.allocation ≠ some id) : Follows cfg s e t where
  next := h.next
  noted acc id hacc hid := absurd hid (hno acc id hacc)
  others id hlt _ := .inl (h.memory id hlt)

theorem checkAuthorization_fresh {now : Nat} {msg : StunMessage} {data key nonce : List UInt8}
    (h : checkAuthorization cfg now (some a) msg data key = .ok nonce)
    (hotu : cfg.enableOtuNonce = true) : a.lastNonce ≠ nonce := by
  rw [checkAuthorization] at h
  split at h
  · cases h
  · split at h
    · split at h
      · cases h
      · split at h
        · cases h
        · split at h
          · cases h
          · rename_i hother
            obtain rfl := Except.ok.inj h
            intro hlast
            exact hother ⟨hotu, by rw [Option.map_some, hlast]⟩
    · cases h

theorem follows_none {conn : Connection} {data : List UInt8} {socket : Option SocketAddress} :
    Follows cfg s (.internalPacket conn none data socket)
      (s.onInternalPacket cfg conn none data socket).1 := by
  have hremembers : Remembers s (s.onInternalPacket cfg conn none data socket).1 := by
    cases hreq : requestIn data with
    | none => exact remembers_of_no_request hreq (fun _ h => nomatch h)
    | some msg =>
      rw [onInternalPacket_request hreq]
      dsimp only
      split
      · exact .refl s
      · exact remembers_handleAuthorized (fun _ h => nomatch h)
  refine hremembers.follows fun acc id hacc hid => ?_
  simp only [accepted] at hacc
  split at hacc
  · cases hacc
  · split at hacc
    · obtain rfl := Option.some.inj hacc
      cases hid
    · cases hacc

theorem follows_some {conn : Connection} {data : List UInt8} {socket : Option SocketAddress}
    (hlt : id < s.next) (ha : s.allocation id = some a) :
    Follows cfg s (.internalPacket conn (some id) data socket)
      (s.onInternalPacket cfg conn (some (id, a)) data socket).1 := by
  have hfound : ∀ entry, some (id, a) = some entry → s.allocation entry.1 = some entry.2 := by
    rintro _ ⟨⟩
    exact ha
  cases hreq : requestIn data with
  | none =>
    refine (remembers_of_no_request hreq hfound).follows fun acc j hacc => ?_
    simp only [accepted, hreq] at hacc
    cases hacc
  | some msg =>
    have hacc : accepted cfg s (.internalPacket conn (some id) data socket) =
        match checkAuthorization cfg s.now (some a) msg data a.key with
        | .ok nonce => some ⟨conn, some id, nonce⟩
        | .error _ => none := by
      simp only [accepted, hreq, Option.bind_some, ha]
    rw [onInternalPacket_request hreq]
    dsimp only [Option.map_some]
    cases hauth : checkAuthorization cfg s.now (some a) msg data a.key with
    | error output =>
      rw [hauth] at hacc
      refine (Remembers.refl s).follows fun acc j h => ?_
      rw [hacc] at h
      cases h
    | ok nonce =>
      rw [hauth] at hacc
      have hlast : (s.update id fun a => { a with lastNonce := nonce }).allocation id =
          some { a with lastNonce := nonce } := by
        rw [allocation_update, if_pos rfl, ha]
        rfl
      have hremembers : Remembers (s.update id fun a => { a with lastNonce := nonce })
          ((s.update id fun a => { a with lastNonce := nonce }).handleAuthorized cfg conn
            (some (id, { a with lastNonce := nonce })) msg data a.key socket).1 := by
        apply remembers_handleAuthorized
        rintro _ ⟨⟩
        exact hlast
      refine ⟨hremembers.next, ?_, ?_⟩
      · intro acc j h hj
        obtain rfl := Option.some.inj (hacc.symm.trans h)
        obtain rfl : id = j := Option.some.inj hj
        refine ⟨?_, a.lastNonce, by rw [memory, ha, Option.map_some], checkAuthorization_fresh hauth⟩
        rw [hremembers.memory id hlt, memory, hlast, Option.map_some]
      · intro j hlt hother
        have hne : ¬ j = id := fun h => hother _ hacc (by rw [h])
        rw [hremembers.memory j hlt, memory, allocation_update, if_neg hne]
        exact .inl rfl

theorem memory_filter (j : Nat) :
    ({ s with allocations := s.allocations.filter (·.1 ≠ id) } : TurnServer).memory j =
      if j = id then none else s.memory j := by
  by_cases hj : j = id
  · have hnone : (s.allocations.filter (·.1 ≠ id)).find? (·.1 = j) = none := by
      apply List.find?_eq_none.mpr
      intro entry hentry
      have hne := (List.mem_filter.mp hentry).2
      simpa [hj] using hne
    rw [if_pos hj, memory, allocation, hnone]
    rfl
  · have hsame : (s.allocations.filter (·.1 ≠ id)).find? (·.1 = j) =
        s.allocations.find? (·.1 = j) := by
      rw [List.find?_filter]
      congr
      funext entry
      by_cases hentry : entry.1 = j
      · simp [hentry, hj]
      · simp [hentry]
    rw [if_neg hj, memory, allocation, hsame, memory, allocation]

theorem follows_quiet (hacc : accepted cfg s e = none) (hnext : s.next ≤ t.next)
    (h : ∀ j < s.next, t.memory j = s.memory j ∨ t.memory j = none) : Follows cfg s e t where
  next := hnext
  noted acc j hsome := by
    rw [hacc] at hsome
    cases hsome
  others j hlt _ := h j hlt

theorem lt_next_of_memory (h : Inv cfg s) {last : List UInt8} (hid : s.memory id = some last) :
    id < s.next := by
  obtain ⟨a, ha, -⟩ := Option.map_eq_some_iff.mp hid
  exact h.lt_next _ (mem_of_allocation ha)

theorem follows_step (h : Inv cfg s) {outputs : List Output}
    (hstep : s.step cfg e = some (t, outputs)) : Follows cfg s e t := by
  cases e with
  | internalPacket conn found data socket =>
    cases found with
    | none =>
      simp only [TurnServer.step] at hstep
      split at hstep
      · have hfollows := @follows_none cfg s conn data socket
        rwa [Option.some.inj hstep] at hfollows
      · cases hstep
    | some id =>
      simp only [TurnServer.step] at hstep
      split at hstep
      · rename_i a ha
        split at hstep
        · have hfollows := @follows_some cfg s id a conn data socket
            (h.lt_next _ (mem_of_allocation ha)) ha
          rwa [Option.some.inj hstep] at hfollows
        · cases hstep
      · cases hstep
  | externalPacket id data addr transactionId =>
    simp only [TurnServer.step] at hstep
    split at hstep
    · split at hstep
      · obtain ⟨rfl, -⟩ := Prod.mk.inj (Option.some.inj hstep)
        exact follows_quiet rfl le_rfl fun _ _ => .inl rfl
      · cases hstep
    · cases hstep
  | advance time =>
    obtain ⟨rfl, -⟩ := Prod.mk.inj (Option.some.inj hstep)
    exact follows_quiet rfl le_rfl fun _ _ => .inl rfl
  | allocationTimeout id =>
    simp only [TurnServer.step] at hstep
    split at hstep
    · split at hstep
      · obtain ⟨rfl, -⟩ := Prod.mk.inj (Option.some.inj hstep)
        refine follows_quiet rfl le_rfl fun j _ => ?_
        rw [memory_filter]
        by_cases hj : j = id
        · exact .inr (if_pos hj)
        · exact .inl (if_neg hj)
      · cases hstep
    · cases hstep
  | permissionTimeout id peer =>
    simp only [TurnServer.step] at hstep
    split at hstep
    · split at hstep
      · obtain ⟨rfl, -⟩ := Prod.mk.inj (Option.some.inj hstep)
        exact follows_quiet rfl le_rfl fun j _ => .inl (memory_update _ fun _ => rfl)
      · cases hstep
    · cases hstep
  | channelTimeout id number =>
    simp only [TurnServer.step] at hstep
    split at hstep
    · split at hstep
      · obtain ⟨rfl, -⟩ := Prod.mk.inj (Option.some.inj hstep)
        exact follows_quiet rfl le_rfl fun j _ => .inl (memory_update _ fun _ => rfl)
      · cases hstep
    · cases hstep

end Memory

section Chain

variable {cfg : Settings} {s t : TurnServer} {id : Nat} {e : Event}

theorem noncesOn_accepted {acc : Acceptance} (hacc : accepted cfg s e = some acc)
    (hid : acc.allocation = some id) (l : List Acceptance) :
    noncesOn id ((accepted cfg s e).toList ++ l) = acc.nonce :: noncesOn id l := by
  simp [noncesOn, hacc, hid]

theorem noncesOn_other (hother : ∀ acc, accepted cfg s e = some acc → acc.allocation ≠ some id)
    (l : List Acceptance) :
    noncesOn id ((accepted cfg s e).toList ++ l) = noncesOn id l := by
  cases hacc : accepted cfg s e with
  | none => rfl
  | some acc => simp [noncesOn, hother acc hacc]

/-- The nonces of the requests to come on an allocation, after the one that is remembered.
An allocation that is gone gets no more. -/
structure Ahead (cfg : Settings) (s : TurnServer) (events : List Event) (id : Nat) : Prop where
  live : ∀ last, s.memory id = some last →
    (last :: noncesOn id (acceptances cfg s events)).IsChain (· ≠ ·)
  gone : id < s.next → s.memory id = none → noncesOn id (acceptances cfg s events) = []
  chain : (noncesOn id (acceptances cfg s events)).IsChain (· ≠ ·)

theorem ahead_of_reachable (hotu : cfg.enableOtuNonce = true) (hs : Reachable cfg s)
    (events : List Event) : Ahead cfg s events id := by
  induction events generalizing s with
  | nil => exact ⟨fun last _ => .singleton last, fun _ _ => rfl, .nil⟩
  | cons e rest ih =>
    cases hstep : s.step cfg e with
    | none =>
      have hnil : acceptances cfg s (e :: rest) = [] := by
        rw [acceptances, hstep]
      refine ⟨fun last _ => ?_, fun _ _ => ?_, ?_⟩
      · rw [hnil]
        exact .singleton last
      · rw [hnil]
        rfl
      · rw [hnil]
        exact .nil
    | some result =>
      obtain ⟨t, outputs⟩ := result
      have hinv := inv_of_reachable hs
      have hfollows := follows_step hinv hstep
      have hrest : Ahead cfg t rest id := ih (.step hs hstep)
      have hcons : acceptances cfg s (e :: rest) =
          (accepted cfg s e).toList ++ acceptances cfg t rest := by
        rw [acceptances, hstep]
      by_cases hmine : ∃ acc, accepted cfg s e = some acc ∧ acc.allocation = some id
      · obtain ⟨acc, hacc, hid⟩ := hmine
        obtain ⟨hnoted, last, hlast, hne⟩ := hfollows.noted acc id hacc hid
        have hchain := hrest.live acc.nonce hnoted
        have hnonces : noncesOn id (acceptances cfg s (e :: rest)) =
            acc.nonce :: noncesOn id (acceptances cfg t rest) := by
          rw [hcons, noncesOn_accepted hacc hid]
        refine ⟨fun last' hlast' => ?_, fun _ hgone => ?_, by rwa [hnonces]⟩
        · obtain rfl := Option.some.inj (hlast.symm.trans hlast')
          rw [hnonces]
          exact List.isChain_cons_cons.mpr ⟨hne hotu, hchain⟩
        · rw [hlast] at hgone
          cases hgone
      · have hother : ∀ acc, accepted cfg s e = some acc → acc.allocation ≠ some id :=
          fun acc hacc hid => hmine ⟨acc, hacc, hid⟩
        have hnonces : noncesOn id (acceptances cfg s (e :: rest)) =
            noncesOn id (acceptances cfg t rest) := by
          rw [hcons, noncesOn_other hother]
        refine ⟨fun last hlast => ?_, fun hlt hgone => ?_, by rw [hnonces]; exact hrest.chain⟩
        · have hlt := lt_next_of_memory hinv hlast
          rw [hnonces]
          rcases hfollows.others id hlt hother with hsame | hnone
          · exact hrest.live last (hsame.trans hlast)
          · rw [hrest.gone (hlt.trans_le hfollows.next) hnone]
            exact .singleton last
        · have hnone : t.memory id = none := by
            rcases hfollows.others id hlt hother with hsame | hnone
            · exact hsame.trans hgone
            · exact hnone
          rw [hnonces]
          exact hrest.gone (hlt.trans_le hfollows.next) hnone

/-- In every run two requests that follow each other on an allocation do not have the
same nonce. -/
theorem successive_nonces_differ (hotu : cfg.enableOtuNonce = true) (events : List Event) (id : Nat) :
    (noncesOn id (acceptances cfg {} events)).IsChain (· ≠ ·) :=
  (ahead_of_reachable hotu .initial events).chain

end Chain

def otuSettings : Settings := { plainSettings with enableOtuNonce := true }

/-- A request for a permission, with the nonce of a time. -/
def permissionRequest (time : Nat) : List UInt8 :=
  let peer := SocketAddress.ofIP (.inet 9) 2000
  let msg := [⟨stunAttrUsername, .byteString [117]⟩, ⟨stunAttrRealm, .byteString [114]⟩,
    ⟨stunAttrNonce, .byteString (generateNonce otuSettings time)⟩,
    ⟨stunAttrXorPeerAddress, .xorAddress peer⟩].foldl
      (fun (msg : StunMessage) (attr : StunAttribute) => withAttribute msg attr.type attr.value)
      { StunMessage.new .turn with
        type := turnCreatePermissionRequest, transactionId := List.replicate 12 7 }
  (msg.addMessageIntegrity otuSettings.computeHmac [1, 2]).1.write.getD []

/-- After an allocation with the nonce of time 0, requests with the nonces of other times. -/
def permissionRun (times : List Nat) : List Event :=
  let conn : Connection := ⟨.ofIP (.inet 1) 1000, .udp, 0⟩
  let allocate := signedRequest stunAllocateRequest ⟨stunAttrRequestedTransport, .uint32 0x11000000⟩
  [.advance 3, .internalPacket conn none allocate (some (.ofIP (.inet 2) 3000))] ++
    times.map fun time => .internalPacket conn (some 0) (permissionRequest time) none

set_option maxRecDepth 20000 in
theorem successive_nonces_differ_once :
    noncesOn 0 (acceptances otuSettings {} (permissionRun [1, 1, 2])) =
        [generateNonce otuSettings 1, generateNonce otuSettings 2] ∧
      (noncesOn 0 (acceptances otuSettings {} (permissionRun [1, 1, 2]))).IsChain (· ≠ ·) :=
  ⟨by decide +kernel, successive_nonces_differ rfl _ 0⟩

set_option maxRecDepth 20000 in
/-- The nonce of a request is accepted again after one with another. -/
theorem nonce_accepted_again : ¬ ∀ cfg : Settings, cfg.enableOtuNonce = true → ∀ events,
    (acceptances cfg {} events).Pairwise fun x y => x.conn.equal y.conn = true → x.nonce ≠ y.nonce := by
  intro h
  have hpair := h otuSettings rfl (permissionRun [1, 2, 1])
  exact absurd hpair (by decide +kernel)

end TurnServer

end Libjingle
