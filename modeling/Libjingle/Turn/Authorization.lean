import Libjingle.Turn.Server
import Mathlib.Data.List.Nodup

/-! What the server forwards was allowed by a request that was authorized: a packet
to a peer or from a peer needs a permission or a channel, and these come from
requests alone. -/

namespace Libjingle

open StunMessage

namespace TurnServer

namespace Request

def username (r : Request) : Option (List UInt8) := bytesOf r.msg stunAttrUsername

/-- The packet is a request with a valid nonce and MESSAGE-INTEGRITY under the key. -/
structure Passed (cfg : Settings) (r : Request) : Prop where
  reads : StunMessage.read .turn r.data = some r.msg
  request : isStunRequestType r.msg.type = true
  nonce : ∃ nonce, bytesOf r.msg stunAttrNonce = some nonce ∧ validateNonce cfg r.time nonce = true
  integrity : r.key ≠ [] ∧ validateMessageIntegrity cfg.computeHmac r.data r.key = true

def Accepted (r : Request) : Prop :=
  ∃ msg, .reply msg ∈ r.outputs ∧ some msg.type = getStunSuccessResponseType r.msg.type

/-- A request that names the address of a peer, and asks for a permission or a
channel. -/
def Permits (ip : IPAddress) (r : Request) : Prop :=
  (r.msg.type = turnCreatePermissionRequest ∨ r.msg.type = turnChannelBindRequest) ∧ r.Accepted ∧
    ∃ addr, peerOf r.msg = some addr ∧ addr.ip = ip

def Binds (number : Nat) (peer : SocketAddress) (r : Request) : Prop :=
  r.msg.type = turnChannelBindRequest ∧ r.Accepted ∧
    (∃ word, wordOf r.msg stunAttrChannelNumber = some word ∧ (word >>> 16).toNat = number) ∧
    ∃ addr, peerOf r.msg = some addr ∧ peer.equal addr = true

end Request

variable (cfg : Settings) (s : TurnServer)

/-- Within a time there was such a request to an allocation, under the key and the
username that it was created with. -/
def Authorized (id timeout : Nat) (P : Request → Prop) : Prop :=
  ∃ r ∈ s.record, ∃ c ∈ s.record, r.allocation = id ∧ c.allocation = id ∧ c.creates = true ∧
    r.Passed cfg ∧ c.Passed cfg ∧ r.key = c.key ∧ r.username = c.username ∧ P r ∧
    r.time ≤ s.now ∧ s.now ≤ r.time + timeout

def Justified (e : Event) : Output → Prop
  | .reply _ => True
  | .external _ peer => ∃ conn id packet socket a,
      e = .internalPacket conn (some id) packet socket ∧ s.allocation id = some a ∧
      a.conn.equal conn = true ∧
      if isTurnChannelData (getBE16 packet 0) then
        s.Authorized cfg id channelTimeout (Request.Binds (getBE16 packet 0).toNat peer)
      else s.Authorized cfg id permissionTimeout (Request.Permits peer.ip)
  | .dataIndication _ => ∃ id data addr transactionId a,
      e = .externalPacket id data addr transactionId ∧ s.allocation id = some a ∧
      s.Authorized cfg id permissionTimeout (Request.Permits addr.ip)
  | .channelData _ => ∃ id data addr transactionId a number peer,
      e = .externalPacket id data addr transactionId ∧ s.allocation id = some a ∧
      peer.equal addr = true ∧ s.Authorized cfg id channelTimeout (Request.Binds number peer)

/-- What an allocation grants, whatever nonce came last. -/
def Allocation.grants (a : Allocation) : Allocation := { a with lastNonce := [] }

def grants : List (Nat × Allocation) := s.allocations.map fun a => (a.1, a.2.grants)

/-- A packet changes nothing that is granted, or it is a request that passed and
changes what it was handed to. -/
def Guarded (t : TurnServer) (e : Event) : Prop :=
  (t.record = s.record ∧ t.grants = s.grants) ∨
  ∃ r conn found socket, e = .internalPacket conn found r.data socket ∧
    t.record = s.record ++ [r] ∧ r.Passed cfg ∧ r.time = s.now ∧
    ∀ a, a.1 ≠ r.allocation → (a ∈ t.grants ↔ a ∈ s.grants)

def Event.IsPacket : Event → Prop
  | .internalPacket .. | .externalPacket .. => True
  | _ => False

inductive Reachable : TurnServer → Prop
  | initial : Reachable {}
  | step {s t : TurnServer} {e : Event} {outputs : List Output} (hs : Reachable s)
      (hstep : step cfg s e = some (t, outputs)) : Reachable t

section Messages

variable {m : StunMessage} {type : UInt16}

@[simp] theorem type_withAttribute (value : StunAttributeValue) :
    (withAttribute m type value).type = m.type := by
  rw [withAttribute, addAttribute]
  split <;> rfl

@[simp] theorem type_addSoftware : (addSoftware cfg m).type = m.type := by
  rw [addSoftware]
  split
  · rfl
  · exact type_withAttribute _

@[simp] theorem type_addMessageIntegrity (key : List UInt8) :
    (m.addMessageIntegrity cfg.computeHmac key).1.type = m.type := by
  have hadded : ((m.addAttribute ⟨stunAttrMessageIntegrity,
      .byteString (List.replicate stunMessageIntegritySize 48)⟩).getD m).type = m.type :=
    type_withAttribute _
  rw [addMessageIntegrity]
  split
  · exact hadded
  · dsimp only
    split
    · exact hadded
    · exact hadded

theorem type_initResponse (h : isStunRequestType m.type = true) :
    some (initResponse m).type = getStunSuccessResponseType m.type := by
  rw [initResponse, getStunSuccessResponseType, if_pos h]

theorem success_ne_error {reqType : UInt16} (h : isStunRequestType reqType = true) :
    getStunSuccessResponseType reqType ≠ getStunErrorResponseType reqType := by
  have hmask : reqType &&& stunTypeMask = 0 := by simpa [isStunRequestType] using h
  have hclear := congrArg (fun x : UInt16 => x.toBitVec.getLsbD 4) hmask
  rw [getStunSuccessResponseType, getStunErrorResponseType, if_pos h, if_pos h]
  intro heq
  have hset := congrArg (fun x : UInt16 => x.toBitVec.getLsbD 4) (Option.some.inj heq)
  simp [stunTypeMask] at hclear hset
  rw [hset] at hclear
  cases hclear

theorem type_initErrorResponse (error : ErrorCode) (h : isStunRequestType m.type = true) :
    some (initErrorResponse m error).type = getStunErrorResponseType m.type := by
  rw [initErrorResponse, getStunErrorResponseType, if_pos h]
  exact congrArg some (type_withAttribute _)

end Messages

namespace Allocation

variable {cfg} {a : Allocation} {now : Nat} {msg : StunMessage}

theorem mem_addPermission {ip : IPAddress} {perm : Permission}
    (h : perm ∈ (a.addPermission now ip).perms) :
    perm ∈ a.perms ∨ perm = ⟨ip, now + permissionTimeout⟩ := by
  rw [addPermission] at h
  split at h
  · exact (List.mem_append.mp h).imp_right List.mem_singleton.mp
  · rename_i found hfind
    obtain ⟨p, hp, rfl⟩ := List.mem_map.mp h
    have hpeer : found.peer = ip := by simpa using List.find?_some hfind
    split
    · rename_i hsame
      rw [hsame, hpeer]
      exact .inr rfl
    · exact .inl hp

theorem mem_addChannel {id : Nat} {addr : SocketAddress} {channel : Channel}
    (hsame : a.findChannelById id = a.findChannelByPeer addr)
    (h : channel ∈ (a.addChannel now id addr).channels) :
    channel ∈ a.channels ∨
      (channel.id = id ∧ channel.peer.equal addr = true ∧ channel.expires = now + channelTimeout) := by
  rw [addChannel] at h
  split at h
  · rcases List.mem_append.mp h with hmem | hmem
    · exact .inl hmem
    · rw [List.mem_singleton.mp hmem]
      exact .inr ⟨rfl, SocketAddress.equal_refl addr, rfl⟩
  · rename_i found hfind
    obtain ⟨c, hc, rfl⟩ := List.mem_map.mp h
    have hid : found.id = id := by simpa using List.find?_some hfind
    have hfindPeer : a.channels.find? (fun c => c.peer.equal addr) = some found :=
      hsame.symm.trans hfind
    have hpeer := List.find?_some hfindPeer
    split
    · rename_i hfound
      rw [hfound]
      exact .inr ⟨hid, hpeer, rfl⟩
    · exact .inl hc

theorem channels_addPermission (ip : IPAddress) :
    (a.addPermission now ip).channels = a.channels := by
  rw [addPermission]
  split <;> rfl

theorem perms_addChannel (id : Nat) (addr : SocketAddress) :
    (a.addChannel now id addr).perms = a.perms := by
  rw [addChannel]
  split <;> rfl

/-- The fields that no permission and no channel changes. -/
def identity (a : Allocation) :=
  (a.conn, a.relayed, a.key, a.transactionId, a.username, a.lastNonce, a.timeouts)

theorem identity_addPermission (ip : IPAddress) :
    (a.addPermission now ip).identity = a.identity := by
  rw [addPermission]
  split <;> rfl

theorem identity_addChannel (id : Nat) (addr : SocketAddress) :
    (a.addChannel now id addr).identity = a.identity := by
  rw [addChannel]
  split <;> rfl

/-- What an allocation makes of a message, as far as `r` is what is put on record. -/
structure Handles (a a' : Allocation) (r : Request) : Prop where
  conn : a'.conn = a.conn
  key : a'.key = a.key
  lastNonce : a'.lastNonce = a.lastNonce
  username : a'.username = a.username ∨
    r.msg.type = stunAllocateRequest ∧ a'.username = r.username.getD a.username
  perms : ∀ perm ∈ a'.perms, perm ∈ a.perms ∨
    (r.Permits perm.peer ∧ perm.expires = r.time + permissionTimeout)
  channels : ∀ channel ∈ a'.channels, channel ∈ a.channels ∨
    (r.Binds channel.id channel.peer ∧ channel.expires = r.time + channelTimeout)
  frame : isStunRequestType r.msg.type = false → a' = a
  outputs : ∀ output ∈ r.outputs, (∃ msg, output = .reply msg) ∨
    ∃ data peer, output = .external data peer ∧ a.hasPermission peer.ip = true ∧
      isStunRequestType r.msg.type = false

theorem handles_of_reply {r : Request} {msg : StunMessage} (h : r.outputs = [.reply msg]) :
    Handles a a r where
  conn := rfl
  key := rfl
  lastNonce := rfl
  username := .inl rfl
  perms _ hperm := .inl hperm
  channels _ hchannel := .inl hchannel
  frame _ := rfl
  outputs output houtput := by
    rw [h] at houtput
    exact .inl ⟨msg, List.mem_singleton.mp houtput⟩

theorem accepted_of_sendResponse {r : Request} {m : StunMessage} (a : Allocation)
    (hreq : isStunRequestType r.msg.type = true) (hm : m.type = (initResponse r.msg).type)
    (h : r.outputs = [a.sendResponse cfg m]) : r.Accepted := by
  refine ⟨addSoftware cfg (m.addMessageIntegrity cfg.computeHmac a.key).1, ?_, ?_⟩
  · rw [h, sendResponse]
    exact List.mem_singleton.mpr rfl
  · rw [type_addSoftware, type_addMessageIntegrity, hm]
    exact type_initResponse hreq

theorem reply_of_sendResponse {outputs : List Output} {m : StunMessage} (a : Allocation)
    (h : outputs = [a.sendResponse cfg m]) : ∀ output ∈ outputs, ∃ msg, output = .reply msg := by
  intro output houtput
  rw [h] at houtput
  exact ⟨_, List.mem_singleton.mp houtput⟩

theorem handles_createPermission {r : Request}
    (htype : r.msg.type = turnCreatePermissionRequest)
    (h : r.outputs = (a.handleCreatePermissionRequest cfg r.time r.msg).2) :
    Handles a (a.handleCreatePermissionRequest cfg r.time r.msg).1 r := by
  have hreq : isStunRequestType r.msg.type = true := by
    rw [htype]
    decide
  rw [handleCreatePermissionRequest] at h ⊢
  split at h
  · exact handles_of_reply h
  · rename_i peer hpeer
    have hid : (a.addPermission r.time peer.ip).identity = a.identity :=
      a.identity_addPermission peer.ip
    simp only [identity, Prod.mk.injEq] at hid
    refine ⟨hid.1, hid.2.2.1, hid.2.2.2.2.2.1, .inl hid.2.2.2.2.1, ?_, ?_, ?_, ?_⟩
    · intro perm hperm
      rcases mem_addPermission hperm with hmem | rfl
      · exact .inl hmem
      · exact .inr ⟨⟨.inl htype, accepted_of_sendResponse a hreq rfl h, peer, hpeer, rfl⟩, rfl⟩
    · intro channel hchannel
      exact .inl (by rwa [channels_addPermission] at hchannel)
    · intro hno
      rw [hreq] at hno
      cases hno
    · exact fun output houtput => .inl (reply_of_sendResponse a h output houtput)

theorem handles_channelBind {r : Request} (htype : r.msg.type = turnChannelBindRequest)
    (h : r.outputs = (a.handleChannelBindRequest cfg r.time r.msg).2) :
    Handles a (a.handleChannelBindRequest cfg r.time r.msg).1 r := by
  have hreq : isStunRequestType r.msg.type = true := by
    rw [htype]
    decide
  rw [handleChannelBindRequest] at h ⊢
  split at h
  · rename_i number peer hnumber hpeer
    dsimp only at h ⊢
    split at h
    · rename_i hbad
      rw [if_pos hbad]
      exact handles_of_reply h
    · rename_i hgood
      rw [if_neg hgood]
      split at h
      · rename_i hbad
        rw [if_pos hbad]
        exact handles_of_reply h
      · rename_i hsame
        rw [if_neg hsame]
        have haccepted : r.Accepted := accepted_of_sendResponse a hreq rfl h
        have hid : ((a.addChannel r.time (number >>> 16).toNat peer).addPermission r.time
            peer.ip).identity = a.identity :=
          (identity_addPermission peer.ip).trans (identity_addChannel _ peer)
        simp only [identity, Prod.mk.injEq] at hid
        refine ⟨hid.1, hid.2.2.1, hid.2.2.2.2.2.1, .inl hid.2.2.2.2.1, ?_, ?_, ?_, ?_⟩
        · intro perm hperm
          rcases mem_addPermission hperm with hmem | rfl
          · exact .inl (by rwa [perms_addChannel] at hmem)
          · exact .inr ⟨⟨.inr htype, haccepted, peer, hpeer, rfl⟩, rfl⟩
        · intro channel hchannel
          rw [channels_addPermission] at hchannel
          rcases mem_addChannel (not_not.mp hsame) hchannel with hmem | ⟨hid, hequal, hexpires⟩
          · exact .inl hmem
          · exact .inr ⟨⟨htype, haccepted, ⟨number, hnumber, hid.symm⟩, peer, hpeer, hequal⟩, hexpires⟩
        · intro hno
          rw [hreq] at hno
          cases hno
        · exact fun output houtput => .inl (reply_of_sendResponse a h output houtput)
  · exact handles_of_reply h

theorem handles_sendIndication {r : Request} (htype : r.msg.type = turnSendIndication)
    (h : r.outputs = a.handleSendIndication r.msg) : Handles a a r where
  conn := rfl
  key := rfl
  lastNonce := rfl
  username := .inl rfl
  perms _ hperm := .inl hperm
  channels _ hchannel := .inl hchannel
  frame _ := rfl
  outputs output houtput := by
    have hreq : isStunRequestType r.msg.type = false := by
      rw [htype]
      decide
    rw [h, handleSendIndication] at houtput
    split at houtput
    · rename_i data peer hdata hpeer
      split at houtput
      · rename_i hperm
        exact .inr ⟨data, peer, List.mem_singleton.mp houtput, hperm, hreq⟩
      · cases houtput
    · cases houtput

theorem handles_handleTurnMessage {r : Request}
    (h : r.outputs = (a.handleTurnMessage cfg r.time r.msg).2) :
    Handles a (a.handleTurnMessage cfg r.time r.msg).1 r := by
  rw [handleTurnMessage] at h ⊢
  split at h
  · rename_i htype
    have hreq : isStunRequestType r.msg.type = true := by
      rw [htype]
      decide
    rw [if_pos htype]
    refine ⟨rfl, rfl, rfl, .inr ⟨htype, rfl⟩, fun _ hperm => .inl hperm,
      fun _ hchannel => .inl hchannel, fun hno => ?_,
      fun output houtput => .inl (reply_of_sendResponse _ h output houtput)⟩
    rw [hreq] at hno
    cases hno
  · rename_i hallocate
    rw [if_neg hallocate]
    split at h
    · rename_i htype
      have hreq : isStunRequestType r.msg.type = true := by
        rw [htype]
        decide
      rw [if_pos htype]
      refine ⟨rfl, rfl, rfl, .inl rfl, fun _ hperm => .inl hperm,
        fun _ hchannel => .inl hchannel, fun hno => ?_,
        fun output houtput => .inl (reply_of_sendResponse _ h output houtput)⟩
      rw [hreq] at hno
      cases hno
    · rename_i hrefresh
      rw [if_neg hrefresh]
      split at h
      · rename_i htype
        rw [if_pos htype]
        exact handles_sendIndication htype h
      · rename_i hsend
        rw [if_neg hsend]
        split at h
        · rename_i htype
          rw [if_pos htype]
          exact handles_createPermission htype h
        · rename_i hcreate
          rw [if_neg hcreate]
          split at h
          · rename_i htype
            rw [if_pos htype]
            exact handles_channelBind htype h
          · rename_i hbind
            rw [if_neg hbind]
            refine ⟨rfl, rfl, rfl, .inl rfl, fun _ hperm => .inl hperm,
              fun _ hchannel => .inl hchannel, fun _ => rfl, fun output houtput => ?_⟩
            rw [h] at houtput
            cases houtput

end Allocation

/-- The record tells who created an allocation and what each of its permissions and
channels goes back to. -/
structure Backed (record : List Request) (id : Nat) (a : Allocation) : Prop where
  created : ∃ c ∈ record, c.allocation = id ∧ c.creates = true ∧ c.key = a.key ∧
    c.username = some a.username
  perms : ∀ perm ∈ a.perms, ∃ r ∈ record, r.allocation = id ∧ r.key = a.key ∧
    r.username = some a.username ∧ r.Permits perm.peer ∧ perm.expires = r.time + permissionTimeout
  channels : ∀ channel ∈ a.channels, ∃ r ∈ record, r.allocation = id ∧ r.key = a.key ∧
    r.username = some a.username ∧ r.Binds channel.id channel.peer ∧
    channel.expires = r.time + channelTimeout

structure Inv (cfg : Settings) (s : TurnServer) : Prop where
  nodup : (s.allocations.map Prod.fst).Nodup
  lt_next : ∀ a ∈ s.allocations, a.1 < s.next
  passed : ∀ r ∈ s.record, r.Passed cfg ∧ r.time ≤ s.now
  backed : ∀ a ∈ s.allocations, Backed s.record a.1 a.2

variable {cfg} {s} {id : Nat} {a b : Allocation} {record : List Request}

theorem Backed.mono (h : Backed record id a) (more : List Request) : Backed (record ++ more) id a where
  created := by
    obtain ⟨c, hc, hfacts⟩ := h.created
    exact ⟨c, List.mem_append_left _ hc, hfacts⟩
  perms perm hperm := by
    obtain ⟨r, hr, hfacts⟩ := h.perms perm hperm
    exact ⟨r, List.mem_append_left _ hr, hfacts⟩
  channels channel hchannel := by
    obtain ⟨r, hr, hfacts⟩ := h.channels channel hchannel
    exact ⟨r, List.mem_append_left _ hr, hfacts⟩

theorem Backed.of_subset (h : Backed record id a) (hkey : b.key = a.key)
    (husername : b.username = a.username) (hperms : ∀ perm ∈ b.perms, perm ∈ a.perms)
    (hchannels : ∀ channel ∈ b.channels, channel ∈ a.channels) : Backed record id b where
  created := by
    rw [hkey, husername]
    exact h.created
  perms perm hperm := by
    rw [hkey, husername]
    exact h.perms perm (hperms perm hperm)
  channels channel hchannel := by
    rw [hkey, husername]
    exact h.channels channel (hchannels channel hchannel)

theorem Backed.handled {r : Request} (h : Backed record r.allocation a)
    (hh : Allocation.Handles a b r) (hkey : r.key = a.key) (husername : r.username = some a.username) :
    Backed (record ++ [r]) r.allocation b := by
  have hb : b.username = a.username := by
    rcases hh.username with hsame | ⟨-, hset⟩
    · exact hsame
    · rw [hset, husername, Option.getD_some]
  have hlast : r ∈ record ++ [r] := List.mem_append_right _ List.mem_cons_self
  have hmono := h.mono [r]
  refine ⟨?_, fun perm hperm => ?_, fun channel hchannel => ?_⟩
  · rw [hh.key, hb]
    exact hmono.created
  · rw [hh.key, hb]
    rcases hh.perms perm hperm with hold | ⟨hpermits, hexpires⟩
    · exact hmono.perms perm hold
    · exact ⟨r, hlast, rfl, hkey, husername, hpermits, hexpires⟩
  · rw [hh.key, hb]
    rcases hh.channels channel hchannel with hold | ⟨hbinds, hexpires⟩
    · exact hmono.channels channel hold
    · exact ⟨r, hlast, rfl, hkey, husername, hbinds, hexpires⟩

theorem mem_of_allocation (h : s.allocation id = some a) : (id, a) ∈ s.allocations := by
  obtain ⟨entry, hfind, rfl⟩ := Option.map_eq_some_iff.mp h
  have hid : entry.1 = id := by simpa using List.find?_some hfind
  rw [← hid]
  exact List.mem_of_find?_eq_some hfind

theorem mem_update {f : Allocation → Allocation} {entry : Nat × Allocation}
    (h : entry ∈ (s.update id f).allocations) :
    (entry ∈ s.allocations ∧ entry.1 ≠ id) ∨ ∃ a, (id, a) ∈ s.allocations ∧ entry = (id, f a) := by
  obtain ⟨before, hmem, rfl⟩ := List.mem_map.mp h
  split
  · rename_i hid
    exact .inr ⟨before.2, by rw [← hid]; exact hmem, rfl⟩
  · rename_i hid
    exact .inl ⟨hmem, hid⟩

theorem ids_update (f : Allocation → Allocation) :
    (s.update id f).allocations.map Prod.fst = s.allocations.map Prod.fst := by
  rw [TurnServer.update, List.map_map]
  refine List.map_congr_left fun entry _ => ?_
  simp only [Function.comp_apply]
  split
  · rename_i hid
    exact hid.symm
  · rfl

theorem lt_next_update (h : ∀ a ∈ s.allocations, a.1 < s.next) (f : Allocation → Allocation) :
    ∀ a ∈ (s.update id f).allocations, a.1 < s.next := by
  intro entry hentry
  rcases mem_update hentry with ⟨hmem, -⟩ | ⟨a, hmem, rfl⟩
  · exact h entry hmem
  · exact h (id, a) hmem

theorem Inv.update (h : Inv cfg s) {f : Allocation → Allocation}
    (hf : ∀ a, (id, a) ∈ s.allocations → Backed s.record id (f a)) : Inv cfg (s.update id f) := by
  refine ⟨?_, lt_next_update h.lt_next f, h.passed, fun entry hentry => ?_⟩
  · rw [ids_update]
    exact h.nodup
  · rcases mem_update hentry with ⟨hmem, -⟩ | ⟨a, hmem, rfl⟩
    · exact h.backed entry hmem
    · exact hf a hmem

theorem Inv.update_self (h : Inv cfg s) (ha : s.allocation id = some a) :
    s.update id (fun _ => a) = s := by
  have hmem := mem_of_allocation ha
  have hallocations : (s.update id fun _ => a).allocations = s.allocations := by
    refine (List.map_congr_left fun entry hentry => ?_).trans (List.map_id _)
    split
    · rename_i hid
      exact List.inj_on_of_nodup_map h.nodup hmem hentry hid.symm
    · rfl
  rw [TurnServer.update] at hallocations ⊢
  exact congrArg (fun l => { s with allocations := l }) hallocations

theorem mem_grants_update {f : Allocation → Allocation} {entry : Nat × Allocation}
    (hid : entry.1 ≠ id) : entry ∈ (s.update id f).grants ↔ entry ∈ s.grants := by
  simp only [grants, TurnServer.update, List.map_map, List.mem_map, Function.comp_apply]
  constructor
  · rintro ⟨before, hmem, rfl⟩
    refine ⟨before, hmem, ?_⟩
    split at hid
    · exact absurd rfl hid
    · rename_i hne
      rw [if_neg hne]
  · rintro ⟨before, hmem, rfl⟩
    exact ⟨before, hmem, by rw [if_neg hid]⟩

theorem grants_update {f : Allocation → Allocation} (hf : ∀ a, (f a).grants = a.grants) :
    (s.update id f).grants = s.grants := by
  simp only [grants, TurnServer.update, List.map_map]
  refine List.map_congr_left fun entry _ => ?_
  simp only [Function.comp_apply]
  split
  · rename_i hid
    rw [hf, hid]
  · rfl

theorem Inv.authorized_of_permission (h : Inv cfg s) (hon : s.OnTime) (ha : s.allocation id = some a)
    {ip : IPAddress} (hperm : a.hasPermission ip = true) :
    s.Authorized cfg id permissionTimeout (Request.Permits ip) := by
  have hmem := mem_of_allocation ha
  obtain ⟨perm, hfind⟩ := Option.isSome_iff_exists.mp hperm
  have hin := List.mem_of_find?_eq_some hfind
  have hpeer : perm.peer = ip := by simpa using List.find?_some hfind
  obtain ⟨r, hr, hid, hkey, husername, hpermits, hexpires⟩ := (h.backed _ hmem).perms perm hin
  obtain ⟨c, hc, hcid, hcreates, hckey, hcusername⟩ := (h.backed _ hmem).created
  have htime := (hon _ hmem).2.1 perm hin
  exact ⟨r, hr, c, hc, hid, hcid, hcreates, (h.passed r hr).1, (h.passed c hc).1,
    hkey.trans hckey.symm, husername.trans hcusername.symm, hpeer ▸ hpermits, (h.passed r hr).2,
    hexpires ▸ htime⟩

theorem Inv.authorized_of_channel (h : Inv cfg s) (hon : s.OnTime) (ha : s.allocation id = some a)
    {channel : Channel} (hin : channel ∈ a.channels) :
    s.Authorized cfg id channelTimeout (Request.Binds channel.id channel.peer) := by
  have hmem := mem_of_allocation ha
  obtain ⟨r, hr, hid, hkey, husername, hbinds, hexpires⟩ := (h.backed _ hmem).channels channel hin
  obtain ⟨c, hc, hcid, hcreates, hckey, hcusername⟩ := (h.backed _ hmem).created
  have htime := (hon _ hmem).2.2 channel hin
  exact ⟨r, hr, c, hc, hid, hcid, hcreates, (h.passed r hr).1, (h.passed c hc).1,
    hkey.trans hckey.symm, husername.trans hcusername.symm, hbinds, (h.passed r hr).2,
    hexpires ▸ htime⟩

structure Good (cfg : Settings) (s : TurnServer) (e : Event) (result : TurnServer × List Output) :
    Prop where
  inv : Inv cfg result.1
  guarded : s.Guarded cfg result.1 e
  justified : ∀ output ∈ result.2, s.Justified cfg e output

theorem justified_reply {e : Event} {output : Output} (h : ∃ msg, output = .reply msg) :
    s.Justified cfg e output := by
  obtain ⟨msg, rfl⟩ := h
  trivial

theorem good_of_reply {t : TurnServer} {e : Event} (ht : Inv cfg t)
    (hrecord : t.record = s.record) (hgrants : t.grants = s.grants) (msg : StunMessage) :
    Good cfg s e (t, [.reply msg]) where
  inv := ht
  guarded := .inl ⟨hrecord, hgrants⟩
  justified _ houtput := justified_reply ⟨msg, List.mem_singleton.mp houtput⟩

theorem checkAuthorization_error {now : Nat} {found : Option Allocation} {msg : StunMessage}
    {data key : List UInt8} {output : Output}
    (h : checkAuthorization cfg now found msg data key = .error output) :
    ∃ m, output = .reply m := by
  rw [checkAuthorization] at h
  split at h
  · exact ⟨_, (Except.error.inj h).symm⟩
  · split at h
    · split at h
      · exact ⟨_, (Except.error.inj h).symm⟩
      · split at h
        · exact ⟨_, (Except.error.inj h).symm⟩
        · split at h
          · exact ⟨_, (Except.error.inj h).symm⟩
          · cases h
    · exact ⟨_, (Except.error.inj h).symm⟩

theorem checkAuthorization_ok {now : Nat} {found : Option Allocation} {msg : StunMessage}
    {data key nonce : List UInt8} (h : checkAuthorization cfg now found msg data key = .ok nonce) :
    bytesOf msg stunAttrNonce = some nonce ∧ validateNonce cfg now nonce = true ∧ key ≠ [] ∧
      validateMessageIntegrity cfg.computeHmac data key = true ∧
      ∃ username, bytesOf msg stunAttrUsername = some username := by
  rw [checkAuthorization] at h
  split at h
  · cases h
  · split at h
    · rename_i username _ value husername _ hvalue
      split at h
      · cases h
      · rename_i hnonce
        split at h
        · cases h
        · rename_i hkey
          rw [not_or] at hkey
          split at h
          · cases h
          · obtain rfl := Except.ok.inj h
            exact ⟨hvalue, Bool.not_eq_false _ ▸ hnonce, hkey.1, Bool.not_eq_false _ ▸ hkey.2,
              username, husername⟩
    · cases h

def requestOf (cfg : Settings) (now id : Nat) (a : Allocation) (msg : StunMessage)
    (data : List UInt8) (creates : Bool) : Request :=
  ⟨id, now, data, msg, a.key, creates, (a.handleTurnMessage cfg now msg).2⟩

theorem dispatch_request {msg : StunMessage} {data : List UInt8} {creates : Bool}
    (hreq : isStunRequestType msg.type = true) :
    s.dispatch cfg id a msg data creates =
      ({ s.update id fun _ => (a.handleTurnMessage cfg s.now msg).1 with
          record := s.record ++ [requestOf cfg s.now id a msg data creates] },
        (a.handleTurnMessage cfg s.now msg).2) :=
  if_pos hreq

theorem dispatch_other {msg : StunMessage} {data : List UInt8} {creates : Bool}
    (hreq : isStunRequestType msg.type = false) :
    s.dispatch cfg id a msg data creates =
      (s.update id fun _ => (a.handleTurnMessage cfg s.now msg).1,
        (a.handleTurnMessage cfg s.now msg).2) :=
  if_neg (by simp [hreq])

section Packet

variable {u : TurnServer} {msg : StunMessage} {data key : List UInt8} {conn : Connection}
  {found : Option Nat} {socket : Option SocketAddress} {creates : Bool}

/-- A request that passed is handled. The state it is handled in differs from the
one the packet came to in the allocation alone. -/
theorem Inv.good_of_request (h : Inv cfg s) (hnow : u.now = s.now) (hrecord : u.record = s.record)
    (hnodup : (u.allocations.map Prod.fst).Nodup) (hnext : ∀ a ∈ u.allocations, a.1 < u.next)
    (hothers : ∀ entry ∈ u.allocations, entry.1 ≠ id → Backed s.record entry.1 entry.2)
    (hgrants : ∀ entry : Nat × Allocation, entry.1 ≠ id → (entry ∈ u.grants ↔ entry ∈ s.grants))
    (hpassed : (requestOf cfg s.now id a msg data creates).Passed cfg)
    (hbacked : Backed (s.record ++ [requestOf cfg s.now id a msg data creates]) id
      (a.handleTurnMessage cfg s.now msg).1) :
    Good cfg s (.internalPacket conn found data socket) (u.dispatch cfg id a msg data creates) := by
  have hreq : isStunRequestType msg.type = true := hpassed.request
  let f : Allocation → Allocation := fun _ => (a.handleTurnMessage cfg s.now msg).1
  rw [dispatch_request hreq, hnow, hrecord]
  refine ⟨⟨?_, ?_, fun r hr => ?_, fun entry hentry => ?_⟩, ?_, fun output houtput => ?_⟩
  · change ((u.update id f).allocations.map Prod.fst).Nodup
    rw [ids_update]
    exact hnodup
  · exact lt_next_update hnext f
  · change r.Passed cfg ∧ r.time ≤ u.now
    rw [hnow]
    rcases List.mem_append.mp hr with hr | hr
    · exact h.passed r hr
    · rw [List.mem_singleton.mp hr]
      exact ⟨hpassed, le_rfl⟩
  · rcases mem_update (f := f) hentry with ⟨hmem, hid⟩ | ⟨_, -, rfl⟩
    · exact (hothers entry hmem hid).mono _
    · exact hbacked
  · refine .inr ⟨requestOf cfg s.now id a msg data creates, conn, found, socket, rfl, rfl, hpassed,
      rfl, fun entry hid => ?_⟩
    rw [← hgrants entry hid]
    exact mem_grants_update (s := u) (f := f) hid
  · have hh : Allocation.Handles a _ (requestOf cfg s.now id a msg data creates) :=
      Allocation.handles_handleTurnMessage rfl
    rcases hh.outputs output houtput with hreply | ⟨_, _, _, _, hno⟩
    · exact justified_reply hreply
    · exact absurd (hreq.symm.trans hno) Bool.noConfusion

theorem backed_allocate (hfresh : a.perms = [] ∧ a.channels = [])
    (htype : msg.type = stunAllocateRequest)
    (husername : ∃ username, bytesOf msg stunAttrUsername = some username) :
    Backed (record ++ [requestOf cfg s.now id a msg data true]) id
      (a.handleTurnMessage cfg s.now msg).1 := by
  obtain ⟨username, husername⟩ := husername
  have hhandle : a.handleTurnMessage cfg s.now msg = a.handleAllocateRequest cfg s.now msg :=
    if_pos htype
  rw [hhandle]
  refine ⟨⟨_, List.mem_append_right _ List.mem_cons_self, rfl, rfl, rfl, ?_⟩, ?_, ?_⟩
  · change bytesOf msg stunAttrUsername = some ((bytesOf msg stunAttrUsername).getD a.username)
    rw [husername, Option.getD_some]
  · intro perm hperm
    exact absurd hperm (by simp [Allocation.handleAllocateRequest, hfresh.1])
  · intro channel hchannel
    exact absurd hchannel (by simp [Allocation.handleAllocateRequest, hfresh.2])

theorem Inv.good_allocate (h : Inv cfg s) (htype : msg.type = stunAllocateRequest)
    (hread : StunMessage.read .turn data = some msg)
    (hnonce : ∃ nonce, bytesOf msg stunAttrNonce = some nonce ∧ validateNonce cfg s.now nonce = true)
    (hkey : key ≠ [] ∧ validateMessageIntegrity cfg.computeHmac data key = true)
    (husername : ∃ username, bytesOf msg stunAttrUsername = some username) :
    Good cfg s (.internalPacket conn found data socket)
      (s.handleAllocateRequest cfg conn msg data key socket) := by
  unfold handleAllocateRequest
  split
  · exact good_of_reply h rfl rfl _
  · split
    · exact good_of_reply h rfl rfl _
    · split
      · exact good_of_reply h rfl rfl _
      · rename_i relayed
        have hpassed : (requestOf cfg s.now s.next { conn := conn, relayed := relayed, key := key }
            msg data true).Passed cfg :=
          ⟨hread, by rw [requestOf, htype]; decide, hnonce, hkey⟩
        refine h.good_of_request rfl rfl ?_ ?_ (fun entry hentry hid => ?_) (fun entry hid => ?_)
          hpassed (backed_allocate ⟨rfl, rfl⟩ htype husername)
        · rw [List.map_append, List.nodup_append]
          refine ⟨h.nodup, List.nodup_singleton _, fun x hx y hy hxy => ?_⟩
          obtain ⟨entry, hentry, hfst⟩ := List.mem_map.mp hx
          have hnext : entry.1 = s.next := hfst.trans (hxy.trans (List.mem_singleton.mp hy))
          exact (h.lt_next entry hentry).ne hnext
        · intro entry hentry
          rcases List.mem_append.mp hentry with hentry | hentry
          · exact (h.lt_next entry hentry).trans (Nat.lt_succ_self _)
          · rw [List.mem_singleton.mp hentry]
            exact Nat.lt_succ_self _
        · rcases List.mem_append.mp hentry with hentry | hentry
          · exact h.backed entry hentry
          · rw [List.mem_singleton.mp hentry] at hid
            exact absurd rfl hid
        · rw [grants, grants, List.map_append, List.mem_append, or_iff_left]
          intro hlast
          obtain rfl := List.mem_singleton.mp hlast
          exact absurd rfl hid

theorem Inv.good_found (h : Inv cfg s) (ha : s.allocation id = some a) (nonce : List UInt8)
    (hread : StunMessage.read .turn data = some msg) (hreq : isStunRequestType msg.type = true)
    (hnonce : ∃ nonce, bytesOf msg stunAttrNonce = some nonce ∧ validateNonce cfg s.now nonce = true)
    (hkey : a.key ≠ [] ∧ validateMessageIntegrity cfg.computeHmac data a.key = true) :
    Good cfg s (.internalPacket conn found data socket)
      ((s.update id fun a => { a with lastNonce := nonce }).handleAuthorized cfg conn
        (some (id, { a with lastNonce := nonce })) msg data key socket) := by
  have hupdate : Inv cfg (s.update id fun a => { a with lastNonce := nonce }) :=
    h.update fun b hb => (h.backed _ hb).of_subset rfl rfl (fun _ hp => hp) fun _ hc => hc
  have hgrants : (s.update id fun a => { a with lastNonce := nonce }).grants = s.grants :=
    grants_update fun _ => rfl
  rw [handleAuthorized]
  dsimp only
  split
  · split
    · exact good_of_reply (s := s) hupdate rfl hgrants _
    · rename_i husername
      rw [not_and, not_not] at husername
      have hbacked : Backed s.record id { a with lastNonce := nonce } :=
        (h.backed _ (mem_of_allocation ha)).of_subset rfl rfl (fun _ hp => hp) fun _ hc => hc
      have hhandled := hbacked.handled (r := requestOf cfg s.now id { a with lastNonce := nonce }
        msg data false) (Allocation.handles_handleTurnMessage rfl) rfl (husername hreq)
      exact h.good_of_request rfl rfl hupdate.nodup hupdate.lt_next
        (fun entry hentry _ => hupdate.backed entry hentry) (fun entry _ => by rw [hgrants])
        ⟨hread, hreq, hnonce, hkey⟩ hhandled
  · exact good_of_reply (s := s) hupdate rfl hgrants _

theorem Inv.good_indication (h : Inv cfg s) (hon : s.OnTime) (ha : s.allocation id = some a)
    (hconn : a.conn.equal conn = true) (hchannel : isTurnChannelData (getBE16 data 0) = false)
    (hreq : isStunRequestType msg.type = false) :
    Good cfg s (.internalPacket conn (some id) data socket)
      (s.handleAuthorized cfg conn (some (id, a)) msg data key socket) := by
  rw [handleAuthorized]
  split
  · rw [if_neg (by simp [hreq]), dispatch_other hreq]
    have hh : Allocation.Handles a _ (requestOf cfg s.now id a msg data false) :=
      Allocation.handles_handleTurnMessage rfl
    have hsame : (a.handleTurnMessage cfg s.now msg).1 = a := hh.frame hreq
    rw [hsame, h.update_self ha]
    refine ⟨h, .inl ⟨rfl, rfl⟩, fun output houtput => ?_⟩
    · rcases hh.outputs output houtput with hreply | ⟨packet, peer, rfl, hperm, -⟩
      · exact justified_reply hreply
      · refine ⟨conn, id, data, socket, a, rfl, ha, hconn, ?_⟩
        rw [hchannel]
        exact h.authorized_of_permission hon ha hperm
  · exact good_of_reply h rfl rfl _

theorem Inv.good_ignored (h : Inv cfg s) (e : Event) : Good cfg s e (s, []) where
  inv := h
  guarded := .inl ⟨rfl, rfl⟩
  justified _ houtput := absurd houtput List.not_mem_nil

theorem Inv.good_stun_none (h : Inv cfg s) :
    Good cfg s (.internalPacket conn none data socket)
      (s.handleStunMessage cfg conn none data socket) := by
  rw [handleStunMessage]
  split
  · exact h.good_ignored _
  · rename_i msg hread
    split
    · exact good_of_reply h rfl rfl _
    · dsimp only
      split
      · rename_i hreq
        split
        · rename_i output hauth
          obtain ⟨m, rfl⟩ := checkAuthorization_error hauth
          exact good_of_reply h rfl rfl m
        · rename_i nonce hauth
          obtain ⟨hnonce, hvalid, hkey, hintegrity, husername⟩ := checkAuthorization_ok hauth
          rw [handleAuthorized]
          split
          · rename_i htype
            exact h.good_allocate htype hread ⟨nonce, hnonce, hvalid⟩ ⟨hkey, hintegrity⟩ husername
          · exact good_of_reply h rfl rfl _
      · rename_i hreq
        rw [handleAuthorized]
        split
        · rename_i htype
          rw [htype] at hreq
          exact absurd (by decide) hreq
        · exact good_of_reply h rfl rfl _

theorem Inv.good_stun_some (h : Inv cfg s) (hon : s.OnTime) (ha : s.allocation id = some a)
    (hconn : a.conn.equal conn = true) (hchannel : isTurnChannelData (getBE16 data 0) = false) :
    Good cfg s (.internalPacket conn (some id) data socket)
      (s.handleStunMessage cfg conn (some (id, a)) data socket) := by
  rw [handleStunMessage]
  split
  · exact h.good_ignored _
  · rename_i msg hread
    split
    · exact good_of_reply h rfl rfl _
    · dsimp only [Option.map_some]
      split
      · rename_i hreq
        split
        · rename_i output hauth
          obtain ⟨m, rfl⟩ := checkAuthorization_error hauth
          exact good_of_reply h rfl rfl m
        · rename_i nonce hauth
          obtain ⟨hnonce, hvalid, hkey, hintegrity, -⟩ := checkAuthorization_ok hauth
          exact h.good_found ha nonce hread hreq ⟨nonce, hnonce, hvalid⟩ ⟨hkey, hintegrity⟩
      · rename_i hreq
        exact h.good_indication hon ha hconn hchannel (Bool.not_eq_true _ ▸ hreq)

theorem Inv.good_channelData (h : Inv cfg s) (hon : s.OnTime) (ha : s.allocation id = some a)
    (hconn : a.conn.equal conn = true) (hchannel : isTurnChannelData (getBE16 data 0) = true) :
    Good cfg s (.internalPacket conn (some id) data socket) (s, a.handleChannelData data) := by
  refine ⟨h, .inl ⟨rfl, rfl⟩, fun output houtput => ?_⟩
  rw [Allocation.handleChannelData] at houtput
  split at houtput
  · rename_i channel hfind
    obtain rfl := List.mem_singleton.mp houtput
    have hid : channel.id = (getBE16 data 0).toNat := by simpa using List.find?_some hfind
    refine ⟨conn, id, data, socket, a, rfl, ha, hconn, ?_⟩
    rw [if_pos hchannel, ← hid]
    exact h.authorized_of_channel hon ha (List.mem_of_find?_eq_some hfind)
  · cases houtput

theorem Inv.good_internal_none (h : Inv cfg s) :
    Good cfg s (.internalPacket conn none data socket)
      (s.onInternalPacket cfg conn none data socket) := by
  rw [onInternalPacket]
  split
  · exact h.good_ignored _
  · split
    · exact h.good_ignored _
    · exact h.good_stun_none

theorem Inv.good_internal_some (h : Inv cfg s) (hon : s.OnTime) (ha : s.allocation id = some a)
    (hconn : a.conn.equal conn = true) :
    Good cfg s (.internalPacket conn (some id) data socket)
      (s.onInternalPacket cfg conn (some (id, a)) data socket) := by
  rw [onInternalPacket]
  split
  · exact h.good_ignored _
  · split
    · rename_i hchannel
      exact h.good_channelData hon ha hconn hchannel
    · rename_i hchannel
      exact h.good_stun_some hon ha hconn (Bool.not_eq_true _ ▸ hchannel)

theorem Inv.good_external (h : Inv cfg s) (hon : s.OnTime) (ha : s.allocation id = some a)
    (addr : SocketAddress) (transactionId : List UInt8) :
    Good cfg s (.externalPacket id data addr transactionId)
      (s, a.onExternalPacket cfg data addr transactionId) := by
  refine ⟨h, .inl ⟨rfl, rfl⟩, fun output houtput => ?_⟩
  rw [Allocation.onExternalPacket] at houtput
  split at houtput
  · rename_i channel hfind
    obtain rfl := List.mem_singleton.mp houtput
    have hfindPeer : a.channels.find? (fun c => c.peer.equal addr) = some channel := hfind
    have hequal := List.find?_some hfindPeer
    exact ⟨id, data, addr, transactionId, a, channel.id, channel.peer, rfl, ha, hequal,
      h.authorized_of_channel hon ha (List.mem_of_find?_eq_some hfind)⟩
  · split at houtput
    · rename_i hperm
      obtain rfl := List.mem_singleton.mp houtput
      exact ⟨id, data, addr, transactionId, a, rfl, ha, h.authorized_of_permission hon ha hperm⟩
    · cases houtput

end Packet

theorem Inv.step (h : Inv cfg s) {t : TurnServer} {e : Event} {outputs : List Output}
    (hstep : s.step cfg e = some (t, outputs)) :
    Inv cfg t ∧ (∀ output ∈ outputs, s.Justified cfg e output) ∧
      (e.IsPacket → s.Guarded cfg t e) := by
  have hgood : ∀ result, Good cfg s e result → some result = some (t, outputs) →
      Inv cfg t ∧ (∀ output ∈ outputs, s.Justified cfg e output) ∧
        (e.IsPacket → s.Guarded cfg t e) := by
    intro result hgood hresult
    obtain rfl := Option.some.inj hresult
    exact ⟨hgood.inv, hgood.justified, fun _ => hgood.guarded⟩
  have htimer : ∀ u, some (u, []) = some (t, outputs) → ¬ e.IsPacket → Inv cfg u →
      Inv cfg t ∧ (∀ output ∈ outputs, s.Justified cfg e output) ∧
        (e.IsPacket → s.Guarded cfg t e) := by
    intro u hresult he hu
    obtain ⟨rfl, rfl⟩ := Prod.mk.inj (Option.some.inj hresult)
    exact ⟨hu, fun _ houtput => absurd houtput List.not_mem_nil, fun hpacket => absurd hpacket he⟩
  cases e with
  | internalPacket conn found data socket =>
    cases found with
    | none =>
      simp only [TurnServer.step] at hstep
      split at hstep
      · exact hgood _ h.good_internal_none hstep
      · cases hstep
    | some id =>
      simp only [TurnServer.step] at hstep
      split at hstep
      · rename_i a ha
        split at hstep
        · rename_i hcond
          exact hgood _ (h.good_internal_some hcond.1 ha hcond.2) hstep
        · cases hstep
      · cases hstep
  | externalPacket id data addr transactionId =>
    simp only [TurnServer.step] at hstep
    split at hstep
    · rename_i a ha
      split at hstep
      · rename_i hon
        exact hgood _ (h.good_external hon ha addr transactionId) hstep
      · cases hstep
    · cases hstep
  | advance time =>
    refine htimer _ hstep id ⟨h.nodup, h.lt_next, fun r hr => ?_, h.backed⟩
    exact ⟨(h.passed r hr).1, (h.passed r hr).2.trans (Nat.le_add_right _ _)⟩
  | allocationTimeout id =>
    simp only [TurnServer.step] at hstep
    split at hstep
    · split at hstep
      · refine htimer _ hstep (fun he => he) ⟨?_, fun a ha => ?_, h.passed, fun a ha => ?_⟩
        · exact h.nodup.sublist (List.filter_sublist.map Prod.fst)
        · exact h.lt_next a (List.mem_of_mem_filter ha)
        · exact h.backed a (List.mem_of_mem_filter ha)
      · cases hstep
    · cases hstep
  | permissionTimeout id peer =>
    simp only [TurnServer.step] at hstep
    split at hstep
    · split at hstep
      · refine htimer _ hstep (fun he => he) (h.update fun a ha => ?_)
        exact (h.backed _ ha).of_subset rfl rfl (fun _ hp => List.mem_of_mem_filter hp) fun _ hc => hc
      · cases hstep
    · cases hstep
  | channelTimeout id number =>
    simp only [TurnServer.step] at hstep
    split at hstep
    · split at hstep
      · refine htimer _ hstep (fun he => he) (h.update fun a ha => ?_)
        exact (h.backed _ ha).of_subset rfl rfl (fun _ hp => hp) fun _ hc => List.mem_of_mem_filter hc
      · cases hstep
    · cases hstep

theorem inv_initial : Inv cfg {} where
  nodup := List.nodup_nil
  lt_next _ ha := absurd ha List.not_mem_nil
  passed _ hr := absurd hr List.not_mem_nil
  backed _ ha := absurd ha List.not_mem_nil

theorem inv_of_reachable (hs : Reachable cfg s) : Inv cfg s := by
  induction hs with
  | initial => exact inv_initial
  | step _ hstep ih => exact (ih.step hstep).1

def run (cfg : Settings) (s : TurnServer) (events : List Event) : Option TurnServer :=
  events.foldlM (fun s e => (s.step cfg e).map Prod.fst) s

theorem reachable_run (hs : Reachable cfg s) {events : List Event} {t : TurnServer}
    (hrun : run cfg s events = some t) : Reachable cfg t := by
  induction events generalizing s with
  | nil =>
    obtain rfl := Option.some.inj hrun
    exact hs
  | cons e rest ih =>
    rw [run, List.foldlM_cons] at hrun
    obtain ⟨u, hu, hrest⟩ := Option.bind_eq_some_iff.mp hrun
    obtain ⟨⟨u', outputs⟩, hstep, rfl⟩ := Option.map_eq_some_iff.mp hu
    exact ih (.step hs hstep) hrest

def plainSettings : Settings where
  computeHmac key data := List.replicate 20 (UInt8.ofNat (key.length + data.length))
  computeNonceHmac _ _ := List.replicate 32 97
  authHook username _ := if username = [117] then some [1, 2] else none
  nonceKey := []
  realm := [114]
  software := []
  enableOtuNonce := false

def signedRequest (type : UInt16) (attr : StunAttribute) : List UInt8 :=
  let msg := [⟨stunAttrUsername, .byteString [117]⟩, ⟨stunAttrRealm, .byteString [114]⟩,
    ⟨stunAttrNonce, .byteString (generateNonce plainSettings 0)⟩, attr].foldl
      (fun (msg : StunMessage) (attr : StunAttribute) => withAttribute msg attr.type attr.value)
      { StunMessage.new .turn with type := type, transactionId := List.replicate 12 7 }
  (msg.addMessageIntegrity plainSettings.computeHmac [1, 2]).1.write.getD []

end TurnServer

end Libjingle
