import Libjingle.Turn.Effects

/-! The channels of an allocation bind numbers to peers one to one: a number or a peer that
is bound otherwise is refused. -/

namespace Libjingle

open StunMessage

namespace TurnServer

/-- No two channels share a number or a peer, and the numbers are those of channels. -/
structure BindsOneToOne (channels : List Channel) : Prop where
  distinct : channels.Pairwise fun c d => c.id ≠ d.id ∧ ¬ c.peer.equal d.peer = true
  range : ∀ c ∈ channels, minChannelNumber ≤ c.id ∧ c.id ≤ maxChannelNumber

/-- A channel for the number and the peer would not fit in. -/
def Conflicts (channels : List Channel) (id : Nat) (peer : SocketAddress) : Prop :=
  id < minChannelNumber ∨ id > maxChannelNumber ∨
    ∃ c ∈ channels, ¬ (c.id = id ↔ c.peer.equal peer = true)

section

variable {channels : List Channel} {c d : Channel} {id : Nat} {peer : SocketAddress}

theorem BindsOneToOne.nil : BindsOneToOne [] := ⟨.nil, nofun⟩

theorem BindsOneToOne.filter (h : BindsOneToOne channels) (p : Channel → Bool) :
    BindsOneToOne (channels.filter p) :=
  ⟨h.distinct.filter p, fun c hc => h.range c (List.mem_of_mem_filter hc)⟩

theorem BindsOneToOne.map (h : BindsOneToOne channels) {f : Channel → Channel}
    (hf : ∀ c, (f c).id = c.id ∧ (f c).peer = c.peer) : BindsOneToOne (channels.map f) := by
  constructor
  · refine List.pairwise_map.mpr (h.distinct.imp fun {c d} hcd => ?_)
    rw [(hf c).1, (hf d).1, (hf c).2, (hf d).2]
    exact hcd
  · intro c hc
    obtain ⟨d, hd, rfl⟩ := List.mem_map.mp hc
    rw [(hf d).1]
    exact h.range d hd

theorem BindsOneToOne.append (h : BindsOneToOne channels) {channel : Channel}
    (hrange : minChannelNumber ≤ channel.id ∧ channel.id ≤ maxChannelNumber)
    (hfree : ∀ c ∈ channels, c.id ≠ channel.id ∧ ¬ c.peer.equal channel.peer = true) :
    BindsOneToOne (channels ++ [channel]) := by
  constructor
  · refine List.pairwise_append.mpr ⟨h.distinct, List.pairwise_singleton _ _, fun c hc d hd => ?_⟩
    rw [List.mem_singleton.mp hd]
    exact hfree c hc
  · intro c hc
    rcases List.mem_append.mp hc with hc | hc
    · exact h.range c hc
    · rw [List.mem_singleton.mp hc]
      exact hrange

theorem BindsOneToOne.eq_of (h : BindsOneToOne channels) (hc : c ∈ channels) (hd : d ∈ channels)
    (hsame : c.id = d.id ∨ c.peer.equal d.peer = true) : c = d := by
  by_contra hne
  have hsymm : Std.Symm fun c d : Channel => c.id ≠ d.id ∧ ¬ c.peer.equal d.peer = true := by
    refine ⟨fun c d hcd => ⟨hcd.1.symm, fun hequal => hcd.2 ?_⟩⟩
    exact SocketAddress.equal_iff.mpr (SocketAddress.equal_iff.mp hequal).symm
  have hdistinct := h.distinct.forall hc hd hne
  rcases hsame with hid | hpeer
  · exact hdistinct.1 hid
  · exact hdistinct.2 hpeer

end

namespace Allocation

variable {cfg : Settings} {a : Allocation} {now id : Nat} {peer : SocketAddress} {msg : StunMessage}

theorem lookups_differ (h : BindsOneToOne a.channels)
    (hconflict : ∃ c ∈ a.channels, ¬ (c.id = id ↔ c.peer.equal peer = true)) :
    a.findChannelById id ≠ a.findChannelByPeer peer := by
  intro hsame
  obtain ⟨c, hc, hiff⟩ := hconflict
  cases hfind : a.findChannelById id with
  | none =>
    have hid := List.find?_eq_none.mp hfind c hc
    have hpeer := List.find?_eq_none.mp (hsame.symm.trans hfind) c hc
    exact hiff (iff_of_false (by simpa using hid) hpeer)
  | some d =>
    have hd := List.mem_of_find?_eq_some hfind
    have hid : d.id = id := by simpa using List.find?_some hfind
    have hpeer : d.peer.equal peer = true := by
      have hfindPeer : a.channels.find? (fun c => c.peer.equal peer) = some d :=
        hsame.symm.trans hfind
      have hequal := List.find?_some hfindPeer
      exact hequal
    refine hiff ⟨fun hcid => ?_, fun hcpeer => ?_⟩
    · rw [h.eq_of hc hd (.inl (hcid.trans hid.symm))]
      exact hpeer
    · have hequal : c.peer.equal d.peer = true :=
        SocketAddress.equal_iff.mpr ((SocketAddress.equal_iff.mp hcpeer).trans
          (SocketAddress.equal_iff.mp hpeer).symm)
      rw [h.eq_of hc hd (.inr hequal)]
      exact hid

theorem bindsOneToOne_addChannel (h : BindsOneToOne a.channels)
    (hrange : minChannelNumber ≤ id ∧ id ≤ maxChannelNumber)
    (hsame : a.findChannelById id = a.findChannelByPeer peer) :
    BindsOneToOne (a.addChannel now id peer).channels := by
  rw [addChannel]
  split
  · rename_i hfind
    refine h.append hrange fun c hc => ⟨?_, ?_⟩
    · simpa using List.find?_eq_none.mp hfind c hc
    · exact List.find?_eq_none.mp (hsame.symm.trans hfind) c hc
  · refine h.map fun c => ?_
    split <;> exact ⟨rfl, rfl⟩

theorem bindsOneToOne_handleChannelBind (h : BindsOneToOne a.channels) :
    BindsOneToOne (a.handleChannelBindRequest cfg now msg).1.channels := by
  rw [handleChannelBindRequest]
  split
  · dsimp only
    split
    · exact h
    · rename_i hrange
      split
      · exact h
      · rename_i hsame
        rw [channels_addPermission]
        exact bindsOneToOne_addChannel h (by omega) (not_not.mp hsame)
  · exact h

theorem channels_handleTurnMessage (htype : msg.type ≠ turnChannelBindRequest) :
    (a.handleTurnMessage cfg now msg).1.channels = a.channels := by
  rw [handleTurnMessage]
  split
  · rfl
  · split
    · rfl
    · split
      · rfl
      · split
        · rw [handleCreatePermissionRequest]
          split
          · rfl
          · exact channels_addPermission _
        · rfl

theorem handleTurnMessage_bind (htype : msg.type = turnChannelBindRequest) :
    a.handleTurnMessage cfg now msg = a.handleChannelBindRequest cfg now msg := by
  rw [handleTurnMessage, htype]
  rfl

theorem bind_refused (h : BindsOneToOne a.channels) {number : UInt32}
    (htype : msg.type = turnChannelBindRequest)
    (hnumber : wordOf msg stunAttrChannelNumber = some number) (hpeer : peerOf msg = some peer)
    (hconflict : Conflicts a.channels (number >>> 16).toNat peer) :
    a.handleTurnMessage cfg now msg = (a, [sendErrorResponse cfg msg badRequest]) := by
  rw [handleTurnMessage_bind htype, handleChannelBindRequest, hnumber, hpeer]
  dsimp only
  by_cases hrange : (number >>> 16).toNat < minChannelNumber ∨
      (number >>> 16).toNat > maxChannelNumber
  · rw [if_pos hrange]
  · rw [if_neg hrange]
    rcases hconflict with hlow | hhigh | hother
    · exact absurd (.inl hlow) hrange
    · exact absurd (.inr hhigh) hrange
    · rw [if_pos (lookups_differ h hother)]

end Allocation

theorem lasting_bindsOneToOne (cfg : Settings) :
    Lasting cfg fun a => BindsOneToOne a.channels where
  fresh _ _ _ _ _ := .nil
  noted _ _ h := h
  handled now a msg h := by
    by_cases htype : msg.type = turnChannelBindRequest
    · rw [Allocation.handleTurnMessage_bind htype]
      exact Allocation.bindsOneToOne_handleChannelBind h
    · rw [Allocation.channels_handleTurnMessage htype]
      exact h
  permission _ _ h := h
  channel _ _ h := h.filter _

/-- In every state the channels of an allocation bind numbers to peers one to one, and a
request that would not is answered with an error and changes nothing. -/
theorem channels_one_to_one (cfg : Settings) {s : TurnServer} (hs : Reachable cfg s) :
    ∀ entry ∈ s.allocations, BindsOneToOne entry.2.channels ∧
      ∀ now msg number peer, msg.type = turnChannelBindRequest →
        wordOf msg stunAttrChannelNumber = some number → peerOf msg = some peer →
        Conflicts entry.2.channels (number >>> 16).toNat peer →
        entry.2.handleTurnMessage cfg now msg = (entry.2, [sendErrorResponse cfg msg badRequest]) := by
  intro entry hentry
  have h := (lasting_bindsOneToOne cfg).reachable hs entry hentry
  exact ⟨h, fun _ _ _ _ htype hnumber hpeer hconflict =>
    Allocation.bind_refused h htype hnumber hpeer hconflict⟩

def bindRequest (number : UInt32) (peer : SocketAddress) : StunMessage :=
  [⟨stunAttrUsername, .byteString [117]⟩, ⟨stunAttrRealm, .byteString [114]⟩,
    ⟨stunAttrNonce, .byteString (generateNonce plainSettings 0)⟩,
    ⟨stunAttrChannelNumber, .uint32 number⟩, ⟨stunAttrXorPeerAddress, .xorAddress peer⟩].foldl
      (fun (msg : StunMessage) (attr : StunAttribute) => withAttribute msg attr.type attr.value)
      { StunMessage.new .turn with
        type := turnChannelBindRequest, transactionId := List.replicate 12 9 }

def signed (msg : StunMessage) : List UInt8 :=
  (msg.addMessageIntegrity plainSettings.computeHmac [1, 2]).1.write.getD []

set_option maxRecDepth 20000 in
/-- A client binds a channel and asks for its number with another peer. -/
theorem channels_one_to_one_rebind :
    let conn : Connection := ⟨.ofIP (.inet 1) 1000, .udp, 0⟩
    let allocate := signedRequest stunAllocateRequest ⟨stunAttrRequestedTransport, .uint32 0x11000000⟩
    let other := bindRequest 0x40000000 (.ofIP (.inet 9) 2001)
    ∃ s a, run plainSettings {} [.internalPacket conn none allocate (some (.ofIP (.inet 2) 3000)),
        .internalPacket conn (some 0) (signed (bindRequest 0x40000000 (.ofIP (.inet 9) 2000))) none] =
          some s ∧
      s.allocations = [(0, a)] ∧ a.channels = [⟨0x4000, .ofIP (.inet 9) 2000, 600000⟩] ∧
      BindsOneToOne a.channels ∧
      a.handleTurnMessage plainSettings s.now other =
        (a, [sendErrorResponse plainSettings other badRequest]) := by
  intro conn allocate other
  have hrun : (run plainSettings {} [.internalPacket conn none allocate (some (.ofIP (.inet 2) 3000)),
      .internalPacket conn (some 0) (signed (bindRequest 0x40000000 (.ofIP (.inet 9) 2000))) none]).map
        (fun s => s.allocations.map fun a => (a.1, a.2.channels)) =
      some [(0, [⟨0x4000, .ofIP (.inet 9) 2000, 600000⟩])] := by
    decide +kernel
  obtain ⟨s, hs, hchannels⟩ := Option.map_eq_some_iff.mp hrun
  obtain ⟨⟨id, a⟩, rest, hallocations, hid, hrest⟩ := List.map_eq_cons_iff.mp hchannels
  obtain rfl := List.map_eq_nil_iff.mp hrest
  obtain ⟨rfl, ha⟩ := Prod.mk.inj hid
  have h := channels_one_to_one plainSettings (reachable_run .initial hs) (0, a) (by simp [hallocations])
  have hconflict : Conflicts a.channels ((0x40000000 : UInt32) >>> 16).toNat
      (.ofIP (.inet 9) 2001) := by
    dsimp only at ha
    refine .inr (.inr ⟨⟨0x4000, .ofIP (.inet 9) 2000, 600000⟩, ?_, by decide +kernel⟩)
    rw [ha]
    exact List.mem_cons_self
  exact ⟨s, a, hs, hallocations, ha, h.1, h.2 s.now other 0x40000000 (.ofIP (.inet 9) 2001) rfl
    (by decide +kernel) (by decide +kernel) hconflict⟩

end TurnServer

end Libjingle
