import Libjingle.Turn.Port
import Libjingle.Turn.Authorization

/-! What passes through a relay: the payload of a client on its way to the peer, and a
datagram of a peer on its way to the client. Both are wrapped by one party and taken
out by the other. -/

namespace Libjingle

open StunMessage TurnServer TurnPort

section Wrapping

/-- The bytes of a byte string attribute of `n` bytes. -/
def byteStringRoom (n : Nat) : Nat := 4 + (n + (4 - n % 4) % 4)

def addressRoom (ip : IPAddress) : Nat := 4 + (StunAttributeValue.addressLength ip).toNat

theorem room_byteString (type : UInt16) (bytes : List UInt8) :
    StunAttribute.room ⟨type, .byteString bytes⟩ = byteStringRoom (bytes.length % 2 ^ 16) := by
  rw [StunAttribute.room, stunPaddedLength, stunPadding, StunAttributeValue.length,
    UInt16.toNat_ofNat', byteStringRoom, Nat.add_comm]

theorem room_xorAddress (type : UInt16) (addr : SocketAddress) :
    StunAttribute.room ⟨type, .xorAddress addr⟩ = addressRoom addr.ip := by
  rw [StunAttribute.room, StunAttributeValue.length, addressRoom, Nat.add_comm]
  cases addr.ip with
  | unspec => rfl
  | inet _ => exact congrArg (4 + ·) (by decide : stunPaddedLength 8 = 8)
  | inet6 _ => exact congrArg (4 + ·) (by decide : stunPaddedLength 20 = 20)

theorem length_write_byteString (id : List UInt8) {body bytes : List UInt8}
    (h : StunAttributeValue.write id (.byteString bytes) = some body) :
    body.length = stunPaddedLength (UInt16.ofNat bytes.length) := by
  obtain rfl := Option.some.inj h
  have hmod : (UInt16.ofNat bytes.length).toNat ≤ bytes.length := by
    rw [UInt16.toNat_ofNat']
    exact Nat.mod_le _ _
  rw [List.length_append, List.length_take, StunAttributeValue.length_writePadding,
    Nat.min_eq_left hmod, stunPaddedLength]

theorem exists_write_xorAddress {id : List UInt8} (hid : id.length = stunTransactionIdLength)
    {addr : SocketAddress} (h : addr.ip ≠ .unspec) :
    ∃ body, StunAttributeValue.write id (.xorAddress addr) = some body ∧
      body.length = stunPaddedLength (StunAttributeValue.addressLength addr.ip) := by
  have hxored : getXoredIP id addr.ip ≠ .unspec := by
    cases hip : addr.ip with
    | unspec => exact absurd hip h
    | inet a => exact fun hne => nomatch hne
    | inet6 a => simp [getXoredIP, hid]
  obtain ⟨body, hbody⟩ : ∃ body, StunAttributeValue.write id (.xorAddress addr) = some body := by
    rw [StunAttributeValue.write]
    cases hip : getXoredIP id addr.ip with
    | unspec => exact absurd hip hxored
    | inet a => exact ⟨_, rfl⟩
    | inet6 a => exact ⟨_, rfl⟩
  refine ⟨body, hbody, ?_⟩
  rw [StunAttributeValue.length_writeAddress hbody,
    (StunAttributeValue.getXoredIP_getXoredIP hxored).2]

/-- The attributes of an indication that carries data of a peer, with the name of the
software if there is one. -/
def carriedAttributes (addr : SocketAddress) (data software : List UInt8) : List StunAttribute :=
  ⟨stunAttrXorPeerAddress, .xorAddress addr⟩ :: ⟨stunAttrData, .byteString data⟩ ::
    if software = [] then [] else [⟨stunAttrSoftware, .byteString software⟩]

def carrier (type : UInt16) (transactionId : List UInt8) (addr : SocketAddress)
    (data software : List UInt8) : StunMessage :=
  ⟨.turn, type, UInt16.ofNat (Layout.extent StunAttribute.room (carriedAttributes addr data software)),
    transactionId, carriedAttributes addr data software⟩

def softwareRoom (software : List UInt8) : Nat :=
  if software = [] then 0 else byteStringRoom (software.length % 2 ^ 16)

variable {type : UInt16} {id data software bytes : List UInt8} {addr : SocketAddress}

theorem extent_carriedAttributes :
    Layout.extent StunAttribute.room (carriedAttributes addr data software) =
      addressRoom addr.ip + byteStringRoom (data.length % 2 ^ 16) + softwareRoom software := by
  rw [carriedAttributes, softwareRoom]
  split <;>
    simp only [Layout.extent_cons, Layout.extent_nil, room_xorAddress, room_byteString] <;> omega

theorem sendIndication_eq (id : List UInt8) (addr : SocketAddress) (data : List UInt8) :
    sendIndication id addr data = carrier turnSendIndication id addr data [] := by
  have hlength : ∀ n m : Nat, (0 : UInt16) + UInt16.ofNat n + UInt16.ofNat m =
      UInt16.ofNat (n + (m + 0)) := by
    intro n m
    rw [UInt16.zero_add, Nat.add_zero, UInt16.ofNat_add]
  exact congrArg (StunMessage.mk .turn turnSendIndication · id _) (hlength _ _)

theorem dataIndication_eq (cfg : Settings) (id : List UInt8) (addr : SocketAddress)
    (data : List UInt8) :
    addSoftware cfg (Allocation.wrapDataIndication id addr data) =
      carrier turnDataIndication id addr data cfg.software := by
  by_cases hsoftware : cfg.software = []
  · have hlength : ∀ n m : Nat, (0 : UInt16) + UInt16.ofNat n + UInt16.ofNat m =
        UInt16.ofNat (n + (m + 0)) := by
      intro n m
      rw [UInt16.zero_add, Nat.add_zero, UInt16.ofNat_add]
    rw [addSoftware, if_pos hsoftware, carrier, carriedAttributes, if_pos hsoftware]
    exact congrArg (StunMessage.mk .turn turnDataIndication · id _) (hlength _ _)
  · have hlength : ∀ n m k : Nat, (0 : UInt16) + UInt16.ofNat n + UInt16.ofNat m + UInt16.ofNat k =
        UInt16.ofNat (n + (m + (k + 0))) := by
      intro n m k
      rw [UInt16.zero_add, Nat.add_zero, UInt16.ofNat_add, UInt16.ofNat_add, UInt16.add_assoc]
    rw [addSoftware, if_neg hsoftware, carrier, carriedAttributes, if_neg hsoftware]
    exact congrArg (StunMessage.mk .turn turnDataIndication · id _) (hlength _ _ _)

theorem exists_write_carrier (type : UInt16) (hid : id.length = stunTransactionIdLength)
    (h : addr.ip ≠ .unspec) (data software : List UInt8) :
    ∃ bytes, (carrier type id addr data software).write = some bytes ∧
      bytes.length = stunHeaderSize +
        Layout.extent StunAttribute.room (carriedAttributes addr data software) ∧
      getBE16 bytes 0 = type := by
  have hbyteString : ∀ bytes : List UInt8, ∃ body,
      StunAttributeValue.write id (.byteString bytes) = some body ∧
        body.length = stunPaddedLength (UInt16.ofNat bytes.length) :=
    fun _ => ⟨_, rfl, length_write_byteString id rfl⟩
  have hattrs : ∀ attr ∈ carriedAttributes addr data software, ∃ body,
      attr.value.write id = some body ∧ body.length = stunPaddedLength attr.value.length := by
    intro attr hattr
    rcases List.mem_cons.mp hattr with rfl | hattr
    · exact exists_write_xorAddress hid h
    · rcases List.mem_cons.mp hattr with rfl | hattr
      · exact hbyteString data
      · split at hattr
        · exact absurd hattr List.not_mem_nil
        · obtain rfl := List.mem_singleton.mp hattr
          exact hbyteString software
  obtain ⟨body, hbody, hlen⟩ := exists_writeAttributes hattrs
  refine ⟨_, (write_eq_some (by exact hid)).mpr ⟨body, hbody, rfl⟩, ?_, ?_⟩
  · rw [List.length_append, length_header (by exact hid), hlen]
  · simp only [header, List.append_assoc]
    exact getBE16_append [] _ rfl rfl

def carried (type : UInt16) (id : List UInt8) (addr : SocketAddress) (data software : List UInt8) :
    StunMessage :=
  { carrier type id addr data software with
    attrs := (carriedAttributes addr data software).map StunAttribute.encoded }

theorem read_carrier (htype : type < 0x8000) (hid : id.length = stunTransactionIdLength)
    (hwrite : (carrier type id addr data software).write = some bytes)
    (hlen : bytes.length = stunHeaderSize +
      Layout.extent StunAttribute.room (carriedAttributes addr data software)) :
    StunMessage.read .turn bytes =
      if addressRoom addr.ip + byteStringRoom (data.length % 2 ^ 16) + softwareRoom software < 2 ^ 16
      then some (carried type id addr data software) else none := by
  have htypes : ∀ attr ∈ carriedAttributes addr data software,
      attr.value.valueType = StunMessageClass.turn.getAttributeValueType attr.type ∧
        attr.value.ClassFits := by
    intro attr hattr
    rcases List.mem_cons.mp hattr with rfl | hattr
    · exact ⟨rfl, trivial⟩
    · rcases List.mem_cons.mp hattr with rfl | hattr
      · exact ⟨rfl, trivial⟩
      · split at hattr
        · exact absurd hattr List.not_mem_nil
        · obtain rfl := List.mem_singleton.mp hattr
          exact ⟨rfl, trivial⟩
  have hread := read_eq_of_write (m := carrier type id addr data software) htype (.inl hid) rfl
    (fun attr h => (htypes attr h).1) (fun attr h => (htypes attr h).2) hwrite
  refine hread.trans (if_congr ?_ rfl rfl)
  rw [hlen, extent_carriedAttributes]
  omega

theorem bytesOf_carried : bytesOf (carried type id addr data software) stunAttrData =
    some (data.take (data.length % 2 ^ 16)) := by
  rw [← UInt16.toNat_ofNat']
  rfl

theorem peerOf_carried : peerOf (carried type id addr data software) =
    some (.ofIP addr.ip addr.port) := rfl

end Wrapping

def Numbered (a : Allocation) : Prop :=
  ∀ c ∈ a.channels, minChannelNumber ≤ c.id ∧ c.id ≤ maxChannelNumber

theorem Numbered.handleTurnMessage {a : Allocation} (h : Numbered a) (cfg : Settings) (now : Nat)
    (msg : StunMessage) : Numbered (a.handleTurnMessage cfg now msg).1 := by
  rw [Allocation.handleTurnMessage]
  split
  · exact h
  · split
    · exact h
    · split
      · exact h
      · split
        · rw [Allocation.handleCreatePermissionRequest]
          split
          · exact h
          · rwa [Numbered, Allocation.channels_addPermission]
        · split
          · rw [Allocation.handleChannelBindRequest]
            split
            · dsimp only
              split
              · exact h
              · rename_i hrange
                split
                · exact h
                · rename_i hsame
                  intro c hc
                  rw [Allocation.channels_addPermission] at hc
                  rcases Allocation.mem_addChannel (not_not.mp hsame) hc with hc | ⟨hid, -⟩
                  · exact h c hc
                  · rw [hid]
                    omega
            · exact h
          · exact h

/-- An allocation of the server and the port that it was made for. The server binds no
channel outside its range. -/
structure Relay where
  cfg : Settings
  server : TurnServer
  conn : TurnServer.Connection
  id : Nat
  allocation : Allocation
  port : TurnPort
  numbered : Numbered allocation

namespace Relay

structure Peer where
  ip : IPAddress
  port : UInt16
  known : ip ≠ .unspec
  deriving DecidableEq

def Peer.addr (p : Peer) : SocketAddress := .ofIP p.ip p.port

/-- What passes: a payload that an entry sends, a channel message of the client, or a
datagram of a peer. The transaction id is the one of the indication, if it takes one. -/
inductive Transfer
  | send (entry : TurnEntry) (transactionId : TransactionId) (payload : List UInt8)
  | channelMessage (message : List UInt8)
  | datagram (peer : Peer) (transactionId : TransactionId) (data : List UInt8)

/-- Datagrams are sent to an address and a port. -/
def SameEndpoint (a b : SocketAddress) : Prop := a.ip = b.ip ∧ a.port = b.port

variable (r : Relay)

def forward (packet : List UInt8) : List Output :=
  (r.server.onInternalPacket r.cfg r.conn (some (r.id, r.allocation)) packet none).2

def wire : Output → Option (List UInt8)
  | .reply msg | .dataIndication msg => msg.write
  | .channelData buf => some buf
  | .external _ _ => none

def deliver (p : Peer) (transactionId : TransactionId) (data : List UInt8) : List Received :=
  (r.allocation.onExternalPacket r.cfg data p.addr transactionId.val).filterMap fun output =>
    (wire output).bind r.port.onReadPacket

def channelOf (message : List UInt8) : Option Channel :=
  if turnChannelHeaderSize ≤ message.length ∧ isTurnChannelData (getBE16 message 0) then
    r.allocation.findChannelById (getBE16 message 0).toNat
  else none

def lengthField (message : List UInt8) : Nat := (getBE16 message 2).toNat

/-- The payload, the data that the length field delimits, or the datagram comes out
at the other end, for the same peer. -/
def Transparent : Transfer → Prop
  | .send entry transactionId payload =>
    ∃ packet peer, entry.packet transactionId payload = some packet ∧
      r.forward packet = [.external payload peer] ∧ SameEndpoint peer entry.extAddr
  | .channelMessage message => ∀ channel, r.channelOf message = some channel →
    ∃ data padding, message.drop turnChannelHeaderSize = data ++ padding ∧
      data.length = lengthField message ∧ r.forward message = [.external data channel.peer]
  | .datagram peer transactionId data =>
    ∃ addr, r.deliver peer transactionId data = [.data data addr] ∧ SameEndpoint addr peer.addr

/-- The parties agree about the peer, an indication has the room for its data, the
length field of a channel message for what it carries, and a channel message of a
client has neither padding nor too little data. -/
def Carried : Transfer → Prop
  | .send entry _ payload =>
    if entry.state = .bound then
      ∃ c, r.allocation.findChannelById entry.channelId = some c ∧ SameEndpoint c.peer entry.extAddr
    else r.allocation.hasPermission entry.extAddr.ip ∧
      addressRoom entry.extAddr.ip + byteStringRoom payload.length < 2 ^ 16
  | .channelMessage message => (r.channelOf message).isSome →
    message.length = turnChannelHeaderSize + lengthField message
  | .datagram peer _ data =>
    match r.allocation.findChannelByPeer peer.addr with
    | some c => data.length < 2 ^ 16 ∧
      ∃ e, r.port.findEntry c.id = some e ∧ SameEndpoint e.extAddr peer.addr
    | none => (r.allocation.hasPermission peer.ip ∧ r.port.hasPermission peer.ip) ∧
      addressRoom peer.ip + byteStringRoom data.length + softwareRoom r.cfg.software < 2 ^ 16

variable {r}

theorem wrapChannelData_eq (n : Nat) (data : List UInt8) :
    Allocation.wrapChannelData n data = shortToBytes (UInt16.ofNat n) ++
      (shortToBytes (UInt16.ofNat data.length) ++ data) := by
  rw [Allocation.wrapChannelData, List.append_assoc]

theorem drop_wrapChannelData (n : Nat) (data : List UInt8) :
    (Allocation.wrapChannelData n data).drop turnChannelHeaderSize = data := by
  refine List.drop_left' ?_
  rw [List.length_append, length_shortToBytes, length_shortToBytes]
  rfl

theorem length_wrapChannelData (n : Nat) (data : List UInt8) :
    (Allocation.wrapChannelData n data).length = turnChannelHeaderSize + data.length := by
  rw [wrapChannelData_eq, List.length_append, List.length_append, length_shortToBytes,
    length_shortToBytes, ← Nat.add_assoc]
  rfl

theorem number_wrapChannelData (n : Nat) (data : List UInt8) :
    getBE16 (Allocation.wrapChannelData n data) 0 = UInt16.ofNat n :=
  getBE16_append [] _ rfl (wrapChannelData_eq n data)

theorem lengthField_wrapChannelData (n : Nat) (data : List UInt8) :
    lengthField (Allocation.wrapChannelData n data) = data.length % 2 ^ 16 := by
  rw [lengthField, getBE16_append (shortToBytes (UInt16.ofNat n)) data (length_shortToBytes _)
    (wrapChannelData_eq n data), UInt16.toNat_ofNat']

theorem forward_channelMessage {message : List UInt8} {c : Channel}
    (h : r.channelOf message = some c) :
    r.forward message = [.external (message.drop turnChannelHeaderSize) c.peer] := by
  obtain ⟨⟨hlen, hchannel⟩, hfind⟩ := Option.ite_none_right_eq_some.mp h
  rw [forward, onInternalPacket, if_neg (Nat.not_lt.mpr hlen), if_pos hchannel]
  change r.allocation.handleChannelData message = _
  rw [Allocation.handleChannelData, hfind]

theorem and_shiftLeft (n m k : Nat) : n &&& m <<< k = ((n >>> k) &&& m) <<< k := by
  apply Nat.eq_of_testBit_eq
  intro i
  simp only [Nat.testBit_and, Nat.testBit_shiftLeft, Nat.testBit_shiftRight]
  by_cases hi : i ≥ k
  · rw [decide_eq_true hi, Bool.true_and, Bool.true_and, Nat.add_sub_cancel' hi]
  · rw [decide_eq_false hi, Bool.false_and, Bool.false_and, Bool.and_false]

theorem channelNumber {n : Nat} (hmin : minChannelNumber ≤ n) (hmax : n ≤ maxChannelNumber) :
    isTurnChannelData (UInt16.ofNat n) ∧ (UInt16.ofNat n).toNat = n := by
  simp only [minChannelNumber, maxChannelNumber] at hmin hmax
  have hlt : n < 2 ^ 16 := by omega
  have hval : (UInt16.ofNat n).toNat = n := UInt16.toNat_ofNat_of_lt' hlt
  refine ⟨decide_eq_true (UInt16.toNat_inj.mp ?_), hval⟩
  rw [UInt16.toNat_and, hval]
  change n &&& 3 <<< 14 = 1 <<< 14
  have htop : n >>> 14 = 1 := by
    rw [Nat.shiftRight_eq_div_pow]
    omega
  rw [and_shiftLeft, htop]
  rfl

theorem channelOf_wrapChannelData {n : Nat} (hmin : minChannelNumber ≤ n)
    (hmax : n ≤ maxChannelNumber) (data : List UInt8) :
    r.channelOf (Allocation.wrapChannelData n data) = r.allocation.findChannelById n := by
  obtain ⟨hchannel, hval⟩ := channelNumber hmin hmax
  rw [channelOf, number_wrapChannelData, hval, length_wrapChannelData]
  exact if_pos ⟨Nat.le_add_right _ _, hchannel⟩

theorem forward_unknownChannel {n : Nat} (hmin : minChannelNumber ≤ n)
    (hmax : n ≤ maxChannelNumber) (data : List UInt8)
    (h : r.allocation.findChannelById n = none) :
    r.forward (Allocation.wrapChannelData n data) = [] := by
  obtain ⟨hchannel, hval⟩ := channelNumber hmin hmax
  have hlen : ¬ (Allocation.wrapChannelData n data).length < turnChannelHeaderSize := by
    rw [length_wrapChannelData]
    exact Nat.not_lt.mpr (Nat.le_add_right _ _)
  rw [forward, onInternalPacket, if_neg hlen, number_wrapChannelData, if_pos hchannel]
  change r.allocation.handleChannelData _ = _
  rw [Allocation.handleChannelData, number_wrapChannelData, hval, h]

theorem handleStunMessage_sendIndication (cfg : Settings) (s : TurnServer)
    (conn : TurnServer.Connection) (id : Nat) (a : Allocation) (socket : Option SocketAddress)
    {data : List UInt8} {msg : StunMessage} (hread : StunMessage.read .turn data = some msg)
    (htype : msg.type = turnSendIndication) :
    (s.handleStunMessage cfg conn (some (id, a)) data socket).2 = a.handleSendIndication msg := by
  have hbinding : ¬ msg.type = stunBindingRequestType := by
    rw [htype]
    decide
  have hrequest : isStunRequestType msg.type = false := by
    rw [htype]
    decide
  have hallocate : ¬ msg.type = stunAllocateRequest := by
    rw [htype]
    decide
  have hhandle : a.handleTurnMessage cfg s.now msg = (a, a.handleSendIndication msg) := by
    rw [Allocation.handleTurnMessage, htype]
    rfl
  simp only [handleStunMessage, hread, hbinding, if_false, hrequest, Bool.false_eq_true,
    handleAuthorized, hallocate, not_false_eq_true, ne_eq, true_or, if_true, false_and, dispatch,
    hhandle]

theorem forward_sendIndication {packet : List UInt8} (e : TurnEntry) (transactionId : TransactionId)
    (payload : List UInt8)
    (hpacket : (sendIndication transactionId.val e.extAddr payload).write = some packet) :
    r.forward packet =
      if r.allocation.hasPermission e.extAddr.ip ∧
          addressRoom e.extAddr.ip + byteStringRoom (payload.length % 2 ^ 16) < 2 ^ 16 then
        [.external (payload.take (payload.length % 2 ^ 16)) (.ofIP e.extAddr.ip e.extAddr.port)]
      else [] := by
  obtain ⟨bytes, hwrite, hlen, htype⟩ := exists_write_carrier turnSendIndication transactionId.2
    e.known payload []
  rw [sendIndication_eq, hwrite] at hpacket
  obtain rfl := Option.some.inj hpacket
  have hread := read_carrier (by decide) transactionId.2 hwrite hlen
  have hheader : ¬ bytes.length < turnChannelHeaderSize := by
    simp only [hlen, stunHeaderSize, turnChannelHeaderSize]
    omega
  have hstun : ¬ isTurnChannelData (getBE16 bytes 0) := by
    rw [htype]
    decide
  rw [forward, onInternalPacket, if_neg hheader, if_neg hstun]
  by_cases hroom : addressRoom e.extAddr.ip + byteStringRoom (payload.length % 2 ^ 16) < 2 ^ 16
  · rw [handleStunMessage_sendIndication r.cfg r.server r.conn r.id r.allocation none
      (hread.trans (if_pos hroom)) rfl, Allocation.handleSendIndication, bytesOf_carried,
      peerOf_carried]
    by_cases hpermission : r.allocation.hasPermission e.extAddr.ip
    · rw [if_pos ⟨hpermission, hroom⟩]
      exact if_pos hpermission
    · rw [if_neg fun h => hpermission h.1]
      exact if_neg hpermission
  · rw [handleStunMessage, hread.trans (if_neg hroom), if_neg fun h => hroom h.2]

theorem take_mod_eq {data : List UInt8} {k : Nat} (h : data.take (data.length % k) = data)
    (hk : 0 < k) : data.length < k := by
  have hlen := congrArg List.length h
  rw [List.length_take] at hlen
  have := Nat.mod_lt data.length hk
  omega

theorem transparent_send (e : TurnEntry) (transactionId : TransactionId) (payload : List UInt8) :
    r.Transparent (.send e transactionId payload) ↔ r.Carried (.send e transactionId payload) := by
  simp only [Transparent, Carried]
  by_cases hbound : e.state = .bound
  · rw [if_pos hbound]
    obtain ⟨hmin, hmax⟩ := e.numbered hbound
    have hpacket : e.packet transactionId payload =
        some (Allocation.wrapChannelData e.channelId payload) := by
      rw [wrapChannelData_eq]
      exact if_neg (not_not.mpr hbound)
    have hchannel := channelOf_wrapChannelData (r := r) hmin hmax payload
    constructor
    · rintro ⟨packet, peer, hsent, hout, hpeer⟩
      obtain rfl := Option.some.inj (hpacket.symm.trans hsent)
      cases hfind : r.allocation.findChannelById e.channelId with
      | none =>
        rw [forward_unknownChannel hmin hmax payload hfind] at hout
        cases hout
      | some c =>
        rw [forward_channelMessage (hchannel.trans hfind)] at hout
        obtain rfl := (Output.external.inj (List.cons.inj hout).1).2
        exact ⟨c, rfl, hpeer⟩
    · rintro ⟨c, hfind, hpeer⟩
      have hforward := forward_channelMessage (hchannel.trans hfind)
      rw [drop_wrapChannelData] at hforward
      exact ⟨_, c.peer, hpacket, hforward, hpeer⟩
  · rw [if_neg hbound]
    have hpacket : e.packet transactionId payload =
        (sendIndication transactionId.val e.extAddr payload).write := if_pos hbound
    obtain ⟨packet, hwrite, -⟩ := exists_write_carrier turnSendIndication transactionId.2
      e.known payload []
    rw [← sendIndication_eq] at hwrite
    have hforward := forward_sendIndication (r := r) e transactionId payload hwrite
    constructor
    · rintro ⟨packet', peer, hsent, hout, -⟩
      obtain rfl : packet = packet' := Option.some.inj (hwrite.symm.trans (hpacket.symm.trans hsent))
      rw [hforward] at hout
      split at hout
      · rename_i hcond
        have hdata := (Output.external.inj (List.cons.inj hout).1).1
        have hlt := take_mod_eq hdata (by decide)
        rwa [Nat.mod_eq_of_lt hlt] at hcond
      · cases hout
    · rintro ⟨hpermission, hroom⟩
      have hlt : payload.length < 2 ^ 16 := by
        rw [byteStringRoom] at hroom
        omega
      rw [Nat.mod_eq_of_lt hlt, if_pos ⟨hpermission, hroom⟩, List.take_length] at hforward
      exact ⟨packet, _, hpacket.trans hwrite, hforward, rfl, rfl⟩

theorem transparent_channelMessage (message : List UInt8) :
    r.Transparent (.channelMessage message) ↔ r.Carried (.channelMessage message) := by
  simp only [Transparent, Carried]
  cases hchannel : r.channelOf message with
  | none => exact ⟨fun _ h => (nomatch h), fun _ _ h => (nomatch h)⟩
  | some channel =>
    have hlen : turnChannelHeaderSize ≤ message.length :=
      (Option.ite_none_right_eq_some.mp hchannel).1.1
    have hforward := forward_channelMessage hchannel
    constructor
    · intro h _
      obtain ⟨data, padding, hsplit, hdata, hout⟩ := h channel rfl
      rw [hforward] at hout
      have hrelayed : message.drop turnChannelHeaderSize = data :=
        (Output.external.inj (List.cons.inj hout).1).1
      have := congrArg List.length hrelayed
      rw [List.length_drop, hdata] at this
      omega
    · rintro h _ ⟨⟩
      refine ⟨message.drop turnChannelHeaderSize, [], (List.append_nil _).symm, ?_, hforward⟩
      rw [List.length_drop, h rfl, Nat.add_sub_cancel_left]

theorem onReadPacket_channelData {n : Nat} (hmin : minChannelNumber ≤ n)
    (hmax : n ≤ maxChannelNumber) (data : List UInt8) :
    r.port.onReadPacket (Allocation.wrapChannelData n data) =
      (r.port.findEntry n).map fun e => .data (data.take (data.length % 2 ^ 16)) e.extAddr := by
  obtain ⟨hchannel, hval⟩ := channelNumber hmin hmax
  have hlen : ¬ (Allocation.wrapChannelData n data).length < turnChannelHeaderSize := by
    rw [length_wrapChannelData]
    exact Nat.not_lt.mpr (Nat.le_add_right _ _)
  have hfield := lengthField_wrapChannelData n data
  rw [lengthField] at hfield
  have hle : ¬ data.length % 2 ^ 16 > data.length := Nat.not_lt.mpr (Nat.mod_le _ _)
  rw [onReadPacket, if_neg hlen]
  simp only [number_wrapChannelData, if_pos hchannel, hval, handleChannelData, hfield,
    length_wrapChannelData, Nat.add_sub_cancel_left, if_neg hle, drop_wrapChannelData]
  cases r.port.findEntry n <;> rfl

theorem onReadPacket_dataIndication {packet : List UInt8} (p : Peer)
    (transactionId : TransactionId) (data : List UInt8)
    (hpacket : (addSoftware r.cfg
      (Allocation.wrapDataIndication transactionId.val p.addr data)).write = some packet) :
    r.port.onReadPacket packet =
      if r.port.hasPermission p.ip ∧ addressRoom p.ip + byteStringRoom (data.length % 2 ^ 16) +
          softwareRoom r.cfg.software < 2 ^ 16 then
        some (.data (data.take (data.length % 2 ^ 16)) p.addr)
      else none := by
  obtain ⟨bytes, hwrite, hlen, htype⟩ := exists_write_carrier turnDataIndication
    transactionId.2 (show p.addr.ip ≠ .unspec from p.known) data r.cfg.software
  rw [dataIndication_eq, hwrite] at hpacket
  obtain rfl := Option.some.inj hpacket
  have hread := read_carrier (by decide) transactionId.2 hwrite hlen
  have hheader : ¬ bytes.length < turnChannelHeaderSize := by
    simp only [hlen, stunHeaderSize, turnChannelHeaderSize]
    omega
  have hstun : ¬ isTurnChannelData turnDataIndication := by decide
  simp only [onReadPacket, if_neg hheader, htype, if_neg hstun, if_true, handleDataIndication,
    hread]
  by_cases hroom : addressRoom p.ip + byteStringRoom (data.length % 2 ^ 16) +
      softwareRoom r.cfg.software < 2 ^ 16
  · rw [if_pos (by exact hroom)]
    simp only [bytesOf_carried, peerOf_carried]
    by_cases hpermission : r.port.hasPermission p.ip
    · exact (if_pos hpermission).trans (if_pos ⟨hpermission, hroom⟩).symm
    · exact (if_neg hpermission).trans (if_neg fun h => hpermission h.1).symm
  · rw [if_neg (by exact hroom), if_neg fun h => hroom h.2]

theorem deliver_channel {p : Peer} {c : Channel}
    (h : r.allocation.findChannelByPeer p.addr = some c) (transactionId : TransactionId)
    (data : List UInt8) : r.deliver p transactionId data =
      ((r.port.findEntry c.id).map fun e =>
        Received.data (data.take (data.length % 2 ^ 16)) e.extAddr).toList := by
  obtain ⟨hmin, hmax⟩ := r.numbered c (List.mem_of_find?_eq_some h)
  rw [deliver, Allocation.onExternalPacket, h]
  simp only [List.filterMap_cons, List.filterMap_nil, wire, Option.bind_some,
    onReadPacket_channelData hmin hmax]
  cases r.port.findEntry c.id <;> rfl

theorem deliver_indication {p : Peer} (h : r.allocation.findChannelByPeer p.addr = none)
    (transactionId : TransactionId) (data : List UInt8) : r.deliver p transactionId data =
      if (r.allocation.hasPermission p.ip ∧ r.port.hasPermission p.ip) ∧ addressRoom p.ip +
          byteStringRoom (data.length % 2 ^ 16) + softwareRoom r.cfg.software < 2 ^ 16 then
        [.data (data.take (data.length % 2 ^ 16)) p.addr]
      else [] := by
  obtain ⟨packet, hwrite, -⟩ := exists_write_carrier turnDataIndication
    transactionId.2 (show p.addr.ip ≠ .unspec from p.known) data r.cfg.software
  rw [← dataIndication_eq] at hwrite
  have hread := onReadPacket_dataIndication p transactionId data hwrite
  have hip : p.addr.ip = p.ip := rfl
  rw [deliver, Allocation.onExternalPacket, h, hip]
  by_cases hpermission : r.allocation.hasPermission p.ip
  · simp only [hpermission, if_true, List.filterMap_cons, List.filterMap_nil, wire, hwrite,
      Option.bind_some, hread, true_and]
    by_cases hcond : r.port.hasPermission p.ip ∧ addressRoom p.ip +
        byteStringRoom (data.length % 2 ^ 16) + softwareRoom r.cfg.software < 2 ^ 16
    · rw [if_pos hcond, if_pos hcond]
    · rw [if_neg hcond, if_neg hcond]
  · simp only [hpermission, if_false, List.filterMap_nil, Bool.false_eq_true, false_and]

theorem transparent_datagram (p : Peer) (transactionId : TransactionId) (data : List UInt8) :
    r.Transparent (.datagram p transactionId data) ↔
      r.Carried (.datagram p transactionId data) := by
  simp only [Transparent, Carried]
  cases hfind : r.allocation.findChannelByPeer p.addr with
  | some c =>
    rw [deliver_channel hfind]
    cases hentry : r.port.findEntry c.id with
    | none =>
      constructor
      · rintro ⟨_, hout, -⟩
        cases hout
      · rintro ⟨-, _, he, -⟩
        cases hentry.symm.trans he
    | some e =>
      constructor
      · rintro ⟨addr, hout, hpeer⟩
        obtain ⟨hdata, rfl⟩ := Received.data.inj (List.cons.inj hout).1
        exact ⟨take_mod_eq hdata (by decide), e, hentry, hpeer⟩
      · rintro ⟨hlt, e', he', hpeer⟩
        obtain rfl := Option.some.inj (hentry.symm.trans he')
        refine ⟨e.extAddr, ?_, hpeer⟩
        rw [Nat.mod_eq_of_lt hlt, List.take_length]
        rfl
  | none =>
    rw [deliver_indication hfind]
    constructor
    · rintro ⟨addr, hout, -⟩
      split at hout
      · rename_i hcond
        have hdata := (Received.data.inj (List.cons.inj hout).1).1
        rwa [Nat.mod_eq_of_lt (take_mod_eq hdata (by decide))] at hcond
      · cases hout
    · rintro ⟨hpermission, hroom⟩
      have hlt : data.length < 2 ^ 16 := by
        rw [byteStringRoom] at hroom
        omega
      refine ⟨p.addr, ?_, rfl, rfl⟩
      rw [Nat.mod_eq_of_lt hlt, if_pos ⟨hpermission, hroom⟩, List.take_length]

/-- A relay is transparent exactly for what it carries. -/
theorem transparent_iff (r : Relay) (transfer : Transfer) :
    r.Transparent transfer ↔ r.Carried transfer := by
  cases transfer with
  | send entry transactionId payload => exact transparent_send entry transactionId payload
  | channelMessage message => exact transparent_channelMessage message
  | datagram peer transactionId data => exact transparent_datagram peer transactionId data

def boundRelay : Relay where
  cfg := plainSettings
  server := {}
  conn := ⟨.ofIP (.inet 1) 1000, .udp, 0⟩
  id := 0
  allocation := {
    conn := ⟨.ofIP (.inet 1) 1000, .udp, 0⟩
    relayed := .ofIP (.inet 2) 3000
    key := [1, 2]
    perms := [⟨.inet 9, 300000⟩]
    channels := [⟨0x4000, .ofIP (.inet 9) 2000, 600000⟩] }
  port := {
    entries := [⟨0x4000, .ofIP (.inet 9) 2000, .bound, fun h => (nomatch h), fun _ => by decide⟩]
    computeHmac := plainSettings.computeHmac
    hash := [1, 2] }
  numbered := by
    intro c hc
    obtain rfl := List.mem_singleton.mp hc
    decide

/-- The server relays the padding of a channel message along with its data. -/
theorem padding_relayed :
    let message : List UInt8 := [0x40, 0, 0, 1, 104, 0, 0, 0]
    boundRelay.forward message = [.external [104, 0, 0, 0] (.ofIP (.inet 9) 2000)] ∧
      ¬ boundRelay.Transparent (.channelMessage message) := by
  intro message
  have hforward : boundRelay.forward message =
      [.external [104, 0, 0, 0] (.ofIP (.inet 9) 2000)] := by decide
  refine ⟨hforward, fun h => ?_⟩
  obtain ⟨data, padding, -, hlen, hout⟩ := h ⟨0x4000, .ofIP (.inet 9) 2000, 600000⟩ (by decide)
  rw [hforward] at hout
  obtain rfl := (Output.external.inj (List.cons.inj hout).1).1
  exact absurd hlen (by decide)

end Relay

end Libjingle
