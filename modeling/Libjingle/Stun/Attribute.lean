import Libjingle.Base.ByteBuffer
import Libjingle.Base.SocketAddress

/-! STUN attributes: the kinds of values, how each is written and how it is read
back. The length of an attribute is the one its setters keep. -/

namespace Libjingle

inductive StunMessageClass
  | stun
  | relay
  | turn
  | ice
  deriving DecidableEq, Repr

inductive StunAttributeValueType
  | unknown
  | address
  | xorAddress
  | uint32
  | uint64
  | byteString
  | errorCode
  | uint16List
  deriving DecidableEq, Repr

inductive StunAttributeValue
  | address (addr : SocketAddress)
  | xorAddress (addr : SocketAddress)
  | uint32 (bits : UInt32)
  | uint64 (bits : UInt64)
  | byteString (bytes : List UInt8)
  | errorCode (eclass number : UInt8) (reason : List UInt8)
  | uint16List (types : List UInt16)
  deriving DecidableEq, Repr

structure StunAttribute where
  type : UInt16
  value : StunAttributeValue
  deriving DecidableEq, Repr

def stunAttrMappedAddress : UInt16 := 0x0001
def stunAttrUsername : UInt16 := 0x0006
def stunAttrMessageIntegrity : UInt16 := 0x0008
def stunAttrErrorCode : UInt16 := 0x0009
def stunAttrUnknownAttributes : UInt16 := 0x000a
def stunAttrRealm : UInt16 := 0x0014
def stunAttrNonce : UInt16 := 0x0015
def stunAttrXorMappedAddress : UInt16 := 0x0020
def stunAttrSoftware : UInt16 := 0x8022
def stunAttrAlternateServer : UInt16 := 0x8023
def stunAttrFingerprint : UInt16 := 0x8028
def stunAttrRetransmitCount : UInt16 := 0xff00

def stunAttrLifetime : UInt16 := 0x000d
def stunAttrMagicCookie : UInt16 := 0x000f
def stunAttrBandwidth : UInt16 := 0x0010
def stunAttrDestinationAddress : UInt16 := 0x0011
def stunAttrSourceAddress2 : UInt16 := 0x0012
def stunAttrData : UInt16 := 0x0013
def stunAttrOptions : UInt16 := 0x8001

def stunAttrChannelNumber : UInt16 := 0x000c
def stunAttrTurnLifetime : UInt16 := 0x000d
def stunAttrXorPeerAddress : UInt16 := 0x0012
def stunAttrXorRelayedAddress : UInt16 := 0x0016
def stunAttrEvenPort : UInt16 := 0x0018
def stunAttrRequestedTransport : UInt16 := 0x0019
def stunAttrDontFragment : UInt16 := 0x001a
def stunAttrReservationToken : UInt16 := 0x0022

def stunAttrPriority : UInt16 := 0x0024
def stunAttrUseCandidate : UInt16 := 0x0025
def stunAttrIceControlled : UInt16 := 0x8029
def stunAttrIceControlling : UInt16 := 0x802a

def StunMessage.valueTypes : List (UInt16 × StunAttributeValueType) := [
  (stunAttrMappedAddress, .address),
  (stunAttrUsername, .byteString),
  (stunAttrMessageIntegrity, .byteString),
  (stunAttrErrorCode, .errorCode),
  (stunAttrUnknownAttributes, .uint16List),
  (stunAttrRealm, .byteString),
  (stunAttrNonce, .byteString),
  (stunAttrXorMappedAddress, .xorAddress),
  (stunAttrSoftware, .byteString),
  (stunAttrAlternateServer, .byteString),
  (stunAttrFingerprint, .uint32),
  (stunAttrRetransmitCount, .uint32)]

def RelayMessage.valueTypes : List (UInt16 × StunAttributeValueType) := [
  (stunAttrLifetime, .uint32),
  (stunAttrMagicCookie, .byteString),
  (stunAttrBandwidth, .uint32),
  (stunAttrDestinationAddress, .address),
  (stunAttrSourceAddress2, .address),
  (stunAttrData, .byteString),
  (stunAttrOptions, .uint32)]

def TurnMessage.valueTypes : List (UInt16 × StunAttributeValueType) := [
  (stunAttrChannelNumber, .uint32),
  (stunAttrTurnLifetime, .uint32),
  (stunAttrXorPeerAddress, .xorAddress),
  (stunAttrData, .byteString),
  (stunAttrXorRelayedAddress, .xorAddress),
  (stunAttrEvenPort, .byteString),
  (stunAttrRequestedTransport, .uint32),
  (stunAttrDontFragment, .byteString),
  (stunAttrReservationToken, .byteString)]

def IceMessage.valueTypes : List (UInt16 × StunAttributeValueType) := [
  (stunAttrPriority, .uint32),
  (stunAttrUseCandidate, .byteString),
  (stunAttrIceControlled, .uint64),
  (stunAttrIceControlling, .uint64)]

/-- `GetAttributeValueType`, virtual in the class of the message. -/
def StunMessageClass.getAttributeValueType (c : StunMessageClass) (type : UInt16) :
    StunAttributeValueType :=
  let own := match c with
    | .stun => []
    | .relay => RelayMessage.valueTypes
    | .turn => TurnMessage.valueTypes
    | .ice => IceMessage.valueTypes
  ((own ++ StunMessage.valueTypes).lookup type).getD .unknown

def stunMagicCookie : UInt32 := 0x2112a442

def stunTransactionIdLength : Nat := 12

def stunLegacyTransactionIdLength : Nat := 16

/-- How many bytes `ConsumePadding` and `WritePadding` pad a length with. -/
def stunPadding (length : UInt16) : Nat := (4 - length.toNat % 4) % 4

def stunPaddedLength (length : UInt16) : Nat := length.toNat + stunPadding length

/-- `ConsumePadding`: padding that is not there is not missed. -/
def consumePadding (length : UInt16) (buf : ByteBuffer) : ByteBuffer :=
  (buf.consume (stunPadding length)).getD buf

def writePadding (length : UInt16) : List UInt8 := List.replicate (stunPadding length) 0

/-- `GetXoredIP`, in a message with the given transaction id. -/
def getXoredIP (transactionId : List UInt8) : IPAddress → IPAddress
  | .unspec => .unspec
  | .inet a => .inet (a ^^^ stunMagicCookie)
  | .inet6 a =>
    if transactionId.length = stunTransactionIdLength then
      .inet6 {
        word0 := a.word0 ^^^ stunMagicCookie
        word1 := a.word1 ^^^ bytesToLong (transactionId.take 4)
        word2 := a.word2 ^^^ bytesToLong ((transactionId.drop 4).take 4)
        word3 := a.word3 ^^^ bytesToLong ((transactionId.drop 8).take 4) }
    else .unspec

def getXoredPort (port : UInt16) : UInt16 := port ^^^ (stunMagicCookie >>> 16).toUInt16

namespace StunAttributeValue

def valueType : StunAttributeValue → StunAttributeValueType
  | .address _ => .address
  | .xorAddress _ => .xorAddress
  | .uint32 _ => .uint32
  | .uint64 _ => .uint64
  | .byteString _ => .byteString
  | .errorCode _ _ _ => .errorCode
  | .uint16List _ => .uint16List

/-- `EnsureAddressLength` -/
def addressLength : IPAddress → UInt16
  | .unspec => 0
  | .inet _ => 8
  | .inet6 _ => 20

/-- The length in the attribute's header, as `SetLength` gets it. -/
def length : StunAttributeValue → UInt16
  | .address addr | .xorAddress addr => addressLength addr.ip
  | .uint32 _ => 4
  | .uint64 _ => 8
  | .byteString bytes => UInt16.ofNat bytes.length
  | .errorCode _ _ reason => 4 + UInt16.ofNat reason.length
  | .uint16List types => UInt16.ofNat (types.length * 2)

def writeAddress (ip : IPAddress) (port : UInt16) : Option (List UInt8) :=
  match ip with
  | .unspec => none
  | .inet a => some ([0, 1] ++ shortToBytes port ++ longToBytes a)
  | .inet6 a => some ([0, 2] ++ shortToBytes port ++ longToBytes a.word0 ++ longToBytes a.word1 ++
      longToBytes a.word2 ++ longToBytes a.word3)

/-- `Write`: the body in a message with the given transaction id. -/
def write (transactionId : List UInt8) : StunAttributeValue → Option (List UInt8)
  | .address addr => writeAddress addr.ip addr.port
  | .xorAddress addr => writeAddress (getXoredIP transactionId addr.ip) (getXoredPort addr.port)
  | .uint32 bits => some (longToBytes bits)
  | .uint64 bits => some (longLongToBytes bits)
  | .byteString bytes =>
    let length := UInt16.ofNat bytes.length
    some (bytes.take length.toNat ++ writePadding length)
  | .errorCode eclass number reason =>
    some (longToBytes (eclass.toUInt32 <<< 8 ||| number.toUInt32) ++ reason ++
      writePadding (4 + UInt16.ofNat reason.length))
  | .uint16List types =>
    some (types.flatMap shortToBytes ++ writePadding (UInt16.ofNat (types.length * 2)))

def readAddress (length : UInt16) (buf : ByteBuffer) : Option (SocketAddress × ByteBuffer) := do
  let (_, buf) ← buf.readUInt8
  let (family, buf) ← buf.readUInt8
  let (port, buf) ← buf.readUInt16
  if family = 1 then
    if length ≠ 8 then none
    else
      let (a, buf) ← buf.readUInt32
      some (.ofIP (.inet a) port, buf)
  else if family = 2 then
    if length ≠ 20 then none
    else
      let (word0, buf) ← buf.readUInt32
      let (word1, buf) ← buf.readUInt32
      let (word2, buf) ← buf.readUInt32
      let (word3, buf) ← buf.readUInt32
      some (.ofIP (.inet6 ⟨word0, word1, word2, word3⟩) port, buf)
  else none

/-- The loop that reads a list of `n` types. -/
def readTypes : Nat → ByteBuffer → Option (List UInt16 × ByteBuffer)
  | 0, buf => some ([], buf)
  | n + 1, buf => do
    let (attr, buf) ← buf.readUInt16
    let (types, buf) ← readTypes n buf
    some (attr :: types, buf)

/-- `Read` of the attribute that was created for a value type and a length. -/
def read (transactionId : List UInt8) (valueType : StunAttributeValueType) (length : UInt16)
    (buf : ByteBuffer) : Option (StunAttributeValue × ByteBuffer) :=
  match valueType with
  | .unknown => none
  | .address => do
    let (addr, buf) ← readAddress length buf
    some (.address addr, buf)
  | .xorAddress => do
    let (addr, buf) ← readAddress length buf
    some (.xorAddress (.ofIP (getXoredIP transactionId addr.ip) (getXoredPort addr.port)), buf)
  | .uint32 => do
    let (bits, buf) ← buf.readUInt32
    some (.uint32 bits, buf)
  | .uint64 => do
    let (bits, buf) ← buf.readUInt64
    some (.uint64 bits, buf)
  | .byteString => do
    let (bytes, buf) ← buf.readBytes length.toNat
    some (.byteString bytes, consumePadding length buf)
  | .errorCode =>
    if length < 4 then none
    else do
      let (val, buf) ← buf.readUInt32
      let (reason, buf) ← buf.readBytes (length.toNat - 4)
      some (.errorCode (val >>> 8 &&& 7).toUInt8 (val &&& 0xff).toUInt8 reason,
        consumePadding length buf)
  | .uint16List =>
    if length % 2 ≠ 0 then none
    else do
      let (types, buf) ← readTypes (length.toNat / 2) buf
      some (.uint16List types, consumePadding length buf)

section Writing

variable {transactionId : List UInt8} {v : StunAttributeValue} {body : List UInt8}

theorem length_writePadding (length : UInt16) : (writePadding length).length = stunPadding length := by
  simp [writePadding]

theorem consumePadding_append {length : UInt16} {padding : List UInt8}
    (h : padding.length = stunPadding length) (rest : List UInt8) :
    consumePadding length (padding ++ rest) = rest := by
  have hconsume : ByteBuffer.consume (padding ++ rest) (stunPadding length) = some rest :=
    ByteBuffer.consume_eq_some.mpr ⟨_, rfl, h⟩
  rw [consumePadding, hconsume, Option.getD_some]

/-- The value as it comes out of a packet: without a hostname, and with no more
bytes than the length says. -/
def encoded : StunAttributeValue → StunAttributeValue
  | .address addr => .address (.ofIP addr.ip addr.port)
  | .xorAddress addr => .xorAddress (.ofIP addr.ip addr.port)
  | .byteString bytes => .byteString (bytes.take (UInt16.ofNat bytes.length).toNat)
  | v => v

/-- The class of an error code fits the three bits it is read from. -/
def ClassFits : StunAttributeValue → Prop
  | .errorCode eclass _ _ => eclass < 8
  | _ => True

theorem readAddress_writeAddress {ip : IPAddress} {port : UInt16} {body : List UInt8}
    (h : writeAddress ip port = some body) (rest : List UInt8) :
    readAddress (addressLength ip) (body ++ rest) = some (.ofIP ip port, rest) := by
  cases ip with
  | unspec => cases h
  | inet a =>
    obtain rfl := Option.some.inj h
    simp [readAddress, addressLength, SocketAddress.ofIP]
  | inet6 a =>
    obtain rfl := Option.some.inj h
    simp [readAddress, addressLength, SocketAddress.ofIP]

theorem length_writeAddress {ip : IPAddress} {port : UInt16} {body : List UInt8}
    (h : writeAddress ip port = some body) : body.length = stunPaddedLength (addressLength ip) := by
  cases ip with
  | unspec => cases h
  | inet a =>
    obtain rfl := Option.some.inj h
    simp only [List.length_append, length_shortToBytes, length_longToBytes]
    exact (by decide : 8 = stunPaddedLength 8)
  | inet6 a =>
    obtain rfl := Option.some.inj h
    simp only [List.length_append, length_shortToBytes, length_longToBytes]
    exact (by decide : 20 = stunPaddedLength 20)

theorem getXoredPort_getXoredPort (port : UInt16) : getXoredPort (getXoredPort port) = port := by
  rw [getXoredPort, getXoredPort, UInt16.xor_assoc, UInt16.xor_self, UInt16.xor_zero]

theorem getXoredIP_getXoredIP {ip : IPAddress} (h : getXoredIP transactionId ip ≠ .unspec) :
    getXoredIP transactionId (getXoredIP transactionId ip) = ip ∧
      addressLength (getXoredIP transactionId ip) = addressLength ip := by
  cases ip with
  | unspec => exact absurd rfl h
  | inet a => simp [getXoredIP, UInt32.xor_assoc, addressLength]
  | inet6 a =>
    by_cases hlen : transactionId.length = stunTransactionIdLength
    · simp [getXoredIP, hlen, UInt32.xor_assoc, addressLength]
    · simp [getXoredIP, hlen] at h

theorem length_flatMap_shortToBytes (types : List UInt16) :
    (types.flatMap shortToBytes).length = types.length * 2 := by
  induction types with
  | nil => rfl
  | cons t rest ih =>
    rw [List.flatMap_cons, List.length_append, length_shortToBytes, ih, List.length_cons]
    omega

theorem readTypes_append (types : List UInt16) (rest : List UInt8) :
    readTypes types.length (types.flatMap shortToBytes ++ rest) = some (types, rest) := by
  induction types with
  | nil => rfl
  | cons t types ih =>
    rw [List.flatMap_cons, List.append_assoc, List.length_cons, readTypes,
      ByteBuffer.readUInt16_append]
    simp [ih]

theorem errorCode_word (eclass number : UInt8) :
    (eclass.toUInt32 <<< 8 ||| number.toUInt32).toNat = eclass.toNat * 256 + number.toNat := by
  have hn := number.toNat_lt
  have hc := eclass.toNat_lt
  have hor := Nat.shiftLeft_add_eq_or_of_lt (show number.toNat < 2 ^ 8 by omega) eclass.toNat
  rw [UInt32.toNat_or, UInt32.toNat_shiftLeft, UInt8.toNat_toUInt32, UInt8.toNat_toUInt32]
  change (eclass.toNat <<< 8 % 2 ^ 32) ||| number.toNat = _
  rw [Nat.mod_eq_of_lt (by rw [Nat.shiftLeft_eq]; omega), ← hor, Nat.shiftLeft_eq]

theorem errorCode_class (eclass number : UInt8) (h : eclass < 8) :
    ((eclass.toUInt32 <<< 8 ||| number.toUInt32) >>> 8 &&& 7).toUInt8 = eclass := by
  have hn := number.toNat_lt
  have hc := UInt8.lt_iff_toNat_lt.mp h
  rw [← UInt8.toNat_inj, UInt32.toNat_toUInt8, UInt32.toNat_and, UInt32.toNat_shiftRight,
    errorCode_word]
  change ((eclass.toNat * 256 + number.toNat) >>> 8 &&& 2 ^ 3 - 1) % 2 ^ 8 = _
  change eclass.toNat < 8 at hc
  rw [Nat.and_two_pow_sub_one_eq_mod, Nat.shiftRight_eq_div_pow]
  omega

theorem errorCode_number (eclass number : UInt8) :
    ((eclass.toUInt32 <<< 8 ||| number.toUInt32) &&& 0xff).toUInt8 = number := by
  have hn := number.toNat_lt
  rw [← UInt8.toNat_inj, UInt32.toNat_toUInt8, UInt32.toNat_and, errorCode_word]
  change ((eclass.toNat * 256 + number.toNat) &&& 2 ^ 8 - 1) % 2 ^ 8 = _
  rw [Nat.and_two_pow_sub_one_eq_mod]
  omega

theorem length_write (h : v.write transactionId = some body) (hle : body.length < 2 ^ 16) :
    body.length = stunPaddedLength v.length := by
  cases v with
  | address addr => exact length_writeAddress h
  | xorAddress addr =>
    have hip : getXoredIP transactionId addr.ip ≠ .unspec := by
      intro hip
      rw [write, hip] at h
      cases h
    rw [length_writeAddress h, (getXoredIP_getXoredIP hip).2]
    rfl
  | uint32 bits =>
    obtain rfl := Option.some.inj h
    rw [length_longToBytes]
    exact (by decide : 4 = stunPaddedLength 4)
  | uint64 bits =>
    obtain rfl := Option.some.inj h
    rw [length_longLongToBytes]
    exact (by decide : 8 = stunPaddedLength 8)
  | byteString bytes =>
    obtain rfl := Option.some.inj h
    have hmod : (UInt16.ofNat bytes.length).toNat ≤ bytes.length := by
      rw [UInt16.toNat_ofNat']
      exact Nat.mod_le _ _
    rw [List.length_append, List.length_take, length_writePadding, Nat.min_eq_left hmod]
    rfl
  | errorCode eclass number reason =>
    obtain rfl := Option.some.inj h
    simp only [List.length_append, length_longToBytes, length_writePadding] at hle ⊢
    have hlen : (4 + UInt16.ofNat reason.length).toNat = 4 + reason.length := by
      rw [UInt16.toNat_add, UInt16.toNat_ofNat']
      change (4 + reason.length % 2 ^ 16) % 2 ^ 16 = _
      omega
    rw [stunPaddedLength, length, hlen]
  | uint16List types =>
    obtain rfl := Option.some.inj h
    simp only [List.length_append, length_flatMap_shortToBytes, length_writePadding] at hle ⊢
    have hlen : (UInt16.ofNat (types.length * 2)).toNat = types.length * 2 :=
      UInt16.toNat_ofNat_of_lt' (by simp only [UInt16.size]; omega)
    rw [stunPaddedLength, length, hlen]

theorem read_of_write (h : v.write transactionId = some body) (hle : body.length < 2 ^ 16)
    (hfits : v.ClassFits) (rest : List UInt8) :
    read transactionId v.valueType v.length (body ++ rest) = some (v.encoded, rest) := by
  cases v with
  | address addr =>
    simp only [read, valueType, length]
    rw [readAddress_writeAddress h]
    rfl
  | xorAddress addr =>
    have hip : getXoredIP transactionId addr.ip ≠ .unspec := by
      intro hip
      rw [write, hip] at h
      cases h
    obtain ⟨hback, hlen⟩ := getXoredIP_getXoredIP hip
    simp only [read, valueType, length]
    rw [← hlen, readAddress_writeAddress h]
    simp only [SocketAddress.ofIP, Option.bind_eq_bind, Option.bind_some, hback,
      getXoredPort_getXoredPort, encoded]
  | uint32 bits =>
    obtain rfl := Option.some.inj h
    simp [read, valueType, encoded]
  | uint64 bits =>
    obtain rfl := Option.some.inj h
    simp [read, valueType, encoded]
  | byteString bytes =>
    obtain rfl := Option.some.inj h
    have hmod : (bytes.take (UInt16.ofNat bytes.length).toNat).length =
        (UInt16.ofNat bytes.length).toNat := by
      rw [List.length_take, UInt16.toNat_ofNat']
      exact Nat.min_eq_left (Nat.mod_le _ _)
    simp only [read, valueType, length, List.append_assoc]
    rw [ByteBuffer.readBytes_append hmod]
    simp only [Option.bind_eq_bind, Option.bind_some, consumePadding_append (length_writePadding _), encoded]
  | errorCode eclass number reason =>
    obtain rfl := Option.some.inj h
    simp only [List.length_append, length_longToBytes, length_writePadding] at hle
    have hlen : (4 + UInt16.ofNat reason.length).toNat = 4 + reason.length := by
      rw [UInt16.toNat_add, UInt16.toNat_ofNat']
      change (4 + reason.length % 2 ^ 16) % 2 ^ 16 = _
      omega
    have hmin : ¬ (errorCode eclass number reason).length < 4 := by
      rw [UInt16.lt_iff_toNat_lt, length, hlen]
      exact Nat.not_lt.mpr (Nat.le_add_right 4 _)
    have hreason : (errorCode eclass number reason).length.toNat - 4 = reason.length := by
      rw [length, hlen, Nat.add_sub_cancel_left]
    simp only [read, valueType]
    rw [if_neg hmin, hreason, List.append_assoc, List.append_assoc, ByteBuffer.readUInt32_append]
    simp only [Option.bind_eq_bind, Option.bind_some]
    rw [ByteBuffer.readBytes_append rfl]
    simp only [Option.bind_some, encoded, length,
      consumePadding_append (length_writePadding _),
      errorCode_class _ _ hfits, errorCode_number]
  | uint16List types =>
    obtain rfl := Option.some.inj h
    simp only [List.length_append, length_flatMap_shortToBytes, length_writePadding] at hle
    have hlen : (UInt16.ofNat (types.length * 2)).toNat = types.length * 2 :=
      UInt16.toNat_ofNat_of_lt' (by simp only [UInt16.size]; omega)
    have heven : ¬ (uint16List types).length % 2 ≠ 0 := by
      rw [not_not, ← UInt16.toNat_inj, UInt16.toNat_mod, length, hlen]
      exact Nat.mul_mod_left _ _
    have hcount : (uint16List types).length.toNat / 2 = types.length := by
      rw [length, hlen, Nat.mul_div_cancel _ (by decide)]
    simp only [read, valueType]
    rw [if_neg heven, hcount, List.append_assoc, readTypes_append]
    simp only [Option.bind_eq_bind, Option.bind_some, length, consumePadding_append (length_writePadding _), encoded]

end Writing

end StunAttributeValue

end Libjingle
