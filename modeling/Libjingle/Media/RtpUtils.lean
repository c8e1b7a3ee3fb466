import Libjingle.Base.ByteOrder
import Mathlib.Tactic.Common

/-! The header of an RTP packet. -/

namespace Libjingle

def kRtpVersion : Nat := 2
def kMinRtpPacketLen : Nat := 12
def kRtpFlagsOffset : Nat := 0
def kRtpPayloadTypeOffset : Nat := 1
def kRtpSeqNumOffset : Nat := 2
def kRtpTimestampOffset : Nat := 4
def kRtpSsrcOffset : Nat := 8

structure RtpHeader where
  payloadType : Int
  seqNum : Int
  timestamp : UInt32
  ssrc : UInt32
  deriving DecidableEq, Repr

def getRtpPayloadType (data : List UInt8) : Option Int :=
  if data.length < kMinRtpPacketLen then none
  else some (data.getD kRtpPayloadTypeOffset 0 &&& 0x7F).toNat

def getRtpSeqNum (data : List UInt8) : Option Int :=
  if data.length < kMinRtpPacketLen then none else some (getBE16 data kRtpSeqNumOffset).toNat

def getRtpTimestamp (data : List UInt8) : Option UInt32 :=
  if data.length < kMinRtpPacketLen then none else some (getBE32 data kRtpTimestampOffset)

def getRtpSsrc (data : List UInt8) : Option UInt32 :=
  if data.length < kMinRtpPacketLen then none else some (getBE32 data kRtpSsrcOffset)

def getRtpHeader (data : List UInt8) : Option RtpHeader := do
  let payloadType ← getRtpPayloadType data
  let seqNum ← getRtpSeqNum data
  let timestamp ← getRtpTimestamp data
  let ssrc ← getRtpSsrc data
  return { payloadType, seqNum, timestamp, ssrc }

def getRtpHeaderLen (data : List UInt8) : Option Nat :=
  if data.length < kMinRtpPacketLen then none
  else
    let flags := data.getD kRtpFlagsOffset 0
    let headerSize := kMinRtpPacketLen + (flags &&& 0xF).toNat * 4
    if data.length < headerSize then none
    else if flags &&& 0x10 ≠ 0 then
      if data.length < headerSize + 4 then none
      else
        let extended := headerSize + ((getBE16 data (headerSize + 2)).toNat + 1) * 4
        if data.length < extended then none else some extended
    else some headerSize

/-- The low byte of an `int` is stored. -/
def setUint8 (data : List UInt8) (offset : Nat) (value : Int) : List UInt8 :=
  data.set offset (UInt8.ofInt value)

def setUint16 (data : List UInt8) (offset : Nat) (value : Int) : List UInt8 :=
  setBE16 data offset (UInt16.ofInt value)

def setUint32 (data : List UInt8) (offset : Nat) (value : UInt32) : List UInt8 :=
  data.take offset ++ (longToBytes value ++ data.drop (offset + 4))

def setRtpHeaderFlags (data : List UInt8) (padding extension : Bool) (csrcCount : Nat) :
    Option (List UInt8) :=
  if csrcCount > 0x0F then none
  else
    some (setUint8 data kRtpFlagsOffset
      (kRtpVersion <<< 6 ||| (if padding then 1 else 0) <<< 5 |||
        (if extension then 1 else 0) <<< 4 ||| csrcCount : Nat))

/-- The marker bit is left zero. -/
def setRtpPayloadType (data : List UInt8) (value : Int) : Option (List UInt8) :=
  if value ≥ 0x7F then none else some (setUint8 data kRtpPayloadTypeOffset (value % 128))

def setRtpHeader (data : List UInt8) (header : RtpHeader) : Option (List UInt8) := do
  let data ← setRtpHeaderFlags data false false 0
  let data ← setRtpPayloadType data header.payloadType
  let data := setUint16 data kRtpSeqNumOffset header.seqNum
  let data := setUint32 data kRtpTimestampOffset header.timestamp
  return setUint32 data kRtpSsrcOffset header.ssrc

def plainHeader (payloadType : UInt8) (seqNum : UInt16) (timestamp ssrc : UInt32) : List UInt8 :=
  [0x80, payloadType] ++ shortToBytes seqNum ++ longToBytes timestamp ++ longToBytes ssrc

@[simp] theorem length_plainHeader (payloadType : UInt8) (seqNum : UInt16)
    (timestamp ssrc : UInt32) :
    (plainHeader payloadType seqNum timestamp ssrc).length = kMinRtpPacketLen := by
  simp [plainHeader, kMinRtpPacketLen]

theorem setUint16_append {pre : List UInt8} {offset : Nat} (h : pre.length = offset)
    (rest : List UInt8) (value : Int) :
    setUint16 (pre ++ rest) offset value =
      pre ++ shortToBytes (UInt16.ofInt value) ++ rest.drop 2 := by
  subst h
  have hdrop : (pre ++ rest).drop (pre.length + 2) = rest.drop 2 := List.drop_length_add_append _
  rw [setUint16, setBE16, List.take_left, hdrop, List.append_assoc]

theorem setUint32_append {pre : List UInt8} {offset : Nat} (h : pre.length = offset)
    (rest : List UInt8) (value : UInt32) :
    setUint32 (pre ++ rest) offset value = pre ++ longToBytes value ++ rest.drop 4 := by
  subst h
  have hdrop : (pre ++ rest).drop (pre.length + 4) = rest.drop 4 := List.drop_length_add_append _
  rw [setUint32, List.take_left, hdrop, List.append_assoc]

theorem setRtpHeader_of_lt {data : List UInt8} {header : RtpHeader}
    (hlen : data.length = kMinRtpPacketLen) (hlt : header.payloadType < 127) :
    setRtpHeader data header = some (plainHeader (UInt8.ofInt (header.payloadType % 128))
      (UInt16.ofInt header.seqNum) header.timestamp header.ssrc) := by
  obtain ⟨a, b, rest, rfl⟩ : ∃ a b rest, data = a :: b :: rest := by
    cases data with
    | nil => cases hlen
    | cons a tail =>
      cases tail with
      | nil => cases hlen
      | cons b rest => exact ⟨a, b, rest, rfl⟩
  have htype : ¬ header.payloadType ≥ 127 := by omega
  have hrest : rest.length ≤ 10 := by
    simp only [List.length_cons, kMinRtpPacketLen] at hlen
    omega
  have hflags : setRtpHeaderFlags (a :: b :: rest) false false 0 = some (0x80 :: b :: rest) := rfl
  have hfirst : setRtpPayloadType (0x80 :: b :: rest) header.payloadType =
      some ([0x80, UInt8.ofInt (header.payloadType % 128)] ++ rest) := by
    rw [setRtpPayloadType, if_neg htype]
    rfl
  simp only [setRtpHeader, hflags, hfirst, Option.bind_eq_bind, Option.bind_some, plainHeader]
  rw [setUint16_append (by rfl), setUint32_append (by simp [kRtpTimestampOffset]),
    setUint32_append (by simp [kRtpSsrcOffset]), List.drop_drop, List.drop_drop,
    List.drop_eq_nil_of_le (by omega), List.append_nil]
  rfl

theorem getRtpHeader_plainHeader {payloadType : UInt8} (hlt : payloadType < 128) (seqNum : UInt16)
    (timestamp ssrc : UInt32) (rest : List UInt8) :
    getRtpHeader (plainHeader payloadType seqNum timestamp ssrc ++ rest) =
      some ⟨payloadType.toNat, seqNum.toNat, timestamp, ssrc⟩ := by
  have hlen := length_plainHeader payloadType seqNum timestamp ssrc
  have hshort : ¬ (plainHeader payloadType seqNum timestamp ssrc ++ rest).length <
      kMinRtpPacketLen := by
    rw [List.length_append, hlen]
    omega
  have htype : (plainHeader payloadType seqNum timestamp ssrc ++ rest).getD kRtpPayloadTypeOffset 0 =
      payloadType := rfl
  have hmask : payloadType &&& 0x7F = payloadType := by
    rw [← UInt8.toNat_inj, UInt8.toNat_and]
    exact (Nat.and_two_pow_sub_one_eq_mod _ 7).trans (Nat.mod_eq_of_lt hlt)
  have hseq : getBE16 (plainHeader payloadType seqNum timestamp ssrc ++ rest) kRtpSeqNumOffset =
      seqNum :=
    getBE16_append [0x80, payloadType] (longToBytes timestamp ++ longToBytes ssrc ++ rest) rfl (by
      simp [plainHeader])
  have hstamp : getBE32 (plainHeader payloadType seqNum timestamp ssrc ++ rest)
      kRtpTimestampOffset = timestamp :=
    getBE32_append ([0x80, payloadType] ++ shortToBytes seqNum) (longToBytes ssrc ++ rest)
      (by simp [kRtpTimestampOffset]) (by simp [plainHeader])
  have hssrc : getBE32 (plainHeader payloadType seqNum timestamp ssrc ++ rest) kRtpSsrcOffset =
      ssrc :=
    getBE32_append ([0x80, payloadType] ++ shortToBytes seqNum ++ longToBytes timestamp) rest
      (by simp [kRtpSsrcOffset]) (by simp [plainHeader])
  simp only [getRtpHeader, getRtpPayloadType, getRtpSeqNum, getRtpTimestamp, getRtpSsrc, hshort,
    htype, hmask, hseq, hstamp, hssrc, if_false]
  rfl

theorem getRtpHeaderLen_plainHeader (payloadType : UInt8) (seqNum : UInt16)
    (timestamp ssrc : UInt32) (rest : List UInt8) :
    getRtpHeaderLen (plainHeader payloadType seqNum timestamp ssrc ++ rest) =
      some kMinRtpPacketLen := by
  have hlen := length_plainHeader payloadType seqNum timestamp ssrc
  have hflags : (plainHeader payloadType seqNum timestamp ssrc ++ rest).getD kRtpFlagsOffset 0 =
      0x80 := rfl
  have hcount : ((0x80 : UInt8) &&& 0xF).toNat = 0 := rfl
  have hextension : ¬ (0x80 : UInt8) &&& 0x10 ≠ 0 := by decide
  have hshort : ¬ (plainHeader payloadType seqNum timestamp ssrc ++ rest).length <
      kMinRtpPacketLen := by
    rw [List.length_append, hlen]
    omega
  simp only [getRtpHeaderLen, hflags, hcount, hextension, hshort, Nat.zero_mul, Nat.add_zero,
    if_false]

theorem uint16_ofInt_toNat (v : UInt16) : UInt16.ofInt (v.toNat : Int) = v := by
  have hlt := v.toNat_lt
  have hval : ((v.toNat : Int) % 2 ^ 16).toNat = v.toNat := by omega
  rw [UInt16.ofInt, hval, UInt16.ofNat_toNat]

theorem toNat_payloadType {id : Int} (hpos : 0 ≤ id) (hlt : id < 127) :
    ((UInt8.ofInt (id % 128)).toNat : Int) = id := by
  have hval : (id % 128 % 2 ^ 8).toNat = id.toNat := by omega
  have hbyte : (UInt8.ofNat id.toNat).toNat = id.toNat :=
    UInt8.toNat_ofNat_of_lt' (by simp only [UInt8.size]; omega)
  rw [UInt8.ofInt, hval, hbyte]
  omega

theorem setRtpHeader_of_ge {data : List UInt8} {header : RtpHeader}
    (hge : header.payloadType ≥ 127) : setRtpHeader data header = none := by
  simp [setRtpHeader, setRtpPayloadType, hge]

end Libjingle
