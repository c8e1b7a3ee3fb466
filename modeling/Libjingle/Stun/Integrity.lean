import Libjingle.Stun.WellFormed

/-! MESSAGE-INTEGRITY and FINGERPRINT: how a message gets them and how a packet is
checked for them. The digests are functions of the key and the bytes. -/

namespace Libjingle

open ByteBuffer Layout

namespace StunMessage

def stunMessageIntegritySize : Nat := 20

def stunFingerprintXorValue : UInt32 := 0x5354554e

/-- The walk over the raw bytes for the first MESSAGE-INTEGRITY attribute. -/
def findMessageIntegrity (data : List UInt8) : Nat → Nat → Option Nat
  | 0, _ => none
  | fuel + 1, currentPos =>
    if currentPos < data.length then
      let attrType := getBE16 data currentPos
      let attrLength := getBE16 data (currentPos + 2)
      if attrType = stunAttrMessageIntegrity then
        if attrLength.toNat ≠ stunMessageIntegritySize ∨
            currentPos + attrLength.toNat > data.length then none
        else some currentPos
      else findMessageIntegrity data fuel (currentPos + (4 + stunPaddedLength attrLength))
    else none

/-- What the digest is taken of: the bytes before the attribute, with the length
of a message that ends with it. -/
def integrityData (data : List UInt8) (miPos : Nat) : List UInt8 :=
  let size := data.length
  let miEnd := miPos + stunAttributeHeaderSize + stunMessageIntegritySize
  if size > miEnd then
    let extraOffset := size - miEnd
    setBE16 (data.take miPos) 2 (UInt16.ofNat (size - extraOffset - stunHeaderSize))
  else data.take miPos

def validateMessageIntegrity (computeHmac : List UInt8 → List UInt8 → List UInt8)
    (data password : List UInt8) : Bool :=
  if data.length % 4 ≠ 0 then false
  else if data.length ≠ (getBE16 data 2).toNat + stunHeaderSize then false
  else match findMessageIntegrity data data.length stunHeaderSize with
    | none => false
    | some miPos =>
      let hmac := computeHmac password (integrityData data miPos)
      if hmac.length ≠ stunMessageIntegritySize then false
      else (data.drop (miPos + stunAttributeHeaderSize)).take stunMessageIntegritySize = hmac

/-- `AddMessageIntegrity`: the message it leaves and whether it succeeded. -/
def addMessageIntegrity (computeHmac : List UInt8 → List UInt8 → List UInt8) (m : StunMessage)
    (key : List UInt8) : StunMessage × Bool :=
  let dummy := ⟨stunAttrMessageIntegrity, .byteString (List.replicate stunMessageIntegritySize 48)⟩
  let added := (m.addAttribute dummy).getD m
  match added.write with
  | none => (added, false)
  | some buf =>
    let msgLenForHmac := buf.length - stunAttributeHeaderSize - stunMessageIntegritySize
    let hmac := computeHmac key (buf.take msgLenForHmac)
    if hmac.length ≠ stunMessageIntegritySize then (added, false)
    else ({ added with attrs := m.attrs ++ [⟨stunAttrMessageIntegrity, .byteString hmac⟩] }, true)

def validateFingerprint (computeCrc32 : List UInt8 → UInt32) (data : List UInt8) : Bool :=
  let fingerprintAttrSize := stunAttributeHeaderSize + 4
  let size := data.length
  if size % 4 ≠ 0 ∨ size < stunHeaderSize + fingerprintAttrSize then false
  else if getBE32 data 4 ≠ stunMagicCookie then false
  else if getBE16 data (size - fingerprintAttrSize) ≠ stunAttrFingerprint ∨
      getBE16 data (size - fingerprintAttrSize + 2) ≠ 4 then false
  else getBE32 data (size - fingerprintAttrSize + stunAttributeHeaderSize) ^^^
    stunFingerprintXorValue = computeCrc32 (data.take (size - fingerprintAttrSize))

def addFingerprint (computeCrc32 : List UInt8 → UInt32) (m : StunMessage) : StunMessage × Bool :=
  let added := (m.addAttribute ⟨stunAttrFingerprint, .uint32 0⟩).getD m
  match added.write with
  | none => (added, false)
  | some buf =>
    let msgLenForCrc32 := buf.length - stunAttributeHeaderSize - 4
    let c := computeCrc32 (buf.take msgLenForCrc32)
    ({ added with attrs := m.attrs ++
      [⟨stunAttrFingerprint, .uint32 (c ^^^ stunFingerprintXorValue)⟩] }, true)

def integrityHeader : List UInt8 := shortToBytes stunAttrMessageIntegrity ++ shortToBytes 20

/-- The walk passes over attributes of other types and stops at the first
MESSAGE-INTEGRITY. -/
theorem findMessageIntegrity_tlvs {tlvs : List Tlv} {data : List UInt8} {fuel : Nat}
    (pre rest : List UInt8) (hframed : ∀ t ∈ tlvs, t.Framed) (htypes : ∀ t ∈ tlvs, t.type ≠ stunAttrMessageIntegrity)
    (hdata : data = pre ++ (tlvs.flatMap Tlv.bytes ++ (integrityHeader ++ rest)))
    (hrest : 16 ≤ rest.length) (hfuel : (tlvs.flatMap Tlv.bytes).length < fuel) :
    findMessageIntegrity data fuel pre.length =
      some (pre.length + (tlvs.flatMap Tlv.bytes).length) := by
  induction tlvs generalizing pre fuel with
  | nil =>
    obtain ⟨fuel, rfl⟩ : ∃ k, fuel = k + 1 := ⟨fuel - 1, by omega⟩
    rw [List.flatMap_nil, List.nil_append, integrityHeader, List.append_assoc] at hdata
    have htype : getBE16 data pre.length = stunAttrMessageIntegrity := getBE16_append pre _ rfl hdata
    have hlength : getBE16 data (pre.length + 2) = 20 := by
      refine getBE16_append (pre ++ shortToBytes stunAttrMessageIntegrity) rest ?_ ?_
      · rw [List.length_append, length_shortToBytes]
      · rw [List.append_assoc]
        exact hdata
    have hsize : data.length = pre.length + 4 + rest.length := by
      rw [hdata]
      simp only [List.length_append, length_shortToBytes]
      omega
    have hlt : pre.length < data.length := by omega
    have hfits : ¬ ((20 : UInt16).toNat ≠ stunMessageIntegritySize ∨
        pre.length + (20 : UInt16).toNat > data.length) := by
      rintro (hne | hgt)
      · exact hne rfl
      · change pre.length + 20 > data.length at hgt
        omega
    rw [findMessageIntegrity]
    simp only [hlt, if_true, htype, hlength, hfits, if_false]
    rfl
  | cons t tlvs ih =>
    obtain ⟨fuel, rfl⟩ : ∃ k, fuel = k + 1 := ⟨fuel - 1, by omega⟩
    have hne := htypes t List.mem_cons_self
    have hbody : t.body.length = stunPaddedLength t.length := hframed t List.mem_cons_self
    simp only [List.flatMap_cons, List.length_append, Tlv.length_bytes] at hfuel ⊢
    simp only [List.flatMap_cons, Tlv.bytes, List.append_assoc] at hdata
    have htype : getBE16 data pre.length = t.type := getBE16_append pre _ rfl hdata
    have hlength : getBE16 data (pre.length + 2) = t.length := by
      refine getBE16_append (pre ++ shortToBytes t.type) _ ?_ (by rw [List.append_assoc]; exact hdata)
      rw [List.length_append, length_shortToBytes]
    have hlt : pre.length < data.length := by
      rw [hdata]
      simp only [List.length_append, length_shortToBytes]
      omega
    have hstep : (pre ++ t.bytes).length = pre.length + (4 + stunPaddedLength t.length) := by
      rw [List.length_append, Tlv.length_bytes, hbody]
    have hnext := ih (pre ++ t.bytes) (fun a ha => hframed a (List.mem_cons_of_mem _ ha))
      (fun a ha => htypes a (List.mem_cons_of_mem _ ha))
      (by rw [hdata]; simp only [Tlv.bytes, List.append_assoc])
      (show (tlvs.flatMap Tlv.bytes).length < fuel by omega)
    rw [findMessageIntegrity]
    simp only [hlt, if_true, htype, hlength, hne, if_false]
    rw [← hstep, hnext, hstep, hbody, Nat.add_assoc]

theorem tlvs_of_writeAttributes {attrs : List StunAttribute} {id bytes : List UInt8}
    (h : writeAttributes id attrs = some bytes) (hle : bytes.length < 2 ^ 16) :
    ∃ tlvs : List Tlv, bytes = tlvs.flatMap Tlv.bytes ∧ (∀ t ∈ tlvs, t.Framed) ∧
      ∀ t ∈ tlvs, ∃ attr ∈ attrs, t.type = attr.type := by
  induction attrs generalizing bytes with
  | nil =>
    obtain rfl := Option.some.inj h
    exact ⟨[], rfl, fun _ ht => absurd ht List.not_mem_nil, fun _ ht => absurd ht List.not_mem_nil⟩
  | cons attr rest ih =>
    obtain ⟨body, others, hbody, hothers, rfl⟩ := writeAttributes_cons h
    simp only [List.length_append, length_shortToBytes] at hle
    have hbodylen : body.length < 2 ^ 16 := by omega
    obtain ⟨tlvs, rfl, hframed, htypes⟩ := ih hothers (by omega)
    refine ⟨⟨attr.type, attr.value.length, body⟩ :: tlvs, ?_, ?_, ?_⟩
    · simp only [List.flatMap_cons, Tlv.bytes, List.append_assoc]
    · intro t ht
      rcases List.mem_cons.mp ht with rfl | ht
      · exact StunAttributeValue.length_write hbody hbodylen
      · exact hframed t ht
    · intro t ht
      rcases List.mem_cons.mp ht with rfl | ht
      · exact ⟨attr, List.mem_cons_self, rfl⟩
      · obtain ⟨a, ha, heq⟩ := htypes t ht
        exact ⟨a, List.mem_cons_of_mem _ ha, heq⟩

theorem writeAttributes_append {id bytes : List UInt8} {attrs attrs' : List StunAttribute} :
    writeAttributes id (attrs ++ attrs') = some bytes ↔
      ∃ b b', writeAttributes id attrs = some b ∧ writeAttributes id attrs' = some b' ∧
        bytes = b ++ b' := by
  induction attrs generalizing bytes with
  | nil => simp [writeAttributes, eq_comm]
  | cons attr rest ih =>
    simp only [List.cons_append, writeAttributes, Option.bind_eq_bind, Option.bind_eq_some_iff, ih,
      Option.some.injEq]
    constructor
    · rintro ⟨first, hfirst, others, ⟨b, b', hb, hb', rfl⟩, rfl⟩
      exact ⟨first ++ b, b', ⟨first, hfirst, b, hb, rfl⟩, hb', (List.append_assoc _ _ _).symm⟩
    · rintro ⟨_, b', ⟨first, hfirst, b, hb, rfl⟩, hb', rfl⟩
      exact ⟨first, hfirst, b ++ b', ⟨b, b', hb, hb', rfl⟩, (List.append_assoc _ _ _).symm⟩

def header (type length : UInt16) (id : List UInt8) : List UInt8 :=
  shortToBytes type ++ (shortToBytes length ++ (longToBytes stunMagicCookie ++ id))

theorem length_header {type length : UInt16} {id : List UInt8}
    (hid : id.length = stunTransactionIdLength) : (header type length id).length = stunHeaderSize := by
  simp only [header, List.length_append, length_shortToBytes, length_longToBytes, hid]
  rfl

theorem write_eq_some {m : StunMessage} {bytes : List UInt8}
    (hid : m.transactionId.length = stunTransactionIdLength) :
    m.write = some bytes ↔ ∃ body, writeAttributes m.transactionId m.attrs = some body ∧
      bytes = header m.type m.length m.transactionId ++ body := by
  have hlegacy : m.isLegacy = false := by
    rw [isLegacy, hid]
    rfl
  simp only [write, writeHeader, hlegacy, Option.bind_eq_bind, Option.bind_eq_some_iff,
    Option.some.injEq, header, List.append_assoc]
  exact exists_congr fun body => and_congr_right fun _ => eq_comm

theorem setBE16_header {type length length' : UInt16} {id rest : List UInt8} :
    setBE16 (header type length id ++ rest) 2 length' = header type length' id ++ rest := by
  have htake : (header type length id ++ rest).take 2 = shortToBytes type := by
    rw [header, List.append_assoc]
    exact List.take_left' (length_shortToBytes type)
  have hsplit : header type length id ++ rest =
      (shortToBytes type ++ shortToBytes length) ++ (longToBytes stunMagicCookie ++ (id ++ rest)) := by
    simp only [header, List.append_assoc]
  have hlen : (shortToBytes type ++ shortToBytes length).length = 4 := by
    rw [List.length_append, length_shortToBytes, length_shortToBytes]
  have hdrop : (header type length id ++ rest).drop 4 =
      longToBytes stunMagicCookie ++ (id ++ rest) := by
    rw [hsplit]
    exact List.drop_left' hlen
  rw [setBE16, htake, hdrop]
  simp only [header, List.append_assoc]

theorem getAttributeValueType_messageIntegrity (cls : StunMessageClass) :
    cls.getAttributeValueType stunAttrMessageIntegrity = .byteString := by
  cases cls <;> rfl

theorem getAttributeValueType_fingerprint (cls : StunMessageClass) :
    cls.getAttributeValueType stunAttrFingerprint = .uint32 := by
  cases cls <;> rfl

theorem write_integrity (id : List UInt8) {mac : List UInt8}
    (hmac : mac.length = stunMessageIntegritySize) :
    writeAttributes id [⟨stunAttrMessageIntegrity, .byteString mac⟩] =
      some (integrityHeader ++ mac) := by
  have hlen : UInt16.ofNat mac.length = 20 := by rw [hmac]; rfl
  have hpad : StunAttributeValue.write id (.byteString mac) = some mac := by
    have htake : mac.take (20 : UInt16).toNat = mac := List.take_of_length_le (le_of_eq hmac)
    simp only [StunAttributeValue.write, hlen, htake]
    exact congrArg some (List.append_nil mac)
  simp only [writeAttributes, writeAttribute, hpad, Option.bind_eq_bind, Option.bind_some,
    StunAttributeValue.length, hlen, List.append_nil, integrityHeader]

theorem addMessageIntegrity_eq_true {computeHmac : List UInt8 → List UInt8 → List UInt8}
    {m m' : StunMessage} {key : List UInt8}
    (hid : m.transactionId.length = stunTransactionIdLength)
    (h : addMessageIntegrity computeHmac m key = (m', true)) :
    ∃ body mac, writeAttributes m.transactionId m.attrs = some body ∧
      mac = computeHmac key (header m.type (m.length + 24) m.transactionId ++ body) ∧
      mac.length = stunMessageIntegritySize ∧
      m' = { m with
        length := m.length + 24
        attrs := m.attrs ++ [⟨stunAttrMessageIntegrity, .byteString mac⟩] } := by
  have hadd : m.addAttribute ⟨stunAttrMessageIntegrity, .byteString (List.replicate 20 48)⟩ =
      some { m with
        length := m.length + 24
        attrs := m.attrs ++ [⟨stunAttrMessageIntegrity, .byteString (List.replicate 20 48)⟩] } :=
    if_neg (not_not.mpr (getAttributeValueType_messageIntegrity m.cls).symm)
  simp only [addMessageIntegrity, stunMessageIntegritySize, hadd, Option.getD_some] at h
  split at h
  · cases h
  · rename_i buf hbuf
    obtain ⟨attrs, hattrs, rfl⟩ := (write_eq_some (by exact hid)).mp hbuf
    obtain ⟨body, dummy, hbody, hdummy, rfl⟩ := writeAttributes_append.mp hattrs
    obtain rfl : integrityHeader ++ List.replicate 20 48 = dummy :=
      Option.some.inj ((write_integrity m.transactionId (List.length_replicate (n := 20))).symm.trans hdummy)
    have htake : ∀ hdr : List UInt8, (hdr ++ (body ++ (integrityHeader ++ List.replicate 20 48))).take
        ((hdr ++ (body ++ (integrityHeader ++ List.replicate 20 48))).length - 4 - 20) =
          hdr ++ body := by
      intro hdr
      rw [← List.append_assoc]
      refine List.take_left' ?_
      simp only [List.length_append, integrityHeader, length_shortToBytes, List.length_replicate]
      omega
    rw [stunAttributeHeaderSize, htake] at h
    split at h
    · cases h
    · rename_i hlen
      obtain ⟨rfl, -⟩ := Prod.mk.inj h
      exact ⟨body, _, hbody, rfl, not_not.mp hlen, rfl⟩

theorem addFingerprint_eq_true {computeCrc32 : List UInt8 → UInt32} {m m' : StunMessage}
    (hid : m.transactionId.length = stunTransactionIdLength)
    (h : addFingerprint computeCrc32 m = (m', true)) :
    ∃ body, writeAttributes m.transactionId m.attrs = some body ∧
      m' = { m with
        length := m.length + 8
        attrs := m.attrs ++ [⟨stunAttrFingerprint,
          .uint32 (computeCrc32 (header m.type (m.length + 8) m.transactionId ++ body) ^^^
            stunFingerprintXorValue)⟩] } := by
  have hadd : m.addAttribute ⟨stunAttrFingerprint, .uint32 0⟩ =
      some { m with
        length := m.length + 8
        attrs := m.attrs ++ [⟨stunAttrFingerprint, .uint32 0⟩] } :=
    if_neg (not_not.mpr (getAttributeValueType_fingerprint m.cls).symm)
  simp only [addFingerprint, hadd, Option.getD_some] at h
  split at h
  · cases h
  · rename_i buf hbuf
    obtain ⟨attrs, hattrs, rfl⟩ := (write_eq_some (by exact hid)).mp hbuf
    obtain ⟨body, dummy, hbody, hdummy, rfl⟩ := writeAttributes_append.mp hattrs
    have hlen : dummy.length = 8 := by
      obtain rfl := Option.some.inj hdummy
      rfl
    have htake : ∀ hdr : List UInt8, (hdr ++ (body ++ dummy)).take
        ((hdr ++ (body ++ dummy)).length - 4 - 4) = hdr ++ body := by
      intro hdr
      rw [← List.append_assoc]
      refine List.take_left' ?_
      simp only [List.length_append, hlen]
      omega
    rw [stunAttributeHeaderSize, htake] at h
    obtain ⟨rfl, -⟩ := Prod.mk.inj h
    exact ⟨body, hbody, rfl⟩

/-- A packet that is signed over everything before its first integrity attribute
passes, whatever comes behind the attribute. -/
theorem validateMessageIntegrity_signed {computeHmac : List UInt8 → List UInt8 → List UInt8}
    {type length : UInt16} {id key body mac after : List UInt8} {tlvs : List Tlv}
    (hid : id.length = stunTransactionIdLength) (hbody : body = tlvs.flatMap Tlv.bytes)
    (hframed : ∀ t ∈ tlvs, t.Framed) (htypes : ∀ t ∈ tlvs, t.type ≠ stunAttrMessageIntegrity)
    (hafter : 4 ∣ after.length) (hlength : length.toNat = body.length + (24 + after.length))
    (hmac : mac.length = stunMessageIntegritySize)
    (hsigned : mac = computeHmac key (header type (UInt16.ofNat (body.length + 24)) id ++ body)) :
    validateMessageIntegrity computeHmac (header type length id ++
      (body ++ (integrityHeader ++ (mac ++ after)))) key = true := by
  have hhdr : (header type length id).length = stunHeaderSize := length_header hid
  have hdvd : 4 ∣ body.length := by
    rw [hbody]
    exact Tlv.four_dvd_length hframed
  obtain ⟨data, hdata⟩ : ∃ data, data =
    header type length id ++ (body ++ (integrityHeader ++ (mac ++ after))) := ⟨_, rfl⟩
  rw [← hdata]
  have hsize : data.length = length.toNat + stunHeaderSize := by
    simp only [hdata, List.length_append, hhdr, integrityHeader, length_shortToBytes, hmac, hlength,
      stunMessageIntegritySize]
    omega
  have hfield : getBE16 data 2 = length := by
    refine getBE16_append (shortToBytes type) (longToBytes stunMagicCookie ++ (id ++
      (body ++ (integrityHeader ++ (mac ++ after))))) (length_shortToBytes type) ?_
    simp only [hdata, header, List.append_assoc]
  have hfuel : body.length < data.length := by
    rw [hsize, hlength, stunHeaderSize]
    omega
  have hrest : stunMessageIntegritySize ≤ (mac ++ after).length := by
    rw [List.length_append, hmac]
    exact Nat.le_add_right _ _
  have hfind : findMessageIntegrity data data.length stunHeaderSize =
      some (stunHeaderSize + body.length) := by
    rw [hbody] at hdata hfuel ⊢
    rw [← hhdr]
    exact findMessageIntegrity_tlvs _ (mac ++ after) hframed htypes hdata
      (Nat.le_trans (by decide) hrest) hfuel
  have htake : data.take (stunHeaderSize + body.length) = header type length id ++ body := by
    rw [hdata, ← List.append_assoc]
    exact List.take_left' (by rw [List.length_append, hhdr])
  have hsignedData : integrityData data (stunHeaderSize + body.length) =
      header type (UInt16.ofNat (body.length + 24)) id ++ body := by
    simp only [integrityData, hsize, htake, hlength, stunAttributeHeaderSize,
      stunMessageIntegritySize]
    split
    · -- What follows the attribute is left out of the length.
      have hadjusted : body.length + (24 + after.length) + stunHeaderSize -
          (body.length + (24 + after.length) + stunHeaderSize -
            (stunHeaderSize + body.length + 4 + 20)) - stunHeaderSize = body.length + 24 := by
        omega
      rw [hadjusted, setBE16_header]
    · have hlast : length = UInt16.ofNat (body.length + 24) := by
        have hnone : length.toNat = body.length + 24 := by omega
        rw [← hnone, UInt16.ofNat_toNat]
      rw [← hlast]
  have hmacAt : (data.drop (stunHeaderSize + body.length + stunAttributeHeaderSize)).take
      stunMessageIntegritySize = mac := by
    have hsplit : data = (header type length id ++ (body ++ integrityHeader)) ++ (mac ++ after) := by
      simp only [hdata, List.append_assoc]
    have hpos : (header type length id ++ (body ++ integrityHeader)).length =
        stunHeaderSize + body.length + stunAttributeHeaderSize := by
      simp only [List.length_append, hhdr, integrityHeader, length_shortToBytes]
      rw [stunAttributeHeaderSize, Nat.add_assoc]
    rw [hsplit, List.drop_left' hpos]
    exact List.take_left' hmac
  have hfour : data.length % 4 = 0 := by
    rw [hsize, hlength, stunHeaderSize]
    omega
  rw [validateMessageIntegrity, if_neg (not_not.mpr hfour), hfield, if_neg (not_not.mpr hsize), hfind]
  simp only [hsignedData, ← hsigned, hmac, ne_eq, not_true, if_false, hmacAt, decide_true]

theorem validateFingerprint_last {computeCrc32 : List UInt8 → UInt32} {type length : UInt16}
    {id body fingerprint : List UInt8} (hid : id.length = stunTransactionIdLength)
    (hdvd : 4 ∣ body.length)
    (hfingerprint : writeAttributes id [⟨stunAttrFingerprint,
      .uint32 (computeCrc32 (header type length id ++ body) ^^^ stunFingerprintXorValue)⟩] =
        some fingerprint) :
    validateFingerprint computeCrc32 (header type length id ++ (body ++ fingerprint)) = true := by
  obtain ⟨c, hc⟩ : ∃ c, c = computeCrc32 (header type length id ++ body) := ⟨_, rfl⟩
  rw [← hc] at hfingerprint
  have hbytes : fingerprint = shortToBytes stunAttrFingerprint ++
      (shortToBytes 4 ++ (longToBytes (c ^^^ stunFingerprintXorValue) ++ [])) := by
    obtain ⟨b, others, hb, hothers, heq⟩ := writeAttributes_cons hfingerprint
    obtain rfl := Option.some.inj hb
    obtain rfl := Option.some.inj hothers
    exact heq
  have hhdr : (header type length id).length = stunHeaderSize := length_header hid
  obtain ⟨data, hdata⟩ : ∃ data, data = header type length id ++ (body ++ fingerprint) := ⟨_, rfl⟩
  have hpre : (header type length id ++ body).length = stunHeaderSize + body.length := by
    rw [List.length_append, hhdr]
  have hsize : data.length = stunHeaderSize + body.length + 8 := by
    rw [hdata, ← List.append_assoc, List.length_append, hpre, hbytes]
    simp only [List.length_append, length_shortToBytes, length_longToBytes, List.length_nil]
  have hdata' : data = (header type length id ++ body) ++ (shortToBytes stunAttrFingerprint ++
      (shortToBytes 4 ++ (longToBytes (c ^^^ stunFingerprintXorValue) ++ []))) := by
    rw [hdata, hbytes, List.append_assoc]
  have hcookie : getBE32 data 4 = stunMagicCookie := by
    refine getBE32_append (shortToBytes type ++ shortToBytes length) (id ++ (body ++ fingerprint))
      (by rw [List.length_append, length_shortToBytes, length_shortToBytes]) ?_
    rw [hdata]
    simp only [header, List.append_assoc]
  have htype : getBE16 data (stunHeaderSize + body.length) = stunAttrFingerprint :=
    getBE16_append _ _ hpre hdata'
  have hlength : getBE16 data (stunHeaderSize + body.length + 2) = 4 := by
    refine getBE16_append (header type length id ++ body ++ shortToBytes stunAttrFingerprint)
      (longToBytes (c ^^^ stunFingerprintXorValue) ++ [])
      (by rw [List.length_append, hpre, length_shortToBytes]) ?_
    rw [hdata']
    simp only [List.append_assoc]
  have hvalue : getBE32 data (stunHeaderSize + body.length + stunAttributeHeaderSize) =
      c ^^^ stunFingerprintXorValue := by
    refine getBE32_append (header type length id ++ body ++ (shortToBytes stunAttrFingerprint ++
      shortToBytes 4)) [] ?_ ?_
    · rw [List.length_append, hpre, List.length_append, length_shortToBytes, length_shortToBytes]
      rfl
    · rw [hdata']
      simp only [List.append_assoc]
  have hcovered : data.take (stunHeaderSize + body.length) = header type length id ++ body := by
    rw [hdata']
    exact List.take_left' hpre
  have hpos : data.length - (stunAttributeHeaderSize + 4) = stunHeaderSize + body.length := by
    rw [hsize, stunAttributeHeaderSize, Nat.add_sub_cancel]
  have hshape : ¬ (data.length % 4 ≠ 0 ∨
      data.length < stunHeaderSize + (stunAttributeHeaderSize + 4)) := by
    rw [hsize, stunHeaderSize, stunAttributeHeaderSize]
    omega
  have hkind : ¬ (getBE16 data (stunHeaderSize + body.length) ≠ stunAttrFingerprint ∨
      getBE16 data (stunHeaderSize + body.length + 2) ≠ 4) := by
    rw [htype, hlength]
    exact fun h => h.elim (absurd rfl) (absurd rfl)
  rw [← hdata]
  simp only [validateFingerprint, hpos]
  rw [if_neg hshape, if_neg (not_not.mpr hcookie), if_neg hkind, hvalue, hcovered, ← hc,
    UInt32.xor_assoc, UInt32.xor_self, UInt32.xor_zero, decide_eq_true rfl]

theorem length_body {m : StunMessage} {bytes body : List UInt8}
    (hid : m.transactionId.length = stunTransactionIdLength)
    (hbytes : bytes = header m.type m.length m.transactionId ++ body)
    (hle : bytes.length ≤ 65535 + stunHeaderSize) : body.length < 2 ^ 16 := by
  rw [hbytes, List.length_append, length_header hid] at hle
  omega

theorem four_dvd_writeAttributes {attrs : List StunAttribute} {id bytes : List UInt8}
    (h : writeAttributes id attrs = some bytes) (hlt : bytes.length < 2 ^ 16) :
    4 ∣ bytes.length := by
  obtain ⟨tlvs, rfl, hframed, -⟩ := tlvs_of_writeAttributes h hlt
  exact Tlv.four_dvd_length hframed

/-- The packet of a signed message passes with any attributes behind the
signature that its length counts. -/
theorem validateMessageIntegrity_write {computeHmac : List UInt8 → List UInt8 → List UInt8}
    {m m₁ m₂ : StunMessage} {key bytes : List UInt8} {after : List StunAttribute}
    (hid : m.transactionId.length = stunTransactionIdLength)
    (hlength : m.length = UInt16.ofNat (extent StunAttribute.room m.attrs))
    (hnone : ∀ attr ∈ m.attrs, attr.type ≠ stunAttrMessageIntegrity)
    (hsign : m.addMessageIntegrity computeHmac key = (m₁, true))
    (hafter : m₂ = { m₁ with
      attrs := m₁.attrs ++ after
      length := m₁.length + UInt16.ofNat (extent StunAttribute.room after) })
    (hwrite : m₂.write = some bytes) (hle : bytes.length ≤ 65535 + stunHeaderSize) :
    validateMessageIntegrity computeHmac bytes key = true := by
  obtain ⟨body, mac, hbody, hsigned, hmac, rfl⟩ := addMessageIntegrity_eq_true hid hsign
  subst hafter
  obtain ⟨all, hall, rfl⟩ := (write_eq_some (by exact hid)).mp hwrite
  have hlt := length_body (by exact hid) rfl hle
  obtain ⟨signed, others, hwritten, hothers, rfl⟩ := writeAttributes_append.mp hall
  obtain ⟨body', attr, hbody', hattr, rfl⟩ := writeAttributes_append.mp hwritten
  obtain rfl := Option.some.inj (hbody.symm.trans hbody')
  obtain rfl := Option.some.inj ((write_integrity m.transactionId hmac).symm.trans hattr)
  simp only [List.length_append, integrityHeader, length_shortToBytes, hmac] at hlt
  have hbodylt : body.length < 2 ^ 16 := by omega
  have hotherslt : others.length < 2 ^ 16 := by omega
  obtain ⟨tlvs, hbodytlvs, hframed, htypes⟩ := tlvs_of_writeAttributes hbody hbodylt
  have hfield : m.length + 24 = UInt16.ofNat (body.length + 24) := by
    rw [hlength, length_writeAttributes hbody hbodylt, UInt16.ofNat_add]
    rfl
  have htotal : (m.length + 24 + UInt16.ofNat (extent StunAttribute.room after)).toNat =
      body.length + (24 + others.length) := by
    rw [hfield, ← length_writeAttributes hothers hotherslt, ← UInt16.ofNat_add]
    refine (UInt16.toNat_ofNat_of_lt' ?_).trans (Nat.add_assoc _ _ _)
    change body.length + 24 + others.length < 2 ^ 16
    simp only [stunMessageIntegritySize] at hlt
    omega
  rw [hfield] at hsigned
  have hvalid := validateMessageIntegrity_signed hid hbodytlvs hframed ?_
    (four_dvd_writeAttributes hothers hotherslt) htotal hmac hsigned
  · simpa only [List.append_assoc] using hvalid
  · intro t ht
    obtain ⟨attr, hattr, htype⟩ := htypes t ht
    rw [htype]
    exact hnone attr hattr

theorem validateFingerprint_write {computeCrc32 : List UInt8 → UInt32} {m m' : StunMessage}
    {bytes : List UInt8} (hid : m.transactionId.length = stunTransactionIdLength)
    (hadd : m.addFingerprint computeCrc32 = (m', true)) (hwrite : m'.write = some bytes)
    (hle : bytes.length ≤ 65535 + stunHeaderSize) :
    validateFingerprint computeCrc32 bytes = true := by
  obtain ⟨body, hbody, rfl⟩ := addFingerprint_eq_true hid hadd
  obtain ⟨all, hall, rfl⟩ := (write_eq_some (by exact hid)).mp hwrite
  have hlt := length_body (by exact hid) rfl hle
  obtain ⟨body', fingerprint, hbody', hfingerprint, rfl⟩ := writeAttributes_append.mp hall
  obtain rfl := Option.some.inj (hbody.symm.trans hbody')
  rw [List.length_append] at hlt
  exact validateFingerprint_last hid (four_dvd_writeAttributes hbody (by omega)) hfingerprint

/-- A message that is signed, gets further attributes and then, or not, a
fingerprint is accepted with the key it was signed with. -/
theorem validate_authenticated {computeHmac : List UInt8 → List UInt8 → List UInt8}
    {computeCrc32 : List UInt8 → UInt32} {cls : StunMessageClass} {type : UInt16}
    {id key bytes : List UInt8} {attrs more : List StunAttribute} {m m₁ m₂ m₃ : StunMessage}
    (hid : id.length = stunTransactionIdLength)
    (hadd : addAttributes ⟨cls, type, 0, id, []⟩ attrs = some m)
    (hnone : ∀ attr ∈ attrs, attr.type ≠ stunAttrMessageIntegrity)
    (hsign : m.addMessageIntegrity computeHmac key = (m₁, true))
    (hmore : m₁.addAttributes more = some m₂)
    (hlast : m₃ = m₂ ∨ m₂.addFingerprint computeCrc32 = (m₃, true))
    (hwrite : m₃.write = some bytes) (hle : bytes.length ≤ 65535 + stunHeaderSize) :
    validateMessageIntegrity computeHmac bytes key = true ∧
      (m₂.addFingerprint computeCrc32 = (m₃, true) →
        validateFingerprint computeCrc32 bytes = true) := by
  obtain ⟨-, rfl⟩ := addAttributes_eq_some hadd
  obtain ⟨-, hm₂⟩ := addAttributes_eq_some hmore
  have hid₁ : m₁.transactionId.length = stunTransactionIdLength := by
    obtain ⟨-, -, -, -, -, rfl⟩ := addMessageIntegrity_eq_true hid hsign
    exact hid
  have hid₂ : m₂.transactionId.length = stunTransactionIdLength := by
    rw [hm₂]
    exact hid₁
  refine ⟨?_, fun hfingerprint => validateFingerprint_write hid₂ hfingerprint hwrite hle⟩
  have hlength : (0 + UInt16.ofNat (extent StunAttribute.room attrs)) =
      UInt16.ofNat (extent StunAttribute.room ([] ++ attrs)) := UInt16.zero_add _
  rcases hlast with rfl | hfingerprint
  · exact validateMessageIntegrity_write hid hlength hnone hsign hm₂ hwrite hle
  · obtain ⟨fingerprint, hroom, hm₃⟩ : ∃ fingerprint : StunAttribute, fingerprint.room = 8 ∧
        m₃ = { m₂ with length := m₂.length + 8, attrs := m₂.attrs ++ [fingerprint] } := by
      obtain ⟨body, -, hm₃⟩ := addFingerprint_eq_true hid₂ hfingerprint
      refine ⟨_, ?_, hm₃⟩
      change stunPaddedLength 4 + 4 = 8
      decide
    have hafter : m₃ = { m₁ with
        attrs := m₁.attrs ++ (more ++ [fingerprint])
        length := m₁.length + UInt16.ofNat (extent StunAttribute.room (more ++ [fingerprint])) } := by
      rw [hm₃, hm₂, extent_append, extent_cons, extent_nil, hroom, UInt16.ofNat_add,
        ← UInt16.add_assoc, List.append_assoc]
      rfl
    exact validateMessageIntegrity_write hid hlength hnone hsign hafter hwrite hle

/-- A request with a username, signed and fingerprinted. -/
theorem validate_authenticated_request :
    let computeHmac : List UInt8 → List UInt8 → List UInt8 := fun key data =>
      List.replicate 20 (UInt8.ofNat (key.length + data.length))
    let computeCrc32 : List UInt8 → UInt32 := fun data => UInt32.ofNat data.length
    let m : StunMessage := ⟨.stun, 1, 8, List.replicate 12 7,
      [⟨stunAttrUsername, .byteString [97, 58, 98]⟩]⟩
    let m₁ := (m.addMessageIntegrity computeHmac [1, 2]).1
    let m₃ := (m₁.addFingerprint computeCrc32).1
    ∃ bytes, m₃.write = some bytes ∧ validateMessageIntegrity computeHmac bytes [1, 2] = true ∧
      validateFingerprint computeCrc32 bytes = true := by
  intro computeHmac computeCrc32 m m₁ m₃
  have hadd : addAttributes ⟨.stun, 1, 0, List.replicate 12 7, []⟩
      [⟨stunAttrUsername, .byteString [97, 58, 98]⟩] = some m := rfl
  have hnone : ∀ attr ∈ m.attrs, attr.type ≠ stunAttrMessageIntegrity := by decide
  have hsign : m.addMessageIntegrity computeHmac [1, 2] = (m₁, true) := by decide
  have hmore : m₁.addAttributes [] = some m₁ := rfl
  have hfingerprint : m₁.addFingerprint computeCrc32 = (m₃, true) := by decide
  have hsize : m₃.write.map List.length = some 60 := by decide
  obtain ⟨bytes, hwrite, hlen⟩ := Option.map_eq_some_iff.mp hsize
  have hle : bytes.length ≤ 65535 + stunHeaderSize := by
    rw [hlen]
    decide
  have hvalid := validate_authenticated rfl hadd hnone hsign hmore (.inr hfingerprint) hwrite hle
  exact ⟨bytes, hwrite, hvalid.1, hvalid.2 hfingerprint⟩

end StunMessage

end Libjingle
