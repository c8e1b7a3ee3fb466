import Libjingle.Stun.Integrity

/-! What a valid MESSAGE-INTEGRITY says about the message that is read. The digest
covers the bytes up to the attribute, the message has what comes behind it too. -/

namespace Libjingle

open ByteBuffer StunAttributeValue

namespace Tlv

/-- The pieces that end within the first `n` bytes. -/
def covered : Nat → List Tlv → List Tlv
  | _, [] => []
  | n, t :: rest => if t.bytes.length ≤ n then t :: covered (n - t.bytes.length) rest else []

/-- The pieces from the first one on that goes beyond the first `n` bytes. -/
def uncovered : Nat → List Tlv → List Tlv
  | _, [] => []
  | n, t :: rest =>
    if t.bytes.length ≤ n then uncovered (n - t.bytes.length) rest else t :: rest

theorem covered_append_uncovered (n : Nat) (tlvs : List Tlv) :
    covered n tlvs ++ uncovered n tlvs = tlvs := by
  induction tlvs generalizing n with
  | nil => rfl
  | cons t rest ih =>
    rw [covered, uncovered]
    split
    · rw [List.cons_append, ih]
    · rfl

theorem covered_of_lt {n : Nat} (h : n < 4) (tlvs : List Tlv) : covered n tlvs = [] := by
  cases tlvs with
  | nil => rfl
  | cons t rest =>
    have hlen : ¬ t.bytes.length ≤ n := by
      rw [length_bytes]
      omega
    rw [covered, if_neg hlen]

theorem four_dvd_taken (cls : StunMessageClass) (t : Tlv) : 4 ∣ t.taken cls := by
  have hpadded := four_dvd_stunPaddedLength t.length
  rw [taken]
  cases cls.getAttributeValueType t.type with
  | uint32 => exact Nat.dvd_refl 4
  | uint64 => exact ⟨2, rfl⟩
  | unknown =>
    rw [bodyLength, toNat_skippedLength]
    omega
  | address => exact hpadded
  | xorAddress => exact hpadded
  | byteString => exact hpadded
  | errorCode => exact hpadded
  | uint16List => exact hpadded

theorem covered_eq {cls : StunMessageClass} {n : Nat} {tlvs tlvs' : List Tlv}
    (hfull : ∀ t ∈ tlvs, t.body.length = t.taken cls)
    (hfull' : ∀ t ∈ tlvs', t.body.length = t.taken cls)
    (hle : n ≤ (tlvs.flatMap Tlv.bytes).length) (hle' : n ≤ (tlvs'.flatMap Tlv.bytes).length)
    (hsame : (tlvs.flatMap Tlv.bytes).take n = (tlvs'.flatMap Tlv.bytes).take n) :
    covered n tlvs = covered n tlvs' := by
  induction tlvs generalizing n tlvs' with
  | nil =>
    have hzero : n = 0 := Nat.le_zero.mp hle
    rw [hzero, covered_of_lt (by decide), covered_of_lt (by decide)]
  | cons t rest ih =>
    rcases Nat.lt_or_ge n 4 with hlt | hge
    · rw [covered_of_lt hlt, covered_of_lt hlt]
    · cases tlvs' with
      | nil =>
        have hzero : n ≤ 0 := hle'
        omega
      | cons t' rest' =>
        have hsplit : ∀ (t : Tlv) (rest : List Tlv), ((t :: rest).flatMap Tlv.bytes).take n =
            shortToBytes t.type ++ (shortToBytes t.length ++
              (t.body ++ rest.flatMap Tlv.bytes).take (n - 4)) := by
          intro t rest
          have hshape : (t :: rest).flatMap Tlv.bytes = (shortToBytes t.type ++
              shortToBytes t.length) ++ (t.body ++ rest.flatMap Tlv.bytes) := by
            simp only [List.flatMap_cons, Tlv.bytes, List.append_assoc]
          have hheader : (shortToBytes t.type ++ shortToBytes t.length).length = 4 := by
            rw [List.length_append, length_shortToBytes, length_shortToBytes]
          rw [hshape, List.take_append, hheader, List.take_of_length_le (by rw [hheader]; exact hge),
            List.append_assoc]
        rw [hsplit, hsplit] at hsame
        obtain ⟨htype, hsame⟩ := List.append_inj hsame (by simp only [length_shortToBytes])
        obtain ⟨hlength, hsame⟩ := List.append_inj hsame (by simp only [length_shortToBytes])
        have htype : t.type = t'.type := by
          rw [← bytesToShort_shortToBytes t.type, htype, bytesToShort_shortToBytes]
        have hlength : t.length = t'.length := by
          rw [← bytesToShort_shortToBytes t.length, hlength, bytesToShort_shortToBytes]
        have hbody : t.body.length = t'.body.length := by
          rw [hfull t List.mem_cons_self, hfull' t' List.mem_cons_self, taken, taken, htype, hlength]
        simp only [List.flatMap_cons, List.length_append, length_bytes] at hle hle'
        simp only [covered, length_bytes, ← hbody]
        split
        · rename_i hwithin
          have hlen : t.body.length ≤ n - 4 := by omega
          have hlen' : t'.body.length ≤ n - 4 := hbody ▸ hlen
          rw [List.take_append, List.take_append, List.take_of_length_le (l := t.body) hlen,
            List.take_of_length_le (l := t'.body) hlen'] at hsame
          obtain ⟨hbodies, hrests⟩ := List.append_inj hsame hbody
          rw [← hbody, Nat.sub_sub] at hrests
          have hrest := ih (n := n - (4 + t.body.length))
            (fun a ha => hfull a (List.mem_cons_of_mem _ ha))
            (fun a ha => hfull' a (List.mem_cons_of_mem _ ha)) (by omega) (by omega) hrests
          rw [hrest, Tlv.ext htype hlength hbodies]
        · rfl

end Tlv

namespace Cuts

variable {cls : StunMessageClass} {id : List UInt8} {tlvs : List Tlv}

theorem full (h : Cuts cls id tlvs) (hdvd : 4 ∣ (tlvs.flatMap Tlv.bytes).length) :
    ∀ t ∈ tlvs, t.body.length = t.taken cls := by
  induction h with
  | nil => exact fun t ht => absurd ht List.not_mem_nil
  | @cons t rest hvalid hbody hrest ih =>
    have hfour : 4 ∣ t.bytes.length := by
      rw [Tlv.length_bytes, hbody]
      exact Nat.dvd_add (Nat.dvd_refl 4) (t.four_dvd_taken cls)
    rw [List.flatMap_cons, List.length_append] at hdvd
    have htail := ih ((Nat.dvd_add_right hfour).mp hdvd)
    intro a ha
    rcases List.mem_cons.mp ha with rfl | ha
    · exact hbody
    · exact htail a ha
  | @unpadded t hvalid hknown htaken hbody =>
    intro a ha
    obtain rfl := List.mem_singleton.mp ha
    rw [List.flatMap_cons, List.flatMap_nil, List.append_nil, Tlv.length_bytes, hbody] at hdvd
    rw [hbody, htaken, stunPaddedLength, stunPadding]
    omega

end Cuts

namespace StunMessage

/-- Every lookup of a type other than FINGERPRINT finds the same in both. -/
def LookupsAgree (m m' : StunMessage) : Prop :=
  (∀ type, type ≠ stunAttrFingerprint →
    m.getByteString type = m'.getByteString type ∧ m.getUInt32 type = m'.getUInt32 type ∧
      m.getUInt64 type = m'.getUInt64 type ∧ m.getAddress type = m'.getAddress type) ∧
  m.getErrorCode = m'.getErrorCode ∧ m.getUnknownAttributes = m'.getUnknownAttributes

theorem lookupsAgree_iff {m m' : StunMessage} :
    LookupsAgree m m' ↔
      ∀ type, type ≠ stunAttrFingerprint → m.getAttribute type = m'.getAttribute type := by
  constructor
  · exact fun h type htype => (h.1 type htype).1
  · intro h
    refine ⟨fun type htype => ⟨h type htype, h type htype, h type htype, ?_⟩,
      h _ (by decide), h _ (by decide)⟩
    rw [getAddress, getAddress, h _ (by decide), h stunAttrXorMappedAddress (by decide), h type htype]

/-- Two packets that are read, pass with the same password and agree, except in
the length, up to the end of the first MESSAGE-INTEGRITY. -/
structure SignedAlike (computeHmac : List UInt8 → List UInt8 → List UInt8) (cls : StunMessageClass)
    (password data data' : List UInt8) (miPos : Nat) (m m' : StunMessage) : Prop where
  valid : validateMessageIntegrity computeHmac data password = true
  valid' : validateMessageIntegrity computeHmac data' password = true
  read : read cls data = some m
  read' : StunMessage.read cls data' = some m'
  find : findMessageIntegrity data data.length stunHeaderSize = some miPos
  type_eq : data.take 2 = data'.take 2
  agree : (data.take (miPos + 24)).drop 4 = (data'.take (miPos + 24)).drop 4

section

variable {computeHmac : List UInt8 → List UInt8 → List UInt8} {cls : StunMessageClass}
  {password data data' : List UInt8} {miPos : Nat} {m m' : StunMessage}

theorem validateMessageIntegrity_size (h : validateMessageIntegrity computeHmac data password = true)
    (hfind : findMessageIntegrity data data.length stunHeaderSize = some miPos) :
    data.length % 4 = 0 ∧ miPos + 24 ≤ data.length := by
  rw [validateMessageIntegrity, hfind] at h
  split at h
  · cases h
  · rename_i hfour
    split at h
    · cases h
    · simp only at h
      split at h
      · cases h
      · rename_i hlen
        have hmac := congrArg List.length (of_decide_eq_true h)
        rw [not_not.mp hlen, List.length_take, List.length_drop, stunMessageIntegritySize,
          stunAttributeHeaderSize] at hmac
        exact ⟨not_not.mp hfour, by omega⟩

theorem getAttribute_parsed_type {id : List UInt8} {t : Tlv} {attr : StunAttribute}
    (h : t.parsed cls id = some attr) : attr.type = t.type := by
  rw [Tlv.parsed] at h
  split at h
  · cases h
  · obtain ⟨read, -, rfl⟩ := Option.map_eq_some_iff.mp h
    rfl

theorem SignedAlike.covered_eq (h : SignedAlike computeHmac cls password data data' miPos m m')
    {tlvs tlvs' : List Tlv} (hheader : m.Header cls data (tlvs.flatMap Tlv.bytes))
    (hheader' : m'.Header cls data' (tlvs'.flatMap Tlv.bytes))
    (hcuts : Cuts cls m.transactionId tlvs) (hcuts' : Cuts cls m'.transactionId tlvs') :
    m.transactionId = m'.transactionId ∧
      Tlv.covered (miPos + 4) tlvs = Tlv.covered (miPos + 4) tlvs' := by
  obtain ⟨hfour, hsize⟩ := validateMessageIntegrity_size h.valid h.find
  have hfour' : data'.length % 4 = 0 := by
    have hvalid := h.valid'
    rw [validateMessageIntegrity] at hvalid
    split at hvalid
    · cases hvalid
    · rename_i hfour'
      exact not_not.mp hfour'
  have hsize' : miPos + 24 ≤ data'.length := by
    have hlen := congrArg List.length h.agree
    simp only [List.length_drop, List.length_take] at hlen
    omega
  obtain ⟨field, hdata, hfield, hid⟩ := hheader.split
  obtain ⟨field', hdata', hfield', hid'⟩ := hheader'.split
  have hpacket : ∀ (type length : UInt16) (field rest : List UInt8), field.length = 16 →
      ((packet type length field rest).take (miPos + 24)).drop 4 =
        field ++ rest.take (miPos + 4) ∧
      (packet type length field rest).length = 20 + rest.length := by
    intro type length field rest hfield
    have hshape : packet type length field rest =
        (shortToBytes type ++ shortToBytes length) ++ (field ++ rest) := by
      simp only [packet, List.append_assoc]
    have hlen : (shortToBytes type ++ shortToBytes length).length = 4 := by
      rw [List.length_append, length_shortToBytes, length_shortToBytes]
    constructor
    · have hcount : miPos + 24 - 4 - 16 = miPos + 4 := by omega
      rw [List.drop_take, hshape, List.drop_left' hlen, List.take_append, hfield, hcount,
        List.take_of_length_le (by omega)]
    · rw [hshape, List.length_append, hlen, List.length_append, hfield]
      omega
  obtain ⟨hdrop, hlen⟩ := hpacket m.type m.length field (tlvs.flatMap Tlv.bytes) hfield
  obtain ⟨hdrop', hlen'⟩ := hpacket m'.type m'.length field' (tlvs'.flatMap Tlv.bytes) hfield'
  rw [← hdata] at hdrop hlen
  rw [← hdata'] at hdrop' hlen'
  have hagree := h.agree
  rw [hdrop, hdrop'] at hagree
  obtain ⟨hfields, hrests⟩ := List.append_inj hagree (hfield.trans hfield'.symm)
  refine ⟨by rw [hid, hid', hfields], ?_⟩
  exact Tlv.covered_eq (hcuts.full (by omega)) (hcuts'.full (by omega)) (by omega) (by omega) hrests

/-- The lookups of two packets that are signed alike agree when every type other
than FINGERPRINT is carried within the signed bytes, or is carried first by the
same attribute behind them. -/
theorem lookupsAgree_signed (h : SignedAlike computeHmac cls password data data' miPos m m')
    {tlvs tlvs' : List Tlv} (hheader : m.Header cls data (tlvs.flatMap Tlv.bytes))
    (hheader' : m'.Header cls data' (tlvs'.flatMap Tlv.bytes))
    (hcuts : Cuts cls m.transactionId tlvs) (hcuts' : Cuts cls m'.transactionId tlvs') :
    LookupsAgree m m' ↔ ∀ type, type ≠ stunAttrFingerprint →
      (∃ t ∈ Tlv.covered (miPos + 4) tlvs, t.type = type) ∨
        ((Tlv.uncovered (miPos + 4) tlvs).filterMap (Tlv.parsed cls m.transactionId)).find?
            (·.type = type) =
          ((Tlv.uncovered (miPos + 4) tlvs').filterMap (Tlv.parsed cls m.transactionId)).find?
            (·.type = type) := by
  obtain ⟨hid, hcovered⟩ := h.covered_eq hheader hheader' hcuts hcuts'
  have hattrs : ∀ {m : StunMessage} {data : List UInt8} {tlvs : List Tlv},
      StunMessage.read cls data = some m → m.Header cls data (tlvs.flatMap Tlv.bytes) →
      Cuts cls m.transactionId tlvs → ∀ type, m.getAttribute type =
        (((Tlv.covered (miPos + 4) tlvs).filterMap (Tlv.parsed cls m.transactionId)).find?
          (·.type = type)).or
        (((Tlv.uncovered (miPos + 4) tlvs).filterMap (Tlv.parsed cls m.transactionId)).find?
          (·.type = type)) := by
    intro m data tlvs hread hheader hcuts type
    obtain ⟨tlvs₁, hheader₁, hcuts₁, hattrs⟩ := read_eq_some.mp hread
    obtain rfl : tlvs = tlvs₁ := hcuts.unique hcuts₁ (hheader.rest_eq hheader₁)
    rw [getAttribute, hattrs, ← List.find?_append, ← List.filterMap_append,
      Tlv.covered_append_uncovered]
  have hfirst := hattrs h.read hheader hcuts
  have hsecond := hattrs h.read' hheader' hcuts'
  rw [← hid, ← hcovered] at hsecond
  rw [lookupsAgree_iff]
  refine forall_congr' fun type => imp_congr_right fun _ => ?_
  rw [hfirst, hsecond]
  cases hfind : ((Tlv.covered (miPos + 4) tlvs).filterMap
      (Tlv.parsed cls m.transactionId)).find? (·.type = type) with
  | some attr =>
    obtain ⟨t, ht, hparsed⟩ := List.mem_filterMap.mp (List.mem_of_find?_eq_some hfind)
    have htype : attr.type = type := by simpa using List.find?_some hfind
    refine iff_of_true rfl (.inl ⟨t, ht, ?_⟩)
    rw [← getAttribute_parsed_type hparsed, htype]
  | none =>
    rw [Option.none_or, Option.none_or]
    constructor
    · exact fun hsame => .inr hsame
    · rintro (⟨t, ht, htype⟩ | hsame)
      · -- A type that is carried and not found is an unknown one.
        have hunknown : cls.getAttributeValueType type = .unknown := by
          by_contra hknown
          rw [← htype] at hknown
          have hmem : t ∈ tlvs := by
            rw [← Tlv.covered_append_uncovered (miPos + 4) tlvs]
            exact List.mem_append_left _ ht
          obtain ⟨v, hv⟩ := hcuts.valid t hmem hknown
          have hparsed := List.mem_filterMap.mpr ⟨t, ht, parsed_of_read hknown hv⟩
          have hne := List.find?_eq_none.mp hfind _ hparsed
          exact hne (decide_eq_true htype)
        have hnone : ∀ tlvs : List Tlv, (tlvs.filterMap (Tlv.parsed cls m.transactionId)).find?
            (·.type = type) = none := by
          intro tlvs
          refine List.find?_eq_none.mpr fun attr hattr heq => ?_
          obtain ⟨t, -, hparsed⟩ := List.mem_filterMap.mp hattr
          have htype : t.type = type := by
            rw [← getAttribute_parsed_type hparsed]
            exact of_decide_eq_true heq
          rw [parsed_unknown (htype ▸ hunknown)] at hparsed
          cases hparsed
        rw [hnone, hnone]
      · exact hsame

end

def signedResponse (length : UInt8) (after : List UInt8) : List UInt8 :=
  [1, 1, 0, length, 0x21, 0x12, 0xa4, 0x42] ++ List.replicate 12 7 ++ [0, 8, 0, 20] ++
    List.replicate 20 22 ++ after

def signedMessage (length : UInt16) (after : List StunAttribute) : StunMessage :=
  ⟨.stun, 0x0101, length, List.replicate 12 7,
    ⟨stunAttrMessageIntegrity, .byteString (List.replicate 20 22)⟩ :: after⟩

theorem lookupsAgree_signed_fingerprint :
    LookupsAgree (signedMessage 24 []) (signedMessage 32 [⟨stunAttrFingerprint, .uint32 0x01020304⟩]) := by
  let integrity : Tlv := ⟨stunAttrMessageIntegrity, 20, List.replicate 20 22⟩
  let fingerprint : Tlv := ⟨stunAttrFingerprint, 4, [1, 2, 3, 4]⟩
  have halike : SignedAlike (fun key data => List.replicate 20 (UInt8.ofNat (key.length + data.length)))
      .stun [1, 2] (signedResponse 24 []) (signedResponse 32 [0x80, 0x28, 0, 4, 1, 2, 3, 4]) 20
      (signedMessage 24 []) (signedMessage 32 [⟨stunAttrFingerprint, .uint32 0x01020304⟩]) := by
    constructor <;> decide
  have hheader : (signedMessage 24 []).Header .stun (signedResponse 24 [])
      ([integrity].flatMap Tlv.bytes) :=
    ⟨⟨longToBytes stunMagicCookie ++ List.replicate 12 7, by decide, by decide, by decide⟩, rfl,
      by decide, by decide⟩
  have hheader' : (signedMessage 32 [⟨stunAttrFingerprint, .uint32 0x01020304⟩]).Header .stun
      (signedResponse 32 [0x80, 0x28, 0, 4, 1, 2, 3, 4])
      ([integrity, fingerprint].flatMap Tlv.bytes) :=
    ⟨⟨longToBytes stunMagicCookie ++ List.replicate 12 7, by decide, by decide, by decide⟩, rfl,
      by decide, by decide⟩
  have hvalid : integrity.Valid .stun (List.replicate 12 7) :=
    fun _ => ⟨.byteString (List.replicate 20 22), by decide⟩
  have hvalid' : fingerprint.Valid .stun (List.replicate 12 7) :=
    fun _ => ⟨.uint32 0x01020304, by decide⟩
  have hbody : integrity.body.length = integrity.taken .stun := by decide
  have hbody' : fingerprint.body.length = fingerprint.taken .stun := by decide
  refine (lookupsAgree_signed halike hheader hheader' (.cons hvalid hbody .nil)
    (.cons hvalid hbody (.cons hvalid' hbody' .nil))).mpr fun type htype => .inr ?_
  have hparsed : (Tlv.uncovered (20 + 4) [integrity, fingerprint]).filterMap
      (Tlv.parsed .stun (List.replicate 12 7)) = [⟨stunAttrFingerprint, .uint32 0x01020304⟩] := by
    decide
  change none = ((Tlv.uncovered (20 + 4) [integrity, fingerprint]).filterMap
    (Tlv.parsed .stun (List.replicate 12 7))).find? (·.type = type)
  rw [hparsed, List.find?_cons_of_neg (by simpa using htype.symm)]
  rfl

/-- A USERNAME put behind the signature is found. -/
theorem unsigned_username_found :
    SignedAlike (fun key data => List.replicate 20 (UInt8.ofNat (key.length + data.length)))
      .stun [1, 2] (signedResponse 24 []) (signedResponse 32 [0, 6, 0, 4, 101, 118, 105, 108]) 20
      (signedMessage 24 [])
      (signedMessage 32 [⟨stunAttrUsername, .byteString [101, 118, 105, 108]⟩]) ∧
    ¬ LookupsAgree (signedMessage 24 [])
      (signedMessage 32 [⟨stunAttrUsername, .byteString [101, 118, 105, 108]⟩]) := by
  constructor
  · constructor <;> decide
  · intro h
    have husername := lookupsAgree_iff.mp h stunAttrUsername (by decide)
    exact absurd husername (by decide)

end StunMessage

end Libjingle
