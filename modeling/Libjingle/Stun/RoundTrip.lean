import Libjingle.Lib.Layout
import Libjingle.Stun.Message

/-! Reading undoes writing: the length that `AddAttribute` sums up is the one of
the attributes written, and every attribute is read back from its own place. -/

namespace Libjingle

open Layout

def StunAttribute.room (attr : StunAttribute) : Nat := stunPaddedLength attr.value.length + 4

def StunAttribute.encoded (attr : StunAttribute) : StunAttribute :=
  { attr with value := attr.value.encoded }

namespace StunMessage

theorem addAttribute_eq_some {m m' : StunMessage} {attr : StunAttribute}
    (h : m.addAttribute attr = some m') :
    attr.value.valueType = m.cls.getAttributeValueType attr.type ∧
      m' = { m with
        attrs := m.attrs ++ [attr]
        length := m.length + UInt16.ofNat attr.room } := by
  simp only [addAttribute] at h
  split at h
  · cases h
  · rename_i htype
    exact ⟨not_not.mp htype, (Option.some.inj h).symm⟩

theorem addAttributes_eq_some {attrs : List StunAttribute} {m m' : StunMessage}
    (h : m.addAttributes attrs = some m') :
    (∀ attr ∈ attrs, attr.value.valueType = m.cls.getAttributeValueType attr.type) ∧
      m' = { m with
        attrs := m.attrs ++ attrs
        length := m.length + UInt16.ofNat (extent StunAttribute.room attrs) } := by
  induction attrs generalizing m with
  | nil =>
    obtain rfl := Option.some.inj h
    refine ⟨fun _ h => absurd h List.not_mem_nil, ?_⟩
    simp
  | cons attr rest ih =>
    simp only [addAttributes, List.foldlM_cons, Option.bind_eq_bind, Option.bind_eq_some_iff] at h
    obtain ⟨m₁, hadd, hrest⟩ := h
    obtain ⟨htype, rfl⟩ := addAttribute_eq_some hadd
    obtain ⟨htypes, rfl⟩ := ih hrest
    refine ⟨?_, ?_⟩
    · intro a ha
      rcases List.mem_cons.mp ha with rfl | ha
      · exact htype
      · exact htypes a ha
    · simp [UInt16.add_assoc]

theorem writeAttributes_cons {id bytes : List UInt8} {attr : StunAttribute}
    {rest : List StunAttribute} (h : writeAttributes id (attr :: rest) = some bytes) :
    ∃ body others, attr.value.write id = some body ∧ writeAttributes id rest = some others ∧
      bytes = shortToBytes attr.type ++ (shortToBytes attr.value.length ++ (body ++ others)) := by
  simp only [writeAttributes, writeAttribute, Option.bind_eq_bind, Option.bind_eq_some_iff] at h
  obtain ⟨first, ⟨body, hbody, hfirst⟩, others, hothers, hbytes⟩ := h
  obtain rfl := Option.some.inj hfirst
  obtain rfl := Option.some.inj hbytes
  exact ⟨body, others, hbody, hothers, by simp only [List.append_assoc]⟩

theorem length_writeAttributes {attrs : List StunAttribute} {id bytes : List UInt8}
    (h : writeAttributes id attrs = some bytes) (hle : bytes.length < 2 ^ 16) :
    bytes.length = extent StunAttribute.room attrs := by
  induction attrs generalizing bytes with
  | nil =>
    obtain rfl := Option.some.inj h
    rfl
  | cons attr rest ih =>
    obtain ⟨body, others, hbody, hothers, rfl⟩ := writeAttributes_cons h
    simp only [List.length_append, length_shortToBytes] at hle ⊢
    rw [extent_cons, StunAttribute.room, ih hothers (by omega),
      StunAttributeValue.length_write hbody (by omega)]
    omega

theorem exists_writeAttributes {attrs : List StunAttribute} {id : List UInt8}
    (h : ∀ attr ∈ attrs, ∃ body, attr.value.write id = some body ∧
      body.length = stunPaddedLength attr.value.length) :
    ∃ bytes, writeAttributes id attrs = some bytes ∧
      bytes.length = extent StunAttribute.room attrs := by
  induction attrs with
  | nil => exact ⟨[], rfl, rfl⟩
  | cons attr rest ih =>
    obtain ⟨body, hbody, hlen⟩ := h attr List.mem_cons_self
    obtain ⟨others, hothers, hotherslen⟩ := ih fun a ha => h a (List.mem_cons_of_mem _ ha)
    refine ⟨shortToBytes attr.type ++ shortToBytes attr.value.length ++ body ++ others, ?_, ?_⟩
    · simp only [writeAttributes, writeAttribute, hbody, hothers, Option.bind_eq_bind,
        Option.bind_some]
    · simp only [List.length_append, length_shortToBytes, extent_cons, StunAttribute.room, hlen,
        hotherslen]
      omega

theorem readAttributes_writeAttributes {cls : StunMessageClass} {attrs : List StunAttribute}
    {id bytes : List UInt8} (h : writeAttributes id attrs = some bytes)
    (hle : bytes.length < 2 ^ 16)
    (htypes : ∀ attr ∈ attrs, attr.value.valueType = cls.getAttributeValueType attr.type)
    (hfits : ∀ attr ∈ attrs, attr.value.ClassFits) {fuel : Nat} (hfuel : bytes.length ≤ fuel) :
    readAttributes cls id fuel bytes = some (attrs.map StunAttribute.encoded) := by
  induction attrs generalizing bytes fuel with
  | nil =>
    obtain rfl := Option.some.inj h
    cases fuel <;> rfl
  | cons attr rest ih =>
    obtain ⟨body, others, hbody, hothers, rfl⟩ := writeAttributes_cons h
    simp only [List.length_append, length_shortToBytes] at hle hfuel
    have htype := htypes attr List.mem_cons_self
    have hknown : cls.getAttributeValueType attr.type ≠ .unknown := by
      rw [← htype]
      cases attr.value <;> simp [StunAttributeValue.valueType]
    have hrest := ih hothers (by omega) (fun a ha => htypes a (List.mem_cons_of_mem _ ha))
      (fun a ha => hfits a (List.mem_cons_of_mem _ ha)) (show others.length ≤ fuel - 1 by omega)
    have hread := StunAttributeValue.read_of_write hbody (by omega)
      (hfits attr List.mem_cons_self) others
    rw [htype] at hread
    obtain ⟨fuel, rfl⟩ : ∃ k, fuel = k + 1 := ⟨fuel - 1, by omega⟩
    rw [Nat.add_sub_cancel] at hrest
    rw [readAttributes_header, if_neg hknown, hread, Option.bind_some, hrest]
    rfl

/-- A transaction id of 12 bytes, or one of 16 that does not begin like a magic
cookie. -/
def PlainTransactionId (id : List UInt8) : Prop :=
  id.length = stunTransactionIdLength ∨
    id.length = stunLegacyTransactionIdLength ∧ id.take 4 ≠ longToBytes stunMagicCookie

theorem readTransactionId_write {id : List UInt8} (h : PlainTransactionId id) (rest : List UInt8) :
    readTransactionId ((if id.length = stunLegacyTransactionIdLength then []
      else longToBytes stunMagicCookie) ++ id ++ rest) = some (id, rest) := by
  rcases h with hlen | ⟨hlen, hne⟩
  · have hlegacy : ¬ id.length = stunLegacyTransactionIdLength := by rw [hlen]; decide
    rw [if_neg hlegacy, List.append_assoc, readTransactionId,
      ByteBuffer.readBytes_append (length_longToBytes stunMagicCookie)]
    simp only [Option.bind_eq_bind, Option.bind_some, ByteBuffer.readBytes_append hlen,
      bytesToLong_longToBytes, ne_eq, not_true, if_false]
  · have htake : (id.take 4).length = 4 := by
      rw [List.length_take, hlen]
      decide
    have hdrop : (id.drop 4).length = stunTransactionIdLength := by
      rw [List.length_drop, hlen]
      decide
    have hcookie : bytesToLong (id.take 4) ≠ stunMagicCookie := by
      intro heq
      apply hne
      rw [← heq, longToBytes_bytesToLong htake]
    rw [if_pos hlen, List.nil_append, readTransactionId]
    nth_rewrite 1 [← List.take_append_drop 4 id]
    rw [List.append_assoc, ByteBuffer.readBytes_append htake]
    simp only [Option.bind_eq_bind, Option.bind_some, ByteBuffer.readBytes_append hdrop,
      hcookie, ne_eq, not_false_eq_true, if_true, List.take_append_drop]

theorem topBit_eq_zero {type : UInt16} : type &&& 0x8000 = 0 ↔ type < 0x8000 := by
  have hlt := type.toNat_lt
  rw [← UInt16.toNat_inj, UInt16.toNat_and, UInt16.lt_iff_toNat_lt]
  change type.toNat &&& 2 ^ 15 = 0 ↔ type.toNat < 2 ^ 15
  constructor
  · intro h
    have hbit : (type.toNat &&& 2 ^ 15).testBit 15 = false := by rw [h, Nat.zero_testBit]
    rw [Nat.testBit_and, Nat.testBit_two_pow_self, Bool.and_true,
      Nat.testBit_eq_decide_div_mod_eq, decide_eq_false_iff_not] at hbit
    omega
  · intro h
    apply Nat.eq_of_testBit_eq
    intro i
    rw [Nat.testBit_and, Nat.testBit_two_pow, Nat.zero_testBit]
    by_cases hi : 15 = i
    · rw [← hi, Nat.testBit_lt_two_pow h, Bool.false_and]
    · rw [decide_eq_false hi, Bool.and_false]

theorem length_idPart {id : List UInt8} (h : PlainTransactionId id) :
    ((if id.length = stunLegacyTransactionIdLength then []
      else longToBytes stunMagicCookie) ++ id).length = 16 := by
  rcases h with hlen | ⟨hlen, -⟩
  · rw [if_neg (by rw [hlen]; decide), List.length_append, hlen, length_longToBytes]
    rfl
  · rw [if_pos hlen, List.nil_append, hlen]
    rfl

theorem isLegacy_eq (m : StunMessage) :
    m.isLegacy = decide (m.transactionId.length = stunLegacyTransactionIdLength) := rfl

theorem length_writeHeader {m : StunMessage} (hid : PlainTransactionId m.transactionId) :
    m.writeHeader.length = stunHeaderSize := by
  have hidlen := length_idPart hid
  rw [List.length_append] at hidlen
  simp only [writeHeader, isLegacy_eq, decide_eq_true_eq, List.length_append, length_shortToBytes,
    stunHeaderSize]
  omega

theorem read_writeHeader {m : StunMessage} (htype : m.type < 0x8000)
    (hid : PlainTransactionId m.transactionId) (cls : StunMessageClass) (body : List UInt8) :
    read cls (m.writeHeader ++ body) =
      if m.length.toNat ≠ body.length then none
      else (readAttributes cls m.transactionId body.length body).bind fun attrs =>
        some ⟨cls, m.type, m.length, m.transactionId, attrs⟩ := by
  have htop : m.type &&& 0x8000 = 0 := topBit_eq_zero.mpr htype
  simp only [writeHeader, isLegacy_eq, decide_eq_true_eq, List.append_assoc]
  rw [read, ByteBuffer.readUInt16_append]
  simp only [Option.bind_eq_bind, Option.bind_some, htop, ne_eq, not_true, if_false,
    ByteBuffer.readUInt16_append]
  rw [← List.append_assoc, readTransactionId_write hid]
  rfl

/-- What reading makes of a message that was put together by `AddAttribute`: its
length field has to hold the length. -/
theorem read_eq_of_write {m : StunMessage} {bytes : List UInt8} (htype : m.type < 0x8000)
    (hid : PlainTransactionId m.transactionId)
    (hlength : m.length = UInt16.ofNat (extent StunAttribute.room m.attrs))
    (htypes : ∀ attr ∈ m.attrs, attr.value.valueType = m.cls.getAttributeValueType attr.type)
    (hfits : ∀ attr ∈ m.attrs, attr.value.ClassFits) (hwrite : m.write = some bytes) :
    read m.cls bytes = if bytes.length < 2 ^ 16 + stunHeaderSize then
      some { m with attrs := m.attrs.map StunAttribute.encoded } else none := by
  simp only [write, Option.bind_eq_bind, Option.bind_eq_some_iff] at hwrite
  obtain ⟨body, hbody, hbytes⟩ := hwrite
  obtain rfl := Option.some.inj hbytes
  rw [read_writeHeader htype hid, List.length_append, length_writeHeader hid]
  by_cases hlt : body.length < 2 ^ 16
  · have hfield : m.length.toNat = body.length := by
      rw [hlength, ← length_writeAttributes hbody hlt, UInt16.toNat_ofNat_of_lt' hlt]
    have hattrs := readAttributes_writeAttributes hbody hlt htypes hfits (Nat.le_refl _)
    rw [if_neg (not_not.mpr hfield), if_pos (by omega), hattrs, Option.bind_some]
  · have hfield : m.length.toNat ≠ body.length := by
      have := m.length.toNat_lt
      omega
    rw [if_pos hfield, if_neg (by omega)]

end StunMessage

end Libjingle
