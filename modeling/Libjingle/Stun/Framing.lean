import Libjingle.Stun.RoundTrip

/-! How `Read` cuts a packet into attributes. Most bodies are as long as their
header says, with padding; 32 and 64 bit numbers always take their own size,
unknown attributes are rounded up in 16 bits, and the last padding may be missing. -/

namespace Libjingle

open ByteBuffer

namespace StunAttributeValue

def bodyLength (valueType : StunAttributeValueType) (length : UInt16) : Nat :=
  match valueType with
  | .uint32 => 4
  | .uint64 => 8
  | .unknown => (StunMessage.skippedLength length).toNat
  | _ => stunPaddedLength length

theorem takes_readTypes (n : Nat) : Takes (readTypes n) (2 * n) := by
  induction n with
  | zero => exact takes_pure []
  | succ n ih =>
    have htail : ∀ attr : UInt16, Takes (fun buf => (readTypes n buf).bind fun read =>
        some (attr :: read.1, read.2)) (2 * n + 0) :=
      fun attr => ih.bind fun types => takes_pure (attr :: types)
    rw [Nat.mul_succ, Nat.add_comm (2 * n)]
    exact (takes_readNumber bytesToShort 2).bind htail

def readIP (family : UInt8) (port length : UInt16) (buf : ByteBuffer) :
    Option (SocketAddress × ByteBuffer) :=
  if family = 1 then
    if length ≠ 8 then none
    else buf.readUInt32.bind fun a => some (.ofIP (.inet a.1) port, a.2)
  else if family = 2 then
    if length ≠ 20 then none
    else buf.readUInt32.bind fun w₀ => w₀.2.readUInt32.bind fun w₁ =>
      w₁.2.readUInt32.bind fun w₂ => w₂.2.readUInt32.bind fun w₃ =>
        some (.ofIP (.inet6 ⟨w₀.1, w₁.1, w₂.1, w₃.1⟩) port, w₃.2)
  else none

theorem takes_readIP (family : UInt8) (port length : UInt16) (n : Nat)
    (h₄ : length = 8 → n = 4) (h₆ : length = 20 → n = 16) :
    Takes (readIP family port length) n := by
  have hword : Takes readUInt32 4 := takes_readNumber bytesToLong 4
  refine Takes.ite _ (fun _ => Takes.ite _ (fun _ => takes_none n) fun hlen => ?_)
    fun _ => Takes.ite _ (fun _ => Takes.ite _ (fun _ => takes_none n) fun hlen => ?_)
      fun _ => takes_none n
  · rw [h₄ (not_not.mp hlen)]
    exact hword.bind fun a => takes_pure (SocketAddress.ofIP (.inet a) port)
  · rw [h₆ (not_not.mp hlen)]
    exact hword.bind fun w₀ => hword.bind fun w₁ => hword.bind fun w₂ => hword.bind fun w₃ =>
      takes_pure (SocketAddress.ofIP (.inet6 ⟨w₀, w₁, w₂, w₃⟩) port)

theorem takes_readAddress (length : UInt16) :
    Takes (readAddress length) (stunPaddedLength length) := by
  have htake : ∀ n, (length = 8 → n = 4) → (length = 20 → n = 16) →
      Takes (readAddress length) (1 + (1 + (2 + n))) := fun n h₄ h₆ =>
    (takes_readNumber _ 1).bind fun _ => (takes_readNumber _ 1).bind fun family =>
      (takes_readNumber bytesToShort 2).bind fun port => takes_readIP family port length n h₄ h₆
  by_cases h₈ : length = 8
  · subst h₈
    exact htake 4 (fun _ => rfl) (by decide)
  · by_cases h₂₀ : length = 20
    · subst h₂₀
      exact htake 16 (by decide) (fun _ => rfl)
    · -- No other length is accepted: what was taken would have two sizes.
      intro buf addr rest h
      obtain ⟨body, hbuf, hlen, -⟩ := htake 0 (absurd · h₈) (absurd · h₂₀) buf addr rest h
      obtain ⟨body', hbuf', hlen', -⟩ := htake 1 (absurd · h₈) (absurd · h₂₀) buf addr rest h
      have hsize := congrArg List.length (hbuf.symm.trans hbuf')
      simp only [List.length_append] at hsize
      omega

theorem takes_padding {α : Type} {f : ByteBuffer → Option (α × ByteBuffer)} {length : UInt16}
    (hf : Takes f length.toNat) {buf rest : List UInt8} {val : α}
    (h : ((f buf).bind fun read => some (read.1, consumePadding length read.2)) = some (val, rest)) :
    ∃ body, buf = body ++ rest ∧
      (body.length = stunPaddedLength length ∧
          (∀ rest', ((f (body ++ rest')).bind fun read =>
            some (read.1, consumePadding length read.2)) = some (val, rest')) ∨
        body.length = length.toNat ∧ rest.length < stunPadding length ∧
          ((f body).bind fun read => some (read.1, consumePadding length read.2)) =
            some (val, [])) := by
  obtain ⟨⟨val', buf'⟩, hread, heq⟩ := Option.bind_eq_some_iff.mp h
  obtain ⟨rfl, rfl⟩ := Prod.mk.inj (Option.some.inj heq)
  obtain ⟨body, rfl, hlen, htake⟩ := hf _ _ _ hread
  rcases Nat.lt_or_ge buf'.length (stunPadding length) with hlt | hge
  · have hnone : ByteBuffer.consume buf' (stunPadding length) = none := if_pos hlt
    have hkeep : consumePadding length buf' = buf' := by rw [consumePadding, hnone, Option.getD_none]
    have hnil : consumePadding length [] = [] := by
      have : ByteBuffer.consume [] (stunPadding length) = none := if_pos (Nat.zero_lt_of_lt hlt)
      rw [consumePadding, this, Option.getD_none]
    have hbody := htake []
    rw [List.append_nil] at hbody
    refine ⟨body, by rw [hkeep], .inr ⟨hlen, by rw [hkeep]; exact hlt, ?_⟩⟩
    rw [hbody, Option.bind_some, hnil]
  · have hpad : (buf'.take (stunPadding length)).length = stunPadding length := by
      rw [List.length_take]
      omega
    have hdrop : consumePadding length buf' = buf'.drop (stunPadding length) := by
      have := consumePadding_append hpad (buf'.drop (stunPadding length))
      rwa [List.take_append_drop] at this
    refine ⟨body ++ buf'.take (stunPadding length), ?_, .inl ⟨?_, fun rest' => ?_⟩⟩
    · rw [hdrop, List.append_assoc, List.take_append_drop]
    · rw [List.length_append, hlen, hpad]
      rfl
    · rw [List.append_assoc, htake, Option.bind_some, consumePadding_append hpad]

theorem read_takes {id buf rest : List UInt8} {valueType : StunAttributeValueType}
    {length : UInt16} {v : StunAttributeValue} (h : read id valueType length buf = some (v, rest)) :
    ∃ body, buf = body ++ rest ∧
      (body.length = bodyLength valueType length ∧
          (∀ rest', read id valueType length (body ++ rest') = some (v, rest')) ∨
        body.length = length.toNat ∧ rest.length < stunPadding length ∧
          bodyLength valueType length = stunPaddedLength length ∧
          read id valueType length body = some (v, [])) := by
  have hexact : ∀ n, bodyLength valueType length = n → Takes (read id valueType length) n →
      ∃ body, buf = body ++ rest ∧
        (body.length = bodyLength valueType length ∧
            (∀ rest', read id valueType length (body ++ rest') = some (v, rest')) ∨
          body.length = length.toNat ∧ rest.length < stunPadding length ∧
            bodyLength valueType length = stunPaddedLength length ∧
            read id valueType length body = some (v, [])) := by
    intro n hn htake
    obtain ⟨body, hbuf, hlen, happend⟩ := htake _ _ _ h
    exact ⟨body, hbuf, .inl ⟨hlen.trans hn.symm, happend⟩⟩
  have hpadded : ∀ f : ByteBuffer → Option (StunAttributeValue × ByteBuffer),
      Takes f length.toNat → bodyLength valueType length = stunPaddedLength length →
      (∀ buf, read id valueType length buf =
        (f buf).bind fun read => some (read.1, consumePadding length read.2)) →
      ∃ body, buf = body ++ rest ∧
        (body.length = bodyLength valueType length ∧
            (∀ rest', read id valueType length (body ++ rest') = some (v, rest')) ∨
          body.length = length.toNat ∧ rest.length < stunPadding length ∧
            bodyLength valueType length = stunPaddedLength length ∧
            read id valueType length body = some (v, [])) := by
    intro f hf hbody hread
    simp only [hread, hbody, true_and] at h ⊢
    exact takes_padding hf h
  cases valueType with
  | unknown => cases h
  | address =>
    exact hexact _ rfl ((takes_readAddress length).bind fun addr => takes_pure (address addr))
  | xorAddress =>
    exact hexact _ rfl ((takes_readAddress length).bind fun addr =>
      takes_pure (xorAddress (.ofIP (getXoredIP id addr.ip) (getXoredPort addr.port))))
  | uint32 => exact hexact _ rfl ((takes_readNumber bytesToLong 4).bind fun bits => takes_pure (uint32 bits))
  | uint64 => exact hexact _ rfl ((takes_readNumber bytesToLongLong 8).bind fun bits => takes_pure (uint64 bits))
  | byteString =>
    refine hpadded _ ((takes_readBytes length.toNat).bind fun bytes => takes_pure (byteString bytes))
      rfl fun buf => ?_
    simp only [read, Option.bind_eq_bind, Option.bind_assoc, Option.bind_some]
  | errorCode =>
    by_cases hmin : length < 4
    · simp only [read, hmin, if_true] at h
      cases h
    · have hle : 4 ≤ length.toNat := UInt16.le_iff_toNat_le.mp (UInt16.not_lt.mp hmin)
      have hf := (takes_readNumber bytesToLong 4).bind fun val =>
        (takes_readBytes (length.toNat - 4)).bind fun reason =>
          takes_pure (errorCode (val >>> 8 &&& 7).toUInt8 (val &&& 0xff).toUInt8 reason)
      rw [Nat.add_zero, Nat.add_sub_cancel' hle] at hf
      refine hpadded _ hf rfl fun buf => ?_
      simp only [read, hmin, if_false, Option.bind_eq_bind, Option.bind_assoc, Option.bind_some]
      rfl
  | uint16List =>
    by_cases hodd : length % 2 ≠ 0
    · simp only [read] at h
      rw [if_pos hodd] at h
      cases h
    · have heven : length.toNat % 2 = 0 := by
        have := congrArg UInt16.toNat (not_not.mp hodd)
        rwa [UInt16.toNat_mod] at this
      have hf := (takes_readTypes (length.toNat / 2)).bind fun types => takes_pure (uint16List types)
      rw [Nat.add_zero, Nat.mul_div_cancel' (Nat.dvd_of_mod_eq_zero heven)] at hf
      refine hpadded _ hf rfl fun buf => ?_
      simp only [read, hodd, if_false, Option.bind_eq_bind, Option.bind_assoc, Option.bind_some]

end StunAttributeValue

/-- An attribute as a piece of a packet: header, and body with its padding. -/
@[ext]
structure Tlv where
  type : UInt16
  length : UInt16
  body : List UInt8
  deriving DecidableEq

namespace Tlv

variable (cls : StunMessageClass) (id : List UInt8)

def bytes (t : Tlv) : List UInt8 := shortToBytes t.type ++ (shortToBytes t.length ++ t.body)

/-- The attribute that is read from the body, none for an unknown type. -/
def parsed (t : Tlv) : Option StunAttribute :=
  if cls.getAttributeValueType t.type = .unknown then none
  else
    (StunAttributeValue.read id (cls.getAttributeValueType t.type) t.length t.body).map
      fun read => ⟨t.type, read.1⟩

def Valid (t : Tlv) : Prop :=
  cls.getAttributeValueType t.type ≠ .unknown →
    ∃ v, StunAttributeValue.read id (cls.getAttributeValueType t.type) t.length t.body = some (v, [])

/-- The body is as long as the header says, rounded up to a multiple of four. -/
def Framed (t : Tlv) : Prop := t.body.length = stunPaddedLength t.length

/-- The bytes `Read` takes for the body. -/
def taken (t : Tlv) : Nat :=
  StunAttributeValue.bodyLength (cls.getAttributeValueType t.type) t.length

end Tlv

/-- How `Read` cuts up what follows the header. The padding of the last
attribute may be missing. -/
inductive Cuts (cls : StunMessageClass) (id : List UInt8) : List Tlv → Prop
  | nil : Cuts cls id []
  | cons {t : Tlv} {rest : List Tlv} (hvalid : t.Valid cls id)
      (hbody : t.body.length = t.taken cls) (hrest : Cuts cls id rest) : Cuts cls id (t :: rest)
  | unpadded {t : Tlv} (hvalid : t.Valid cls id)
      (hknown : cls.getAttributeValueType t.type ≠ .unknown)
      (htaken : t.taken cls = stunPaddedLength t.length)
      (hbody : t.body.length = t.length.toNat) : Cuts cls id [t]

namespace StunMessage

variable {cls : StunMessageClass} {id : List UInt8}

theorem readAttributes_length {fuel : Nat} {buf : List UInt8} {attrs : List StunAttribute}
    (h : readAttributes cls id fuel buf = some attrs) : buf = [] ∨ 4 ≤ buf.length := by
  cases buf with
  | nil => exact .inl rfl
  | cons b buf =>
    right
    cases fuel with
    | zero => cases h
    | succ fuel =>
      simp only [readAttributes, Option.bind_eq_bind, Option.bind_eq_some_iff, Prod.exists] at h
      obtain ⟨type, buf₁, htype, length, buf₂, hlength, -⟩ := h
      rw [readUInt16_eq_some.mp htype, readUInt16_eq_some.mp hlength]
      simp only [List.length_append, length_shortToBytes]
      omega

theorem parsed_unknown {t : Tlv} (h : cls.getAttributeValueType t.type = .unknown) :
    t.parsed cls id = none := if_pos h

theorem parsed_of_read {t : Tlv} {v : StunAttributeValue}
    (hknown : cls.getAttributeValueType t.type ≠ .unknown)
    (h : StunAttributeValue.read id (cls.getAttributeValueType t.type) t.length t.body =
      some (v, [])) : t.parsed cls id = some ⟨t.type, v⟩ := by
  rw [Tlv.parsed, if_neg hknown, h]
  rfl

/-- What the loop accepts is cut into pieces, and each attribute is read from
its own. -/
theorem cuts_of_readAttributes {fuel : Nat} {buf : List UInt8} {attrs : List StunAttribute}
    (h : readAttributes cls id fuel buf = some attrs) :
    ∃ tlvs, Cuts cls id tlvs ∧ buf = tlvs.flatMap Tlv.bytes ∧
      attrs = tlvs.filterMap (Tlv.parsed cls id) := by
  induction fuel generalizing buf attrs with
  | zero =>
    cases buf with
    | nil =>
      obtain rfl := Option.some.inj h
      exact ⟨[], .nil, rfl, rfl⟩
    | cons b buf => cases h
  | succ fuel ih =>
    cases hbuf : buf with
    | nil =>
      rw [hbuf] at h
      obtain rfl := Option.some.inj h
      exact ⟨[], .nil, rfl, rfl⟩
    | cons b rest =>
      have hshape : ∃ type length tail,
          buf = shortToBytes type ++ (shortToBytes length ++ tail) := by
        rw [hbuf] at h ⊢
        simp only [readAttributes, Option.bind_eq_bind, Option.bind_eq_some_iff, Prod.exists] at h
        obtain ⟨type, buf₁, htype, length, buf₂, hlength, -⟩ := h
        rw [readUInt16_eq_some.mp htype, readUInt16_eq_some.mp hlength]
        exact ⟨type, length, buf₂, rfl⟩
      obtain ⟨type, length, tail, hshape⟩ := hshape
      rw [← hbuf]
      rw [hshape, readAttributes_header] at h
      by_cases hunknown : cls.getAttributeValueType type = .unknown
      · rw [if_pos hunknown] at h
        obtain ⟨rest, hconsume, hattrs⟩ := Option.bind_eq_some_iff.mp h
        obtain ⟨body, rfl, hlen⟩ := consume_eq_some.mp hconsume
        obtain ⟨tlvs, hcuts, rfl, rfl⟩ := ih hattrs
        refine ⟨⟨type, length, body⟩ :: tlvs, .cons (fun hk => absurd hunknown hk) ?_ hcuts, ?_, ?_⟩
        · rw [Tlv.taken, hunknown]
          exact hlen
        · simp only [hshape, List.flatMap_cons, Tlv.bytes, List.append_assoc]
        · exact (List.filterMap_cons_none (parsed_unknown (t := ⟨type, length, body⟩) hunknown)).symm
      · rw [if_neg hunknown] at h
        obtain ⟨⟨v, rest⟩, hread, hrest⟩ := Option.bind_eq_some_iff.mp h
        obtain ⟨attrs', hattrs, hcons⟩ := Option.bind_eq_some_iff.mp hrest
        obtain rfl := Option.some.inj hcons
        obtain ⟨body, rfl, hbody⟩ := StunAttributeValue.read_takes hread
        rcases hbody with ⟨hlen, happend⟩ | ⟨hlen, hlt, htaken, hwhole⟩
        · have hwhole := happend []
          rw [List.append_nil] at hwhole
          obtain ⟨tlvs, hcuts, rfl, rfl⟩ := ih hattrs
          refine ⟨⟨type, length, body⟩ :: tlvs, .cons (fun _ => ⟨v, hwhole⟩) hlen hcuts, ?_, ?_⟩
          · simp only [hshape, List.flatMap_cons, Tlv.bytes, List.append_assoc]
          · rw [List.filterMap_cons_some (parsed_of_read (t := ⟨type, length, body⟩) hunknown hwhole)]
        · have hnil : rest = [] := by
            rcases readAttributes_length hattrs with hnil | hfour
            · exact hnil
            · have : stunPadding length < 4 := Nat.mod_lt _ (by decide)
              simp only at hfour
              omega
          subst hnil
          have hnone : attrs' = [] := by
            cases fuel <;> exact (Option.some.inj hattrs).symm
          subst hnone
          refine ⟨[⟨type, length, body⟩], .unpadded (fun _ => ⟨v, hwhole⟩) hunknown htaken hlen, ?_, ?_⟩
          · simp only [hshape, List.flatMap_cons, List.flatMap_nil, Tlv.bytes, List.append_nil]
          · rw [List.filterMap_cons_some (parsed_of_read (t := ⟨type, length, body⟩) hunknown hwhole)]
            rfl

theorem readAttributes_of_cuts {tlvs : List Tlv} (h : Cuts cls id tlvs) {fuel : Nat}
    (hfuel : (tlvs.flatMap Tlv.bytes).length ≤ fuel) :
    readAttributes cls id fuel (tlvs.flatMap Tlv.bytes) =
      some (tlvs.filterMap (Tlv.parsed cls id)) := by
  induction h generalizing fuel with
  | nil => cases fuel <;> rfl
  | @cons t rest hvalid hbody hrest ih =>
    simp only [List.flatMap_cons, Tlv.bytes, List.length_append, length_shortToBytes] at hfuel
    obtain ⟨fuel, rfl⟩ : ∃ k, fuel = k + 1 := ⟨fuel - 1, by omega⟩
    have hrest := ih (show (rest.flatMap Tlv.bytes).length ≤ fuel by omega)
    simp only [List.flatMap_cons, Tlv.bytes, List.append_assoc]
    rw [readAttributes_header]
    by_cases hunknown : cls.getAttributeValueType t.type = .unknown
    · rw [Tlv.taken, hunknown] at hbody
      have hconsume : ByteBuffer.consume (t.body ++ rest.flatMap Tlv.bytes)
          (skippedLength t.length).toNat = some (rest.flatMap Tlv.bytes) :=
        consume_eq_some.mpr ⟨t.body, rfl, hbody⟩
      rw [if_pos hunknown, hconsume, Option.bind_some,
        List.filterMap_cons_none (parsed_unknown hunknown)]
      exact hrest
    · obtain ⟨v, hwhole⟩ := hvalid hunknown
      have happend : StunAttributeValue.read id (cls.getAttributeValueType t.type) t.length
          (t.body ++ rest.flatMap Tlv.bytes) = some (v, rest.flatMap Tlv.bytes) := by
        obtain ⟨body, heq, hcase⟩ := StunAttributeValue.read_takes hwhole
        rw [List.append_nil] at heq
        subst heq
        rcases hcase with ⟨-, happend⟩ | ⟨hlen, hlt, htaken, -⟩
        · exact happend _
        · rw [Tlv.taken, htaken, stunPaddedLength] at hbody
          simp only [List.length_nil] at hlt
          omega
      rw [if_neg hunknown, happend, Option.bind_some, hrest, Option.bind_some,
        List.filterMap_cons_some (parsed_of_read hunknown hwhole)]
  | @unpadded t hvalid hknown htaken hbody =>
    simp only [List.flatMap_cons, List.flatMap_nil, Tlv.bytes, List.append_nil, List.length_append,
      length_shortToBytes] at hfuel ⊢
    obtain ⟨fuel, rfl⟩ : ∃ k, fuel = k + 1 := ⟨fuel - 1, by omega⟩
    obtain ⟨v, hwhole⟩ := hvalid hknown
    have hnil : readAttributes cls id fuel [] = some [] := by cases fuel <;> rfl
    rw [readAttributes_header, if_neg hknown, hwhole, Option.bind_some, hnil, Option.bind_some,
      List.filterMap_cons_some (parsed_of_read hknown hwhole)]
    rfl

def transactionIdOf (field : List UInt8) : List UInt8 :=
  if bytesToLong (field.take 4) ≠ stunMagicCookie then field else field.drop 4

theorem readTransactionId_eq_some {buf rest : List UInt8} :
    readTransactionId buf = some (id, rest) ↔
      ∃ field, buf = field ++ rest ∧ field.length = 16 ∧ id = transactionIdOf field := by
  constructor
  · intro h
    simp only [readTransactionId, Option.bind_eq_bind, Option.bind_eq_some_iff, Prod.exists] at h
    obtain ⟨cookie, buf₁, hcookie, id', buf₂, hid, hval⟩ := h
    obtain ⟨rfl, hlen⟩ := readBytes_eq_some.mp hcookie
    obtain ⟨rfl, hlen'⟩ := readBytes_eq_some.mp hid
    obtain ⟨rfl, rfl⟩ := Prod.mk.inj (Option.some.inj hval)
    refine ⟨cookie ++ id', (List.append_assoc _ _ _).symm, ?_, ?_⟩
    · rw [List.length_append, hlen, hlen']
      rfl
    · rw [transactionIdOf, ← hlen, List.take_left, List.drop_left]
  · rintro ⟨field, rfl, hlen, rfl⟩
    have htake : (field.take 4).length = 4 := by rw [List.length_take, hlen]; rfl
    have hdrop : (field.drop 4).length = stunTransactionIdLength := by
      rw [List.length_drop, hlen]
      rfl
    rw [readTransactionId, transactionIdOf]
    nth_rewrite 1 [← List.take_append_drop 4 field]
    rw [List.append_assoc, readBytes_append htake]
    simp only [Option.bind_eq_bind, Option.bind_some, readBytes_append hdrop,
      List.take_append_drop]

def packet (type length : UInt16) (field rest : List UInt8) : List UInt8 :=
  shortToBytes type ++ (shortToBytes length ++ (field ++ rest))

/-- The header of the packet of a message that is followed by `rest`. -/
structure Header (m : StunMessage) (cls : StunMessageClass) (bytes rest : List UInt8) : Prop where
  split : ∃ field, bytes = packet m.type m.length field rest ∧ field.length = 16 ∧
    m.transactionId = transactionIdOf field
  cls_eq : m.cls = cls
  type_lt : m.type < 0x8000
  length_eq : m.length.toNat = rest.length

theorem read_eq_some {bytes : List UInt8} {m : StunMessage} :
    read cls bytes = some m ↔ ∃ tlvs, m.Header cls bytes (tlvs.flatMap Tlv.bytes) ∧
      Cuts cls m.transactionId tlvs ∧
      m.attrs = tlvs.filterMap (Tlv.parsed cls m.transactionId) := by
  constructor
  · intro h
    simp only [read, Option.bind_eq_bind, Option.bind_eq_some_iff, Prod.exists] at h
    obtain ⟨type, buf₁, htype, h⟩ := h
    split at h
    · cases h
    · rename_i htop
      obtain ⟨length, buf₂, hlength, id, buf₃, hid, h⟩ := by
        simpa only [Option.bind_eq_some_iff, Prod.exists] using h
      split at h
      · cases h
      · rename_i hlen
        obtain ⟨attrs, hattrs, hm⟩ := Option.bind_eq_some_iff.mp h
        obtain rfl := Option.some.inj hm
        obtain rfl := readUInt16_eq_some.mp htype
        obtain rfl := readUInt16_eq_some.mp hlength
        obtain ⟨field, rfl, hfield, rfl⟩ := readTransactionId_eq_some.mp hid
        obtain ⟨tlvs, hcuts, rfl, rfl⟩ := cuts_of_readAttributes hattrs
        exact ⟨tlvs, ⟨⟨field, rfl, hfield, rfl⟩, rfl, topBit_eq_zero.mp (not_not.mp htop),
          not_not.mp hlen⟩, hcuts, rfl⟩
  · rintro ⟨tlvs, ⟨⟨field, rfl, hfield, hid⟩, rfl, htype, hlength⟩, hcuts, hattrs⟩
    have hread := readAttributes_of_cuts hcuts (Nat.le_refl _)
    have htop : ¬ m.type &&& 0x8000 ≠ 0 := not_not.mpr (topBit_eq_zero.mpr htype)
    have hfieldread : readTransactionId (field ++ tlvs.flatMap Tlv.bytes) =
        some (m.transactionId, tlvs.flatMap Tlv.bytes) :=
      readTransactionId_eq_some.mpr ⟨field, rfl, hfield, hid⟩
    rw [read, packet, readUInt16_append]
    simp only [Option.bind_eq_bind, Option.bind_some, htop, if_false, readUInt16_append,
      hfieldread, hlength, ne_eq, not_true, hread, ← hattrs]

end StunMessage

end Libjingle
