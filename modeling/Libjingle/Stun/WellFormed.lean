import Libjingle.Stun.Framing

/-! Which packets `Read` takes for well formed. A packet whose attributes declare
the sizes that are taken for them is cut where its headers say. -/

namespace Libjingle

open ByteBuffer StunAttributeValue

namespace Tlv

variable (cls : StunMessageClass) (id : List UInt8)

/-- The declared length is one for which `Read` takes the padded length. -/
def SizeFits (t : Tlv) : Prop :=
  match cls.getAttributeValueType t.type with
  | .uint32 => 1 ≤ t.length ∧ t.length ≤ 4
  | .uint64 => 5 ≤ t.length ∧ t.length ≤ 8
  | .unknown => t.length ≤ 65532
  | _ => True

variable {cls id}

theorem toNat_skippedLength (length : UInt16) :
    (StunMessage.skippedLength length).toNat = stunPaddedLength length % 2 ^ 16 := by
  have hlt := length.toNat_lt
  have hmod : (length % 4).toNat = length.toNat % 4 := UInt16.toNat_mod length 4
  rw [StunMessage.skippedLength]
  by_cases hzero : length % 4 = 0
  · rw [hzero] at hmod
    change 0 = length.toNat % 4 at hmod
    rw [if_neg (not_not.mpr hzero), stunPaddedLength, stunPadding]
    omega
  · have hne : length.toNat % 4 ≠ 0 := by
      rw [← hmod]
      exact fun h => hzero (UInt16.toNat_inj.mp h)
    have hle : length % 4 ≤ 4 := by
      rw [UInt16.le_iff_toNat_le, hmod]
      exact (Nat.mod_lt _ (by decide)).le
    rw [if_pos hzero, UInt16.toNat_add, UInt16.toNat_sub_of_le _ _ hle, hmod, stunPaddedLength,
      stunPadding]
    change (length.toNat + (4 - length.toNat % 4)) % 2 ^ 16 = _
    rw [Nat.mod_eq_of_lt (show 4 - length.toNat % 4 < 4 by omega)]

theorem taken_eq_stunPaddedLength (t : Tlv) :
    t.taken cls = stunPaddedLength t.length ↔ t.SizeFits cls := by
  have hlt := t.length.toNat_lt
  rw [taken, SizeFits]
  cases cls.getAttributeValueType t.type with
  | uint32 =>
    rw [UInt16.le_iff_toNat_le, UInt16.le_iff_toNat_le, bodyLength, stunPaddedLength, stunPadding]
    change _ ↔ 1 ≤ t.length.toNat ∧ t.length.toNat ≤ 4
    omega
  | uint64 =>
    rw [UInt16.le_iff_toNat_le, UInt16.le_iff_toNat_le, bodyLength, stunPaddedLength, stunPadding]
    change _ ↔ 5 ≤ t.length.toNat ∧ t.length.toNat ≤ 8
    omega
  | unknown =>
    rw [UInt16.le_iff_toNat_le, bodyLength, toNat_skippedLength, stunPaddedLength, stunPadding]
    change _ ↔ t.length.toNat ≤ 65532
    omega
  | address => exact iff_of_true rfl trivial
  | xorAddress => exact iff_of_true rfl trivial
  | byteString => exact iff_of_true rfl trivial
  | errorCode => exact iff_of_true rfl trivial
  | uint16List => exact iff_of_true rfl trivial

theorem four_dvd_stunPaddedLength (length : UInt16) : 4 ∣ stunPaddedLength length := by
  rw [stunPaddedLength, stunPadding]
  omega

theorem length_bytes (t : Tlv) : t.bytes.length = 4 + t.body.length := by
  simp only [bytes, List.length_append, length_shortToBytes]
  omega

theorem four_dvd_length {tlvs : List Tlv} (h : ∀ t ∈ tlvs, t.Framed) :
    4 ∣ (tlvs.flatMap Tlv.bytes).length := by
  induction tlvs with
  | nil => exact Nat.dvd_zero 4
  | cons t rest ih =>
    have hbody : t.body.length = stunPaddedLength t.length := h t List.mem_cons_self
    have hdvd := four_dvd_stunPaddedLength t.length
    have hrest := ih fun a ha => h a (List.mem_cons_of_mem _ ha)
    rw [List.flatMap_cons, List.length_append, length_bytes, hbody]
    exact Nat.dvd_add (Nat.dvd_add (Nat.dvd_refl 4) hdvd) hrest

theorem taken_of_known {t : Tlv} (hknown : cls.getAttributeValueType t.type ≠ .unknown)
    (hvalid : t.Valid cls id) (hframed : t.Framed) : t.body.length = t.taken cls := by
  obtain ⟨v, hread⟩ := hvalid hknown
  obtain ⟨body, hbody, hcase⟩ := read_takes hread
  rw [List.append_nil] at hbody
  subst hbody
  rcases hcase with ⟨hlen, -⟩ | ⟨hlen, hlt, -, -⟩
  · exact hlen
  · rw [Framed, stunPaddedLength] at hframed
    simp only [List.length_nil] at hlt
    omega

end Tlv

namespace Cuts

variable {cls : StunMessageClass} {id : List UInt8} {tlvs : List Tlv}

theorem valid (h : Cuts cls id tlvs) : ∀ t ∈ tlvs, t.Valid cls id := by
  induction h with
  | nil => exact fun t ht => absurd ht List.not_mem_nil
  | cons hvalid _ _ ih =>
    intro t ht
    rcases List.mem_cons.mp ht with rfl | ht
    · exact hvalid
    · exact ih t ht
  | unpadded hvalid =>
    intro t ht
    obtain rfl := List.mem_singleton.mp ht
    exact hvalid

theorem framed (h : Cuts cls id tlvs) (hsize : ∀ t ∈ tlvs, t.SizeFits cls)
    (hdvd : 4 ∣ (tlvs.flatMap Tlv.bytes).length) : ∀ t ∈ tlvs, t.Framed := by
  induction h with
  | nil => exact fun t ht => absurd ht List.not_mem_nil
  | @cons t rest hvalid hbody hrest ih =>
    have hframed : t.Framed := by
      rw [Tlv.Framed, hbody]
      exact t.taken_eq_stunPaddedLength.mpr (hsize t List.mem_cons_self)
    have hfour : 4 ∣ t.bytes.length := by
      have hpadded := Tlv.four_dvd_stunPaddedLength t.length
      rw [Tlv.length_bytes, show t.body.length = stunPaddedLength t.length from hframed]
      exact Nat.dvd_add (Nat.dvd_refl 4) hpadded
    rw [List.flatMap_cons, List.length_append] at hdvd
    have htail := ih (fun a ha => hsize a (List.mem_cons_of_mem _ ha))
      ((Nat.dvd_add_right hfour).mp hdvd)
    intro a ha
    rcases List.mem_cons.mp ha with rfl | ha
    · exact hframed
    · exact htail a ha
  | @unpadded t hvalid hknown htaken hbody =>
    intro a ha
    obtain rfl := List.mem_singleton.mp ha
    rw [List.flatMap_cons, List.flatMap_nil, List.append_nil, Tlv.length_bytes, hbody] at hdvd
    rw [Tlv.Framed, hbody, stunPaddedLength, stunPadding]
    omega

theorem sizeFits (h : Cuts cls id tlvs) (hframed : ∀ t ∈ tlvs, t.Framed) :
    ∀ t ∈ tlvs, t.SizeFits cls := by
  induction h with
  | nil => exact fun t ht => absurd ht List.not_mem_nil
  | @cons t rest hvalid hbody hrest ih =>
    intro a ha
    rcases List.mem_cons.mp ha with rfl | ha
    · exact a.taken_eq_stunPaddedLength.mp (hbody.symm.trans (hframed a List.mem_cons_self))
    · exact ih (fun b hb => hframed b (List.mem_cons_of_mem _ hb)) a ha
  | @unpadded t hvalid hknown htaken hbody =>
    intro a ha
    obtain rfl := List.mem_singleton.mp ha
    exact a.taken_eq_stunPaddedLength.mp htaken

/-- Valid pieces that are as long as their headers say are how `Read` cuts them,
as long as a header can give the length of them all. -/
theorem of_framed (hframed : ∀ t ∈ tlvs, t.Framed) (hvalid : ∀ t ∈ tlvs, t.Valid cls id)
    (hlt : (tlvs.flatMap Tlv.bytes).length < 2 ^ 16) : Cuts cls id tlvs := by
  induction tlvs with
  | nil => exact .nil
  | cons t rest ih =>
    have hbody : t.body.length = stunPaddedLength t.length := hframed t List.mem_cons_self
    rw [List.flatMap_cons, List.length_append, Tlv.length_bytes, hbody] at hlt
    have hrest := ih (fun a ha => hframed a (List.mem_cons_of_mem _ ha))
      (fun a ha => hvalid a (List.mem_cons_of_mem _ ha)) (by omega)
    refine .cons (hvalid t List.mem_cons_self) ?_ hrest
    by_cases hunknown : cls.getAttributeValueType t.type = .unknown
    · have hsize : t.SizeFits cls := by
        rw [Tlv.SizeFits, hunknown]
        change t.length ≤ 65532
        rw [UInt16.le_iff_toNat_le]
        change t.length.toNat ≤ 65532
        rw [stunPaddedLength] at hlt
        omega
      exact hbody.trans (t.taken_eq_stunPaddedLength.mpr hsize).symm
    · exact Tlv.taken_of_known hunknown (hvalid t List.mem_cons_self) hbody

theorem flatMap_eq_nil (h : tlvs.flatMap Tlv.bytes = []) : tlvs = [] := by
  cases tlvs with
  | nil => rfl
  | cons t rest =>
    have hlen := congrArg List.length h
    rw [List.flatMap_cons, List.length_append, Tlv.length_bytes] at hlen
    simp only [List.length_nil] at hlen
    omega

theorem head {t : Tlv} {rest : List Tlv} (h : Cuts cls id (t :: rest)) :
    Cuts cls id rest ∧ (t.body.length = t.taken cls ∨
      rest = [] ∧ t.body.length ≤ t.taken cls) := by
  cases h with
  | cons _ hbody hrest => exact ⟨hrest, .inl hbody⟩
  | unpadded _ _ htaken hbody =>
    refine ⟨.nil, .inr ⟨rfl, ?_⟩⟩
    rw [htaken, hbody]
    exact Nat.le_add_right _ _

theorem unique {tlvs' : List Tlv} (h : Cuts cls id tlvs) (h' : Cuts cls id tlvs')
    (heq : tlvs.flatMap Tlv.bytes = tlvs'.flatMap Tlv.bytes) : tlvs = tlvs' := by
  induction tlvs generalizing tlvs' with
  | nil => exact (flatMap_eq_nil heq.symm).symm
  | cons t rest ih =>
    cases tlvs' with
    | nil => exact flatMap_eq_nil heq
    | cons t' rest' =>
      obtain ⟨hrest, hlen⟩ := h.head
      obtain ⟨hrest', hlen'⟩ := h'.head
      simp only [List.flatMap_cons, Tlv.bytes, List.append_assoc] at heq
      obtain ⟨htype, heq⟩ := List.append_inj heq (by simp only [length_shortToBytes])
      obtain ⟨hlength, heq⟩ := List.append_inj heq (by simp only [length_shortToBytes])
      have htype : t.type = t'.type := by
        rw [← bytesToShort_shortToBytes t.type, htype, bytesToShort_shortToBytes]
      have hlength : t.length = t'.length := by
        rw [← bytesToShort_shortToBytes t.length, hlength, bytesToShort_shortToBytes]
      have htaken : t.taken cls = t'.taken cls := by rw [Tlv.taken, Tlv.taken, htype, hlength]
      have hsum := congrArg List.length heq
      simp only [List.length_append] at hsum
      have hle : t.body.length ≤ t.taken cls := hlen.elim Nat.le_of_eq fun h => h.2
      have hle' : t'.body.length ≤ t'.taken cls := hlen'.elim Nat.le_of_eq fun h => h.2
      have hbody : t.body.length = t'.body.length := by
        rcases hlen with hlen | ⟨rfl, -⟩
        · rcases hlen' with hlen' | ⟨rfl, -⟩
          · omega
          · rw [List.flatMap_nil, List.length_nil] at hsum
            omega
        · rw [List.flatMap_nil, List.length_nil] at hsum
          rcases hlen' with hlen' | ⟨rfl, -⟩
          · omega
          · rw [List.flatMap_nil, List.length_nil] at hsum
            omega
      obtain ⟨hbodies, hrests⟩ := List.append_inj heq hbody
      obtain rfl := ih hrest hrest' hrests
      rw [Tlv.ext htype hlength hbodies]

end Cuts

namespace StunMessage

variable {cls : StunMessageClass} {id : List UInt8}

/-- One round of the loop of `Read`: an attribute, or none for an unknown type. -/
def readAttribute (cls : StunMessageClass) (id : List UInt8) (buf : ByteBuffer) :
    Option (Option StunAttribute × ByteBuffer) :=
  buf.readUInt16.bind fun type => type.2.readUInt16.bind fun length =>
    if cls.getAttributeValueType type.1 = .unknown then
      (length.2.consume (skippedLength length.1).toNat).map fun rest => (none, rest)
    else
      (StunAttributeValue.read id (cls.getAttributeValueType type.1) length.1 length.2).map
        fun read => (some ⟨type.1, read.1⟩, read.2)

theorem readAttribute_shorter {buf rest : List UInt8} {attr : Option StunAttribute}
    (h : readAttribute cls id buf = some (attr, rest)) : rest.length + 4 ≤ buf.length := by
  simp only [readAttribute, Option.bind_eq_some_iff, Prod.exists] at h
  obtain ⟨type, buf₁, htype, length, buf₂, hlength, h⟩ := h
  have hbuf : buf.length = buf₂.length + 4 := by
    rw [readUInt16_eq_some.mp htype, readUInt16_eq_some.mp hlength]
    simp only [List.length_append, length_shortToBytes]
    omega
  have hle : rest.length ≤ buf₂.length := by
    split at h
    · obtain ⟨rest', hconsume, heq⟩ := Option.map_eq_some_iff.mp h
      obtain ⟨-, rfl⟩ := Prod.mk.inj heq
      obtain ⟨body, rfl, -⟩ := consume_eq_some.mp hconsume
      simp only [List.length_append]
      omega
    · obtain ⟨⟨v, rest'⟩, hread, heq⟩ := Option.map_eq_some_iff.mp h
      obtain ⟨-, rfl⟩ := Prod.mk.inj heq
      obtain ⟨body, rfl, -⟩ := read_takes hread
      simp only [List.length_append]
      omega
  omega

/-- `n` rounds of the loop, none of which fails, lead from one buffer to another. -/
inductive Rounds (cls : StunMessageClass) (id : List UInt8) : Nat → List UInt8 → List UInt8 → Prop
  | zero (buf : List UInt8) : Rounds cls id 0 buf buf
  | succ {n : Nat} {buf buf' rest : List UInt8} {attr : Option StunAttribute}
      (hround : readAttribute cls id buf = some (attr, buf')) (hrest : Rounds cls id n buf' rest) :
      Rounds cls id (n + 1) buf rest

theorem Rounds.shorter {n : Nat} {buf rest : List UInt8} (h : Rounds cls id n buf rest) :
    4 * n + rest.length ≤ buf.length := by
  induction h with
  | zero buf => simp
  | succ hround _ ih =>
    have := readAttribute_shorter hround
    omega

theorem readAttributes_fuel {buf : List UInt8} {fuel : Nat} (h : buf.length ≤ fuel) :
    readAttributes cls id fuel buf = readAttributes cls id buf.length buf := by
  have hstep : ∀ fuel' fuel attrs, buf.length ≤ fuel →
      readAttributes cls id fuel' buf = some attrs → readAttributes cls id fuel buf = some attrs := by
    intro fuel' fuel attrs hfuel hread
    obtain ⟨tlvs, hcuts, rfl, rfl⟩ := cuts_of_readAttributes hread
    exact readAttributes_of_cuts hcuts hfuel
  refine Option.ext fun attrs => ?_
  exact ⟨hstep fuel _ attrs (Nat.le_refl _), hstep _ fuel attrs h⟩

/-- A well formed packet of a message: behind its header there are attributes as
long as they declare, rounded up, and the message has the known ones, each read
from its own bytes. -/
structure WellFormed (m : StunMessage) (cls : StunMessageClass) (bytes : List UInt8)
    (tlvs : List Tlv) : Prop where
  header : m.Header cls bytes (tlvs.flatMap Tlv.bytes)
  framed : ∀ t ∈ tlvs, t.Framed
  valid : ∀ t ∈ tlvs, t.Valid cls m.transactionId
  attrs_eq : m.attrs = tlvs.filterMap (Tlv.parsed cls m.transactionId)

/-- `Read` accepts the bytes as a packet when they are well formed and not
otherwise, in a loop that stops. -/
structure FramesExactly (cls : StunMessageClass) (bytes : List UInt8) : Prop where
  sound : ∀ m, read cls bytes = some m → ∃ tlvs, m.WellFormed cls bytes tlvs
  complete : ∀ m tlvs, m.WellFormed cls bytes tlvs → read cls bytes = some m
  stops : ∀ id n buf rest, Rounds cls id n buf rest → 4 * n + rest.length ≤ buf.length
  fuel : ∀ id buf fuel, buf.length ≤ fuel →
    readAttributes cls id fuel buf = readAttributes cls id buf.length buf

theorem WellFormed.cuts {m : StunMessage} {bytes : List UInt8} {tlvs : List Tlv}
    (h : m.WellFormed cls bytes tlvs) : Cuts cls m.transactionId tlvs := by
  refine Cuts.of_framed h.framed h.valid ?_
  rw [← h.header.length_eq]
  exact m.length.toNat_lt

theorem Header.rest_eq {m m' : StunMessage} {bytes rest rest' : List UInt8}
    (h : m.Header cls bytes rest) (h' : m'.Header cls bytes rest') : rest = rest' := by
  obtain ⟨field, hbytes, hfield, -⟩ := h.split
  obtain ⟨field', hbytes', hfield', -⟩ := h'.split
  have heq := hbytes.symm.trans hbytes'
  obtain ⟨-, heq⟩ := List.append_inj heq (by simp only [length_shortToBytes])
  obtain ⟨-, heq⟩ := List.append_inj heq (by simp only [length_shortToBytes])
  exact (List.append_inj heq (hfield.trans hfield'.symm)).2

/-- `Read` is exact on the packets in which no attribute declares a size that is
not taken for it, and no padding is missing at the end. -/
theorem framesExactly_iff (cls : StunMessageClass) (bytes : List UInt8) :
    FramesExactly cls bytes ↔ ∀ (m : StunMessage) (tlvs : List Tlv),
      m.Header cls bytes (tlvs.flatMap Tlv.bytes) → Cuts cls m.transactionId tlvs →
        4 ∣ m.length.toNat ∧ ∀ t ∈ tlvs, t.SizeFits cls := by
  constructor
  · intro h m tlvs hheader hcuts
    have hread : read cls bytes =
        some { m with attrs := tlvs.filterMap (Tlv.parsed cls m.transactionId) } :=
      read_eq_some.mpr ⟨tlvs, ⟨hheader.split, hheader.cls_eq, hheader.type_lt, hheader.length_eq⟩,
        hcuts, rfl⟩
    obtain ⟨tlvs', hwell⟩ := h.sound _ hread
    obtain rfl : tlvs = tlvs' := hcuts.unique hwell.cuts (hheader.rest_eq hwell.header)
    refine ⟨?_, hcuts.sizeFits hwell.framed⟩
    rw [hheader.length_eq]
    exact Tlv.four_dvd_length hwell.framed
  · intro h
    refine ⟨fun m hread => ?_, fun m tlvs hwell => ?_, fun _ _ _ _ => Rounds.shorter,
      fun _ _ _ => readAttributes_fuel⟩
    · obtain ⟨tlvs, hheader, hcuts, hattrs⟩ := read_eq_some.mp hread
      obtain ⟨hdvd, hsize⟩ := h m tlvs hheader hcuts
      rw [hheader.length_eq] at hdvd
      exact ⟨tlvs, hheader, hcuts.framed hsize hdvd, hcuts.valid, hattrs⟩
    · exact read_eq_some.mpr ⟨tlvs, hwell.header, hwell.cuts, hwell.attrs_eq⟩

/-- A FINGERPRINT that declares no bytes is read from the four bytes behind it, a
header of an attribute. -/
def swallowingPacket : List UInt8 :=
  [0, 1, 0, 8, 0x21, 0x12, 0xa4, 0x42, 1, 2, 3, 4, 5, 6, 7, 8, 9, 10, 11, 12,
    0x80, 0x28, 0, 0, 0, 6, 0, 0]

theorem swallowingPacket_not_framed : ¬ FramesExactly .stun swallowingPacket := by
  intro h
  let tlvs : List Tlv := [⟨stunAttrFingerprint, 0, [0, 6, 0, 0]⟩]
  let m : StunMessage := ⟨.stun, 1, 8, [1, 2, 3, 4, 5, 6, 7, 8, 9, 10, 11, 12],
    [⟨stunAttrFingerprint, .uint32 0x60000⟩]⟩
  have hread : read .stun swallowingPacket = some m := by decide
  obtain ⟨tlvs', hwell⟩ := h.sound _ hread
  have hheader : m.Header .stun swallowingPacket (tlvs.flatMap Tlv.bytes) :=
    ⟨⟨[0x21, 0x12, 0xa4, 0x42, 1, 2, 3, 4, 5, 6, 7, 8, 9, 10, 11, 12], by decide, rfl, by decide⟩,
      rfl, by decide, rfl⟩
  have hcuts : Cuts .stun m.transactionId tlvs :=
    .cons (fun _ => ⟨.uint32 0x60000, by decide⟩) rfl .nil
  obtain rfl : tlvs = tlvs' := hcuts.unique hwell.cuts (hheader.rest_eq hwell.header)
  have hframed : 4 = stunPaddedLength 0 := hwell.framed _ List.mem_cons_self
  exact absurd hframed (by decide)

end StunMessage

end Libjingle
