import Libjingle.Stun.Integrity

/-! The bytes of a packet that `ValidateMessageIntegrity` reads. The packet lies in
memory that goes on behind its end. -/

namespace Libjingle

namespace StunMessage

/-- The memory from the first byte of a packet on. -/
def byteAt (data : List UInt8) (beyond : Nat → UInt8) (i : Nat) : UInt8 := data.getD i (beyond i)

def shortAt (mem : Nat → UInt8) (pos : Nat) : UInt16 := bytesToShort [mem pos, mem (pos + 1)]

/-- The walk over the attributes, none if the rounds do not suffice, and the offsets read. -/
def scanAttributes (mem : Nat → UInt8) (size : Nat) : Nat → Nat → Option (Option Nat) × List Nat
  | 0, _ => (none, [])
  | fuel + 1, currentPos =>
    if currentPos < size then
      let attrType := shortAt mem currentPos
      let attrLength := shortAt mem (currentPos + 2)
      let reads := List.range' currentPos 4
      if attrType = stunAttrMessageIntegrity then
        if attrLength.toNat ≠ stunMessageIntegritySize ∨ currentPos + attrLength.toNat > size then
          (some none, reads)
        else (some (some currentPos), reads)
      else
        let rest := scanAttributes mem size fuel (currentPos + (4 + stunPaddedLength attrLength))
        (rest.1, reads ++ rest.2)
    else (some none, [])

/-- `ValidateMessageIntegrity` on a packet of `size` bytes of a memory, with the offsets of
the bytes it reads there; none if the walk does not end in `size` rounds. -/
def checkIntegrity (computeHmac : List UInt8 → List UInt8 → List UInt8) (mem : Nat → UInt8)
    (size : Nat) (password : List UInt8) : Option Bool × List Nat :=
  if size % 4 ≠ 0 then (some false, [])
  else if size ≠ (shortAt mem 2).toNat + stunHeaderSize then (some false, [2, 3])
  else
    let scan := scanAttributes mem size size stunHeaderSize
    match scan.1 with
    | none => (none, [2, 3] ++ scan.2)
    | some none => (some false, [2, 3] ++ scan.2)
    | some (some miPos) =>
      let copied := [2, 3] ++ scan.2 ++ List.range miPos
      let hmac := computeHmac password (integrityData ((List.range size).map mem) miPos)
      if hmac.length ≠ stunMessageIntegritySize then (some false, copied)
      else
        let value := List.range' (miPos + stunAttributeHeaderSize) stunMessageIntegritySize
        (some (value.map mem = hmac), copied ++ value)

/-- The packet ends with a MESSAGE-INTEGRITY attribute, the first one, of which the header
and 16 of the 20 bytes are there. -/
def Truncated (data : List UInt8) : Prop :=
  ∃ (hdr : List UInt8) (tlvs : List Tlv) (value : List UInt8), hdr.length = stunHeaderSize ∧ value.length = 16 ∧
    (getBE16 hdr 2).toNat + stunHeaderSize = data.length ∧ (∀ t ∈ tlvs, t.Framed) ∧
    (∀ t ∈ tlvs, t.type ≠ stunAttrMessageIntegrity) ∧
    data = hdr ++ (tlvs.flatMap Tlv.bytes ++ (integrityHeader ++ value))

section Reads

variable {data : List UInt8} {beyond : Nat → UInt8} {fuel pos miPos : Nat}

theorem take_two {pos : Nat} (h : pos + 2 ≤ data.length) :
    (data.drop pos).take 2 = [byteAt data beyond pos, byteAt data beyond (pos + 1)] := by
  have h₀ : pos < data.length := by omega
  have h₁ : pos + 1 < data.length := by omega
  have hfirst : byteAt data beyond pos = data[pos] := by simp [byteAt, h₀]
  have hsecond : byteAt data beyond (pos + 1) = data[pos + 1] := by simp [byteAt, h₁]
  rw [List.drop_eq_getElem_cons h₀, List.drop_eq_getElem_cons h₁, hfirst, hsecond]
  rfl

theorem shortAt_byteAt (h : pos + 2 ≤ data.length) :
    shortAt (byteAt data beyond) pos = getBE16 data pos := by
  rw [shortAt, getBE16, take_two h]

/-- The walk over a packet of whole words reads only attribute headers of the packet, and
gives what the walk over the packet alone gives. -/
theorem scanAttributes_spec (hdata : 4 ∣ data.length) (hpos : 4 ∣ pos)
    (hfuel : 0 < fuel) (hlong : data.length + 4 ≤ pos + 4 * fuel) :
    (scanAttributes (byteAt data beyond) data.length fuel pos).1 =
        some (findMessageIntegrity data fuel pos) ∧
      ∀ i ∈ (scanAttributes (byteAt data beyond) data.length fuel pos).2, i < data.length := by
  induction fuel generalizing pos with
  | zero => exact absurd hfuel (Nat.lt_irrefl 0)
  | succ fuel ih =>
    rw [scanAttributes, findMessageIntegrity]
    by_cases hlt : pos < data.length
    · have hhead : pos + 4 ≤ data.length := by omega
      have htype : shortAt (byteAt data beyond) pos = getBE16 data pos :=
        shortAt_byteAt (by omega)
      have hlength : shortAt (byteAt data beyond) (pos + 2) = getBE16 data (pos + 2) :=
        shortAt_byteAt (by omega)
      have hreads : ∀ i ∈ List.range' pos 4, i < data.length := by
        intro i hi
        have hi := List.mem_range'_1.mp hi
        omega
      simp only [if_pos hlt, htype, hlength]
      by_cases hmi : getBE16 data pos = stunAttrMessageIntegrity
      · simp only [if_pos hmi]
        split
        · exact ⟨rfl, hreads⟩
        · exact ⟨rfl, hreads⟩
      · simp only [if_neg hmi]
        have hdvd := Tlv.four_dvd_stunPaddedLength (getBE16 data (pos + 2))
        have hnext := @ih (pos + (4 + stunPaddedLength (getBE16 data (pos + 2))))
          (by omega) (by omega) (by omega)
        refine ⟨hnext.1, fun i hi => ?_⟩
        rcases List.mem_append.mp hi with hi | hi
        · exact hreads i hi
        · exact hnext.2 i hi
    · simp only [if_neg hlt]
      exact ⟨trivial, fun i hi => absurd hi List.not_mem_nil⟩

theorem drop_header (h : pos + 4 ≤ data.length) :
    data.drop pos = shortToBytes (getBE16 data pos) ++
      (shortToBytes (getBE16 data (pos + 2)) ++ data.drop (pos + 4)) := by
  have hshort : ∀ p, p + 2 ≤ data.length → data.drop p =
      shortToBytes (getBE16 data p) ++ data.drop (p + 2) := by
    intro p hp
    have htwo : ((data.drop p).take 2).length = 2 := by
      rw [List.length_take, List.length_drop]
      omega
    rw [getBE16, shortToBytes_bytesToShort htwo, ← List.drop_drop, List.take_append_drop]
  rw [hshort pos (by omega), hshort (pos + 2) (by omega)]

theorem tlvs_of_findMessageIntegrity (hdata : 4 ∣ data.length) (hpos : 4 ∣ pos)
    (h : findMessageIntegrity data fuel pos = some miPos) :
    ∃ tlvs : List Tlv, (∀ t ∈ tlvs, t.Framed) ∧ (∀ t ∈ tlvs, t.type ≠ stunAttrMessageIntegrity) ∧
      data.drop pos = tlvs.flatMap Tlv.bytes ++ (integrityHeader ++ data.drop (miPos + 4)) ∧
      miPos + 20 ≤ data.length ∧ 4 ∣ miPos := by
  induction fuel generalizing pos with
  | zero => cases h
  | succ fuel ih =>
    rw [findMessageIntegrity] at h
    by_cases hlt : pos < data.length
    · have hhead : pos + 4 ≤ data.length := by omega
      have hdrop := drop_header hhead
      rw [if_pos hlt] at h
      by_cases hmi : getBE16 data pos = stunAttrMessageIntegrity
      · simp only [if_pos hmi] at h
        split at h
        · cases h
        · rename_i hfits
          obtain rfl := Option.some.inj h
          rw [not_or, not_not] at hfits
          have htwenty : getBE16 data (pos + 2) = 20 := UInt16.toNat_inj.mp hfits.1
          rw [hmi, htwenty] at hdrop
          refine ⟨[], by simp, by simp, ?_, ?_, hpos⟩
          · rw [hdrop, integrityHeader]
            simp only [List.flatMap_nil, List.nil_append, List.append_assoc]
          · have hle := hfits.2
            rw [htwenty] at hle
            change ¬ pos + 20 > data.length at hle
            omega
      · simp only [if_neg hmi] at h
        have hdvd := Tlv.four_dvd_stunPaddedLength (getBE16 data (pos + 2))
        obtain ⟨tlvs, hframed, htypes, hrest, hmiPos⟩ := ih (by omega) h
        have hnext : pos + (4 + stunPaddedLength (getBE16 data (pos + 2))) ≤ data.length := by
          by_contra hpast
          have hnil : data.drop (pos + (4 + stunPaddedLength (getBE16 data (pos + 2)))) = [] :=
            List.drop_eq_nil_of_le (by omega)
          rw [hnil] at hrest
          have hlen := congrArg List.length hrest
          simp only [integrityHeader, List.length_append, length_shortToBytes, List.length_nil]
            at hlen
          omega
        have hbody : (data.drop (pos + 4)).take (stunPaddedLength (getBE16 data (pos + 2))) ++
            data.drop (pos + (4 + stunPaddedLength (getBE16 data (pos + 2)))) =
              data.drop (pos + 4) := by
          have hsplit := List.take_append_drop (stunPaddedLength (getBE16 data (pos + 2)))
            (data.drop (pos + 4))
          rwa [List.drop_drop, Nat.add_assoc] at hsplit
        refine ⟨⟨getBE16 data pos, getBE16 data (pos + 2),
          (data.drop (pos + 4)).take (stunPaddedLength (getBE16 data (pos + 2)))⟩ :: tlvs,
          ?_, ?_, ?_, hmiPos⟩
        · intro t ht
          rcases List.mem_cons.mp ht with rfl | ht
          · rw [Tlv.Framed, List.length_take, List.length_drop]
            dsimp only
            omega
          · exact hframed t ht
        · intro t ht
          rcases List.mem_cons.mp ht with rfl | ht
          · exact hmi
          · exact htypes t ht
        · rw [List.flatMap_cons, Tlv.bytes, hdrop]
          simp only [List.append_assoc]
          rw [← hrest, hbody]
    · rw [if_neg hlt] at h
      cases h

theorem map_byteAt : (List.range data.length).map (byteAt data beyond) = data := by
  apply List.ext_getElem
  · simp
  · intro i _ hi
    simp [byteAt, hi]

theorem Truncated.facts (h : Truncated data) : 4 ∣ data.length ∧
    data.length = (getBE16 data 2).toNat + stunHeaderSize ∧
    findMessageIntegrity data data.length stunHeaderSize = some (data.length - 20) := by
  obtain ⟨hdr, tlvs, value, hhdr, hvalue, hfield, hframed, htypes, hdata⟩ := h
  have hheader : stunHeaderSize = 20 := rfl
  have hlen : data.length = 20 + ((tlvs.flatMap Tlv.bytes).length + 20) := by
    rw [hdata]
    simp only [List.length_append, hhdr, hvalue, integrityHeader, length_shortToBytes, hheader]
  have hdvd := Tlv.four_dvd_length hframed
  have hsame : getBE16 data 2 = getBE16 hdr 2 := by
    rw [getBE16, getBE16, hdata, List.drop_append_of_le_length (by omega),
      List.take_append_of_le_length (by rw [List.length_drop]; omega)]
  have hfind : findMessageIntegrity data data.length hdr.length =
      some (hdr.length + (tlvs.flatMap Tlv.bytes).length) :=
    findMessageIntegrity_tlvs hdr value hframed htypes hdata hvalue.ge (by omega)
  refine ⟨by omega, by rw [hsame, hfield], ?_⟩
  rw [← hhdr, hfind, hhdr, hheader, hlen]
  congr 1

theorem truncated_of_find (hdata : 4 ∣ data.length)
    (hfield : data.length = (getBE16 data 2).toNat + stunHeaderSize)
    (hfind : findMessageIntegrity data fuel stunHeaderSize = some miPos)
    (hend : data.length = miPos + 20) : Truncated data := by
  have hheader : stunHeaderSize = 20 := rfl
  obtain ⟨tlvs, hframed, htypes, hdrop, -, -⟩ :=
    tlvs_of_findMessageIntegrity hdata (show 4 ∣ 20 by decide) hfind
  have hhdr : (data.take 20).length = 20 := by
    rw [List.length_take]
    omega
  have hsame : getBE16 (data.take 20) 2 = getBE16 data 2 := by
    rw [getBE16, getBE16, List.drop_take, List.take_take]
    rfl
  refine ⟨data.take 20, tlvs, data.drop (miPos + 4), hhdr, ?_, ?_, hframed, htypes, ?_⟩
  · rw [List.length_drop]
    omega
  · rw [hsame, hfield]
  · rw [← hdrop]
    exact (List.take_append_drop 20 data).symm

end Reads

/-- The check of a packet ends and reads bytes of the packet only. -/
def Contained (computeHmac : List UInt8 → List UInt8 → List UInt8) (data : List UInt8)
    (beyond : Nat → UInt8) (password : List UInt8) : Prop :=
  (checkIntegrity computeHmac (byteAt data beyond) data.length password).1.isSome ∧
    ∀ i ∈ (checkIntegrity computeHmac (byteAt data beyond) data.length password).2, i < data.length

section Check

variable {computeHmac : List UInt8 → List UInt8 → List UInt8} {data : List UInt8}
  {beyond : Nat → UInt8} {password : List UInt8} {pos : Nat}

theorem checkIntegrity_walk (hdata : 4 ∣ data.length)
    (hfield : data.length = (getBE16 data 2).toNat + stunHeaderSize) :
    ∃ reads : List Nat, (∀ i ∈ reads, i < data.length) ∧
      checkIntegrity computeHmac (byteAt data beyond) data.length password =
        match findMessageIntegrity data data.length stunHeaderSize with
        | none => (some false, reads)
        | some miPos =>
          if (computeHmac password (integrityData data miPos)).length ≠ stunMessageIntegritySize then
            (some false, reads ++ List.range miPos)
          else
            (some ((List.range' (miPos + stunAttributeHeaderSize) stunMessageIntegritySize).map
              (byteAt data beyond) = computeHmac password (integrityData data miPos)),
              reads ++ List.range miPos ++
                List.range' (miPos + stunAttributeHeaderSize) stunMessageIntegritySize) := by
  have hheader : stunHeaderSize = 20 := rfl
  have hshort : shortAt (byteAt data beyond) 2 = getBE16 data 2 := shortAt_byteAt (by omega)
  obtain ⟨hscan, hreads⟩ := @scanAttributes_spec data beyond data.length stunHeaderSize hdata
    (by decide) (by omega) (by omega)
  refine ⟨[2, 3] ++ (scanAttributes (byteAt data beyond) data.length data.length
    stunHeaderSize).2, ?_, ?_⟩
  · intro i hi
    rcases List.mem_append.mp hi with hi | hi
    · simp only [List.mem_cons, List.not_mem_nil, or_false] at hi
      omega
    · exact hreads i hi
  · rw [checkIntegrity, if_neg (not_not.mpr (Nat.mod_eq_zero_of_dvd hdata)), hshort,
      if_neg (not_not.mpr hfield)]
    simp only [hscan, map_byteAt]
    cases findMessageIntegrity data data.length stunHeaderSize with
    | none => rfl
    | some miPos => rfl

theorem not_contained_of_empty : ¬ Contained computeHmac [] beyond password := by
  rintro ⟨-, hreads⟩
  have hne : (0 : Nat) ≠ (shortAt (byteAt [] beyond) 2).toNat + stunHeaderSize := by
    have hheader : stunHeaderSize = 20 := rfl
    omega
  have htwo : (2 : Nat) ∈
      (checkIntegrity computeHmac (byteAt [] beyond) ([] : List UInt8).length password).2 := by
    rw [List.length_nil, checkIntegrity, if_neg (by decide), if_pos hne]
    exact List.mem_cons_self
  exact absurd (hreads 2 htwo) (Nat.not_lt_zero _)

/-- A packet is checked within its bounds unless it is empty, or ends four bytes before its
MESSAGE-INTEGRITY attribute does. -/
theorem integrity_contained (hsha : ∀ key bytes,
    (computeHmac key bytes).length = stunMessageIntegritySize) :
    Contained computeHmac data beyond password ↔ data ≠ [] ∧ ¬ Truncated data := by
  have hheader : stunHeaderSize = 20 := rfl
  by_cases hnil : data = []
  · subst hnil
    exact iff_of_false not_contained_of_empty fun h => h.1 rfl
  have hpos : 0 < data.length := List.length_pos_iff.mpr hnil
  by_cases hdata : 4 ∣ data.length
  · have hshort : shortAt (byteAt data beyond) 2 = getBE16 data 2 := shortAt_byteAt (by omega)
    by_cases hfield : data.length = (getBE16 data 2).toNat + stunHeaderSize
    · obtain ⟨reads, hreads, hcheck⟩ := @checkIntegrity_walk computeHmac data beyond password hdata hfield
      rw [Contained, hcheck]
      cases hfind : findMessageIntegrity data data.length stunHeaderSize with
      | none =>
        refine iff_of_true ⟨rfl, hreads⟩ ⟨hnil, fun htruncated => ?_⟩
        rw [htruncated.facts.2.2] at hfind
        cases hfind
      | some miPos =>
        obtain ⟨-, -, -, -, hfits, hmiPos⟩ :=
          tlvs_of_findMessageIntegrity hdata (show 4 ∣ stunHeaderSize by decide) hfind
        have hcopied : ∀ i ∈ reads ++ List.range miPos, i < data.length := by
          intro i hi
          rcases List.mem_append.mp hi with hi | hi
          · exact hreads i hi
          · have hi := List.mem_range.mp hi
            omega
        simp only [hsha, ne_eq, not_true_eq_false, if_false]
        by_cases hend : data.length = miPos + 20
        · refine iff_of_false ?_ fun h => h.2 (truncated_of_find hdata hfield hfind hend)
          rintro ⟨-, hall⟩
          have hlast := hall (miPos + 20) (List.mem_append_right _ (List.mem_range'_1.mpr
            ⟨Nat.add_le_add_left (by decide) _, Nat.lt_succ_iff.mpr (by
              show miPos + 20 ≤ miPos + 4 + 19
              omega)⟩))
          omega
        · refine iff_of_true ⟨rfl, fun i hi => ?_⟩ ⟨hnil, fun htruncated => ?_⟩
          · rcases List.mem_append.mp hi with hi | hi
            · exact hcopied i hi
            · have hi : i < miPos + 4 + 20 := (List.mem_range'_1.mp hi).2
              omega
          · rw [htruncated.facts.2.2] at hfind
            have hsame := Option.some.inj hfind
            omega
    · refine iff_of_true ⟨?_, ?_⟩ ⟨hnil, fun htruncated => hfield htruncated.facts.2.1⟩
      · rw [checkIntegrity, if_neg (not_not.mpr (Nat.mod_eq_zero_of_dvd hdata)), hshort,
          if_pos hfield]
        rfl
      · rw [checkIntegrity, if_neg (not_not.mpr (Nat.mod_eq_zero_of_dvd hdata)), hshort,
          if_pos hfield]
        intro i hi
        simp only [List.mem_cons, List.not_mem_nil, or_false] at hi
        omega
  · have hmod : data.length % 4 ≠ 0 := fun h => hdata (Nat.dvd_of_mod_eq_zero h)
    refine iff_of_true ⟨?_, ?_⟩ ⟨hnil, fun htruncated => hdata htruncated.facts.1⟩
    · rw [checkIntegrity, if_pos hmod]
      rfl
    · rw [checkIntegrity, if_pos hmod]
      exact fun i hi => absurd hi List.not_mem_nil

end Check

theorem integrity_contained_header :
    Contained (fun _ _ => List.replicate 20 7) (List.replicate 20 0) (fun _ => 0) [1] := by
  refine (integrity_contained fun _ _ => rfl).mpr ⟨by decide, ?_⟩
  rintro h
  exact absurd h.facts.2.2 (by decide)

/-- The four bytes behind a packet that ends too early are compared with the digest. -/
theorem reads_behind_truncated : ¬ ∀ (computeHmac : List UInt8 → List UInt8 → List UInt8) data
    beyond password, (∀ key bytes, (computeHmac key bytes).length = stunMessageIntegritySize) →
      Contained computeHmac data beyond password := by
  intro h
  have hcontained := h (fun _ _ => List.replicate 20 7)
    ([0, 1, 0, 20] ++ List.replicate 16 0 ++ ([0, 8, 0, 20] ++ List.replicate 16 7)) (fun _ => 7) []
    fun _ _ => rfl
  exact absurd hcontained.2 (by decide)

end StunMessage

end Libjingle
