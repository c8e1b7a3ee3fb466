import Libjingle.Media.BundleAgreement
import Libjingle.Media.SrtpAgreement

/-! The cryptos that an answer selects, before and after its contents are bundled. -/

namespace Libjingle

open SrtpFilter (parseKeyParams)

theorem parse_inline {decode : String → Option (List UInt8)} {text : String} {bytes : List UInt8}
    (h : decode text = some bytes) (hlength : bytes.length = srtpMasterKeyLen) :
    parseKeyParams decode ("inline:" ++ text) = some bytes := by
  have hlist : ("inline:" ++ text).toList = "inline:".toList ++ text.toList := String.toList_append
  have hprefix : "inline:".toList.isPrefixOf ("inline:" ++ text).toList = true := by
    rw [hlist]
    exact List.isPrefixOf_iff_prefix.mpr (List.prefix_append _ _)
  have hrest : String.ofList (("inline:" ++ text).toList.drop 7) = text := by
    rw [hlist]
    exact String.ofList_toList
  rw [parseKeyParams, if_pos hprefix, hrest, h, Option.filter_some, if_pos (by simp [hlength])]

/-- The crypto for one that is selected, with a key that can be read if it is new. -/
def SelectedFrom (current : List CryptoParams) : Option CryptoParams → List CryptoParams → Prop
  | none, cryptos => cryptos = []
  | some selected, cryptos => ∃ crypto, cryptos = [crypto] ∧ crypto.tag = selected.tag ∧
      crypto.cipherSuite = selected.cipherSuite ∧
      ((parseKeyParams Base64.decodeStrict crypto.keyParams).isSome ↔
        ∀ found, findMatchingCrypto current selected = some found →
          (parseKeyParams Base64.decodeStrict found.keyParams).isSome)

def selectedCrypto (type : MediaType) (offered : List CryptoParams) (policy : SecurePolicy)
    (bundleEnabled : Bool) : Option CryptoParams :=
  if policy = .disabled then none else offered.find? (isSelectable type bundleEnabled)

theorem isMatch_congr {a b : CryptoParams} (htag : a.tag = b.tag)
    (hsuite : a.cipherSuite = b.cipherSuite) :
    (fun c : CryptoParams => a.isMatch c) = fun c => b.isMatch c := by
  funext c
  rw [CryptoParams.isMatch, CryptoParams.isMatch, htag, hsuite]

section Answer

variable {rng : RandomGenerator} {rounds : Nat}

/-- The generator does not fail to give a key. -/
def GivesKeys (rng : RandomGenerator) : Prop :=
  ∀ n, (rng.generate n srtpMasterKeyBase64Len).isSome

theorem createCryptoParams_spec (hkeys : GivesKeys rng) {tag : Int} {suite : String} {n k : Nat}
    {result : Option CryptoParams}
    (h : createCryptoParams rng tag suite n = .ok (result, k)) :
    ∃ crypto, result = some crypto ∧ crypto.tag = tag ∧ crypto.cipherSuite = suite ∧
      (parseKeyParams Base64.decodeStrict crypto.keyParams).isSome := by
  obtain ⟨key, m, hkey, h⟩ := Draw.bind_ok.mp h
  obtain ⟨rfl, -⟩ := Draw.pure_ok.mp h
  obtain ⟨bytes, hbytes⟩ := Option.isSome_iff_exists.mp (hkeys n)
  cases key with
  | none =>
    obtain ⟨hdraw, -⟩ := Prod.mk.inj (Except.ok.inj hkey)
    rw [hbytes] at hdraw
    cases hdraw
  | some text =>
    have hkey' : rng.createRandomString (4 * 10) n = .ok (some text, m) := hkey
    obtain ⟨decoded, hdecoded, hlength⟩ := rng.decodeStrict_createRandomString hkey'
    refine ⟨_, rfl, rfl, rfl, ?_⟩
    rw [parse_inline hdecoded hlength]
    rfl

theorem answerCryptos_spec (hkeys : GivesKeys rng) {type : MediaType} {offered : List CryptoParams}
    {policy : SecurePolicy} {current : Option (List CryptoParams)} {bundleEnabled : Bool} {n k : Nat}
    {cryptos : List CryptoParams}
    (h : answerCryptos rng type offered policy current bundleEnabled n = .ok (cryptos, k)) :
    SelectedFrom (current.getD []) (selectedCrypto type offered policy bundleEnabled) cryptos := by
  unfold answerCryptos at h
  unfold selectedCrypto
  by_cases hpolicy : policy = .disabled
  · rw [if_pos hpolicy] at h ⊢
    exact (Draw.pure_ok.mp h).1.symm
  · rw [if_neg hpolicy] at h ⊢
    obtain ⟨crypto, _, hselect, h⟩ := Draw.bind_ok.mp h
    obtain ⟨rfl, -⟩ := Draw.pure_ok.mp h
    unfold selectCrypto at hselect
    cases hfind : offered.find? (isSelectable type bundleEnabled) with
    | none =>
      rw [hfind] at hselect
      rw [← (Draw.pure_ok.mp hselect).1]
      rfl
    | some selected =>
      rw [hfind] at hselect
      obtain ⟨new, rfl, htag, hsuite, hnew⟩ := createCryptoParams_spec hkeys hselect
      have hmatching : findMatchingCrypto (current.getD []) new =
          findMatchingCrypto (current.getD []) selected := by
        unfold findMatchingCrypto
        rw [isMatch_congr htag hsuite]
      rw [SelectedFrom, ← hmatching]
      cases hcurrent : findMatchingCrypto (current.getD []) new with
      | none => exact ⟨new, by simp [hcurrent], htag, hsuite, by simp [hnew]⟩
      | some found =>
        have hfound := SrtpFilter.isMatch_suite (List.find?_some hcurrent)
        exact ⟨found, by simp [hcurrent], hfound.1.symm.trans htag, hfound.2.symm.trans hsuite, by simp⟩

structure SameSecurity (d d' : MediaContentDescription) : Prop where
  cryptos : d'.cryptos = d.cryptos
  protocol : d'.protocol = d.protocol

theorem addOptionStreams_same {β : Type} {φ : MediaContentDescription → β}
    (hφ : ∀ d streams multistream, φ { d with streams, multistream } = φ d)
    {all streams : List MediaSessionOptions.Stream} {rtx : Bool}
    {d : MediaContentDescription} {current : List StreamParams} {n k : Nat}
    {result : MediaContentDescription × List StreamParams}
    (h : addOptionStreams rng rounds all rtx streams d current n = .ok (result, k)) :
    φ result.1 = φ d := by
  induction streams generalizing d current n with
  | nil =>
    obtain ⟨rfl, -⟩ := Draw.pure_ok.mp h
    rfl
  | cons stream streams ih =>
    obtain ⟨next, _, hnext, h⟩ := Draw.bind_ok.mp h
    have hstep : φ next.1 = φ d := by
      unfold addOptionStream at hnext
      cases hfound : getStreamByIds current "" stream.id with
      | some param =>
        rw [hfound] at hnext
        obtain ⟨rfl, -⟩ := Draw.pure_ok.mp hnext
        exact hφ d _ d.multistream
      | none =>
        rw [hfound] at hnext
        obtain ⟨_, _, -, hnext⟩ := Draw.bind_ok.mp hnext
        obtain ⟨_, _, -, hnext⟩ := Draw.bind_ok.mp hnext
        obtain ⟨_, _, -, hnext⟩ := Draw.bind_ok.mp hnext
        obtain ⟨rfl, -⟩ := Draw.pure_ok.mp hnext
        exact hφ d _ _
    exact (ih h).trans hstep

theorem addStreamParams_same {β : Type} {φ : MediaContentDescription → β}
    (hφ : ∀ d streams multistream, φ { d with streams, multistream } = φ d)
    {type : MediaType} {streams : List MediaSessionOptions.Stream}
    {current : List StreamParams} {legacy rtx : Bool} {d : MediaContentDescription} {n k : Nat}
    {result : MediaContentDescription × List StreamParams}
    (h : addStreamParams rng rounds type streams current legacy rtx d n = .ok (result, k)) :
    φ result.1 = φ d := by
  unfold addStreamParams at h
  by_cases hlegacy : (streams.isEmpty && legacy) = true
  · rw [if_pos hlegacy] at h
    obtain ⟨_, _, -, h⟩ := Draw.bind_ok.mp h
    obtain ⟨_, _, -, h⟩ := Draw.bind_ok.mp h
    obtain ⟨rfl, -⟩ := Draw.pure_ok.mp h
    exact hφ d _ _
  · rw [if_neg hlegacy] at h
    exact addOptionStreams_same hφ h

theorem sameSecurity_addStreamParams {type : MediaType} {streams : List MediaSessionOptions.Stream}
    {current : List StreamParams} {legacy rtx : Bool} {d : MediaContentDescription} {n k : Nat}
    {result : MediaContentDescription × List StreamParams}
    (h : addStreamParams rng rounds type streams current legacy rtx d n = .ok (result, k)) :
    SameSecurity d result.1 :=
  ⟨addStreamParams_same (φ := (·.cryptos)) (fun _ _ _ => rfl) h,
    addStreamParams_same (φ := (·.protocol)) (fun _ _ _ => rfl) h⟩

theorem createMediaContentAnswer_spec {C : Type} [IsCodec C] (hkeys : GivesKeys rng)
    {type : MediaType} {offer : MediaContentDescriptionImpl C} {options : MediaSessionOptions}
    {codecs : List C} {policy : SecurePolicy} {current : Option (List CryptoParams)}
    {extensions : List RtpHeaderExtension} {streams : List StreamParams}
    {legacy bundleEnabled : Bool} {n k : Nat}
    {result : MediaContentDescriptionImpl C × List StreamParams}
    (h : createMediaContentAnswer rng rounds type offer options codecs policy current extensions
      streams legacy bundleEnabled n = .ok (result, k)) :
    result.1.protocol = offer.protocol ∧ SelectedFrom (current.getD [])
      (selectedCrypto type offer.cryptos policy bundleEnabled) result.1.cryptos := by
  obtain ⟨cryptos, _, hcryptos, h⟩ := Draw.bind_ok.mp h
  obtain ⟨_, _, -, h⟩ := Draw.bind_ok.mp h
  obtain ⟨next, _, hnext, h⟩ := Draw.bind_ok.mp h
  obtain ⟨rfl, -⟩ := Draw.pure_ok.mp h
  obtain ⟨hsame, hprotocol⟩ := sameSecurity_addStreamParams hnext
  refine ⟨hprotocol, ?_⟩
  rw [show next.1.cryptos = cryptos from hsame]
  exact answerCryptos_spec hkeys hcryptos

end Answer

end Libjingle
