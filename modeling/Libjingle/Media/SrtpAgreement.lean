import Libjingle.Media.SrtpActivity

/-! When the filters at the two ends of a channel take an answer, whatever was negotiated
before, so that each of them receives with the key that the other one sends with. -/

namespace Libjingle

namespace SrtpFilter

variable (decode : String → Option (List UInt8))

def Reachable (s : SrtpFilter) : Prop :=
  ∃ events : List Event, events.foldl (fun s e => (s.step decode e).1) {} = s

def Consistent (s : SrtpFilter) : Prop :=
  s.appliedSendParams.cipherSuite = "" ∨ ∃ keys,
    policies decode s.appliedSendParams s.appliedRecvParams = some keys ∧ s.Keyed keys

def Mirrored (s t : SrtpFilter) : Prop :=
  ∃ a b : String × List UInt8, s.Keyed (⟨.anyOutbound, a.1, a.2⟩, ⟨.anyInbound, b.1, b.2⟩) ∧
    t.Keyed (⟨.anyOutbound, b.1, b.2⟩, ⟨.anyInbound, a.1, a.2⟩)

/-- Two filters that take an offer take this answer to it, with sessions that are mirrored. -/
def Agree (offered answered : List CryptoParams) : Prop :=
  ∀ offerer answerer : SrtpFilter, Reachable decode offerer → Reachable decode answerer →
    (offerer.setOffer offered .csLocal).2 = true → (answerer.setOffer offered .csRemote).2 = true →
    let offerer := (offerer.setOffer offered .csLocal).1.setAnswer decode answered .csRemote
      (true, true)
    let answerer := (answerer.setOffer offered .csRemote).1.setAnswer decode answered .csLocal
      (true, true)
    offerer.2 = true ∧ answerer.2 = true ∧ Mirrored offerer.1 answerer.1

def Readable (offered : List CryptoParams) (crypto : CryptoParams) : Prop :=
  ∃ selected, offered.find? (crypto.isMatch ·) = some selected ∧
    (parseKeyParams decode selected.keyParams).isSome

variable {decode} {s : SrtpFilter}

theorem Consistent.of_same {t : SrtpFilter} (h : Consistent decode s)
    (hsend : t.sendSession = s.sendSession) (hrecv : t.recvSession = s.recvSession)
    (hsendParams : t.appliedSendParams = s.appliedSendParams)
    (hrecvParams : t.appliedRecvParams = s.appliedRecvParams) : Consistent decode t := by
  unfold Consistent
  rw [hsendParams, hrecvParams]
  refine h.imp_right fun ⟨keys, hpolicies, hkeyed⟩ => ⟨keys, hpolicies, ?_⟩
  exact hkeyed.of_sessions hsend hrecv

theorem session_setKey {session : SrtpSession} {policy : SrtpPolicy} {created : Bool}
    (h : (session.setKey policy created).2 = true) :
    (session.setKey policy created).1.session = some policy := by
  unfold SrtpSession.setKey at h ⊢
  by_cases hnew : session.session = none ∧ isSupportedSuite policy.cipherSuite ∧
      policy.key.length = srtpMasterKeyLen ∧ created
  · rw [if_pos hnew]
  · rw [if_neg hnew] at h
    cases h

theorem keyed_keySessions {send recv : String × List UInt8} {created : Bool × Bool}
    (h : (s.keySessions send recv created).2 = true) :
    (s.keySessions send recv created).1.Keyed
      (⟨.anyOutbound, send.1, send.2⟩, ⟨.anyInbound, recv.1, recv.2⟩) := by
  unfold keySessions at h ⊢
  dsimp only at h ⊢
  by_cases hsent : (s.createSrtpSessions.newSession.setSend send.1 send.2 created.1).2 = true
  · rw [if_pos hsent] at h ⊢
    have hsend := session_setKey hsent
    have hrecv := session_setKey h
    exact ⟨⟨_, rfl, hsend⟩, _, rfl, hrecv⟩
  · rw [if_neg hsent] at h
    cases h

theorem applied_keySessions {send recv : String × List UInt8} {created : Bool × Bool} :
    (s.keySessions send recv created).1.appliedSendParams = {} := by
  unfold keySessions
  dsimp only
  split_ifs <;> rfl

theorem consistent_applyParams {send recv : CryptoParams} {created : Bool × Bool}
    (h : Consistent decode s) : Consistent decode (s.applyParams decode send recv created).1 := by
  unfold applyParams
  by_cases hsame : s.SameParams send recv
  · rw [if_pos hsame]
    exact h
  · rw [if_neg hsame]
    cases hsend : parseKeyParams decode send.keyParams with
    | none => exact h
    | some sendKey =>
      cases hrecv : parseKeyParams decode recv.keyParams with
      | none => exact h
      | some recvKey =>
        dsimp only
        by_cases hok : (s.keySessions (send.cipherSuite, sendKey) (recv.cipherSuite, recvKey)
            created).2 = true
        · rw [if_pos hok]
          have hkeyed := keyed_keySessions hok
          refine .inr ⟨_, ?_, hkeyed.of_sessions rfl rfl⟩
          simp [policies, hsend, hrecv]
        · rw [if_neg hok]
          refine .inl ?_
          rw [applied_keySessions]

theorem consistent_doSetAnswer {answered : List CryptoParams} {source : ContentSource}
    {final : Bool} {created : Bool × Bool} (h : Consistent decode s) :
    Consistent decode (s.doSetAnswer decode answered source final created).1 := by
  have hsame : ∀ {t : SrtpFilter} {state : State} {offerParams : List CryptoParams},
      Consistent decode t → Consistent decode { t with state, offerParams } :=
    fun ht => ht.of_same rfl rfl rfl rfl
  unfold doSetAnswer
  by_cases hexpect : s.expectAnswer source = false
  · rw [if_pos hexpect]
    exact h
  · rw [if_neg hexpect]
    by_cases hempty : answered = []
    · rw [if_pos hempty]
      cases final with
      | true => exact hsame h
      | false => exact hsame h
    · rw [if_neg hempty]
      cases s.selectedParams answered source with
      | none => exact h
      | some selected =>
        have happly : Consistent decode (s.applyParams decode selected.1 selected.2 created).1 :=
          consistent_applyParams h
        dsimp only
        split_ifs
        · exact happly
        · exact hsame happly
        · exact hsame happly
        · exact hsame happly

theorem consistent_setSignalSilentTime {ms : UInt32} (h : Consistent decode s) :
    Consistent decode (s.setSignalSilentTime ms) := by
  unfold setSignalSilentTime
  dsimp only
  split_ifs
  · refine h.imp_right fun ⟨keys, hpolicies, hkeyed⟩ => ⟨keys, hpolicies, ?_⟩
    exact ⟨map_silence hkeyed.1, map_silence hkeyed.2⟩
  · exact h.of_same rfl rfl rfl rfl

theorem consistent_step (h : Consistent decode s) (e : Event) :
    Consistent decode (s.step decode e).1 := by
  cases e with
  | setOffer params source =>
    rw [step, setOffer]
    split_ifs
    · exact h.of_same rfl rfl rfl rfl
    · exact h
  | setProvisionalAnswer params source created => exact consistent_doSetAnswer h
  | setAnswer params source created => exact consistent_doSetAnswer h
  | setRtpParams send recv created =>
    rw [step, setRtpParams]
    dsimp only
    split_ifs
    · exact h
    · refine .inl ?_
      rw [applied_keySessions]
    · refine .inl ?_
      rw [applied_keySessions]
  | setRtcpParams send recv created =>
    rw [step, setRtcpParams]
    dsimp only
    split_ifs
    · exact h
    · exact h.of_same rfl rfl rfl rfl
    · exact h.of_same rfl rfl rfl rfl
  | setSignalSilentTime ms => exact consistent_setSignalSilentTime h

theorem consistent_of_reachable (h : Reachable decode s) : Consistent decode s := by
  obtain ⟨events, rfl⟩ := h
  have hrun : ∀ t : SrtpFilter, Consistent decode t →
      Consistent decode (events.foldl (fun s e => (s.step decode e).1) t) := by
    induction events with
    | nil => exact fun _ ht => ht
    | cons e events ih => exact fun t ht => ih _ (consistent_step ht e)
  exact hrun {} (.inl rfl)

theorem applyParams_ok (h : Consistent decode s) {send recv : CryptoParams}
    {keys : SrtpPolicy × SrtpPolicy} (hpolicies : policies decode send recv = some keys)
    (hsend : isSupportedSuite send.cipherSuite = true)
    (hrecv : isSupportedSuite recv.cipherSuite = true) :
    (s.applyParams decode send recv (true, true)).2 = true ∧
      (s.applyParams decode send recv (true, true)).1.Keyed keys := by
  by_cases hsame : s.SameParams send recv
  · have happlied : s.appliedSendParams.cipherSuite ≠ "" := by
      intro hblank
      rw [← hsame.1, hblank] at hsend
      exact absurd hsend (by decide)
    obtain ⟨keys', hpolicies', hkeyed⟩ := h.resolve_left happlied
    rw [policies_congr hsame, hpolicies] at hpolicies'
    rw [applyParams, if_pos hsame, Option.some.inj hpolicies']
    exact ⟨rfl, hkeyed⟩
  · obtain ⟨sendKey, recvKey, hsendKey, hrecvKey, rfl⟩ := policies_eq_some hpolicies
    have hsendOk : isSupportedSuite (send.cipherSuite, sendKey).1 = true ∧
        (send.cipherSuite, sendKey).2.length = srtpMasterKeyLen :=
      ⟨hsend, length_of_parseKeyParams hsendKey⟩
    have hrecvOk : isSupportedSuite (recv.cipherSuite, recvKey).1 = true ∧
        (recv.cipherSuite, recvKey).2.length = srtpMasterKeyLen :=
      ⟨hrecv, length_of_parseKeyParams hrecvKey⟩
    obtain ⟨hok, hkeyed, -, -⟩ := keySessions_keyed (s := s) hsendOk hrecvOk
    have happly : s.applyParams decode send recv (true, true) =
        ({ (s.keySessions (send.cipherSuite, sendKey) (recv.cipherSuite, recvKey)
            (true, true)).1 with
          appliedSendParams := send
          appliedRecvParams := recv }, true) := by
      rw [applyParams, if_neg hsame, hsendKey, hrecvKey]
      exact if_pos hok
    rw [happly]
    exact ⟨rfl, hkeyed.of_sessions rfl rfl⟩

theorem setAnswer_ok (h : Consistent decode s) {answered : List CryptoParams}
    {source : ContentSource} (hexpect : s.expectAnswer source = true) {send recv : CryptoParams}
    (hselected : s.selectedParams answered source = some (send, recv))
    {keys : SrtpPolicy × SrtpPolicy} (hpolicies : policies decode send recv = some keys)
    (hsend : isSupportedSuite send.cipherSuite = true)
    (hrecv : isSupportedSuite recv.cipherSuite = true) :
    (s.setAnswer decode answered source (true, true)).2 = true ∧
      (s.setAnswer decode answered source (true, true)).1.Keyed keys := by
  obtain ⟨hok, hkeyed⟩ := applyParams_ok h hpolicies hsend hrecv
  have hne : answered ≠ [] := by
    rintro rfl
    cases hselected
  have hanswer : s.setAnswer decode answered source (true, true) =
      ({ (s.applyParams decode send recv (true, true)).1 with
        offerParams := []
        state := .active }, true) := by
    rw [setAnswer, doSetAnswer, if_neg (by simp [hexpect]), if_neg hne, hselected]
    dsimp only
    rw [if_neg (by simp [hok]), if_pos rfl]
  rw [hanswer]
  exact ⟨rfl, hkeyed.of_sessions rfl rfl⟩

theorem setOffer_ok {params : List CryptoParams} {source : ContentSource}
    (h : (s.setOffer params source).2 = true) :
    (s.setOffer params source).1 = s.storeParams params source ∧
      ((s.setOffer params source).1.expectAnswer .csLocal = true ↔ source = .csRemote) ∧
      ((s.setOffer params source).1.expectAnswer .csRemote = true ↔ source = .csLocal) := by
  have hexpect : s.expectOffer source = true := by
    by_contra hno
    rw [setOffer, if_neg hno] at h
    cases h
  have hstored : (s.setOffer params source).1 = s.storeParams params source := by
    rw [setOffer, if_pos hexpect]
  rw [hstored]
  by_cases hinit : s.state = .init <;> cases source <;> simp [storeParams, hinit, expectAnswer]

theorem consistent_setOffer {params : List CryptoParams} {source : ContentSource}
    (h : Consistent decode s) : Consistent decode (s.setOffer params source).1 :=
  consistent_step h (.setOffer params source)

theorem isMatch_suite {a b : CryptoParams} (h : a.isMatch b = true) :
    a.tag = b.tag ∧ a.cipherSuite = b.cipherSuite := by
  simpa [CryptoParams.isMatch] using h

theorem selectedParams_setOffer {offered : List CryptoParams} {mine : ContentSource}
    (h : (s.setOffer offered mine).2 = true) (crypto : CryptoParams) (theirs : ContentSource) :
    (s.setOffer offered mine).1.selectedParams [crypto] theirs =
      (offered.find? (crypto.isMatch ·)).map fun selected =>
        if theirs = .csRemote then (selected, crypto) else (crypto, selected) := by
  obtain ⟨hstored, -, -⟩ := setOffer_ok h
  have hfind : (s.setOffer offered mine).1.negotiateParams [crypto] =
      offered.find? (crypto.isMatch ·) := by
    rw [hstored]
    rfl
  unfold selectedParams
  rw [hfind]
  cases offered.find? (crypto.isMatch ·) <;> rfl

theorem agree_of_readable {offered : List CryptoParams} {crypto : CryptoParams}
    (hsuite : isSupportedSuite crypto.cipherSuite = true)
    (hoffered : Readable decode offered crypto)
    (hkey : (parseKeyParams decode crypto.keyParams).isSome) : Agree decode offered [crypto] := by
  obtain ⟨selected, hfind, hselectedKey⟩ := hoffered
  obtain ⟨key, hkey⟩ := Option.isSome_iff_exists.mp hkey
  obtain ⟨selectedKey, hselectedKey⟩ := Option.isSome_iff_exists.mp hselectedKey
  have hmatch := isMatch_suite (List.find?_some hfind)
  have hsuite' : isSupportedSuite selected.cipherSuite = true := hmatch.2 ▸ hsuite
  intro offerer answerer hofferer hanswerer hset hset'
  have hselects := selectedParams_setOffer hset crypto .csRemote
  have hselects' := selectedParams_setOffer hset' crypto .csLocal
  rw [hfind] at hselects hselects'
  have hpolicies : policies decode selected crypto = some
      (⟨.anyOutbound, selected.cipherSuite, selectedKey⟩, ⟨.anyInbound, crypto.cipherSuite, key⟩) := by
    rw [policies, hselectedKey, hkey]
  have hpolicies' : policies decode crypto selected = some
      (⟨.anyOutbound, crypto.cipherSuite, key⟩, ⟨.anyInbound, selected.cipherSuite, selectedKey⟩) := by
    rw [policies, hselectedKey, hkey]
  have hexpect := (setOffer_ok hset).2.2.mpr rfl
  have hexpect' := (setOffer_ok hset').2.1.mpr rfl
  obtain ⟨hok, hkeyed⟩ := setAnswer_ok (consistent_setOffer (consistent_of_reachable hofferer))
    hexpect hselects hpolicies hsuite' hsuite
  obtain ⟨hok', hkeyed'⟩ := setAnswer_ok (consistent_setOffer (consistent_of_reachable hanswerer))
    hexpect' hselects' hpolicies' hsuite hsuite'
  exact ⟨hok, hok', (selected.cipherSuite, selectedKey), (crypto.cipherSuite, key), hkeyed, hkeyed'⟩

theorem readable_of_setAnswer {offered : List CryptoParams} {crypto : CryptoParams}
    (hsuite : isSupportedSuite crypto.cipherSuite = true)
    (h : ((({} : SrtpFilter).setOffer offered .csLocal).1.setAnswer decode [crypto] .csRemote
      (true, true)).2 = true) :
    Readable decode offered crypto ∧ (parseKeyParams decode crypto.keyParams).isSome := by
  have hset : (({} : SrtpFilter).setOffer offered .csLocal).2 = true := rfl
  have hexpect := (setOffer_ok hset).2.2.mpr rfl
  have hselects := selectedParams_setOffer hset crypto .csRemote
  rw [setAnswer, doSetAnswer, if_neg (by simp [hexpect]), if_neg (List.cons_ne_nil _ _),
    hselects] at h
  cases hfind : offered.find? (crypto.isMatch ·) with
  | none =>
    rw [hfind] at h
    cases h
  | some selected =>
    have hmatch := isMatch_suite (List.find?_some hfind)
    have hblank : ¬ (({} : SrtpFilter).setOffer offered .csLocal).1.SameParams selected crypto := by
      intro hsame
      have hempty : "" = selected.cipherSuite := hsame.1
      rw [hmatch.2, ← hempty] at hsuite
      exact absurd hsuite (by decide)
    rw [hfind] at h
    simp only [Option.map_some, if_true, applyParams, if_neg hblank] at h
    cases hselectedKey : parseKeyParams decode selected.keyParams with
    | none =>
      rw [hselectedKey] at h
      cases h
    | some selectedKey =>
      cases hkey : parseKeyParams decode crypto.keyParams with
      | none =>
        rw [hselectedKey, hkey] at h
        cases h
      | some key => exact ⟨⟨selected, hfind, by rw [hselectedKey]; rfl⟩, rfl⟩

theorem agree_iff {offered : List CryptoParams} {crypto : CryptoParams}
    (hsuite : isSupportedSuite crypto.cipherSuite = true) :
    Agree decode offered [crypto] ↔
      Readable decode offered crypto ∧ (parseKeyParams decode crypto.keyParams).isSome := by
  constructor
  · intro h
    exact readable_of_setAnswer hsuite (h {} {} ⟨[], rfl⟩ ⟨[], rfl⟩ rfl rfl).1
  · exact fun h => agree_of_readable hsuite h.1 h.2

end SrtpFilter

end Libjingle
