import Libjingle.Lib.Runs
import Libjingle.Media.SrtpFilter

/-! When an active `SrtpFilter` has the sessions of its last negotiation. -/

namespace Libjingle

namespace SrtpFilter

variable (decode : String → Option (List UInt8))

structure Monitored where
  filter : SrtpFilter := {}
  applied : Option (SrtpPolicy × SrtpPolicy) := none
  deriving DecidableEq, Repr

def policies (send recv : CryptoParams) : Option (SrtpPolicy × SrtpPolicy) :=
  match parseKeyParams decode send.keyParams, parseKeyParams decode recv.keyParams with
  | some sendKey, some recvKey =>
    some (⟨.anyOutbound, send.cipherSuite, sendKey⟩, ⟨.anyInbound, recv.cipherSuite, recvKey⟩)
  | _, _ => none

def negotiated (s : SrtpFilter) : Event → Option (SrtpPolicy × SrtpPolicy)
  | .setProvisionalAnswer params source _ | .setAnswer params source _ =>
    (s.selectedParams params source).bind fun selected => policies decode selected.1 selected.2
  | .setRtpParams send recv _ =>
    some (⟨.anyOutbound, send.1, send.2⟩, ⟨.anyInbound, recv.1, recv.2⟩)
  | _ => none

def Monitored.step (m : Monitored) (e : Event) : Monitored where
  filter := (m.filter.step decode e).1
  applied := if (m.filter.step decode e).2 then (m.filter.negotiated decode e).or m.applied
    else m.applied

def Keyed (s : SrtpFilter) (keys : SrtpPolicy × SrtpPolicy) : Prop :=
  (∃ sent, s.sendSession = some sent ∧ sent.session = some keys.1) ∧
    ∃ received, s.recvSession = some received ∧ received.session = some keys.2

structure Monitored.Sound (m : Monitored) : Prop where
  keyed : m.filter.isActive → ∃ keys, m.applied = some keys ∧ m.filter.Keyed keys
  protects : m.filter.protectRtp ≠ .missing ∧ m.filter.protectRtcp ≠ .missing
  unprotects : m.filter.unprotectRtp ≠ .missing ∧ m.filter.unprotectRtcp ≠ .missing

def Steady (s : SrtpFilter) (e : Event) : Prop :=
  match e with
  | .setProvisionalAnswer .. | .setAnswer .. | .setRtpParams .. =>
    (s.step decode e).2 = false → (s.step decode e).1 = s
  | _ => True

/-- No cipher suite and no key. -/
def CryptoParams.Blank (params : CryptoParams) : Prop :=
  params.cipherSuite = "" ∧ params.keyParams = ""

/-- Cryptos that were not applied already can be, if their keys can be read. -/
def Applicable (s : SrtpFilter) (send recv : CryptoParams) (created : Bool × Bool) : Prop :=
  if s.SameParams send recv then ¬ (CryptoParams.Blank send ∧ CryptoParams.Blank recv)
  else (policies decode send recv).isSome → isSupportedSuite send.cipherSuite = true ∧
    isSupportedSuite recv.cipherSuite = true ∧ created = (true, true)

/-- An offer that was not answered is only repeated when there are sessions, and keys that
could be read can be set. -/
def Orderly (s : SrtpFilter) : Event → Prop
  | .setOffer _ source =>
    s.state = .sentOffer ∧ source = .csLocal ∨ s.state = .receivedOffer ∧ source = .csRemote →
      s.sendSession ≠ none
  | .setProvisionalAnswer params source created | .setAnswer params source created =>
    s.expectAnswer source = true → ∀ selected, s.selectedParams params source = some selected →
      Applicable decode s selected.1 selected.2 created
  | .setRtpParams send recv created =>
    s.state ≠ .active → (isSupportedSuite send.1 = true ∧ send.2.length = srtpMasterKeyLen) ∧
      (isSupportedSuite recv.1 = true ∧ recv.2.length = srtpMasterKeyLen) ∧ created = (true, true)
  | _ => True

/-- The cryptos that were applied are those of the keys, or none are on record. -/
def Recorded (s : SrtpFilter) (keys : SrtpPolicy × SrtpPolicy) : Prop :=
  CryptoParams.Blank s.appliedSendParams ∧ CryptoParams.Blank s.appliedRecvParams ∨
    policies decode s.appliedSendParams s.appliedRecvParams = some keys

/-- Before the first negotiation there are no sessions, and the state is not active. -/
structure Unused (s : SrtpFilter) : Prop where
  state : s.isActive = false
  sendSession : s.sendSession = none
  recvSession : s.recvSession = none
  sendParams : CryptoParams.Blank s.appliedSendParams
  recvParams : CryptoParams.Blank s.appliedRecvParams

def Monitored.Inv (m : Monitored) : Prop :=
  match m.applied with
  | none => m.filter.Unused
  | some keys => m.filter.Keyed keys ∧ Recorded decode m.filter keys

variable {decode} {s : SrtpFilter} {keys : SrtpPolicy × SrtpPolicy}

theorem blank_empty : CryptoParams.Blank {} := ⟨rfl, rfl⟩

theorem length_of_parseKeyParams {keyParams : String} {key : List UInt8}
    (h : parseKeyParams decode keyParams = some key) : key.length = srtpMasterKeyLen := by
  rw [parseKeyParams] at h
  split at h
  · exact of_decide_eq_true (Option.filter_eq_some_iff.mp h).2
  · cases h

theorem policies_eq_some {send recv : CryptoParams} (h : policies decode send recv = some keys) :
    ∃ sendKey recvKey, parseKeyParams decode send.keyParams = some sendKey ∧
      parseKeyParams decode recv.keyParams = some recvKey ∧
      keys = (⟨.anyOutbound, send.cipherSuite, sendKey⟩, ⟨.anyInbound, recv.cipherSuite, recvKey⟩) := by
  rw [policies] at h
  split at h
  · rename_i sendKey recvKey hsend hrecv
    exact ⟨sendKey, recvKey, hsend, hrecv, (Option.some.inj h).symm⟩
  · cases h

theorem policies_congr {send recv : CryptoParams} (h : s.SameParams send recv) :
    policies decode s.appliedSendParams s.appliedRecvParams = policies decode send recv := by
  obtain ⟨hsendSuite, hsendKey, hrecvSuite, hrecvKey⟩ := h
  rw [policies, policies, hsendSuite, hsendKey, hrecvSuite, hrecvKey]

theorem blank_congr {send recv : CryptoParams} (h : s.SameParams send recv) :
    CryptoParams.Blank s.appliedSendParams ∧ CryptoParams.Blank s.appliedRecvParams ↔
      CryptoParams.Blank send ∧ CryptoParams.Blank recv := by
  obtain ⟨hsendSuite, hsendKey, hrecvSuite, hrecvKey⟩ := h
  rw [CryptoParams.Blank, CryptoParams.Blank, CryptoParams.Blank, CryptoParams.Blank, hsendSuite,
    hsendKey, hrecvSuite, hrecvKey]

theorem keySessions_keyed {send recv : String × List UInt8}
    (hsend : isSupportedSuite send.1 = true ∧ send.2.length = srtpMasterKeyLen)
    (hrecv : isSupportedSuite recv.1 = true ∧ recv.2.length = srtpMasterKeyLen) :
    (s.keySessions send recv (true, true)).2 = true ∧
      (s.keySessions send recv (true, true)).1.Keyed
        (⟨.anyOutbound, send.1, send.2⟩, ⟨.anyInbound, recv.1, recv.2⟩) ∧
      (s.keySessions send recv (true, true)).1.appliedSendParams = {} ∧
      (s.keySessions send recv (true, true)).1.appliedRecvParams = {} := by
  have hnew : s.createSrtpSessions.newSession.session = none := rfl
  have hsent : s.createSrtpSessions.newSession.setSend send.1 send.2 true =
      ({ s.createSrtpSessions.newSession with session := some ⟨.anyOutbound, send.1, send.2⟩ },
        true) := if_pos ⟨hnew, hsend.1, hsend.2, rfl⟩
  have hreceived : s.createSrtpSessions.newSession.setRecv recv.1 recv.2 true =
      ({ s.createSrtpSessions.newSession with session := some ⟨.anyInbound, recv.1, recv.2⟩ },
        true) := if_pos ⟨hnew, hrecv.1, hrecv.2, rfl⟩
  simp only [keySessions, hsent, hreceived, if_true]
  exact ⟨trivial, ⟨⟨_, rfl, rfl⟩, _, rfl, rfl⟩, rfl, rfl⟩

theorem applyParams_cases {m : Monitored} (hinv : m.Inv decode) {send recv : CryptoParams}
    {created : Bool × Bool} (happ : Applicable decode m.filter send recv created) :
    m.filter.applyParams decode send recv created = (m.filter, false) ∨
      ∃ s keys, m.filter.applyParams decode send recv created = (s, true) ∧
        policies decode send recv = some keys ∧ s.Keyed keys ∧ Recorded decode s keys := by
  rw [applyParams]
  rw [Applicable] at happ
  split
  · rename_i hsame
    rw [if_pos hsame] at happ
    cases happlied : m.applied with
    | none =>
      rw [Monitored.Inv, happlied] at hinv
      exact absurd ((blank_congr hsame).mp ⟨hinv.sendParams, hinv.recvParams⟩) happ
    | some keys =>
      rw [Monitored.Inv, happlied] at hinv
      obtain ⟨hkeyed, hblank | hrecorded⟩ := hinv
      · exact absurd ((blank_congr hsame).mp hblank) happ
      · exact .inr ⟨_, keys, rfl, (policies_congr hsame).symm.trans hrecorded, hkeyed, .inr hrecorded⟩
  · rename_i hsame
    rw [if_neg hsame] at happ
    split
    · rename_i sendKey recvKey hsend hrecv
      have hpolicies : policies decode send recv = some
          (⟨.anyOutbound, send.cipherSuite, sendKey⟩, ⟨.anyInbound, recv.cipherSuite, recvKey⟩) := by
        rw [policies, hsend, hrecv]
      obtain ⟨hsuite, hsuite', rfl⟩ := happ (by rw [hpolicies]; rfl)
      have hsend' : isSupportedSuite (send.cipherSuite, sendKey).1 = true ∧
          (send.cipherSuite, sendKey).2.length = srtpMasterKeyLen :=
        ⟨hsuite, length_of_parseKeyParams hsend⟩
      have hrecv' : isSupportedSuite (recv.cipherSuite, recvKey).1 = true ∧
          (recv.cipherSuite, recvKey).2.length = srtpMasterKeyLen :=
        ⟨hsuite', length_of_parseKeyParams hrecv⟩
      obtain ⟨hok, hkeyed, -, -⟩ := keySessions_keyed (s := m.filter) hsend' hrecv'
      rw [if_pos hok]
      exact .inr ⟨_, _, rfl, hpolicies, hkeyed, .inr hpolicies⟩
    · exact .inl rfl

theorem Keyed.of_sessions {t : SrtpFilter} (h : s.Keyed keys) (hsend : t.sendSession = s.sendSession)
    (hrecv : t.recvSession = s.recvSession) : t.Keyed keys := by
  rw [Keyed, hsend, hrecv]
  exact h

theorem Monitored.Inv.of_same {m : Monitored} (h : m.Inv decode) {t : SrtpFilter}
    (hstate : t.isActive = true → m.filter.isActive = true ∨ m.filter.sendSession ≠ none)
    (hsend : t.sendSession = m.filter.sendSession) (hrecv : t.recvSession = m.filter.recvSession)
    (hsendParams : t.appliedSendParams = m.filter.appliedSendParams)
    (hrecvParams : t.appliedRecvParams = m.filter.appliedRecvParams) :
    Monitored.Inv decode ⟨t, m.applied⟩ := by
  cases happlied : m.applied with
  | none =>
    rw [Monitored.Inv, happlied] at h
    refine ⟨?_, hsend.trans h.sendSession, hrecv.trans h.recvSession, hsendParams ▸ h.sendParams,
      hrecvParams ▸ h.recvParams⟩
    by_contra hactive
    rcases hstate (Bool.not_eq_false _ ▸ hactive) with hold | hold
    · rw [h.state] at hold
      cases hold
    · exact hold h.sendSession
  | some keys =>
    rw [Monitored.Inv, happlied] at h
    refine ⟨h.1.of_sessions hsend hrecv, ?_⟩
    rw [Recorded, hsendParams, hrecvParams]
    exact h.2

theorem sound_of_inv {m : Monitored} (h : m.Inv decode) : m.Sound := by
  have hkeyed : m.filter.isActive → ∃ keys, m.applied = some keys ∧ m.filter.Keyed keys := by
    intro hactive
    cases happlied : m.applied with
    | none =>
      rw [Monitored.Inv, happlied] at h
      rw [h.state] at hactive
      cases hactive
    | some keys =>
      rw [Monitored.Inv, happlied] at h
      exact ⟨keys, rfl, h.1⟩
  have huse : ∀ session rtcp : Option SrtpSession, (m.filter.isActive → session ≠ none) →
      (if m.filter.isActive then Use.ofSession (rtcp.or session) else .inactive) ≠ .missing := by
    intro session rtcp hsession
    split
    · rename_i hactive
      cases rtcp with
      | some rtcp => exact nofun
      | none =>
        cases session with
        | none => exact absurd rfl (hsession hactive)
        | some session => exact nofun
    · exact nofun
  have hsend : m.filter.isActive → m.filter.sendSession ≠ none := by
    intro hactive
    obtain ⟨keys, -, ⟨sent, hsent, -⟩, -⟩ := hkeyed hactive
    rw [hsent]
    exact nofun
  have hrecv : m.filter.isActive → m.filter.recvSession ≠ none := by
    intro hactive
    obtain ⟨keys, -, -, received, hreceived, -⟩ := hkeyed hactive
    rw [hreceived]
    exact nofun
  exact ⟨hkeyed, ⟨huse _ none hsend, huse _ _ hsend⟩, ⟨huse _ none hrecv, huse _ _ hrecv⟩⟩

theorem doSetAnswer_cases {m : Monitored} (hinv : m.Inv decode) {params : List CryptoParams}
    {source : ContentSource} {final : Bool} {created : Bool × Bool}
    (happ : m.filter.expectAnswer source = true → ∀ selected,
      m.filter.selectedParams params source = some selected →
        Applicable decode m.filter selected.1 selected.2 created) :
    m.filter.doSetAnswer decode params source final created = (m.filter, false) ∨
      (∃ t, m.filter.doSetAnswer decode params source final created = (t, true) ∧
        m.filter.selectedParams params source = none ∧ t.isActive = false ∧
        t.sendSession = m.filter.sendSession ∧ t.recvSession = m.filter.recvSession ∧
        t.appliedSendParams = m.filter.appliedSendParams ∧
        t.appliedRecvParams = m.filter.appliedRecvParams) ∨
      ∃ t selected keys, m.filter.doSetAnswer decode params source final created = (t, true) ∧
        m.filter.selectedParams params source = some selected ∧
        policies decode selected.1 selected.2 = some keys ∧ t.Keyed keys ∧ Recorded decode t keys := by
  rw [doSetAnswer]
  split
  · exact .inl rfl
  · rename_i hexpect
    split
    · rename_i hempty
      refine .inr (.inl ?_)
      rw [hempty]
      split
      · exact ⟨_, rfl, rfl, rfl, rfl, rfl, rfl, rfl⟩
      · refine ⟨_, rfl, rfl, ?_, rfl, rfl, rfl, rfl⟩
        cases source <;> rfl
    · split
      · exact .inl rfl
      · rename_i send recv hselected
        rcases applyParams_cases hinv (happ (Bool.not_eq_false _ ▸ hexpect) _ hselected) with
          hfail | ⟨t, keys, hok, hpolicies, hkeyed, hrecorded⟩
        · rw [hfail]
          exact .inl rfl
        · refine .inr (.inr ?_)
          rw [hok]
          simp only [Bool.true_eq_false, if_false]
          split
          · exact ⟨_, _, keys, rfl, hselected, hpolicies, hkeyed, hrecorded⟩
          · exact ⟨_, _, keys, rfl, hselected, hpolicies, hkeyed, hrecorded⟩

theorem isActive_setOffer {params : List CryptoParams} {source : ContentSource}
    (h : Orderly decode s (.setOffer params source))
    (hactive : (s.setOffer params source).1.isActive = true) :
    s.isActive = true ∨ s.sendSession ≠ none := by
  rw [setOffer] at hactive
  split at hactive
  · rename_i hexpect
    cases hstate : s.state with
    | init => cases source <;> simp [isActive, storeParams, hstate, State.toNat] at hactive
    | sentOffer =>
      refine .inr (h (.inl ⟨hstate, ?_⟩))
      simpa [expectOffer, hstate] using hexpect
    | receivedOffer =>
      refine .inr (h (.inr ⟨hstate, ?_⟩))
      simpa [expectOffer, hstate] using hexpect
    | sentPrAnswerNoCrypto => simp [expectOffer, hstate] at hexpect
    | receivedPrAnswerNoCrypto => simp [expectOffer, hstate] at hexpect
    | active => exact .inl (by simp [isActive, hstate])
    | sentUpdatedOffer => exact .inl (by simp [isActive, hstate, State.toNat])
    | receivedUpdatedOffer => exact .inl (by simp [isActive, hstate, State.toNat])
    | sentPrAnswer => exact .inl (by simp [isActive, hstate, State.toNat])
    | receivedPrAnswer => exact .inl (by simp [isActive, hstate, State.toNat])
  · exact .inl hactive

theorem answer_step {m : Monitored} (hinv : m.Inv decode) {e : Event} {params : List CryptoParams}
    {source : ContentSource} {final : Bool} {created : Bool × Bool}
    (hstep : m.filter.step decode e = m.filter.doSetAnswer decode params source final created)
    (hnegotiated : m.filter.negotiated decode e = (m.filter.selectedParams params source).bind
      fun selected => policies decode selected.1 selected.2)
    (happ : m.filter.expectAnswer source = true → ∀ selected,
      m.filter.selectedParams params source = some selected →
        Applicable decode m.filter selected.1 selected.2 created) :
    (m.step decode e).Inv decode ∧
      ((m.filter.step decode e).2 = false → (m.filter.step decode e).1 = m.filter) := by
  rw [Monitored.step, hstep, hnegotiated]
  rcases doSetAnswer_cases hinv happ with hfail | ⟨t, hok, hnone, hinactive, hsend, hrecv, hsendParams,
    hrecvParams⟩ | ⟨t, selected, keys, hok, hselected, hpolicies, hkeyed, hrecorded⟩
  · rw [hfail]
    exact ⟨hinv, fun _ => rfl⟩
  · rw [hok, hnone]
    refine ⟨hinv.of_same (fun hactive => ?_) hsend hrecv hsendParams hrecvParams, nofun⟩
    rw [hinactive] at hactive
    cases hactive
  · rw [hok, hselected]
    refine ⟨?_, nofun⟩
    simp only [Option.bind_some, hpolicies, if_true]
    exact ⟨hkeyed, hrecorded⟩

theorem setRtpParams_step {m : Monitored} (hinv : m.Inv decode) {send recv : String × List UInt8}
    {created : Bool × Bool} (h : Orderly decode m.filter (.setRtpParams send recv created)) :
    (m.step decode (.setRtpParams send recv created)).Inv decode ∧
      Steady decode m.filter (.setRtpParams send recv created) := by
  rw [Monitored.step, Steady, step, setRtpParams]
  split
  · exact ⟨hinv, fun _ => rfl⟩
  · rename_i hstate
    obtain ⟨hsend, hrecv, rfl⟩ := h hstate
    obtain ⟨hok, hkeyed, hsendParams, hrecvParams⟩ := keySessions_keyed (s := m.filter) hsend hrecv
    simp only [hok, if_true, negotiated, Option.some_or]
    refine ⟨⟨hkeyed, .inl ?_⟩, nofun⟩
    rw [show (m.filter.keySessions send recv (true, true)).1.appliedSendParams = {} from hsendParams,
      show (m.filter.keySessions send recv (true, true)).1.appliedRecvParams = {} from hrecvParams]
    exact ⟨blank_empty, blank_empty⟩

theorem step_of_none {m : Monitored} {e : Event} (h : m.filter.negotiated decode e = none) :
    m.step decode e = ⟨(m.filter.step decode e).1, m.applied⟩ := by
  rw [Monitored.step, h, Option.none_or, ite_self]

theorem map_silence {session : Option SrtpSession} {ms : UInt32} {policy : SrtpPolicy}
    (h : ∃ x, session = some x ∧ x.session = some policy) :
    ∃ x, (session.map fun x => { x with signalSilentTime := ms }) = some x ∧
      x.session = some policy := by
  obtain ⟨x, rfl, hx⟩ := h
  exact ⟨_, rfl, hx⟩

theorem setSignalSilentTime_step {m : Monitored} (hinv : m.Inv decode) (ms : UInt32) :
    (m.step decode (.setSignalSilentTime ms)).Inv decode := by
  rw [step_of_none rfl, step, setSignalSilentTime]
  dsimp only
  split
  · rename_i hstate
    have hactive : m.filter.isActive = true := by simp [isActive, hstate]
    obtain ⟨keys, happlied, hkeyed⟩ := (sound_of_inv hinv).keyed hactive
    rw [Monitored.Inv, happlied] at hinv
    rw [Monitored.Inv, happlied]
    exact ⟨⟨map_silence hkeyed.1, map_silence hkeyed.2⟩, hinv.2⟩
  · exact hinv.of_same .inl rfl rfl rfl rfl

theorem setRtcpParams_step {m : Monitored} (hinv : m.Inv decode) (send recv : String × List UInt8)
    (created : Bool × Bool) : (m.step decode (.setRtcpParams send recv created)).Inv decode := by
  rw [step_of_none rfl, step, setRtcpParams]
  split
  · exact hinv
  · dsimp only
    split
    · exact hinv.of_same .inl rfl rfl rfl rfl
    · exact hinv.of_same .inl rfl rfl rfl rfl

theorem monitored_step {m : Monitored} (hinv : m.Inv decode) {e : Event}
    (h : Orderly decode m.filter e) :
    (m.step decode e).Inv decode ∧ m.Sound ∧ Steady decode m.filter e := by
  suffices hstep : (m.step decode e).Inv decode ∧ Steady decode m.filter e from
    ⟨hstep.1, sound_of_inv hinv, hstep.2⟩
  cases e with
  | setOffer params source =>
    refine ⟨?_, trivial⟩
    rw [step_of_none rfl, step]
    refine hinv.of_same (isActive_setOffer h) ?_ ?_ ?_ ?_ <;> rw [setOffer] <;> split <;> rfl
  | setProvisionalAnswer params source created => exact answer_step hinv rfl rfl h
  | setAnswer params source created => exact answer_step hinv rfl rfl h
  | setRtpParams send recv created => exact setRtpParams_step hinv h
  | setRtcpParams send recv created => exact ⟨setRtcpParams_step hinv send recv created, trivial⟩
  | setSignalSilentTime ms => exact ⟨setSignalSilentTime_step hinv ms, trivial⟩

/-- In an orderly run an active filter has the sessions of the last negotiation, and a call
that fails changes nothing. -/
theorem sound_run {events : List Event}
    (h : Runs.Along (Monitored.step decode) (fun m e => Orderly decode m.filter e) {} events) :
    Runs.Along (Monitored.step decode) (fun m e => m.Sound ∧ Steady decode m.filter e) {} events ∧
      (events.foldl (Monitored.step decode) {}).Sound := by
  have hinit : Monitored.Inv decode {} := ⟨rfl, rfl, rfl, blank_empty, blank_empty⟩
  have hstep : ∀ m e, Monitored.Inv decode m → Orderly decode m.filter e →
      (m.step decode e).Inv decode ∧ (m.Sound ∧ Steady decode m.filter e) :=
    fun m e hinv => monitored_step hinv
  obtain ⟨hrun, hlast⟩ := h.invariant hstep hinit
  exact ⟨hrun, sound_of_inv hlast⟩

def someKey (_ : String) : Option (List UInt8) := some (List.replicate 30 7)

def someCrypto : CryptoParams := ⟨1, csAesCm128HmacSha1_80, "inline:AAAA", ""⟩

theorem sound_run_answered :
    Monitored.Sound ([Event.setOffer [someCrypto] .csLocal,
      .setAnswer [someCrypto] .csRemote (true, true)].foldl (Monitored.step someKey) {}) := by
  refine (sound_run ?_).2
  refine ⟨?_, ?_, trivial⟩
  · rintro (⟨hstate, -⟩ | ⟨hstate, -⟩) <;> cases hstate
  · intro _ selected hselected
    have heq : selected = (someCrypto, someCrypto) :=
      (Option.some.inj (hselected.symm.trans (by decide)))
    rw [heq]
    exact fun _ => ⟨by decide, by decide, rfl⟩

/-- An offer that is made twice activates a filter that has no sessions. -/
theorem repeated_offer :
    ¬ Monitored.Sound ([Event.setOffer [someCrypto] .csLocal,
      .setOffer [someCrypto] .csLocal].foldl (Monitored.step someKey) {}) := by
  intro h
  exact h.protects.1 (by decide)

end SrtpFilter

end Libjingle
