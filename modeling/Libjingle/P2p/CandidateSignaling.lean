import Libjingle.Lib.Runs
import Libjingle.P2p.Candidate
import Libjingle.P2p.Session
import Mathlib.Logic.Function.Basic

/-! The candidates that a `Session` signals. They wait until the initiate is acknowledged, and
those that were sent before a redirect are sent again. A session is found by the name that a
message went to, so that a response always comes from the remote name. -/

namespace Libjingle

structure SignaledProxy where
  negotiated : Bool := false
  sentCandidates : List Candidate := []
  unsentCandidates : List Candidate := []
  deriving DecidableEq, Repr

namespace SignaledProxy

variable (p : SignaledProxy)

def addSentCandidates (candidates : List Candidate) : SignaledProxy :=
  { p with sentCandidates := p.sentCandidates ++ candidates }

def addUnsentCandidates (candidates : List Candidate) : SignaledProxy :=
  { p with unsentCandidates := p.unsentCandidates ++ candidates }

def clearSentCandidates : SignaledProxy := { p with sentCandidates := [] }

def clearUnsentCandidates : SignaledProxy := { p with unsentCandidates := [] }

end SignaledProxy

inductive Signaled
  | initiate (receiver : String)
  | transportInfo (receiver contentName : String) (candidates : List Candidate)
  deriving DecidableEq, Repr

/-- A session that may be an initiating one, with the proxies of its contents in their order. -/
structure CandidateSession where
  initiator : Bool
  state : Session.State
  remoteName : String
  initiateAcked : Bool := false
  contents : List String
  proxy : String → SignaledProxy := fun _ => {}

inductive SignalingAction
  | candidatesReady (contentName : String) (candidates : List Candidate)
  | initiateAcked
  | accepted (contents : List String)
  | redirected (target : String)
  deriving DecidableEq, Repr

structure SignalingEvent where
  action : SignalingAction
  writesInitiate : Bool := true
  writes : String → List Candidate → Bool := fun _ _ => true

namespace CandidateSession

variable (bareJidsEqual : String → String → Bool) (writes : String → List Candidate → Bool)

section Send

variable (get : SignaledProxy → List Candidate) (clear : SignaledProxy → SignaledProxy)
  (receiver : String)

/-- The candidates of the proxies in turn, up to those that cannot be written. -/
def sendAll : List String → (String → SignaledProxy) →
    Bool × (String → SignaledProxy) × List Signaled
  | [], proxy => (true, proxy, [])
  | name :: rest, proxy =>
    if get (proxy name) = [] then sendAll rest proxy
    else if writes name (get (proxy name)) then
      let sent := sendAll rest (Function.update proxy name (clear (proxy name)))
      (sent.1, sent.2.1, .transportInfo receiver name (get (proxy name)) :: sent.2.2)
    else (false, proxy, [])

end Send

variable (s : CandidateSession)

def sendAllUnsentTransportInfoMessages : Bool × (String → SignaledProxy) × List Signaled :=
  sendAll writes SignaledProxy.unsentCandidates SignaledProxy.clearUnsentCandidates s.remoteName
    s.contents s.proxy

def resendAllTransportInfoMessages : Bool × (String → SignaledProxy) × List Signaled :=
  sendAll writes SignaledProxy.sentCandidates SignaledProxy.clearSentCandidates s.remoteName
    s.contents s.proxy

/-- `SendTransportInfoMessage` -/
def transportInfo (contentName : String) (candidates : List Candidate) : List Signaled :=
  if writes contentName candidates then [.transportInfo s.remoteName contentName candidates]
  else []

def checkSentInitiate : Bool := s.state = .sentInitiate ∨ s.state = .receivedInitiateAck

def onTransportProxyCandidatesReady (contentName : String) (candidates : List Candidate) :
    CandidateSession × List Signaled :=
  if contentName ∈ s.contents then
    let p := s.proxy contentName
    if s.initiator && !s.initiateAcked then
      ({ s with proxy := Function.update s.proxy contentName (p.addUnsentCandidates candidates) },
        [])
    else
      ({ s with
        proxy := Function.update s.proxy contentName
          (if p.negotiated then p else p.addSentCandidates candidates) },
        s.transportInfo writes contentName candidates)
  else (s, [])

def onInitiateAcked : CandidateSession × List Signaled :=
  let s := { s with state := .receivedInitiateAck }
  if s.initiateAcked then (s, [])
  else
    let sent := s.sendAllUnsentTransportInfoMessages writes
    ({ s with initiateAcked := true, proxy := sent.2.1 }, sent.2.2)

/-- An accept that was parsed. Its contents are negotiated. -/
def onAcceptMessage (contents : List String) : CandidateSession × List Signaled :=
  if s.checkSentInitiate then
    let acked := s.onInitiateAcked writes
    ({ acked.1 with
      state := .receivedAccept
      proxy := fun name =>
        if name ∈ contents then { acked.1.proxy name with negotiated := true }
        else acked.1.proxy name }, acked.2)
  else (s, [])

/-- A redirect is followed to the same client before the session is accepted. -/
def follows (target : String) : Bool := s.checkSentInitiate && bareJidsEqual s.remoteName target

def onRedirectError (target : String) (writesInitiate : Bool) : CandidateSession × List Signaled :=
  if s.follows bareJidsEqual target then
    let s := { s with remoteName := target }
    if writesInitiate then
      let sent := s.resendAllTransportInfoMessages writes
      ({ s with proxy := sent.2.1 }, .initiate target :: sent.2.2)
    else (s, [])
  else (s, [])

def handle (e : SignalingEvent) : CandidateSession × List Signaled :=
  match e.action with
  | .candidatesReady contentName candidates =>
    s.onTransportProxyCandidatesReady e.writes contentName candidates
  | .initiateAcked => s.onInitiateAcked e.writes
  | .accepted contents => s.onAcceptMessage e.writes contents
  | .redirected target => s.onRedirectError bareJidsEqual e.writes target e.writesInitiate

end CandidateSession

/-- What has happened to the candidates: those that were reported, those that were sent, and those
that were sent to the remote name in force since it acknowledged the initiate. -/
structure CandidateHistory where
  redirected : Bool := false
  acked : Bool := false
  reported : String → List Candidate := fun _ => []
  sent : String → List Candidate := fun _ => []
  delivered : String → List Candidate := fun _ => []

def candidatesTo (receiver contentName : String) (messages : List Signaled) : List Candidate :=
  messages.flatMap fun
    | .initiate _ => []
    | .transportInfo r name candidates =>
      if r = receiver ∧ name = contentName then candidates else []

namespace CandidateHistory

variable (h : CandidateHistory)

/-- What is known of an action before the session handles it. An accept stands for an
acknowledgement. -/
def observe (bareJidsEqual : String → String → Bool) (s : CandidateSession) :
    SignalingAction → CandidateHistory
  | .candidatesReady contentName candidates =>
    if contentName ∈ s.contents then { h with
      reported := fun name =>
        if name = contentName then h.reported name ++ candidates else h.reported name }
    else h
  | .initiateAcked => { h with acked := true }
  | .accepted _ => if s.checkSentInitiate then { h with acked := true } else h
  | .redirected target =>
    if s.follows bareJidsEqual target then
      { h with redirected := true, acked := false, delivered := fun _ => [] }
    else h

def record (receiver : String) (messages : List Signaled) : CandidateHistory := { h with
  sent := fun name => h.sent name ++ candidatesTo receiver name messages
  delivered := fun name =>
    if h.acked then h.delivered name ++ candidatesTo receiver name messages
    else h.delivered name }

end CandidateHistory

structure CandidateRun where
  session : CandidateSession
  history : CandidateHistory := {}

namespace CandidateRun

variable (bareJidsEqual : String → String → Bool)

def step (r : CandidateRun) (e : SignalingEvent) : CandidateRun where
  session := (r.session.handle bareJidsEqual e).1
  history := (r.history.observe bareJidsEqual r.session e.action).record
    (r.session.handle bareJidsEqual e).1.remoteName (r.session.handle bareJidsEqual e).2

def start (remoteName : String) (contents : List String) : CandidateRun where
  session := { initiator := true, state := .sentInitiate, remoteName, contents }

/-- All candidates were sent to the remote name in force once it had acknowledged the initiate,
and without a redirect each was sent once and in order. -/
def NoneLost (r : CandidateRun) : Prop :=
  r.history.acked = true → ∀ name,
    (∀ c ∈ r.history.reported name, c ∈ r.history.delivered name) ∧
      (r.history.redirected = false → r.history.sent name = r.history.reported name)

def FlushWrites (s : CandidateSession) (writes : String → List Candidate → Bool) : Prop :=
  s.initiateAcked = false → ∀ name ∈ s.contents, (s.proxy name).unsentCandidates ≠ [] →
    writes name (s.proxy name).unsentCandidates = true

/-- A redirect comes before the initiate is acknowledged, or before there are any candidates, and
candidates come before the initiate is acknowledged or after the name in force has done so. What is
sent can be written. -/
def InTime (r : CandidateRun) (e : SignalingEvent) : Prop :=
  match e.action with
  | .candidatesReady contentName candidates =>
    r.session.initiateAcked = true → contentName ∈ r.session.contents → candidates ≠ [] →
      r.history.acked = true ∧ e.writes contentName candidates = true
  | .initiateAcked => FlushWrites r.session e.writes
  | .accepted _ => r.session.checkSentInitiate = true → FlushWrites r.session e.writes
  | .redirected target => r.session.follows bareJidsEqual target = true →
      r.session.initiateAcked = true → ∀ name, r.history.reported name = []

section Messages

variable {get : SignaledProxy → List Candidate} {clear : SignaledProxy → SignaledProxy}
  {writes : String → List Candidate → Bool} {receiver : String}

variable (clear) (receiver) in
theorem candidatesTo_sendAll (hclear : ∀ p, get (clear p) = []) {names : List String}
    {proxy : String → SignaledProxy}
    (h : ∀ name ∈ names, get (proxy name) ≠ [] → writes name (get (proxy name)) = true)
    (name : String) :
    candidatesTo receiver name
      (CandidateSession.sendAll writes get clear receiver names proxy).2.2 =
        if name ∈ names then get (proxy name) else [] := by
  induction names generalizing proxy with
  | nil => rfl
  | cons first rest ih =>
    obtain ⟨hfirst, hrest⟩ := List.forall_mem_cons.mp h
    rw [CandidateSession.sendAll]
    by_cases hnone : get (proxy first) = []
    · rw [if_pos hnone, ih hrest]
      by_cases hname : name = first
      · subst hname
        simp [hnone]
      · simp [hname]
    · have hnext : ∀ other ∈ rest,
          get (Function.update proxy first (clear (proxy first)) other) ≠ [] →
            writes other (get (Function.update proxy first (clear (proxy first)) other)) =
              true := by
        intro other hother
        by_cases hsame : other = first
        · subst hsame
          rw [Function.update_self, hclear]
          exact fun hne => absurd rfl hne
        · rw [Function.update_of_ne hsame]
          exact hrest other hother
      rw [if_neg hnone, if_pos (hfirst hnone)]
      have hothers := ih hnext
      rw [candidatesTo] at hothers ⊢
      rw [List.flatMap_cons, hothers]
      by_cases hname : name = first
      · subst hname
        simp [hclear]
      · simp [hname, Ne.symm hname]

theorem unsent_resend {names : List String} {proxy : String → SignaledProxy} (name : String) :
    ((CandidateSession.sendAll writes SignaledProxy.sentCandidates
      SignaledProxy.clearSentCandidates receiver names proxy).2.1 name).unsentCandidates =
        (proxy name).unsentCandidates := by
  induction names generalizing proxy with
  | nil => rfl
  | cons first rest ih =>
    rw [CandidateSession.sendAll]
    split
    · exact ih
    · split
      · dsimp only
        rw [ih]
        by_cases hname : name = first
        · subst hname
          rw [Function.update_self]
          rfl
        · rw [Function.update_of_ne hname]
      · rfl

theorem candidatesTo_transportInfo {s : CandidateSession} {contentName : String}
    {candidates : List Candidate} (h : candidates ≠ [] → writes contentName candidates = true)
    (name : String) :
    candidatesTo s.remoteName name (s.transportInfo writes contentName candidates) =
      if name = contentName then candidates else [] := by
  rw [CandidateSession.transportInfo]
  by_cases hwrites : writes contentName candidates = true
  · rw [if_pos hwrites]
    by_cases hname : name = contentName
    · simp [candidatesTo, hname]
    · simp [candidatesTo, hname, Ne.symm hname]
  · have hnone : candidates = [] := by
      by_contra hne
      exact hwrites (h hne)
    rw [if_neg hwrites, hnone, ite_self]
    rfl

end Messages

/-- Before the initiate is acknowledged all candidates wait. Afterwards all are sent, and after a
redirect at which there were none there are none until it is acknowledged again. -/
structure Kept (r : CandidateRun) : Prop where
  initiator : r.session.initiator = true
  outside : ∀ name, name ∉ r.session.contents → r.history.reported name = []
  waiting : r.session.initiateAcked = false → r.history.acked = false ∧
    (∀ name, r.history.delivered name = []) ∧
    (∀ name ∈ r.session.contents,
      (r.session.proxy name).unsentCandidates = r.history.reported name) ∧
    (r.history.redirected = false → ∀ name, r.history.sent name = [])
  flowing : r.session.initiateAcked = true → r.history.acked = true →
    ∀ name, r.history.delivered name = r.history.reported name ∧
      (r.history.redirected = false → r.history.sent name = r.history.reported name)
  silent : r.session.initiateAcked = true → r.history.acked = false →
    r.history.redirected = true ∧
      ∀ name, r.history.delivered name = [] ∧ r.history.reported name = []

variable {bareJidsEqual : String → String → Bool} {r : CandidateRun}

theorem kept_start (remoteName : String) (contents : List String) :
    Kept (start remoteName contents) where
  initiator := rfl
  outside _ _ := rfl
  waiting _ := ⟨rfl, fun _ => rfl, fun _ _ => rfl, fun _ _ => rfl⟩
  flowing h := by cases h
  silent h := by cases h

theorem noneLost_of_kept (h : Kept r) : NoneLost r := by
  intro hacked name
  have hflowing : r.session.initiateAcked = true := by
    by_contra hno
    have hwaiting := (h.waiting (Bool.eq_false_iff.mpr hno)).1
    rw [hacked] at hwaiting
    cases hwaiting
  obtain ⟨hdelivered, hsent⟩ := h.flowing hflowing hacked name
  exact ⟨fun c hc => hdelivered ▸ hc, hsent⟩

theorem record_nil (history : CandidateHistory) (receiver : String) :
    history.record receiver [] = history := by
  simp [CandidateHistory.record, candidatesTo]

theorem kept_candidatesReady (h : Kept r) {contentName : String} {candidates : List Candidate}
    {writesInitiate : Bool} {writes : String → List Candidate → Bool}
    (hin : InTime bareJidsEqual r
      ⟨.candidatesReady contentName candidates, writesInitiate, writes⟩) :
    Kept (step bareJidsEqual r
      ⟨.candidatesReady contentName candidates, writesInitiate, writes⟩) := by
  by_cases hmem : contentName ∈ r.session.contents
  · have hreported : ∀ name, name ∉ r.session.contents →
        (if name = contentName then r.history.reported name ++ candidates
          else r.history.reported name) = [] := by
      intro name hname
      have hne : name ≠ contentName := by
        rintro rfl
        exact hname hmem
      rw [if_neg hne]
      exact h.outside name hname
    cases hacked : r.session.initiateAcked with
    | false =>
      obtain ⟨hnot, hdelivered, hunsent, hsent⟩ := h.waiting hacked
      have hwaits : (r.session.initiator && !r.session.initiateAcked) = true := by
        rw [h.initiator, hacked]
        rfl
      simp only [step, CandidateSession.handle, CandidateSession.onTransportProxyCandidatesReady,
        CandidateHistory.observe, if_pos hmem, if_pos hwaits, record_nil]
      refine ⟨h.initiator, hreported, fun _ => ⟨hnot, hdelivered, fun name hname => ?_, hsent⟩,
        fun hyes => ?_, fun hyes => ?_⟩
      · dsimp only
        by_cases hsame : name = contentName
        · subst hsame
          rw [Function.update_self, if_pos rfl, ← hunsent name hname]
          rfl
        · rw [Function.update_of_ne hsame, if_neg hsame]
          exact hunsent name hname
      · rw [hacked] at hyes
        cases hyes
      · rw [hacked] at hyes
        cases hyes
    | true =>
      have hwaits : ¬ (r.session.initiator && !r.session.initiateAcked) = true := by
        rw [hacked]
        simp
      have hto := candidatesTo_transportInfo (s := r.session) fun hne => (hin hacked hmem hne).2
      simp only [step, CandidateSession.handle, CandidateSession.onTransportProxyCandidatesReady,
        CandidateHistory.observe, if_pos hmem, if_neg hwaits, CandidateHistory.record, hto]
      refine ⟨h.initiator, hreported, fun hno => ?_, fun _ hyes name => ?_, fun _ hno => ?_⟩
      · rw [hacked] at hno
        cases hno
      · dsimp only at hyes ⊢
        obtain ⟨hdelivered, hsent⟩ := h.flowing hacked hyes name
        rw [if_pos hyes, hdelivered]
        by_cases hsame : name = contentName
        · rw [if_pos hsame, if_pos hsame]
          exact ⟨rfl, fun hno => by rw [hsent hno]⟩
        · rw [if_neg hsame, if_neg hsame, List.append_nil]
          exact ⟨rfl, fun hno => by rw [hsent hno, List.append_nil]⟩
      · dsimp only at hno ⊢
        obtain ⟨hredirected, hnone⟩ := h.silent hacked hno
        have hempty : candidates = [] := by
          by_contra hne
          rw [(hin hacked hmem hne).1] at hno
          cases hno
        refine ⟨hredirected, fun name => ⟨?_, ?_⟩⟩
        · rw [if_neg (by rw [hno]; simp)]
          exact (hnone name).1
        · rw [hempty, List.append_nil, ite_self]
          exact (hnone name).2
  · have hsame : step bareJidsEqual r
        ⟨.candidatesReady contentName candidates, writesInitiate, writes⟩ = r := by
      simp only [step, CandidateSession.handle, CandidateSession.onTransportProxyCandidatesReady,
        CandidateHistory.observe, if_neg hmem, record_nil]
    rw [hsame]
    exact h

theorem kept_acked (h : Kept r) {writes : String → List Candidate → Bool}
    (hwrites : FlushWrites r.session writes) {s : CandidateSession}
    (hinitiator : s.initiator = r.session.initiator) (hcontents : s.contents = r.session.contents)
    (hacked : s.initiateAcked = true) :
    Kept ⟨s, CandidateHistory.record { r.history with acked := true } r.session.remoteName
      (r.session.onInitiateAcked writes).2⟩ := by
  have hflows : ∀ name, ((CandidateHistory.record { r.history with acked := true }
      r.session.remoteName (r.session.onInitiateAcked writes).2).delivered name =
        r.history.reported name) ∧ (r.history.redirected = false →
          (CandidateHistory.record { r.history with acked := true } r.session.remoteName
            (r.session.onInitiateAcked writes).2).sent name = r.history.reported name) := by
    intro name
    cases hbefore : r.session.initiateAcked with
    | false =>
      obtain ⟨-, hdelivered, hunsent, hsent⟩ := h.waiting hbefore
      have hto := candidatesTo_sendAll SignaledProxy.clearUnsentCandidates r.session.remoteName
        (fun _ => rfl) (hwrites hbefore) name
      have hall : candidatesTo r.session.remoteName name (r.session.onInitiateAcked writes).2 =
          r.history.reported name := by
        rw [CandidateSession.onInitiateAcked]
        dsimp only
        rw [if_neg (by rw [hbefore]; simp)]
        refine hto.trans ?_
        by_cases hname : name ∈ r.session.contents
        · rw [if_pos hname]
          exact hunsent name hname
        · rw [if_neg hname]
          exact (h.outside name hname).symm
      rw [CandidateHistory.record]
      dsimp only
      rw [hall, if_pos rfl, hdelivered, List.nil_append]
      exact ⟨rfl, fun hno => by rw [hsent hno, List.nil_append]⟩
    | true =>
      have hnone : (r.session.onInitiateAcked writes).2 = [] := by
        rw [CandidateSession.onInitiateAcked]
        dsimp only
        rw [if_pos hbefore]
      rw [hnone, record_nil]
      cases hacknowledged : r.history.acked with
      | true => exact h.flowing hbefore hacknowledged name
      | false =>
        obtain ⟨hredirected, hsilent⟩ := h.silent hbefore hacknowledged
        refine ⟨(hsilent name).1.trans (hsilent name).2.symm, fun hno => ?_⟩
        rw [hredirected] at hno
        cases hno
  refine ⟨hinitiator.trans h.initiator, fun name hname => h.outside name (hcontents ▸ hname),
    fun hno => ?_, fun _ _ => hflows, fun _ hno => ?_⟩
  · rw [hacked] at hno
    cases hno
  · cases hno

theorem onInitiateAcked_session (s : CandidateSession)
    (writes : String → List Candidate → Bool) :
    (s.onInitiateAcked writes).1.initiator = s.initiator ∧
      (s.onInitiateAcked writes).1.contents = s.contents ∧
      (s.onInitiateAcked writes).1.remoteName = s.remoteName ∧
      (s.onInitiateAcked writes).1.initiateAcked = true := by
  rw [CandidateSession.onInitiateAcked]
  dsimp only
  by_cases hacked : s.initiateAcked = true
  · rw [if_pos hacked]
    exact ⟨rfl, rfl, rfl, hacked⟩
  · rw [if_neg hacked]
    exact ⟨rfl, rfl, rfl, rfl⟩

theorem kept_redirected (h : Kept r) {target : String} {writesInitiate : Bool}
    {writes : String → List Candidate → Bool}
    (hin : InTime bareJidsEqual r ⟨.redirected target, writesInitiate, writes⟩) :
    Kept (step bareJidsEqual r ⟨.redirected target, writesInitiate, writes⟩) := by
  by_cases hfollows : r.session.follows bareJidsEqual target = true
  · have hrun : ∃ session messages, step bareJidsEqual r
        ⟨.redirected target, writesInitiate, writes⟩ =
          ⟨session, CandidateHistory.record { r.history with
            redirected := true
            acked := false
            delivered := fun _ => [] } target messages⟩ ∧
        session.initiator = r.session.initiator ∧ session.contents = r.session.contents ∧
        session.initiateAcked = r.session.initiateAcked ∧
        ∀ name, (session.proxy name).unsentCandidates =
          (r.session.proxy name).unsentCandidates := by
      simp only [step, CandidateSession.handle, CandidateSession.onRedirectError,
        CandidateHistory.observe, if_pos hfollows]
      cases writesInitiate with
      | true => exact ⟨_, _, rfl, rfl, rfl, rfl, fun name => unsent_resend name⟩
      | false => exact ⟨_, _, rfl, rfl, rfl, rfl, fun name => rfl⟩
    obtain ⟨session, messages, hstep, hinitiator, hcontents, hacked, hunsent⟩ := hrun
    rw [hstep]
    refine ⟨hinitiator.trans h.initiator, fun name hname => h.outside name (hcontents ▸ hname),
      fun hno => ⟨rfl, fun _ => rfl, fun name hname => ?_, fun hno => ?_⟩, fun _ hyes => ?_,
      fun hyes _ => ⟨rfl, fun name => ⟨rfl, hin hfollows (hacked ▸ hyes) name⟩⟩⟩
    · dsimp only at hno hname ⊢
      rw [hacked] at hno
      rw [hcontents] at hname
      exact (hunsent name).trans ((h.waiting hno).2.2.1 name hname)
    · cases hno
    · cases hyes
  · have hsame : step bareJidsEqual r ⟨.redirected target, writesInitiate, writes⟩ = r := by
      simp only [step, CandidateSession.handle, CandidateSession.onRedirectError,
        CandidateHistory.observe, if_neg hfollows, record_nil]
    rw [hsame]
    exact h

theorem kept_step (h : Kept r) {e : SignalingEvent} (hin : InTime bareJidsEqual r e) :
    Kept (step bareJidsEqual r e) := by
  obtain ⟨action, writesInitiate, writes⟩ := e
  cases action with
  | candidatesReady contentName candidates => exact kept_candidatesReady h hin
  | redirected target => exact kept_redirected h hin
  | initiateAcked =>
    obtain ⟨hinitiator, hcontents, hremote, hacked⟩ := onInitiateAcked_session r.session writes
    have hkept := kept_acked h (s := (r.session.onInitiateAcked writes).1) hin hinitiator hcontents
      hacked
    rw [← hremote] at hkept
    exact hkept
  | accepted contents =>
    by_cases hsent : r.session.checkSentInitiate = true
    · obtain ⟨hinitiator, hcontents, hremote, hacked⟩ := onInitiateAcked_session r.session writes
      simp only [step, CandidateSession.handle, CandidateSession.onAcceptMessage,
        CandidateHistory.observe, if_pos hsent]
      rw [hremote]
      exact kept_acked h (hin hsent) hinitiator hcontents hacked
    · have hsame : step bareJidsEqual r ⟨.accepted contents, writesInitiate, writes⟩ = r := by
        simp only [step, CandidateSession.handle, CandidateSession.onAcceptMessage,
          CandidateHistory.observe, if_neg hsent, record_nil]
      rw [hsame]
      exact h

def redirectedEarly : List SignalingEvent :=
  [⟨.candidatesReady "audio" [{ component := 1 }], true, fun _ _ => true⟩,
    ⟨.redirected "user@host/b", true, fun _ _ => true⟩, ⟨.initiateAcked, true, fun _ _ => true⟩,
    ⟨.candidatesReady "audio" [{ component := 2 }], true, fun _ _ => true⟩]

/-- Candidates that are sent when the initiate is acknowledged are not sent again. -/
def redirectedLate : List SignalingEvent :=
  [⟨.candidatesReady "audio" [{ component := 1 }], true, fun _ _ => true⟩,
    ⟨.initiateAcked, true, fun _ _ => true⟩, ⟨.redirected "user@host/b", true, fun _ _ => true⟩,
    ⟨.initiateAcked, true, fun _ _ => true⟩]

end CandidateRun

end Libjingle
