import Libjingle.P2p.SessionManager

/-! Two sessions that exchange the stanzas they send: the one of the caller, and the one
that its initiate makes at the callee. Stanzas arrive in order, but the answer to an
initiate may come later. What a listener calls comes after the handler. -/

namespace Libjingle

open Session

namespace SessionManager

def perform (s : SessionManager) (e : Event) : SessionManager × List Output :=
  if s.mapped then
    let first := s.handle e
    let second := first.1.handle .resume
    let third := second.1.handle .resume
    (third.1, first.2 ++ second.2 ++ third.2)
  else (s, [])

end SessionManager

/-- The state that a message asks for: a reject is a terminate in Jingle. -/
def SessionMessage.asksFor (m : SessionMessage) : Option State :=
  match m.type with
  | .sessionAccept => some .receivedAccept
  | .sessionReject =>
    if m.reason = terminateBusy then some .receivedBusy
    else if m.protocol = .gingle then some .receivedReject
    else some .receivedTerminate
  | .sessionTerminate => some (terminateState m.reason)
  | _ => none

inductive Session.Local
  | call (call : Call)
  | transportWritable (waits : Bool)
  | timer (id : MessageId)
  | dispatch
  | sendTimeout (type : ActionType)
  deriving DecidableEq, Repr

/-- A message that is not answered in time fails like one that cannot be delivered. -/
def Session.Local.event : Session.Local → Event
  | .call c => .call c
  | .transportWritable waits => .transportWritable waits
  | .timer id => .timer id
  | .dispatch => .dispatch
  | .sendTimeout type => .failedSend type (.error (some "cancel"))

/-- A call of `Session::Initiate`. -/
def Session.Local.Initiates : Local → Prop
  | .call c => ∃ written readable usable, c = .initiate written readable usable
  | _ => False

/-- The parties, the stanzas on their way, the answers to the initiate, and whether a
reject or terminate of a party was delivered. -/
structure SessionPair where
  caller : SessionManager
  callee : Option SessionManager := none
  toCallee : List Output := []
  toCaller : List Output := []
  acks : List SessionMessage := []
  callerEnd : Bool := false
  calleeEnd : Bool := false
  deriving DecidableEq, Repr

namespace SessionPair

def start (protocol : SignalingProtocol) : SessionPair where
  caller := .create protocol

/-- `SessionManager::OnIncomingMessage` for a message that could be parsed. A new session
takes the protocol of its initiate. -/
def onIncomingMessage (party : Option SessionManager) (msg : SessionMessage) :
    Option SessionManager × List Output :=
  match party with
  | some s =>
    if s.mapped then
      let performed := s.perform (.incomingMessage msg)
      (some performed.1, performed.2)
    else if msg.type = .sessionInitiate then
      let performed := (SessionManager.create .hybrid).perform (.incomingMessage msg)
      (some performed.1, performed.2)
    else (some s, [.error msg])
  | none =>
    if msg.type = .sessionInitiate then
      let performed := (SessionManager.create .hybrid).perform (.incomingMessage msg)
      (some performed.1, performed.2)
    else (none, [.error msg])

def receive (party : Option SessionManager) : Output → Option SessionManager × List Output
  | .message msg =>
    match msg.parse with
    | some msg => onIncomingMessage party msg
    | none => (party, [.error msg])
  | .result msg =>
    match party with
    | some s =>
      let performed := s.perform (.incomingResponse msg.type)
      (some performed.1, performed.2)
    | none => (none, [])
  | .error msg =>
    match party with
    | some s =>
      let performed := s.perform (.failedSend msg.type (.error (some "modify")))
      (some performed.1, performed.2)
    | none => (none, [])

def isAck : Output → Bool
  | .result msg => msg.type = .sessionInitiate
  | _ => false

def ackOf : Output → Option SessionMessage
  | .result msg => if msg.type = .sessionInitiate then some msg else none
  | _ => none

def isEnd : Output → Bool
  | .message msg => msg.type = .sessionReject ∨ msg.type = .sessionTerminate
  | _ => false

variable (s : SessionPair)

def calleeSends (outputs : List Output) : SessionPair :=
  { s with
    toCaller := s.toCaller ++ outputs.filter fun o => !isAck o
    acks := s.acks ++ outputs.filterMap ackOf }

def callerSends (outputs : List Output) : SessionPair := { s with toCallee := s.toCallee ++ outputs }

inductive PairEvent
  | caller (e : Local)
  | callee (e : Local)
  | deliverToCallee
  | deliverToCaller
  | acknowledge
  deriving DecidableEq, Repr

/-- The callee does not initiate. -/
def step (s : SessionPair) : PairEvent → SessionPair
  | .caller e =>
    let performed := s.caller.perform e.event
    { s with caller := performed.1 }.callerSends performed.2
  | .callee (.call (.initiate _ _ _)) => s
  | .callee e =>
    match s.callee with
    | some callee =>
      let performed := callee.perform e.event
      { s with callee := some performed.1 }.calleeSends performed.2
    | none => s
  | .deliverToCallee =>
    match s.toCallee with
    | [] => s
    | o :: rest =>
      let received := receive s.callee o
      { s with
        callee := received.1
        toCallee := rest
        callerEnd := s.callerEnd || isEnd o }.calleeSends received.2
  | .deliverToCaller =>
    match s.toCaller with
    | [] => s
    | o :: rest =>
      let received := receive (some s.caller) o
      { s with
        caller := received.1.getD s.caller
        toCaller := rest
        calleeEnd := s.calleeEnd || isEnd o }.callerSends received.2
  | .acknowledge =>
    match s.acks with
    | [] => s
    | msg :: rest =>
      let performed := s.caller.perform (.incomingResponse msg.type)
      { s with caller := performed.1, acks := rest }.callerSends performed.2

def run (s : SessionPair) (events : List PairEvent) : SessionPair := events.foldl step s

/-- After a message of the callee that asks for a state, the caller has that state. -/
def Agrees (s : SessionPair) : PairEvent → Prop
  | .deliverToCaller => ∀ msg rest state, s.toCaller = .message msg :: rest →
    msg.asksFor = some state → (s.step .deliverToCaller).caller.session.state = state
  | _ => True

/-- The caller still has its session, an accept finds it waiting for an answer and can be
read, and a reject is not one of Gingle. -/
def Heard (s : SessionPair) : PairEvent → Prop
  | .deliverToCaller => ∀ msg rest, s.toCaller = .message msg :: rest →
    match msg.type with
    | .sessionAccept => s.caller.mapped ∧ s.caller.session.checkSentInitiate ∧ msg.readable
    | .sessionReject => s.caller.mapped ∧ msg.protocol ≠ .gingle
    | .sessionTerminate => s.caller.mapped
    | _ => True
  | _ => True

/-- No party is in progress while a reject or terminate of the other was delivered. -/
def InStep (s : SessionPair) : Prop :=
  (s.calleeEnd = true → s.caller.session.state ≠ .inProgress) ∧
    (s.callerEnd = true → ∀ callee, s.callee = some callee → callee.session.state ≠ .inProgress)

end SessionPair

namespace Session

def finish (handled : Session × List Output) : Session × List Output :=
  let second := handled.1.resume
  let third := second.1.resume
  (third.1, handled.2 ++ second.2 ++ third.2)

theorem finish_done {handled : Session × List Output} (h : handled.1.rest = .done) :
    finish handled = handled := by
  have hresume : handled.1.resume = (handled.1, []) := by rw [resume, h]
  simp only [finish, hresume, List.append_nil]

variable {s : Session} {msg : SessionMessage}

def Answers (msg : SessionMessage) (outputs : List Output) : Prop :=
  ∀ o ∈ outputs, o = .result msg ∨ o = .error msg

theorem answers_answer (valid : Bool) : Answers msg [answer valid msg] := by
  intro o ho
  rw [List.mem_singleton.mp ho, answer]
  cases valid
  · exact .inr rfl
  · exact .inl rfl

structure Handled (msg : SessionMessage) (handled : Session × List Output) (state : State) :
    Prop where
  state : handled.1.state = state
  rest : handled.1.rest = .done
  answers : Answers msg handled.2

theorem handled_answer (hrest : s.rest = .done) (valid : Bool) :
    Handled msg (finish (s, [answer valid msg])) s.state := by
  rw [finish_done (by exact hrest)]
  exact ⟨rfl, hrest, answers_answer valid⟩

theorem finish_takingCandidates (h : s.rest = .takingCandidates msg) :
    Handled msg (finish (s, [])) s.state := by
  have hresume : s.resume = ({ s with rest := .done }, [s.takeCandidates msg]) := by
    rw [resume, h]
  have hfinish : finish (s, []) = ({ s with rest := .done }, [s.takeCandidates msg]) := by
    simp only [finish, hresume, List.nil_append]
    rfl
  rw [hfinish]
  exact ⟨rfl, rfl, answers_answer _⟩

theorem finish_accepting (h : s.rest = .accepting msg) :
    Handled msg (finish (s, [])) .receivedAccept := by
  by_cases hstate : s.state = .receivedAccept
  · have hresume : s.resume = ({ s with rest := .done }, [s.takeCandidates msg]) := by
      rw [resume, h]
      exact if_pos hstate
    have hfinish : finish (s, []) = ({ s with rest := .done }, [s.takeCandidates msg]) := by
      simp only [finish, hresume, List.nil_append]
      rfl
    rw [hfinish]
    exact ⟨hstate, rfl, answers_answer _⟩
  · have hresume : s.resume =
        ({ s.setState .receivedAccept with rest := .takingCandidates msg }, []) := by
      rw [resume, h]
      exact if_neg hstate
    have hfinish : finish (s, []) = ({ s.setState .receivedAccept with rest := .done },
        [(s.setState .receivedAccept).takeCandidates msg]) := by
      simp only [finish, hresume, List.nil_append]
      rfl
    rw [hfinish]
    exact ⟨state_setState _, rfl, answers_answer _⟩

theorem finish_terminating (h : s.rest = .terminating msg) :
    Handled msg (finish (s, [])) (terminateState msg.reason) := by
  by_cases hstate : s.state = terminateState msg.reason
  · have hresume : s.resume = ({ s with rest := .done }, [answer true msg]) := by
      rw [resume, h]
      exact if_pos hstate
    have hfinish : finish (s, []) = ({ s with rest := .done }, [answer true msg]) := by
      simp only [finish, hresume, List.nil_append]
      rfl
    rw [hfinish]
    exact ⟨hstate, rfl, answers_answer _⟩
  · have hresume : s.resume =
        ({ s.setState (terminateState msg.reason) with rest := .acknowledging msg }, []) := by
      rw [resume, h]
      exact if_neg hstate
    have hfinish : finish (s, []) =
        ({ s.setState (terminateState msg.reason) with rest := .done }, [answer true msg]) := by
      simp only [finish, hresume, List.nil_append]
      rfl
    rw [hfinish]
    exact ⟨state_setState _, rfl, answers_answer _⟩

theorem handled_onInitiateMessage (msg : SessionMessage) (hrest : s.rest = .done) :
    Handled msg (finish (s.onInitiateMessage msg)) s.state ∨
      s.state = .init ∧ Handled msg (finish (s.onInitiateMessage msg)) .receivedInitiate := by
  rw [onInitiateMessage]
  split
  · exact .inl (handled_answer hrest false)
  · rename_i h
    refine .inr ⟨not_not.mp (not_or.mp h).1, ?_⟩
    have hfinish := finish_takingCandidates
      (s := { s.setState .receivedInitiate with rest := .takingCandidates msg }) rfl
    exact ⟨hfinish.state.trans (state_setState _), hfinish.rest, hfinish.answers⟩

theorem handled_onAcceptMessage (msg : SessionMessage) (hrest : s.rest = .done) :
    Handled msg (finish (s.onAcceptMessage msg))
      (if s.checkSentInitiate = true ∧ msg.readable = true then .receivedAccept else s.state) := by
  rw [onAcceptMessage]
  split
  · rename_i h
    have hcond : ¬ (s.checkSentInitiate = true ∧ msg.readable = true) := by
      rintro ⟨hcheck, hreadable⟩
      rcases h with h | h
      · exact absurd (hcheck.symm.trans h) (by decide)
      · exact absurd (hreadable.symm.trans h) (by decide)
    rw [if_neg hcond]
    exact handled_answer hrest false
  · rename_i h
    have hcond : s.checkSentInitiate = true ∧ msg.readable = true :=
      (not_or.mp h).imp (Bool.not_eq_false _).mp (Bool.not_eq_false _).mp
    rw [if_pos hcond]
    dsimp only
    split
    · have hwaiting : ¬ s.onInitiateAcked.state = .receivedAccept := by
        rw [state_onInitiateAcked]
        decide
      have hresume : Session.resume { s.onInitiateAcked with rest := .accepting msg } =
          ({ Session.setState { s.onInitiateAcked with rest := .accepting msg } .receivedAccept with
            rest := .takingCandidates msg }, []) := if_neg hwaiting
      rw [hresume]
      have hfinish := finish_takingCandidates (s := {
        Session.setState { s.onInitiateAcked with rest := .accepting msg } .receivedAccept with
          rest := .takingCandidates msg }) rfl
      exact ⟨hfinish.state.trans (state_setState _), hfinish.rest, hfinish.answers⟩
    · exact finish_accepting rfl

theorem handled_onTerminateMessage :
    Handled msg (finish (s.onTerminateMessage msg)) (terminateState msg.reason) :=
  finish_terminating rfl

theorem handled_dispatch {σ : Session} (msg : SessionMessage) (hstate : σ.state = s.state)
    (hσ : σ.rest = .done) : ∃ state, Handled msg (finish (match msg.type with
        | .sessionInitiate => σ.onInitiateMessage msg
        | .sessionInfo => (σ, [answer true msg])
        | .sessionAccept => σ.onAcceptMessage msg
        | .sessionReject => σ.onRejectMessage msg
        | .sessionTerminate => σ.onTerminateMessage msg
        | .transportInfo => (σ, [answer (msg.readable && msg.usable) msg])
        | .transportAccept => (σ, [answer true msg])
        | .descriptionInfo =>
          (σ, [answer (decide (σ.state = .inProgress) && msg.readable) msg]))) state ∧
      match msg.type with
      | .sessionInitiate => state = s.state ∨ s.state = .init ∧ state = .receivedInitiate
      | .sessionAccept =>
        state = if s.checkSentInitiate = true ∧ msg.readable = true then .receivedAccept else s.state
      | .sessionTerminate => state = terminateState msg.reason
      | _ => state = s.state := by
  cases msg.type with
  | sessionInitiate =>
    rcases handled_onInitiateMessage msg hσ with h | ⟨hinit, h⟩
    · exact ⟨_, h, .inl hstate⟩
    · exact ⟨_, h, .inr ⟨hstate.symm.trans hinit, rfl⟩⟩
  | sessionAccept =>
    have hcheck : σ.checkSentInitiate = s.checkSentInitiate := by
      rw [checkSentInitiate, checkSentInitiate, hstate]
    have h := handled_onAcceptMessage msg hσ
    rw [hcheck, hstate] at h
    exact ⟨_, h, rfl⟩
  | sessionTerminate => exact ⟨_, handled_onTerminateMessage, rfl⟩
  | sessionInfo | sessionReject | transportInfo | transportAccept | descriptionInfo =>
    exact ⟨_, handled_answer hσ _, hstate⟩

theorem handled_onIncomingMessage (hrest : s.rest = .done) (msg : SessionMessage) :
    ∃ state, Handled msg (finish (s.onIncomingMessage msg)) state ∧
      match msg.type with
      | .sessionInitiate => state = s.state ∨ s.state = .init ∧ state = .receivedInitiate
      | .sessionAccept =>
        state = if s.checkSentInitiate = true ∧ msg.readable = true then .receivedAccept else s.state
      | .sessionTerminate => state = terminateState msg.reason
      | _ => state = s.state := by
  rw [onIncomingMessage]
  refine handled_dispatch msg ?_ ?_
  · split <;> rfl
  · split <;> exact hrest

/-- A message that asks for no state, or an answer to one. -/
def Quiet : Output → Prop
  | .message msg => msg.type ≠ .sessionInitiate ∧ msg.asksFor = none
  | .result msg => msg.type ≠ .sessionInitiate
  | .error _ => True

inductive Change (initiating : Prop) : State → State → List Output → Prop
  | quiet (state : State) (outputs : List Output) (h : ∀ o ∈ outputs, Quiet o) :
    Change initiating state state outputs
  | initiates (msg : SessionMessage) (h : msg.type = .sessionInitiate) (hinitiating : initiating) :
    Change initiating .init .sentInitiate [.message msg]
  | accepts (msg : SessionMessage) (h : msg.type = .sessionAccept) :
    Change initiating .receivedInitiate .sentAccept [.message msg]
  | rejects (before after : State) (msg : SessionMessage) (h : msg.type = .sessionReject)
    (hbefore : before = .receivedInitiate ∨ before = .receivedModify)
    (hafter : after = .sentBusy ∨ after = .sentReject) :
    Change initiating before after [.message msg]
  | terminates (before : State) (msg : SessionMessage) (h : msg.type = .sessionTerminate)
    (hbefore : ¬ before.Ended) : Change initiating before .sentTerminate [.message msg]
  | progresses (before : State) (h : before = .sentAccept ∨ before = .receivedAccept) :
    Change initiating before .inProgress []

variable {p : Prop}

theorem Change.same (state : State) : Change p state state [] :=
  .quiet state [] fun _ h => absurd h List.not_mem_nil

theorem Change.of_eq {a b c : State} {outputs : List Output} (h : Change p a b outputs)
    (hc : c = a) : Change p c b outputs := hc ▸ h

theorem change_initiate (hp : p) (written readable usable : Bool) :
    Change p s.state (s.initiate written readable usable).1.state
      (s.initiate written readable usable).2.2 := by
  rw [initiate]
  split
  · exact .same _
  · rename_i hinit
    have hstate := not_not.mp hinit
    dsimp only
    split
    · rw [show (s.clear .initAckTimeout).state = s.state from state_clear _]
      exact .same _
    · refine Change.of_eq ?_ hstate
      rw [state_setState]
      exact .initiates _ rfl hp

theorem change_accept (written readable usable : Bool) :
    Change p s.state (s.accept written readable usable).1.state
      (s.accept written readable usable).2.2 := by
  rw [accept]
  split
  · exact .same _
  · rename_i hstate
    split
    · exact .same _
    · refine Change.of_eq ?_ (not_not.mp hstate)
      rw [state_setState]
      exact .accepts _ rfl

theorem change_reject (reason : String) :
    Change p s.state (s.reject reason).1.state (s.reject reason).2.2 := by
  rw [reject]
  split
  · exact .same _
  · rename_i hstate
    rw [state_setState]
    refine .rejects _ _ _ rfl ?_ ?_
    · by_cases h : s.state = .receivedInitiate
      · exact .inl h
      · exact .inr (not_not.mp fun h' => hstate ⟨h, h'⟩)
    · split
      · exact .inl rfl
      · exact .inr rfl

theorem change_terminate (reason : String) :
    Change p s.state (s.terminateWithReason reason).1.state (s.terminateWithReason reason).2.2 := by
  rw [terminateWithReason]
  split
  case h_7 h₁ h₂ h₃ h₄ h₅ h₆ =>
    rw [state_setState]
    refine .terminates _ _ rfl ?_
    cases hs : s.state <;> first | exact id | contradiction
  all_goals exact .same _

theorem change_call (c : Call) : Change (∃ written readable usable, c = .initiate written readable usable)
    s.state (s.call c).1.state (s.call c).2.2 := by
  cases c with
  | initiate written readable usable => exact change_initiate ⟨_, _, _, rfl⟩ written readable usable
  | accept written readable usable => exact change_accept written readable usable
  | reject reason => exact change_reject reason
  | terminate reason => exact change_terminate reason
  | sendInfo info =>
    have hquiet : ∀ msg : SessionMessage, msg.type ≠ .sessionInitiate → msg.asksFor = none →
        ∀ o ∈ [Output.message msg], Quiet o := fun msg htype hasks o ho => by
      rw [List.mem_singleton.mp ho]
      exact ⟨htype, hasks⟩
    cases info <;> exact .quiet _ _ (hquiet _ nofun rfl)

theorem change_setError (error : Error) : (s.setError error).state = s.state := by
  rw [setError]
  split <;> rfl

theorem change_onMessage (id : MessageId) :
    Change p s.state (s.onMessage id).1.state (s.onMessage id).2.2 := by
  cases id with
  | timeout | initAckTimeout =>
    rw [onMessage]
    dsimp only
    rw [change_setError]
    exact .same _
  | error => exact change_terminate terminateError
  | state =>
    rw [onMessage]
    split
    case h_1 hs =>
      rw [state_setState]
      exact .progresses _ (.inl hs)
    case h_2 hs =>
      rw [state_setState]
      exact .progresses _ (.inr hs)
    all_goals exact .same _

/-- What a handler has left that changes no state. -/
def Settling (s : Session) : Prop := s.rest = .done ∨ s.rest = .failing

theorem settling_setError (hrest : s.rest = .done) (error : Error) :
    (s.setError error).Settling := by
  rw [setError]
  split
  · exact .inr rfl
  · exact .inl hrest

theorem rest_setState (state : State) : (s.setState state).rest = s.rest := by
  rw [setState]
  split <;> rfl

theorem rest_clear (id : MessageId) : (s.clear id).rest = s.rest := by
  cases id <;> rfl

theorem settling_terminate (hrest : s.rest = .done) (reason : String) :
    (s.terminateWithReason reason).1.Settling := by
  rw [terminateWithReason]
  split
  case h_7 => exact .inl ((rest_setState _).trans hrest)
  all_goals exact .inl hrest

theorem settling_call (hrest : s.rest = .done) (c : Call) : (s.call c).1.Settling := by
  cases c with
  | initiate written readable usable =>
    have hclear : (s.clear .initAckTimeout).rest = .done := (rest_clear _).trans hrest
    rw [call, initiate]
    split
    · exact .inl hrest
    · dsimp only
      split
      · exact .inl hclear
      · exact .inl ((rest_setState _).trans hclear)
  | accept written readable usable =>
    rw [call, accept]
    split
    · exact .inl hrest
    · split
      · exact .inl hrest
      · exact .inl ((rest_setState _).trans hrest)
  | reject reason =>
    rw [call, reject]
    split
    · exact .inl hrest
    · exact .inl ((rest_setState _).trans hrest)
  | terminate reason => exact settling_terminate hrest reason
  | sendInfo info => cases info <;> exact .inl hrest

theorem settling_onMessage (hrest : s.rest = .done) (id : MessageId) :
    (s.onMessage id).1.Settling := by
  cases id with
  | timeout | initAckTimeout => exact settling_setError hrest _
  | error => exact settling_terminate hrest _
  | state =>
    rw [onMessage]
    split
    case h_1 | h_2 => exact .inl ((rest_setState _).trans hrest)
    all_goals exact .inl hrest

theorem settling_onFailedSend (hrest : s.rest = .done) (type : ActionType)
    (errorType : Option String) :
    (s.onFailedSend type (.error errorType)).1.Settling ∧
      (s.onFailedSend type (.error errorType)).1.state = s.state ∧
      (s.onFailedSend type (.error errorType)).2 = [] := by
  cases errorType with
  | none => exact ⟨.inl hrest, rfl, rfl⟩
  | some errorType =>
    rw [onFailedSend]
    split
    · exact ⟨.inl hrest, rfl, rfl⟩
    · split
      · exact ⟨settling_setError hrest _, change_setError _, rfl⟩
      · exact ⟨.inl hrest, rfl, rfl⟩

theorem resume_settling (h : s.Settling) :
    s.resume.1.state = s.state ∧ s.resume.1.rest = .done ∧ s.resume.2 = [] := by
  rcases h with h | h <;> rw [resume, h] <;> exact ⟨rfl, by first | exact h | rfl, rfl⟩

theorem finish_settling {handled : Session × List Output} (h : handled.1.Settling) :
    (finish handled).1.state = handled.1.state ∧ (finish handled).1.rest = .done ∧
      (finish handled).2 = handled.2 := by
  obtain ⟨hstate, hrest, houtputs⟩ := resume_settling h
  obtain ⟨hstate', hrest', houtputs'⟩ := resume_settling (.inl hrest)
  refine ⟨hstate'.trans hstate, hrest', ?_⟩
  rw [finish]
  dsimp only
  rw [houtputs, houtputs', List.append_nil, List.append_nil]

end Session

namespace SessionManager

variable {s : SessionManager}

theorem perform_of_mapped (hmapped : s.mapped = true) (e : Event) : s.perform e =
    ({ (s.handle e).1 with session := (finish ((s.handle e).1.session, (s.handle e).2)).1 },
      (finish ((s.handle e).1.session, (s.handle e).2)).2) := by
  rw [perform, if_pos hmapped]
  rfl

theorem perform_of_unmapped (hmapped : s.mapped = false) (e : Event) : s.perform e = (s, []) := by
  rw [perform, if_neg (by rw [hmapped]; exact Bool.false_ne_true)]

theorem dispatch_session : ∃ σ : Session, σ.state = s.session.state ∧ σ.rest = s.session.rest ∧
    (s.dispatch.1.session = σ ∧ s.dispatch.2 = [] ∨
      ∃ id, s.dispatch.1.session = (σ.onMessage id).1 ∧ s.dispatch.2 = (σ.onMessage id).2.2) := by
  rw [dispatch]
  cases s.session.queue with
  | nil => exact ⟨s.session, rfl, rfl, .inl ⟨rfl, rfl⟩⟩
  | cons id queue =>
    refine ⟨{ s.session with queue := queue }, rfl, rfl, .inr ⟨id, ?_, rfl⟩⟩
    dsimp only
    split
    · rw [destroySession]
      split <;> rfl
    · rfl

theorem perform_of_settling (hmapped : s.mapped = true) {e : Event}
    (h : (s.handle e).1.session.Settling) :
    (s.perform e).1.session.state = (s.handle e).1.session.state ∧
      (s.perform e).1.session.rest = .done ∧ (s.perform e).1.mapped = (s.handle e).1.mapped ∧
      (s.perform e).2 = (s.handle e).2 := by
  rw [perform_of_mapped hmapped]
  have hfinish : ∀ handled : Session × List Output, handled.1.Settling →
      (finish handled).1.state = handled.1.state ∧ (finish handled).1.rest = .done ∧
        (finish handled).2 = handled.2 := fun _ => finish_settling
  obtain ⟨hstate, hdone, houtputs⟩ := hfinish ((s.handle e).1.session, (s.handle e).2) h
  exact ⟨hstate, hdone, rfl, houtputs⟩

theorem handle_local (hrest : s.session.rest = .done) (e : Local) :
    Change e.Initiates s.session.state (s.handle e.event).1.session.state (s.handle e.event).2 ∧
      (s.handle e.event).1.session.Settling := by
  cases e with
  | call c =>
    have hchange : Change (Local.call c).Initiates s.session.state (s.session.call c).1.state
        (s.session.call c).2.2 := by
      cases c <;> exact change_call _
    exact ⟨hchange, settling_call hrest c⟩
  | transportWritable waits => exact ⟨.same _, .inl hrest⟩
  | timer id =>
    have htimer : (s.session.onTimer id).state = s.session.state ∧
        (s.session.onTimer id).rest = s.session.rest := by
      cases id <;> rw [onTimer] <;> (try split) <;> exact ⟨rfl, rfl⟩
    refine ⟨?_, .inl (htimer.2.trans hrest)⟩
    change Change _ s.session.state (s.session.onTimer id).state []
    rw [htimer.1]
    exact .same _
  | dispatch =>
    change Change _ s.session.state s.dispatch.1.session.state s.dispatch.2 ∧
      s.dispatch.1.session.Settling
    obtain ⟨σ, hstate, hσ, ⟨hsession, houtputs⟩ | ⟨id, hsession, houtputs⟩⟩ :=
      dispatch_session (s := s)
    · rw [hsession, houtputs, ← hstate]
      exact ⟨.same _, .inl (hσ.trans hrest)⟩
    · rw [hsession, houtputs, ← hstate]
      exact ⟨change_onMessage id, settling_onMessage (hσ.trans hrest) id⟩
  | sendTimeout type =>
    obtain ⟨hsettling, hstate, houtputs⟩ := settling_onFailedSend hrest type (some "cancel")
    refine ⟨?_, hsettling⟩
    change Change _ s.session.state (s.session.onFailedSend type _).1.state
      (s.session.onFailedSend type _).2
    rw [hstate, houtputs]
    exact .same _

theorem perform_local (hrest : s.session.rest = .done) (e : Local) :
    Change e.Initiates s.session.state (s.perform e.event).1.session.state (s.perform e.event).2 ∧
      (s.perform e.event).1.session.rest = .done := by
  cases hmapped : s.mapped with
  | false =>
    rw [perform_of_unmapped hmapped]
    exact ⟨.same _, hrest⟩
  | true =>
    obtain ⟨hchange, hsettling⟩ := handle_local hrest e
    obtain ⟨hstate, hdone, -, houtputs⟩ := perform_of_settling hmapped hsettling
    rw [hstate, houtputs]
    exact ⟨hchange, hdone⟩

theorem perform_message (hmapped : s.mapped = true) (msg : SessionMessage) :
    s.perform (.incomingMessage msg) =
      ({ s with session := (finish (s.session.onIncomingMessage msg)).1 },
        (finish (s.session.onIncomingMessage msg)).2) := perform_of_mapped hmapped _

theorem perform_answer (hrest : s.session.rest = .done) (type : ActionType) :
    ((s.perform (.incomingResponse type)).1.session.state = s.session.state ∨
      type = .sessionInitiate ∧ s.mapped = true ∧
        (s.perform (.incomingResponse type)).1.session.state = .receivedInitiateAck) ∧
    (s.perform (.incomingResponse type)).1.session.rest = .done ∧
    (s.perform (.incomingResponse type)).1.mapped = s.mapped ∧
    (s.perform (.incomingResponse type)).2 = [] := by
  cases hmapped : s.mapped with
  | false =>
    rw [perform_of_unmapped hmapped]
    exact ⟨.inl rfl, hrest, hmapped, rfl⟩
  | true =>
    have hacked : s.session.onInitiateAcked.rest = .done :=
      (rest_setState _).trans ((rest_clear _).trans hrest)
    have hsettling : (s.handle (.incomingResponse type)).1.session.Settling := by
      change (s.session.onIncomingResponse type).Settling
      rw [onIncomingResponse]
      split
      · exact .inl hacked
      · exact .inl hrest
    obtain ⟨hstate, hdone, hkept, houtputs⟩ := perform_of_settling hmapped hsettling
    refine ⟨?_, hdone, hkept.trans hmapped, houtputs⟩
    rw [hstate]
    change (s.session.onIncomingResponse type).state = _ ∨
      _ ∧ _ ∧ (s.session.onIncomingResponse type).state = _
    rw [onIncomingResponse]
    split
    · rename_i htype
      exact .inr ⟨htype, rfl, state_onInitiateAcked⟩
    · exact .inl rfl

theorem perform_failedSend (hrest : s.session.rest = .done) (type : ActionType)
    (errorType : Option String) :
    (s.perform (.failedSend type (.error errorType))).1.session.state = s.session.state ∧
    (s.perform (.failedSend type (.error errorType))).1.session.rest = .done ∧
    (s.perform (.failedSend type (.error errorType))).1.mapped = s.mapped ∧
    (s.perform (.failedSend type (.error errorType))).2 = [] := by
  cases hmapped : s.mapped with
  | false =>
    rw [perform_of_unmapped hmapped]
    exact ⟨rfl, hrest, hmapped, rfl⟩
  | true =>
    obtain ⟨hsettling, hsame, hnone⟩ := settling_onFailedSend hrest type errorType
    obtain ⟨hstate, hdone, hkept, houtputs⟩ :=
      perform_of_settling (e := .failedSend type (.error errorType)) hmapped hsettling
    exact ⟨hstate.trans hsame, hdone, hkept.trans hmapped, houtputs.trans hnone⟩

def Buried (s : SessionManager) : Prop := s.mapped = false → s.session.state.Ended

theorem buried_dispatch (hmapped : s.mapped = true) : s.dispatch.1.Buried := by
  rw [dispatch]
  cases s.session.queue with
  | nil => exact fun h => absurd (hmapped.symm.trans h) (by decide)
  | cons id queue =>
    dsimp only
    split
    · rename_i hdestroy
      intro _
      have hended : ∀ σ : Session, (σ.onMessage id).2.1 = true → (σ.onMessage id).1.state.Ended := by
        intro σ h
        by_cases hid : id = .state
        · subst hid
          by_cases hσ : σ.state.Ended
          · rw [onMessage_state_of_ended hσ]
            exact hσ
          · exact absurd ((onMessage_state_of_open hσ).2.2.symm.trans h) (by decide)
        · exact absurd ((moves_onMessage (s := σ) hid).2.symm.trans h) (by decide)
      rw [destroySession, if_pos hmapped]
      exact hended _ hdestroy
    · exact fun h => absurd (hmapped.symm.trans h) (by decide)

theorem buried_local (h : s.Buried) (hrest : s.session.rest = .done) (e : Local) :
    (s.perform e.event).1.Buried := by
  cases hmapped : s.mapped with
  | false =>
    rw [perform_of_unmapped hmapped]
    exact h
  | true =>
    obtain ⟨hstate, -, hkept, -⟩ := perform_of_settling hmapped (handle_local hrest e).2
    rw [Buried, hstate, hkept]
    cases e with
    | dispatch => exact buried_dispatch hmapped
    | call _ | transportWritable _ | timer _ => exact fun h => absurd (hmapped.symm.trans h) (by decide)
    | sendTimeout type => exact fun h => absurd (hmapped.symm.trans h) (by decide)

end SessionManager

namespace SessionMessage

def heardAs (m : SessionMessage) : Option ActionType :=
  match m.protocol, m.type with
  | .gingle, .transportAccept | .gingle, .descriptionInfo => none
  | .gingle, type => some type
  | _, .sessionReject => some .sessionTerminate
  | _, type => some type

theorem parse_eq (m : SessionMessage) :
    m.parse = m.heardAs.map fun type => { m with type := type } := by
  obtain ⟨protocol, type, reason, readable, usable⟩ := m
  cases protocol <;> cases type <;> rfl

theorem parse_eq_some {m m' : SessionMessage} (h : m.parse = some m') :
    m.heardAs = some m'.type ∧ m'.reason = m.reason ∧ m'.readable = m.readable := by
  rw [parse_eq] at h
  obtain ⟨type, htype, rfl⟩ := Option.map_eq_some_iff.mp h
  exact ⟨htype, rfl, rfl⟩

theorem heardAs_eq_initiate {m : SessionMessage} :
    m.heardAs = some .sessionInitiate ↔ m.type = .sessionInitiate := by
  obtain ⟨protocol, type, reason, readable, usable⟩ := m
  cases protocol <;> cases type <;> simp [heardAs]

theorem heardAs_eq_accept {m : SessionMessage} :
    m.heardAs = some .sessionAccept ↔ m.type = .sessionAccept := by
  obtain ⟨protocol, type, reason, readable, usable⟩ := m
  cases protocol <;> cases type <;> simp [heardAs]

theorem heardAs_eq_terminate {m : SessionMessage} : m.heardAs = some .sessionTerminate ↔
    m.type = .sessionTerminate ∨ m.type = .sessionReject ∧ m.protocol ≠ .gingle := by
  obtain ⟨protocol, type, reason, readable, usable⟩ := m
  cases protocol <;> cases type <;> simp [heardAs]

end SessionMessage

namespace SessionPair

structure Ready (s : SessionManager) : Prop where
  rest : s.session.rest = .done
  buried : s.Buried

def isInitiate : Output → Bool
  | .message msg => msg.type = .sessionInitiate
  | _ => false

def isAccept : Output → Bool
  | .message msg => msg.type = .sessionAccept
  | _ => false

def isReject : Output → Bool
  | .message msg => msg.type = .sessionReject
  | _ => false

/-- How a stanza that is no initiate may change the state of the party that gets it. -/
inductive Heeds : Output → State → State → Prop
  | same (o : Output) (state : State) (h : isEnd o → ¬ isReject o → state.Ended) :
    Heeds o state state
  | accept (o : Output) (state : State) (h : isAccept o) : Heeds o state .receivedAccept
  | terminate (o : Output) (state : State) (reason : String) (h : isEnd o) :
    Heeds o state (terminateState reason)
  | ack (o : Output) (state : State) (h : isAck o) : Heeds o state .receivedInitiateAck

theorem quiet_answers {msg : SessionMessage} {outputs : List Output} (h : Answers msg outputs)
    (htype : msg.type ≠ .sessionInitiate) : ∀ o ∈ outputs, Quiet o := by
  intro o ho
  rcases h o ho with rfl | rfl
  · exact htype
  · trivial

theorem not_isInitiate {o : Output} (h : Quiet o) : isInitiate o = false := by
  cases o with
  | message msg => exact decide_eq_false h.1
  | result | error => rfl

theorem asksFor_isSome {msg : SessionMessage} (h : msg.type = .sessionAccept ∨
    msg.type = .sessionReject ∨ msg.type = .sessionTerminate) : msg.asksFor ≠ none := by
  rw [SessionMessage.asksFor]
  rcases h with h | h | h <;> rw [h]
  · exact nofun
  · dsimp only
    split
    · exact nofun
    · split <;> exact nofun
  · exact nofun

theorem not_isAccept {o : Output} (h : Quiet o) : isAccept o = false := by
  cases o with
  | message msg => exact decide_eq_false fun htype => asksFor_isSome (.inl htype) h.2
  | result | error => rfl

theorem not_isEnd {o : Output} (h : Quiet o) : isEnd o = false := by
  cases o with
  | message msg => exact decide_eq_false fun htype => asksFor_isSome (.inr htype) h.2
  | result | error => rfl

theorem not_isAck {o : Output} (h : Quiet o) : isAck o = false := by
  cases o with
  | result msg => exact decide_eq_false h
  | message | error => rfl

theorem isEnd_of_isReject {o : Output} (h : isReject o = true) : isEnd o = true := by
  cases o with
  | message msg => exact decide_eq_true (.inl (of_decide_eq_true h))
  | result | error => exact absurd h Bool.false_ne_true

variable {party : SessionManager}

theorem onIncomingMessage_some (h : Ready party) {msg msg' : SessionMessage}
    (hparse : msg.parse = some msg') (hinitiate : isInitiate (.message msg) = false) :
    ∃ after outputs, onIncomingMessage (some party) msg' = (some after, outputs) ∧ Ready after ∧
      Heeds (.message msg) party.session.state after.session.state ∧ ∀ o ∈ outputs, Quiet o := by
  obtain ⟨hheard, hreason, -⟩ := SessionMessage.parse_eq_some hparse
  have htype : msg'.type ≠ .sessionInitiate := by
    intro htype
    rw [htype, SessionMessage.heardAs_eq_initiate] at hheard
    exact absurd hheard (of_decide_eq_false hinitiate)
  rw [onIncomingMessage]
  dsimp only
  split
  · rename_i hmapped
    rw [SessionManager.perform_message hmapped]
    obtain ⟨state, ⟨hstate, hrest, hanswers⟩, hcases⟩ := handled_onIncomingMessage h.rest msg'
    refine ⟨_, _, rfl, ⟨hrest, ?_⟩, ?_, quiet_answers hanswers htype⟩
    · exact fun hunmapped => absurd (hmapped.symm.trans hunmapped) (by decide)
    · rw [show (finish (party.session.onIncomingMessage msg')).1.state = state from hstate]
      have hsame : msg'.type ≠ .sessionTerminate →
          Heeds (.message msg) party.session.state party.session.state := by
        refine fun hterminate => .same _ _ fun hend hreject => absurd ?_ hterminate
        have hmsg : msg.type = .sessionTerminate :=
          (of_decide_eq_true hend).resolve_left fun h => hreject (decide_eq_true h)
        exact Option.some.inj (hheard.symm.trans (SessionMessage.heardAs_eq_terminate.mpr (.inl hmsg)))
      cases htype' : msg'.type with
      | sessionInitiate => exact absurd htype' htype
      | sessionAccept =>
        rw [htype'] at hcases hheard
        dsimp only at hcases
        split at hcases
        · rw [hcases]
          exact .accept _ _ (decide_eq_true (SessionMessage.heardAs_eq_accept.mp hheard))
        · rw [hcases]
          exact hsame (by rw [htype']; exact nofun)
      | sessionTerminate =>
        rw [htype'] at hcases hheard
        dsimp only at hcases
        rw [hcases]
        refine .terminate _ _ _ (decide_eq_true ?_)
        exact (SessionMessage.heardAs_eq_terminate.mp hheard).symm.imp And.left id
      | sessionInfo | sessionReject | transportInfo | transportAccept | descriptionInfo =>
        rw [htype'] at hcases
        dsimp only at hcases
        rw [hcases]
        exact hsame (by rw [htype']; exact nofun)
  · rename_i hmapped
    refine ⟨party, [.error msg'], rfl, h, .same _ _ fun _ _ => ?_, fun o ho => ?_⟩
    · exact h.buried ((Bool.not_eq_true _).mp hmapped)
    · rw [List.mem_singleton.mp ho]
      trivial

theorem receive_some (h : Ready party) {o : Output} (ho : isInitiate o = false) :
    ∃ after outputs, receive (some party) o = (some after, outputs) ∧ Ready after ∧
      Heeds o party.session.state after.session.state ∧ ∀ o ∈ outputs, Quiet o := by
  have hnil : ∀ o ∈ ([] : List Output), Quiet o := fun _ ho => absurd ho List.not_mem_nil
  cases o with
  | message msg =>
    rw [receive]
    cases hparse : msg.parse with
    | some msg' => exact onIncomingMessage_some h hparse ho
    | none =>
      refine ⟨party, [.error msg], rfl, h, .same _ _ fun hend hreject => ?_, fun o ho => ?_⟩
      · have hmsg : msg.type = .sessionTerminate :=
          (of_decide_eq_true hend).resolve_left fun h => hreject (decide_eq_true h)
        rw [SessionMessage.parse_eq,
          SessionMessage.heardAs_eq_terminate.mpr (.inl hmsg)] at hparse
        cases hparse
      · rw [List.mem_singleton.mp ho]
        trivial
  | result msg =>
    obtain ⟨hstate, hrest, hkept, houtputs⟩ := SessionManager.perform_answer h.rest msg.type
    refine ⟨_, _, rfl, ⟨hrest, fun hmapped => ?_⟩, ?_, houtputs ▸ hnil⟩
    · have hunmapped := hkept.symm.trans hmapped
      rcases hstate with hstate | ⟨-, hmapped', -⟩
      · rw [hstate]
        exact h.buried hunmapped
      · exact absurd (hmapped'.symm.trans hunmapped) (by decide)
    · rcases hstate with hstate | ⟨htype, -, hstate⟩
      · rw [hstate]
        exact .same _ _ fun hend => absurd hend Bool.false_ne_true
      · rw [hstate]
        exact .ack _ _ (decide_eq_true htype)
  | error msg =>
    obtain ⟨hstate, hrest, hkept, houtputs⟩ :=
      SessionManager.perform_failedSend h.rest msg.type (some "modify")
    refine ⟨_, _, rfl, ⟨hrest, fun hmapped => ?_⟩, ?_, houtputs ▸ hnil⟩
    · rw [hstate]
      exact h.buried (hkept.symm.trans hmapped)
    · rw [hstate]
      exact .same _ _ fun hend => absurd hend Bool.false_ne_true

theorem receive_none {o : Output} (ho : isInitiate o = false) :
    ∃ outputs, receive none o = (none, outputs) ∧ ∀ o ∈ outputs, Quiet o := by
  have hnil : ∀ o ∈ ([] : List Output), Quiet o := fun _ ho => absurd ho List.not_mem_nil
  have herror : ∀ msg, ∀ o ∈ [Output.error msg], Quiet o := fun msg o ho => by
    rw [List.mem_singleton.mp ho]
    trivial
  cases o with
  | message msg =>
    rw [receive]
    cases hparse : msg.parse with
    | some msg' =>
      have htype : msg'.type ≠ .sessionInitiate := by
        intro htype
        obtain ⟨hheard, -⟩ := SessionMessage.parse_eq_some hparse
        rw [htype, SessionMessage.heardAs_eq_initiate] at hheard
        exact absurd hheard (of_decide_eq_false ho)
      exact ⟨_, if_neg htype, herror msg'⟩
    | none => exact ⟨_, rfl, herror msg⟩
  | result msg => exact ⟨_, rfl, hnil⟩
  | error msg => exact ⟨_, rfl, hnil⟩

theorem ready_create (protocol : SignalingProtocol) : Ready (.create protocol) where
  rest := rfl
  buried h := (nomatch h)

theorem receive_initiate {o : Output} (ho : isInitiate o = true) :
    ∃ after outputs, receive none o = (some after, outputs) ∧ Ready after ∧
      (after.session.state = .init ∨ after.session.state = .receivedInitiate) ∧
      ∀ o ∈ outputs, isAck o = false → Quiet o := by
  cases o with
  | message msg =>
    have hheard := SessionMessage.heardAs_eq_initiate.mpr (of_decide_eq_true ho)
    have hparse : msg.parse = some { msg with type := .sessionInitiate } := by
      rw [SessionMessage.parse_eq, hheard, Option.map_some]
    have hmapped : (SessionManager.create .hybrid).mapped = true := rfl
    obtain ⟨state, ⟨hstate, hrest, hanswers⟩, hcases⟩ := handled_onIncomingMessage
      (s := (SessionManager.create .hybrid).session) rfl { msg with type := .sessionInitiate }
    have hperform := SessionManager.perform_message hmapped { msg with type := .sessionInitiate }
    have hreceive : receive none (.message msg) =
        (some ((SessionManager.create .hybrid).perform
          (.incomingMessage { msg with type := .sessionInitiate })).1,
          ((SessionManager.create .hybrid).perform
            (.incomingMessage { msg with type := .sessionInitiate })).2) := by
      rw [receive, hparse]
      dsimp only
      rw [onIncomingMessage, if_pos rfl]
    rw [hperform] at hreceive
    refine ⟨_, _, hreceive, ⟨hrest, fun h => (nomatch h)⟩, ?_, fun o ho hack => ?_⟩
    · rw [← hstate] at hcases
      exact hcases.imp id And.right
    · rcases hanswers o ho with rfl | rfl
      · have hinitiate : isAck (.result { msg with type := .sessionInitiate }) = true := by
          rw [isAck]
          exact decide_eq_true rfl
        exact absurd (hinitiate.symm.trans hack) (by decide)
      · trivial
  | result msg => exact absurd ho Bool.false_ne_true
  | error msg => exact absurd ho Bool.false_ne_true

end SessionPair

end Libjingle
