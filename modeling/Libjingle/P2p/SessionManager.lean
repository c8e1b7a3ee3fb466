import Libjingle.Lib.Runs
import Libjingle.P2p.Session

/-! `SessionManager` and one of its sessions: what can happen to the session, in any
order, until the manager destroys it. -/

namespace Libjingle

/-- A session, whether the manager has it in its map, and how often it was destroyed. -/
structure SessionManager where
  session : Session
  mapped : Bool := true
  destroys : Nat := 0
  deriving DecidableEq, Repr

namespace Session

/-- Calls can come at any time, also from a listener while a handler waits. The thread
handles everything else when no handler is running. -/
inductive Event
  | call (call : Call)
  | incomingMessage (msg : SessionMessage)
  | incomingResponse (type : ActionType)
  | failedSend (type : ActionType) (failure : Failure)
  | transportWritable (waits : Bool)
  | timer (id : MessageId)
  | dispatch
  | resume
  deriving DecidableEq, Repr

namespace State

def Accepted : State → Prop
  | .sentAccept | .receivedAccept | .inProgress => True
  | _ => False

/-- A state before an answer to the initiate. -/
def Early : State → Prop
  | .init | .sentInitiate | .receivedInitiate | .receivedInitiateAck => True
  | _ => False

def Ended : State → Prop
  | .sentBusy | .sentReject | .receivedBusy | .receivedReject | .sentTerminate
  | .receivedTerminate => True
  | _ => False

instance : DecidablePred Accepted := fun state => by
  cases state <;> first | exact isTrue trivial | exact isFalse id

instance : DecidablePred Early := fun state => by
  cases state <;> first | exact isTrue trivial | exact isFalse id

instance : DecidablePred Ended := fun state => by
  cases state <;> first | exact isTrue trivial | exact isFalse id

end State

/-- A handler does not go on to accept or terminate a session that has ended in another
state. -/
def ResumeOrderly (s : Session) : Prop :=
  match s.rest with
  | .accepting _ => ¬ s.state.Ended
  | .terminating msg => s.state.Ended → s.state = terminateState msg.reason
  | _ => True

end Session

namespace SessionManager

open Session

def create (protocol : SignalingProtocol) : SessionManager where
  session := { protocol := protocol }

variable (s : SessionManager)

/-- `DestroySession`: a session that is deleted gets no more messages. -/
def destroySession : SessionManager :=
  if s.mapped then { s with mapped := false, destroys := s.destroys + 1 } else s

/-- The thread takes the message that was posted first. -/
def dispatch : SessionManager × List Output :=
  match s.session.queue with
  | [] => (s, [])
  | id :: queue =>
    let handled := { s.session with queue := queue }.onMessage id
    let s := { s with session := handled.1 }
    (if handled.2.1 then s.destroySession else s, handled.2.2)

def withHandled (handled : Session × List Output) : SessionManager × List Output :=
  ({ s with session := handled.1 }, handled.2)

/-- What happens when no handler is running. -/
def handle : Event → SessionManager × List Output
  | .call call =>
    let called := s.session.call call
    ({ s with session := called.1 }, called.2.2)
  | .incomingMessage msg => s.withHandled (s.session.onIncomingMessage msg)
  | .incomingResponse type => ({ s with session := s.session.onIncomingResponse type }, [])
  | .failedSend type failure => s.withHandled (s.session.onFailedSend type failure)
  | .transportWritable waits => ({ s with session := s.session.onTransportWritable waits }, [])
  | .timer id => ({ s with session := s.session.onTimer id }, [])
  | .dispatch => s.dispatch
  | .resume => s.withHandled s.session.resume

def Enabled (e : Event) : Bool :=
  s.mapped && match e with
    | .call _ | .resume => true
    | _ => decide (s.session.rest = .done)

def step (s : SessionManager) (e : Event) : SessionManager := if s.Enabled e then (s.handle e).1 else s

def run (s : SessionManager) (events : List Event) : SessionManager := events.foldl step s

def Idle : Prop := s.mapped = false ∨ (s.session.queue = [] ∧ s.session.rest = .done)

/-- What is claimed of a state and a later one: an accepted session does not fall back,
a session that has ended stays as it is, and it is destroyed once. -/
structure Settled (s t : SessionManager) : Prop where
  accepted : s.session.state.Accepted → ¬ t.session.state.Early
  ended : s.session.state.Ended → t.session.state = s.session.state
  destroyed : s.session.state.Ended → t.Idle → t.destroys = 1
  once : t.destroys ≤ 1

def NeverBack (events : List Event) : Prop :=
  ∀ before between after, events = before ++ (between ++ after) →
    Settled (s.run before) (s.run (before ++ between))

/-- The initiate is not acknowledged when the session was accepted or has ended, and
handlers go on in order. -/
def Orderly (s : SessionManager) (e : Event) : Prop :=
  s.Enabled e → match e with
    | .incomingResponse .sessionInitiate =>
      ¬ s.session.state.Accepted ∧ ¬ s.session.state.Ended
    | .resume => s.session.ResumeOrderly
    | _ => True

end SessionManager

namespace Session

def Lawful (a b : State) : Prop := (a.Ended → b = a) ∧ (a.Accepted → b.Accepted ∨ b.Ended)

def Pending (σ : Session) : Prop := σ.state.Ended → .state ∈ σ.queue

structure Moves (σ τ : Session) : Prop where
  lawful : Lawful σ.state τ.state
  pending : σ.Pending → τ.Pending

theorem Lawful.refl (a : State) : Lawful a a := ⟨fun _ => rfl, fun h => .inl h⟩

theorem Lawful.trans {a b c : State} (h : Lawful a b) (h' : Lawful b c) : Lawful a c := by
  refine ⟨fun ha => ?_, fun ha => ?_⟩
  · have hb := h.1 ha
    rw [h'.1 (hb ▸ ha), hb]
  · rcases h.2 ha with hb | hb
    · exact h'.2 hb
    · exact .inr (h'.1 hb ▸ hb)

theorem Moves.trans {σ τ υ : Session} (h : Moves σ τ) (h' : Moves τ υ) : Moves σ υ :=
  ⟨h.lawful.trans h'.lawful, fun hσ => h'.pending (h.pending hσ)⟩

theorem Moves.of_same {σ τ : Session} (hstate : τ.state = σ.state)
    (hqueue : MessageId.state ∈ σ.queue → MessageId.state ∈ τ.queue) : Moves σ τ where
  lawful := by
    rw [hstate]
    exact .refl _
  pending hσ hended := hqueue (hσ (hstate ▸ hended))

theorem Moves.refl (σ : Session) : Moves σ σ := .of_same rfl id

variable {s : Session}

theorem moves_setState {state : State} (h : Lawful s.state state) : Moves s (s.setState state) := by
  rw [setState]
  split
  · exact ⟨h, fun _ _ => List.mem_append_right _ List.mem_cons_self⟩
  · exact .refl s

theorem mem_clear {id : MessageId} (hid : id ≠ .state) (h : MessageId.state ∈ s.queue) :
    MessageId.state ∈ (s.clear id).queue := by
  have hmem : MessageId.state ∈ s.queue.filter (· ≠ id) :=
    List.mem_filter.mpr ⟨h, decide_eq_true hid.symm⟩
  cases id <;> exact hmem

theorem state_clear (id : MessageId) : (s.clear id).state = s.state := by
  cases id <;> rfl

theorem moves_clear {id : MessageId} (hid : id ≠ .state) : Moves s (s.clear id) :=
  .of_same (state_clear id) (mem_clear hid)

/-- Before the end of a session everything may follow that does not take an acceptance
back. -/
theorem lawful_of_open {a b : State} (h : ¬ a.Ended) (h' : a.Accepted → b.Accepted ∨ b.Ended) :
    Lawful a b := ⟨fun ha => absurd ha h, h'⟩

theorem lawful_of_early {a b : State} (h : a.Early) : Lawful a b := by
  refine lawful_of_open ?_ ?_ <;> cases a <;> first | exact h.elim | exact fun ha => ha.elim

theorem lawful_to_ended {a b : State} (h : ¬ a.Ended) (hb : b.Ended) : Lawful a b :=
  lawful_of_open h fun _ => .inr hb

theorem moves_initiate (written readable usable : Bool) :
    Moves s (s.initiate written readable usable).1 := by
  rw [initiate]
  split
  · exact .refl s
  · rename_i hinit
    have hearly : s.state.Early := by
      rw [not_not.mp hinit]
      trivial
    have hclear : Moves s { s.clear .initAckTimeout with initAckTimer := true } :=
      (moves_clear (by decide)).trans (.of_same rfl id)
    dsimp only
    split
    · exact hclear
    · exact hclear.trans (moves_setState (lawful_of_early (by rwa [state_clear])))

theorem moves_accept (written readable usable : Bool) :
    Moves s (s.accept written readable usable).1 := by
  rw [accept]
  split
  · exact .refl s
  · rename_i hstate
    split
    · exact .refl s
    · refine moves_setState (lawful_of_early ?_)
      rw [not_not.mp hstate]
      trivial

theorem moves_reject (reason : String) : Moves s (s.reject reason).1 := by
  rw [reject]
  split
  · exact .refl s
  · rename_i hstate
    refine moves_setState ?_
    have hopen : ¬ s.state.Ended ∧ ¬ s.state.Accepted := by
      cases hs : s.state <;> first | exact ⟨id, id⟩ | exact absurd (by rw [hs]; decide) hstate
    exact lawful_of_open hopen.1 fun h => absurd h hopen.2

theorem moves_terminate (reason : String) : Moves s (s.terminateWithReason reason).1 := by
  rw [terminateWithReason]
  split
  case h_7 h₁ h₂ h₃ h₄ h₅ h₆ =>
    refine moves_setState (lawful_to_ended ?_ trivial)
    cases hs : s.state <;> first | exact id | contradiction
  all_goals exact .refl s

theorem moves_call (c : Call) : Moves s (s.call c).1 := by
  cases c with
  | initiate written readable usable => exact moves_initiate written readable usable
  | accept written readable usable => exact moves_accept written readable usable
  | reject reason => exact moves_reject reason
  | terminate reason => exact moves_terminate reason
  | sendInfo info => cases info <;> exact .refl s

theorem moves_setError (error : Error) : Moves s (s.setError error) := by
  rw [setError]
  split
  · exact .of_same rfl id
  · exact .of_same rfl fun h => List.mem_append_left _ h

theorem early_of_checkSentInitiate (h : s.checkSentInitiate = true) : s.state.Early := by
  rcases of_decide_eq_true h with h | h <;> rw [h] <;> trivial

theorem moves_onInitiateMessage (msg : SessionMessage) : Moves s (s.onInitiateMessage msg).1 := by
  rw [onInitiateMessage]
  split
  · exact .refl s
  · rename_i hstate
    have hearly : s.state.Early := by
      rw [not_not.mp (not_or.mp hstate).1]
      trivial
    exact (moves_setState (lawful_of_early hearly)).trans (.of_same rfl id)

theorem moves_onInitiateAcked (h : ¬ s.state.Accepted) (h' : ¬ s.state.Ended) :
    Moves s s.onInitiateAcked := by
  refine (moves_clear (show MessageId.initAckTimeout ≠ .state by decide)).trans (moves_setState ?_)
  rw [state_clear]
  exact lawful_of_open h' fun ha => absurd ha h

theorem State.Early.not_ended {a : State} (h : a.Early) : ¬ a.Ended := by
  cases a <;> first | exact h.elim | exact id

theorem State.Early.not_accepted {a : State} (h : a.Early) : ¬ a.Accepted := by
  cases a <;> first | exact h.elim | exact id

theorem Lawful.not_early {a b : State} (h : Lawful a b) (ha : a.Accepted) : ¬ b.Early := by
  intro hb
  rcases h.2 ha with hb' | hb'
  · exact hb.not_accepted hb'
  · exact hb.not_ended hb'

theorem state_setState (state : State) : (s.setState state).state = state := by
  rw [setState]
  split
  · rfl
  · rename_i h
    exact (not_not.mp h).symm

theorem state_onInitiateAcked : s.onInitiateAcked.state = .receivedInitiateAck :=
  state_setState .receivedInitiateAck

theorem state_resume_accepting {msg : SessionMessage} (h : s.rest = .accepting msg) :
    s.resume.1.state = .receivedAccept := by
  rw [resume, h]
  dsimp only
  split
  · assumption
  · exact state_setState .receivedAccept

theorem state_resume_terminating {msg : SessionMessage} (h : s.rest = .terminating msg) :
    s.resume.1.state = terminateState msg.reason := by
  rw [resume, h]
  dsimp only
  split
  · assumption
  · exact state_setState (terminateState msg.reason)

theorem ended_terminateState (reason : String) : (terminateState reason).Ended := by
  rw [terminateState]
  split <;> trivial

theorem moves_resume (h : ResumeOrderly s) : Moves s s.resume.1 := by
  rw [resume]
  cases hrest : s.rest with
  | done => exact .refl s
  | accepting msg =>
    have hopen : ¬ s.state.Ended := by
      simpa only [ResumeOrderly, hrest] using h
    dsimp only
    split
    · exact .of_same rfl id
    · have haccepted : State.receivedAccept.Accepted := trivial
      exact (moves_setState (lawful_of_open hopen fun _ => .inl haccepted)).trans (.of_same rfl id)
  | terminating msg =>
    have hsame : s.state.Ended → s.state = terminateState msg.reason := by
      simpa only [ResumeOrderly, hrest] using h
    dsimp only
    split
    · exact .of_same rfl id
    · rename_i hne
      exact (moves_setState (lawful_to_ended (fun hended => hne (hsame hended))
        (ended_terminateState _))).trans (.of_same rfl id)
  | takingCandidates msg => exact .of_same rfl id
  | acknowledging msg => exact .of_same rfl id
  | failing => exact .of_same rfl fun hmem => List.mem_append_left _ hmem

theorem moves_onAcceptMessage (msg : SessionMessage) : Moves s (s.onAcceptMessage msg).1 := by
  rw [onAcceptMessage]
  split
  · exact .refl s
  · rename_i hcheck
    have hearly : s.state.Early :=
      early_of_checkSentInitiate (by simpa using (not_or.mp hcheck).1)
    have hacked := moves_onInitiateAcked hearly.not_accepted hearly.not_ended
    have hrest : Moves s { s.onInitiateAcked with rest := .accepting msg } :=
      hacked.trans (.of_same rfl id)
    dsimp only
    split
    · refine hrest.trans (moves_resume ?_)
      change ¬ s.onInitiateAcked.state.Ended
      rw [state_onInitiateAcked]
      exact id
    · exact hrest

theorem moves_onIncomingMessage (msg : SessionMessage) :
    Moves s (s.onIncomingMessage msg).1 := by
  have hprotocol : Moves s (if s.protocol = .hybrid then
      { s with protocol := if msg.protocol = .gingle then .gingle else .jingle } else s) := by
    split
    · exact .of_same rfl id
    · exact .refl s
  rw [onIncomingMessage]
  refine hprotocol.trans ?_
  cases msg.type with
  | sessionInitiate => exact moves_onInitiateMessage msg
  | sessionAccept => exact moves_onAcceptMessage msg
  | sessionTerminate => exact .of_same rfl id
  | sessionInfo | sessionReject | transportInfo | transportAccept | descriptionInfo =>
    exact .refl _

theorem moves_onFailedSend (type : ActionType) (failure : Failure) :
    Moves s (s.onFailedSend type failure).1 := by
  have herror := moves_setError (s := s) .response
  cases failure with
  | redirect sameJid written readable usable =>
    have hclear : Moves s { s.clear .initAckTimeout with initAckTimer := true } :=
      (moves_clear (by decide)).trans (.of_same rfl id)
    rw [onFailedSend]
    split
    · dsimp only
      split
      · exact hclear
      · exact hclear.trans (moves_setError _)
    · exact herror
  | error errorType =>
    cases errorType with
    | none => exact .refl s
    | some errorType =>
      rw [onFailedSend]
      split
      · exact .refl s
      · split
        · exact herror
        · exact .refl s

theorem moves_onTimer (id : MessageId) : Moves s (s.onTimer id) := by
  have hpost : ∀ σ : Session, ∀ posted : MessageId, σ.state = s.state →
      σ.queue = s.queue ++ [posted] → Moves s σ := fun σ posted hstate hqueue =>
    .of_same hstate fun hmem => by rw [hqueue]; exact List.mem_append_left _ hmem
  cases id with
  | timeout =>
    rw [onTimer]
    split
    · exact hpost _ .timeout rfl rfl
    · exact .refl s
  | initAckTimeout =>
    rw [onTimer]
    split
    · exact hpost _ .initAckTimeout rfl rfl
    · exact .refl s
  | state | error => exact .refl s

theorem moves_onMessage {id : MessageId} (hid : id ≠ .state) :
    Moves s (s.onMessage id).1 ∧ (s.onMessage id).2.1 = false := by
  cases id with
  | timeout => exact ⟨moves_setError _, rfl⟩
  | initAckTimeout => exact ⟨moves_setError _, rfl⟩
  | error => exact ⟨moves_terminate _, rfl⟩
  | state => exact absurd rfl hid

theorem onMessage_state_of_ended (h : s.state.Ended) : s.onMessage .state = (s, true, []) := by
  rw [onMessage]
  cases hs : s.state <;> rw [hs] at h <;> first | rfl | exact h.elim

theorem onMessage_state_of_open (h : ¬ s.state.Ended) : Lawful s.state (s.onMessage .state).1.state ∧
    ¬ (s.onMessage .state).1.state.Ended ∧ (s.onMessage .state).2.1 = false := by
  by_cases haccept : s.state = .sentAccept ∨ s.state = .receivedAccept
  · have hmessage : s.onMessage .state = (s.setState .inProgress, false, []) := by
      rw [onMessage]
      rcases haccept with hs | hs <;> rw [hs]
    have hprogress : (s.setState .inProgress).state = .inProgress := by
      rw [setState]
      rcases haccept with hs | hs <;> rw [hs] <;> rfl
    rw [hmessage]
    dsimp only
    rw [hprogress]
    have haccepted : State.inProgress.Accepted := trivial
    exact ⟨lawful_of_open h fun _ => .inl haccepted, id, rfl⟩
  · have hmessage : s.onMessage .state = (s, false, []) := by
      rw [onMessage]
      cases hs : s.state <;>
        first | rfl | exact absurd (by rw [hs]; decide) haccept | exact absurd (by rw [hs]; trivial) h
    rw [hmessage]
    exact ⟨.refl _, h, rfl⟩

end Session

namespace SessionManager

open Session

structure Inv (s : SessionManager) : Prop where
  pending : s.mapped = true → s.session.Pending
  alive : s.mapped = true → s.destroys = 0
  destroyed : s.mapped = false → s.destroys = 1

variable {s : SessionManager}

theorem inv_create (protocol : SignalingProtocol) : Inv (create protocol) where
  pending _ h := h.elim
  alive _ := rfl
  destroyed h := (nomatch h)

theorem inv_of_moves (h : Inv s) {σ : Session} (hmoves : Moves s.session σ) :
    Inv { s with session := σ } ∧ Lawful s.session.state σ.state :=
  ⟨⟨fun hmapped => hmoves.pending (h.pending hmapped), h.alive, h.destroyed⟩, hmoves.lawful⟩

theorem inv_dispatch (h : Inv s) (hmapped : s.mapped = true) :
    Inv s.dispatch.1 ∧ Lawful s.session.state s.dispatch.1.session.state := by
  rw [dispatch]
  cases hqueue : s.session.queue with
  | nil => exact ⟨h, .refl _⟩
  | cons id queue =>
    by_cases hid : id = .state
    · subst hid
      dsimp only
      by_cases hended : s.session.state.Ended
      · rw [onMessage_state_of_ended (by exact hended), if_pos rfl, destroySession,
          if_pos (by exact hmapped)]
        refine ⟨⟨fun h => (nomatch h), fun h => (nomatch h), fun _ => ?_⟩, .refl _⟩
        change s.destroys + 1 = 1
        rw [h.alive hmapped]
      · obtain ⟨hlawful, hopen, hkept⟩ :=
          onMessage_state_of_open (s := { s.session with queue := queue }) hended
        rw [hkept, if_neg Bool.false_ne_true]
        exact ⟨⟨fun _ hended' => absurd hended' hopen, h.alive, h.destroyed⟩, hlawful⟩
    · obtain ⟨hmoves, hkept⟩ := moves_onMessage (s := { s.session with queue := queue }) hid
      have hpop : Moves s.session { s.session with queue := queue } := by
        refine .of_same rfl fun hmem => ?_
        rw [hqueue] at hmem
        exact (List.mem_cons.mp hmem).resolve_left fun heq => hid heq.symm
      dsimp only
      rw [hkept, if_neg Bool.false_ne_true]
      exact inv_of_moves h (hpop.trans hmoves)

theorem inv_handle (h : Inv s) {e : Event} (hen : s.Enabled e = true) (horderly : Orderly s e) :
    Inv (s.handle e).1 ∧ Lawful s.session.state (s.handle e).1.session.state := by
  have horderly := horderly hen
  have hmapped : s.mapped = true := (Bool.and_eq_true_iff.mp hen).1
  cases e with
  | call c => exact inv_of_moves h (moves_call c)
  | incomingMessage msg => exact inv_of_moves h (moves_onIncomingMessage msg)
  | incomingResponse type =>
    cases type with
    | sessionInitiate => exact inv_of_moves h (moves_onInitiateAcked horderly.1 horderly.2)
    | sessionInfo | sessionAccept | sessionReject | sessionTerminate | transportInfo
    | transportAccept | descriptionInfo => exact inv_of_moves h (.refl _)
  | failedSend type failure => exact inv_of_moves h (moves_onFailedSend type failure)
  | transportWritable waits =>
    exact inv_of_moves h ((moves_clear (show MessageId.timeout ≠ .state by decide)).trans (.of_same rfl id))
  | timer id => exact inv_of_moves h (moves_onTimer id)
  | dispatch => exact inv_dispatch h hmapped
  | resume => exact inv_of_moves h (moves_resume horderly)

theorem inv_step (h : Inv s) {e : Event} (horderly : Orderly s e) :
    Inv (step s e) ∧ Lawful s.session.state (step s e).session.state := by
  by_cases hen : s.Enabled e = true
  · rw [step, if_pos hen]
    exact inv_handle h hen horderly
  · rw [step, if_neg hen]
    exact ⟨h, .refl _⟩

theorem settled_of_inv {t : SessionManager} (ht : Inv t)
    (h : Lawful s.session.state t.session.state) : Settled s t where
  accepted := Lawful.not_early h
  ended := h.1
  destroyed hended hidle := by
    have htended : t.session.state.Ended := by
      rw [h.1 hended]
      exact hended
    rcases hidle with hmapped | ⟨hqueue, -⟩
    · exact ht.destroyed hmapped
    · cases hmapped : t.mapped with
      | false => exact ht.destroyed hmapped
      | true =>
        have hmem := ht.pending hmapped htended
        rw [hqueue] at hmem
        exact absurd hmem List.not_mem_nil
  once := by
    cases hmapped : t.mapped with
    | false => exact Nat.le_of_eq (ht.destroyed hmapped)
    | true => exact Nat.le_trans (Nat.le_of_eq (ht.alive hmapped)) (Nat.zero_le 1)

theorem orderly_of_settled {e : Event} (h : Settled s (step s e)) : Orderly s e := by
  intro hen
  have hstep : step s e = (s.handle e).1 := if_pos hen
  rw [hstep] at h
  cases e with
  | incomingResponse type =>
    cases type with
    | sessionInitiate =>
      have hacked : (s.handle (.incomingResponse .sessionInitiate)).1.session.state =
          .receivedInitiateAck := state_onInitiateAcked
      refine ⟨fun haccepted => ?_, fun hended => ?_⟩
      · have hearly : State.receivedInitiateAck.Early := trivial
        exact h.accepted haccepted (hacked ▸ hearly)
      · have hsame := h.ended hended
        rw [hacked] at hsame
        rw [← hsame] at hended
        exact hended
    | sessionInfo | sessionAccept | sessionReject | sessionTerminate | transportInfo
    | transportAccept | descriptionInfo => trivial
  | resume =>
    change ResumeOrderly s.session
    rw [ResumeOrderly]
    cases hrest : s.session.rest with
    | accepting msg =>
      intro hended
      have hsame := h.ended hended
      rw [← hsame] at hended
      exact (state_resume_accepting hrest ▸ hended : State.receivedAccept.Ended)
    | terminating msg =>
      exact fun hended => (h.ended hended).symm.trans (state_resume_terminating hrest)
    | done | takingCandidates _ | acknowledging _ | failing => trivial
  | call _ | incomingMessage _ | failedSend _ _ | transportWritable _ | timer _ | dispatch =>
    trivial

theorem along_of_neverBack {events : List Event} (h : s.NeverBack events) :
    Runs.Along step Orderly s events := by
  induction events generalizing s with
  | nil => trivial
  | cons e rest ih =>
    refine ⟨orderly_of_settled (h [] [e] rest rfl), ih fun before between after heq => ?_⟩
    exact h (e :: before) between after (congrArg (e :: ·) heq)

theorem neverBack_of_along (hs : Inv s) {events : List Event}
    (h : Runs.Along step Orderly s events) : s.NeverBack events := by
  rintro before between after rfl
  have hstep : ∀ (u : SessionManager) (e : Event), Inv u → Orderly u e →
      Inv (step u e) ∧ Lawful u.session.state (step u e).session.state :=
    fun _ _ hu horderly => inv_step hu horderly
  have hrun : ∀ {u : SessionManager} {l : List Event}, Inv u → Runs.Along step Orderly u l →
      Inv (u.run l) ∧ Lawful u.session.state (u.run l).session.state := fun hu hl =>
    Runs.Along.foldl (R := fun u v : SessionManager => Lawful u.session.state v.session.state)
      (fun _ => .refl _) (fun _ _ _ => .trans) hstep hu hl
  obtain ⟨hbefore, hrest⟩ := Runs.along_append.mp h
  obtain ⟨hmid, -⟩ := hrun hs hbefore
  obtain ⟨hend, hlawful⟩ := hrun hmid (Runs.along_append.mp hrest).1
  have happend : s.run (before ++ between) = (s.run before).run between := List.foldl_append
  rw [happend]
  exact settled_of_inv hend hlawful

/-- A session never goes back exactly when every step of its run is orderly. -/
theorem neverBack_iff (protocol : SignalingProtocol) (events : List Event) :
    (create protocol).NeverBack events ↔ Runs.Along step Orderly (create protocol) events :=
  ⟨along_of_neverBack, neverBack_of_along (inv_create protocol)⟩

/-- The initiate is acknowledged when the session is already in progress. -/
theorem acknowledged_late :
    let events : List Event := [.call (.initiate true true true),
      .incomingMessage { protocol := .jingle, type := .sessionAccept }, .resume, .resume,
      .dispatch, .incomingResponse .sessionInitiate]
    ((create .jingle).run (events.take 5)).session.state = .inProgress ∧
      ((create .jingle).run events).session.state = .receivedInitiateAck ∧
      ¬ (create .jingle).NeverBack events := by
  intro events
  have hbefore : ((create .jingle).run (events.take 5)).session.state = .inProgress := by decide
  have hafter : ((create .jingle).run events).session.state = .receivedInitiateAck := by decide
  refine ⟨hbefore, hafter, fun h => ?_⟩
  have hsettled := h (events.take 5) [.incomingResponse .sessionInitiate] [] rfl
  refine hsettled.accepted ?_ ?_
  · rw [hbefore]
    trivial
  · exact (hafter ▸ trivial : ((create .jingle).run events).session.state.Early)

end SessionManager

end Libjingle
