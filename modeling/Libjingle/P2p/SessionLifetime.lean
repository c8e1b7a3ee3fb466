import Libjingle.P2p.SessionManager
import Libjingle.P2p.SessionTable
import Mathlib.Data.String.Basic

/-! How long a session stays in the table of its manager. It leaves the table when
`MSG_STATE` is handled in a state that ends it, and until then nothing else removes it. -/

namespace Libjingle

def terminateSuccess : String := "success"

/-- `Terminate`, whose message can be sent or not. -/
def Session.terminate (s : Session) (sent : Bool) : Session :=
  if sent then (s.terminateWithReason terminateSuccess).1 else s

namespace SessionTable

section TerminateAll

variable (s : SessionTable)

def first : Option Nat := s.sessionMap.keys.min?.bind s.getSession

def terminateFirst (sent : Bool) (object : Nat) : SessionTable :=
  s.modify object fun x => { x with session := x.session.terminate sent }

/-- The loop of `TerminateAll` for a number of rounds, where each round says whether its
message was sent. -/
def terminateAll (sent : Nat → Bool) : Nat → SessionTable → Option SessionTable
  | 0, _ => none
  | rounds + 1, s =>
    match s.first with
    | none => some s
    | some object => terminateAll (fun n => sent (n + 1)) rounds (s.terminateFirst (sent 0) object)

/-- The loop ends, and has terminated every session that was not at its end. -/
def TerminatesAll (sent : Nat → Bool) : Prop :=
  ∃ rounds t, s.terminateAll sent rounds = some t ∧
    ∀ x ∈ s.live, s.getSession x.id = some x.object → ¬ x.session.state.Ended →
      ∃ y ∈ t.live, y.object = x.object ∧ y.session.state = .sentTerminate

variable {s}

theorem first_eq_none : s.first = none ↔ s.sessionMap = ∅ := by
  constructor
  · intro h
    cases hmin : s.sessionMap.keys.min? with
    | none =>
      have hkeys : s.sessionMap.keys = [] := List.min?_eq_none_iff.mp hmin
      exact AList.ext (List.map_eq_nil_iff.mp hkeys)
    | some sid =>
      rw [first, hmin] at h
      have hmem : sid ∈ s.sessionMap := List.min?_mem hmin
      rw [← AList.lookup_isSome] at hmem
      simp [getSession] at h
      simp [h] at hmem
  · intro h
    simp [first, h]

theorem terminateAll_eq_none (h : s.sessionMap ≠ ∅) (sent : Nat → Bool) (rounds : Nat) :
    s.terminateAll sent rounds = none := by
  induction rounds generalizing s sent with
  | zero => rfl
  | succ rounds ih =>
    obtain ⟨object, hfirst⟩ := Option.ne_none_iff_exists'.mp (mt first_eq_none.mp h)
    rw [terminateAll, hfirst]
    exact ih (s := s.terminateFirst (sent 0) object) h _

theorem terminatesAll_iff (s : SessionTable) (sent : Nat → Bool) :
    s.TerminatesAll sent ↔ s.sessionMap = ∅ := by
  constructor
  · rintro ⟨rounds, t, hend, -⟩
    by_contra hne
    rw [terminateAll_eq_none hne] at hend
    cases hend
  · intro h
    refine ⟨1, s, ?_, fun x _ hmapped => ?_⟩
    · rw [terminateAll, first_eq_none.mpr h]
    · rw [getSession, h, AList.lookup_empty] at hmapped
      cases hmapped

/-- One session, which was just created, and every message can be sent. -/
theorem terminates_forever :
    ¬ TerminatesAll (({ clientMap := ["rtp"] } : SessionTable).createSession "1")
      fun _ => true := by
  rintro ⟨rounds, t, hend, -⟩
  rw [terminateAll_eq_none (fun h => ?_)] at hend
  · cases hend
  · have hkeys := congrArg AList.keys h
    simp [createSession] at hkeys

end TerminateAll

end SessionTable

namespace Session

section Listeners

/-- What the listeners call when they are told of a state, each time with the name of the
other side. -/
abbrev Listener := State → List (String × Call)

def Output.isError : Output → Bool
  | .error _ => true
  | .message _ | .result _ => false

def afterCalls (s : Session) (calls : List (String × Call)) : Session :=
  calls.foldl (fun s c => (s.call c.2).1) s

def goOn (listener : Listener) (s : Session) : Session × List Output :=
  if s.rest = .done then (s, []) else (s.afterCalls (listener s.state)).resume

/-- What a handler has left goes on to its end, as no handler stops more than twice. -/
def goOnTwice (listener : Listener) (received : Session × List Output) : Session × List Output :=
  let first := received.1.goOn listener
  let second := first.1.goOn listener
  (second.1, received.2 ++ first.2 ++ second.2)

def respond (listener : Listener) (s : Session) (msg : SessionMessage) : Session × List Output :=
  goOnTwice listener (s.onIncomingMessage msg)

/-- The state that the listeners are told of before the candidates of a message are taken. -/
def lastStop (s : Session) (msg : SessionMessage) : Option State :=
  match msg.type with
  | .sessionInitiate =>
    if s.state = .init ∧ msg.readable = true then some .receivedInitiate else none
  | .sessionAccept =>
    if s.checkSentInitiate = true ∧ msg.readable = true then some .receivedAccept else none
  | _ => none

def Terminated (listener : Listener) (s : Session) (msg : SessionMessage) : Prop :=
  ∃ state, s.lastStop msg = some state ∧ ∃ c ∈ listener state, ∃ reason, c.2 = .terminate reason

/-- No handler runs for the session, and no message is queued for it. -/
def Idle (s : Session) : Prop := s.queue = [] ∧ s.rest = .done

/-- Only `MSG_STATE` is queued. -/
def OnlyState (s : Session) : Prop := ∀ id ∈ s.queue, id = .state

structure Called (s t : Session) : Prop where
  rest : t.rest = s.rest
  only : s.OnlyState → t.OnlyState
  posted : MessageId.state ∈ s.queue → MessageId.state ∈ t.queue

variable {listener : Listener} {s t u : Session}

theorem Called.refl (s : Session) : Called s s := ⟨rfl, id, id⟩

theorem Called.trans (h : Called s t) (h' : Called t u) : Called s u :=
  ⟨h'.rest.trans h.rest, fun hs => h'.only (h.only hs), fun hs => h'.posted (h.posted hs)⟩

theorem setState_rest (s : Session) (rest : Rest) (state : State) :
    { s with rest := rest }.setState state = { s.setState state with rest := rest } := by
  rw [setState, setState]
  split <;> rfl

theorem called_setState (state : State) : Called s (s.setState state) := by
  rw [setState]
  split
  · refine ⟨rfl, fun hs id hid => ?_, fun hs => List.mem_append_left _ hs⟩
    rcases List.mem_append.mp hid with hid | hid
    · exact hs id hid
    · exact List.mem_singleton.mp hid
  · exact .refl s

theorem called_clear {id : MessageId} (hid : id ≠ .state) : Called s (s.clear id) := by
  refine ⟨?_, fun hs posted hposted => ?_, mem_clear hid⟩
  · cases id <;> rfl
  · have hqueue : (s.clear id).queue = s.queue.filter (· ≠ id) := by
      cases id <;> rfl
    rw [hqueue] at hposted
    exact hs posted (List.mem_filter.mp hposted).1

theorem called_call (c : Call) : Called s (s.call c).1 := by
  cases c with
  | initiate written readable usable =>
    have hclear : Called s { s.clear .initAckTimeout with initAckTimer := true } :=
      (called_clear (by decide)).trans ⟨rfl, id, id⟩
    rw [call, initiate]
    split
    · exact .refl s
    · dsimp only
      split
      · exact hclear
      · exact hclear.trans (called_setState _)
  | accept written readable usable =>
    rw [call, accept]
    split
    · exact .refl s
    · split
      · exact .refl s
      · exact called_setState _
  | reject reason =>
    rw [call, reject]
    split
    · exact .refl s
    · exact called_setState _
  | terminate reason =>
    rw [call, terminateWithReason]
    split
    case h_7 => exact called_setState _
    all_goals exact .refl s
  | sendInfo info => cases info <;> exact .refl s

theorem called_afterCalls (calls : List (String × Call)) : Called s (s.afterCalls calls) := by
  induction calls generalizing s with
  | nil => exact .refl s
  | cons c rest ih => exact (called_call c.2).trans ih

theorem ended_terminate (reason : String) : (s.call (.terminate reason)).1.state.Ended := by
  rw [call, terminateWithReason]
  split
  case h_7 =>
    dsimp only
    rw [state_setState]
    trivial
  all_goals
    rename_i h
    rw [h]
    trivial

theorem ended_call {c : Call} (h : ¬ s.state.Ended) (hc : ∀ reason, c ≠ .terminate reason)
    (hended : (s.call c).1.state.Ended) :
    (s.call c).1.state = .sentReject ∨ (s.call c).1.state = .sentBusy := by
  cases c with
  | initiate written readable usable =>
    exfalso
    rw [call, initiate] at hended
    split at hended
    · exact h hended
    · dsimp only at hended
      split at hended
      · rw [state_clear] at hended
        exact h hended
      · rw [state_setState] at hended
        exact hended
  | accept written readable usable =>
    exfalso
    rw [call, accept] at hended
    split at hended
    · exact h hended
    · split at hended
      · exact h hended
      · rw [state_setState] at hended
        exact hended
  | reject reason =>
    rw [call, reject] at hended ⊢
    split
    · rename_i hstate
      rw [if_pos hstate] at hended
      exact absurd hended h
    · dsimp only
      rw [state_setState]
      split
      · exact .inr rfl
      · exact .inl rfl
  | terminate reason => exact absurd rfl (hc reason)
  | sendInfo info => cases info <;> exact absurd hended h

theorem ended_afterCalls (h : s.state.Ended) (calls : List (String × Call)) :
    (s.afterCalls calls).state = s.state := by
  induction calls generalizing s with
  | nil => rfl
  | cons c rest ih =>
    have hsame := (moves_call (s := s) c.2).lawful.1 h
    rw [afterCalls, List.foldl_cons, ← hsame]
    exact ih (hsame ▸ h)

theorem ended_afterCalls_iff (h : ¬ s.state.Ended) {calls : List (String × Call)}
    (hreject : ¬ ((s.afterCalls calls).state = .sentReject ∨ (s.afterCalls calls).state = .sentBusy)) :
    (s.afterCalls calls).state.Ended ↔ ∃ c ∈ calls, ∃ reason, c.2 = .terminate reason := by
  induction calls generalizing s with
  | nil => exact ⟨fun hended => absurd hended h, by simp⟩
  | cons c rest ih =>
    rw [afterCalls, List.foldl_cons] at hreject ⊢
    by_cases hended : (s.call c.2).1.state.Ended
    · have hsame := ended_afterCalls hended rest
      have hall : (afterCalls (s.call c.2).1 rest).state.Ended := hsame ▸ hended
      refine ⟨fun _ => ?_, fun _ => hall⟩
      by_contra hnone
      refine hreject ?_
      change (afterCalls (s.call c.2).1 rest).state = .sentReject ∨
        (afterCalls (s.call c.2).1 rest).state = .sentBusy
      rw [hsame]
      refine ended_call h (fun reason hc => hnone ?_) hended
      exact ⟨c, List.mem_cons_self, reason, hc⟩
    · refine (ih hended hreject).trans ⟨?_, ?_⟩
      · rintro ⟨d, hd, hterminate⟩
        exact ⟨d, List.mem_cons_of_mem _ hd, hterminate⟩
      · rintro ⟨d, hd, reason, hreason⟩
        rcases List.mem_cons.mp hd with rfl | hd
        · rw [hreason] at hended
          exact absurd (ended_terminate reason) hended
        · exact ⟨d, hd, reason, hreason⟩

/-- How often a handler still stops, the stop that it is at included. -/
def Rest.stops : Rest → Nat
  | .done => 0
  | .accepting _ | .terminating _ => 2
  | .takingCandidates _ | .acknowledging _ | .failing => 1

/-- A handler that runs with no more than `n` stops, for a session that has no error. -/
structure Running (n : Nat) (s : Session) : Prop where
  stops : s.rest.stops ≤ n
  sound : s.rest ≠ .failing
  only : s.OnlyState

theorem Idle.only (h : s.Idle) : s.OnlyState := by
  intro id hid
  rw [h.1] at hid
  exact absurd hid List.not_mem_nil

theorem Running.called {n : Nat} (h : Running n s) (hcalled : Called s t) : Running n t := by
  refine ⟨?_, ?_, hcalled.only h.only⟩
  · rw [hcalled.rest]
    exact h.stops
  · rw [hcalled.rest]
    exact h.sound

theorem Running.resume {n : Nat} (h : Running (n + 1) s) : Running n s.resume.1 := by
  have hstops := h.stops
  have hset : ∀ state, (s.setState state).OnlyState := fun state =>
    (called_setState state).only h.only
  rw [Session.resume]
  cases hrest : s.rest with
  | done => exact ⟨by simp [hrest, Rest.stops], by simp [hrest], h.only⟩
  | accepting msg =>
    simp only [hrest, Rest.stops] at hstops
    dsimp only
    split
    · exact ⟨Nat.zero_le n, by simp, h.only⟩
    · exact ⟨Nat.le_of_succ_le_succ hstops, by simp, hset _⟩
  | terminating msg =>
    simp only [hrest, Rest.stops] at hstops
    dsimp only
    split
    · exact ⟨Nat.zero_le n, by simp, h.only⟩
    · exact ⟨Nat.le_of_succ_le_succ hstops, by simp, hset _⟩
  | takingCandidates msg => exact ⟨Nat.zero_le n, by simp, h.only⟩
  | acknowledging msg => exact ⟨Nat.zero_le n, by simp, h.only⟩
  | failing => exact absurd hrest h.sound

theorem Running.goOn {n : Nat} (h : Running (n + 1) s) : Running n (s.goOn listener).1 := by
  rw [Session.goOn]
  split
  · rename_i hdone
    exact ⟨by simp [hdone, Rest.stops], h.sound, h.only⟩
  · exact (h.called (called_afterCalls _)).resume

theorem protocol_kept (s : Session) (msg : SessionMessage) :
    ∃ σ : Session, (if s.protocol = .hybrid then
        { s with protocol := if msg.protocol = .gingle then .gingle else .jingle }
      else s) = σ ∧ σ.state = s.state ∧ σ.queue = s.queue ∧ σ.rest = s.rest := by
  refine ⟨_, rfl, ?_⟩
  split
  · exact ⟨rfl, rfl, rfl⟩
  · exact ⟨rfl, rfl, rfl⟩

theorem running_onAcceptMessage (h : s.Idle) (msg : SessionMessage) :
    Running 2 (s.onAcceptMessage msg).1 := by
  have hidle : Running 2 s := ⟨by simp [h.2, Rest.stops], by simp [h.2], h.only⟩
  have hacked : Running 2 { s.onInitiateAcked with rest := .accepting msg } := by
    refine ⟨Nat.le_refl 2, by simp, ?_⟩
    have hclear : Called s (s.clear .initAckTimeout) := called_clear (by decide)
    exact (hclear.trans (called_setState _)).only h.only
  rw [onAcceptMessage]
  split
  · exact hidle
  · dsimp only
    split
    · have hresumed := Running.resume (n := 1) hacked
      exact ⟨Nat.le_succ_of_le hresumed.stops, hresumed.sound, hresumed.only⟩
    · exact hacked

theorem running_onIncomingMessage (h : s.Idle) (msg : SessionMessage) :
    Running 2 (s.onIncomingMessage msg).1 := by
  obtain ⟨σ, hσ, -, hqueue, hrest⟩ := protocol_kept s msg
  have hidle : σ.Idle := ⟨hqueue.trans h.1, hrest.trans h.2⟩
  have hrun : Running 2 σ := ⟨by simp [hidle.2, Rest.stops], by simp [hidle.2], hidle.only⟩
  rw [onIncomingMessage, hσ]
  cases msg.type with
  | sessionInitiate =>
    dsimp only
    rw [onInitiateMessage]
    split
    · exact hrun
    · exact ⟨by simp [Rest.stops], by simp, (called_setState _).only hidle.only⟩
  | sessionAccept => exact running_onAcceptMessage hidle msg
  | sessionTerminate => exact ⟨by simp [onTerminateMessage, Rest.stops],
      by simp [onTerminateMessage], hidle.only⟩
  | sessionInfo | sessionReject | transportInfo | transportAccept | descriptionInfo => exact hrun

theorem respond_done (h : s.Idle) (msg : SessionMessage) :
    (s.respond listener msg).1.rest = .done ∧ (s.respond listener msg).1.OnlyState := by
  have hend : Running 0 (s.respond listener msg).1 :=
    (running_onIncomingMessage h msg).goOn.goOn
  refine ⟨?_, hend.only⟩
  have hstops := hend.stops
  cases hrest : (s.respond listener msg).1.rest <;> simp [hrest, Rest.stops] at hstops
  rfl

theorem goOn_done (h : s.rest = .done) : s.goOn listener = (s, []) := if_pos h

theorem not_receivedAccept_call {c : Call} (h : s.state ≠ .receivedAccept) :
    (s.call c).1.state ≠ .receivedAccept := by
  have hset : ∀ (σ : Session) (state : State), state ≠ .receivedAccept →
      (σ.setState state).state ≠ .receivedAccept := fun σ state hne => by rwa [state_setState]
  cases c with
  | initiate written readable usable =>
    rw [call, initiate]
    split
    · exact h
    · dsimp only
      split
      · simpa [state_clear] using h
      · exact hset _ _ (by simp)
  | accept written readable usable =>
    rw [call, accept]
    split
    · exact h
    · split
      · exact h
      · exact hset _ _ (by simp)
  | reject reason =>
    rw [call, reject]
    split
    · exact h
    · refine hset _ _ ?_
      split <;> simp
  | terminate reason =>
    rw [call, terminateWithReason]
    split
    case h_7 => exact hset _ _ (by simp)
    all_goals exact h
  | sendInfo info => cases info <;> exact h

theorem not_receivedAccept_afterCalls (h : s.state ≠ .receivedAccept) (calls : List (String × Call)) :
    (s.afterCalls calls).state ≠ .receivedAccept := by
  induction calls generalizing s with
  | nil => exact h
  | cons c rest ih => exact ih (not_receivedAccept_call h)

theorem posted_setState {state : State} (h : state ≠ s.state) :
    MessageId.state ∈ (s.setState state).queue := by
  rw [setState, if_pos h]
  exact List.mem_append_right _ List.mem_cons_self

theorem goOn_takingCandidates {msg : SessionMessage} (hrest : s.rest = .takingCandidates msg) :
    s.goOn listener = ({ s.afterCalls (listener s.state) with rest := .done },
      [(s.afterCalls (listener s.state)).takeCandidates msg]) := by
  rw [goOn, if_neg (by simp [hrest]), resume, (called_afterCalls _).rest, hrest]

theorem takeCandidates_rejected {msg : SessionMessage}
    (h : s.state = .sentReject ∨ s.state = .sentBusy) : s.takeCandidates msg = .result msg := by
  rw [takeCandidates, decide_eq_true h]
  rfl

theorem resume_acknowledges {msg : SessionMessage}
    (h : s.rest = .terminating msg ∨ s.rest = .acknowledging msg ∨ s.rest = .done) :
    (∀ o ∈ s.resume.2, o.isError = false) ∧ (s.resume.1.rest = .acknowledging msg ∨
      s.resume.1.rest = .done) := by
  rw [resume]
  rcases h with h | h | h
  · rw [h]
    dsimp only
    split
    · exact ⟨by simp [answer, Output.isError], .inr rfl⟩
    · exact ⟨by simp, .inl rfl⟩
  · rw [h]
    exact ⟨by simp [answer, Output.isError], .inr rfl⟩
  · rw [h]
    exact ⟨by simp, .inr h⟩

theorem goOn_acknowledges {msg : SessionMessage}
    (h : s.rest = .terminating msg ∨ s.rest = .acknowledging msg ∨ s.rest = .done) :
    (∀ o ∈ (s.goOn listener).2, o.isError = false) ∧
      ((s.goOn listener).1.rest = .acknowledging msg ∨ (s.goOn listener).1.rest = .done) := by
  rw [goOn]
  split
  · rename_i hdone
    exact ⟨by simp, .inr hdone⟩
  · refine resume_acknowledges ?_
    rw [(called_afterCalls _).rest]
    exact h

/-- How a session is left by a message that it answers with an error. -/
def Refusal (listener : Listener) (s : Session) (msg : SessionMessage) (t : Session) : Prop :=
  (s.lastStop msg = none ∧ t.queue = []) ∨
    (MessageId.state ∈ t.queue ∧ (t.state.Ended ↔ s.Terminated listener msg))

theorem refusal_of_stop {msg : SessionMessage} {state : State}
    (hstop : s.lastStop msg = some state) (hopen : ¬ state.Ended) (hstate : t.state = state)
    (hrest : t.rest = .takingCandidates msg) (hposted : MessageId.state ∈ t.queue)
    (herror : ∃ o ∈ (t.goOn listener).2, o.isError = true) :
    Refusal listener s msg (t.goOn listener).1 := by
  subst hstate
  rw [goOn_takingCandidates hrest] at herror ⊢
  have hreject : ¬ ((t.afterCalls (listener t.state)).state = .sentReject ∨
      (t.afterCalls (listener t.state)).state = .sentBusy) := by
    intro hreject
    simp [takeCandidates_rejected hreject, Output.isError] at herror
  have hended := ended_afterCalls_iff hopen hreject
  refine .inr ⟨(called_afterCalls _).posted hposted, hended.trans ⟨fun h => ⟨t.state, hstop, h⟩, ?_⟩⟩
  rintro ⟨state, hstate, h⟩
  rw [hstop] at hstate
  cases hstate
  exact h

theorem goOnTwice_done {o : List Output} (h : t.rest = .done) :
    goOnTwice listener (t, o) = (t, o) := by
  rw [goOnTwice]
  dsimp only
  rw [goOn_done h]
  dsimp only
  rw [goOn_done h, List.append_nil, List.append_nil]

theorem goOnTwice_takingCandidates {msg : SessionMessage} (h : t.rest = .takingCandidates msg) :
    goOnTwice listener (t, []) = t.goOn listener := by
  have hdone : (t.goOn listener).1.rest = .done := by rw [goOn_takingCandidates h]
  rw [goOnTwice]
  dsimp only
  rw [goOn_done hdone, List.nil_append, List.append_nil]

theorem refusal_of_idle {msg : SessionMessage} {o : List Output} (h : t.Idle)
    (hstop : s.lastStop msg = none) : Refusal listener s msg (goOnTwice listener (t, o)).1 := by
  rw [goOnTwice_done h.2]
  exact .inl ⟨hstop, h.1⟩

theorem refusal_initiate {msg : SessionMessage} (htype : msg.type = .sessionInitiate)
    (hstate : t.state = s.state) (hidle : t.Idle)
    (herror : ∃ o ∈ (goOnTwice listener (t.onInitiateMessage msg)).2, o.isError = true) :
    Refusal listener s msg (goOnTwice listener (t.onInitiateMessage msg)).1 := by
  by_cases hbad : t.state ≠ .init ∨ msg.readable = false
  · have heq : t.onInitiateMessage msg = (t, [answer false msg]) := if_pos hbad
    rw [heq]
    refine refusal_of_idle hidle ?_
    rw [lastStop, htype]
    refine if_neg ?_
    rintro ⟨hinit, hread⟩
    rcases hbad with hbad | hbad
    · exact hbad (hstate.trans hinit)
    · simp [hread] at hbad
  · have heq : t.onInitiateMessage msg =
        ({ t.setState .receivedInitiate with rest := .takingCandidates msg }, []) := if_neg hbad
    obtain ⟨hinit, hread⟩ := not_or.mp hbad
    rw [not_not] at hinit
    have hstop : s.lastStop msg = some .receivedInitiate := by
      rw [lastStop, htype]
      exact if_pos ⟨hstate.symm.trans hinit, by simpa using hread⟩
    have hposted : MessageId.state ∈ (t.setState .receivedInitiate).queue :=
      posted_setState (by simp [hinit])
    rw [heq, goOnTwice_takingCandidates rfl] at herror ⊢
    exact refusal_of_stop hstop id (state_setState .receivedInitiate) rfl hposted herror

theorem goOnTwice_accepting {msg : SessionMessage} (hrest : t.rest = .accepting msg)
    (hstate : t.state ≠ .receivedAccept) : goOnTwice listener (t, []) =
      { (t.afterCalls (listener t.state)).setState .receivedAccept with
        rest := .takingCandidates msg }.goOn listener := by
  have hgo : t.goOn listener = ({ (t.afterCalls (listener t.state)).setState .receivedAccept with
      rest := .takingCandidates msg }, []) := by
    have hne := not_receivedAccept_afterCalls hstate (listener t.state)
    rw [goOn, if_neg (by simp [hrest]), resume, (called_afterCalls _).rest, hrest]
    exact if_neg hne
  rw [goOnTwice]
  dsimp only
  rw [hgo, List.nil_append, List.nil_append]

theorem refusal_accept {msg : SessionMessage} (htype : msg.type = .sessionAccept)
    (hstate : t.state = s.state) (hidle : t.Idle)
    (herror : ∃ o ∈ (goOnTwice listener (t.onAcceptMessage msg)).2, o.isError = true) :
    Refusal listener s msg (goOnTwice listener (t.onAcceptMessage msg)).1 := by
  have hcheck : t.checkSentInitiate = s.checkSentInitiate := by
    rw [checkSentInitiate, checkSentInitiate, hstate]
  by_cases hbad : t.checkSentInitiate = false ∨ msg.readable = false
  · have heq : t.onAcceptMessage msg = (t, [answer false msg]) := if_pos hbad
    rw [heq]
    refine refusal_of_idle hidle ?_
    rw [lastStop, htype]
    refine if_neg ?_
    rintro ⟨hsent, hread⟩
    rw [hcheck, hsent, hread] at hbad
    simp at hbad
  · obtain ⟨hsent, hread⟩ := not_or.mp hbad
    rw [Bool.not_eq_false] at hsent hread
    have hstop : s.lastStop msg = some .receivedAccept := by
      rw [lastStop, htype]
      exact if_pos ⟨hcheck.symm.trans hsent, hread⟩
    have hacked : t.onInitiateAcked.state = .receivedInitiateAck := state_onInitiateAcked
    by_cases hack : t.state = .receivedInitiateAck
    · have heq : t.onAcceptMessage msg = ({ t.onInitiateAcked.setState .receivedAccept with
          rest := .takingCandidates msg }, []) := by
        rw [onAcceptMessage, if_neg hbad]
        dsimp only
        rw [if_pos hack, resume]
        dsimp only
        rw [if_neg (by simp [hacked]), setState_rest]
      rw [heq, goOnTwice_takingCandidates rfl] at herror ⊢
      exact refusal_of_stop hstop id (state_setState .receivedAccept) rfl
        (posted_setState (by simp [hacked])) herror
    · have heq : t.onAcceptMessage msg =
          ({ t.onInitiateAcked with rest := .accepting msg }, []) := by
        rw [onAcceptMessage, if_neg hbad]
        exact if_neg hack
      rw [heq, goOnTwice_accepting rfl (by simp [hacked])] at herror ⊢
      refine refusal_of_stop hstop id (state_setState .receivedAccept) rfl (posted_setState ?_) herror
      exact (not_receivedAccept_afterCalls (by simp [hacked]) _).symm

theorem respond_refusal (h : s.Idle) {msg : SessionMessage}
    (herror : ∃ o ∈ (s.respond listener msg).2, o.isError = true) :
    Refusal listener s msg (s.respond listener msg).1 := by
  obtain ⟨σ, hσ, hstate, hqueue, hrest⟩ := protocol_kept s msg
  have hidle : σ.Idle := ⟨hqueue.trans h.1, hrest.trans h.2⟩
  rw [respond, onIncomingMessage, hσ] at herror ⊢
  cases htype : msg.type with
  | sessionInitiate =>
    rw [htype] at herror
    exact refusal_initiate htype hstate hidle herror
  | sessionAccept =>
    rw [htype] at herror
    exact refusal_accept htype hstate hidle herror
  | sessionTerminate =>
    rw [htype] at herror
    exfalso
    obtain ⟨hfirst, hrest⟩ := goOn_acknowledges
      (s := { σ with rest := .terminating msg }) (.inl rfl)
    obtain ⟨hsecond, -⟩ := goOn_acknowledges (.inr hrest)
    obtain ⟨o, ho, herror⟩ := herror
    rcases List.mem_append.mp ho with ho | ho
    · rw [hfirst o ho] at herror
      cases herror
    · rw [hsecond o ho] at herror
      cases herror
  | sessionInfo | sessionReject | transportInfo | transportAccept | descriptionInfo =>
    refine refusal_of_idle hidle ?_
    rw [lastStop, htype]

end Listeners

end Session

namespace SessionTable

def Output.isError : Output → Bool
  | .session _ output => output.isError
  | .badRequest _ => true

section Settling

variable {Jid : Type} [DecidableEq Jid] (jid : String → Jid) (bareEqual : Jid → Jid → Bool)
  (listener : Session.Listener) (s : SessionTable)

def handleAll (s : SessionTable) : List Event → SessionTable × List Output
  | [] => (s, [])
  | e :: rest =>
    let handled := s.handle jid bareEqual e
    let later := handleAll handled.1 rest
    (later.1, handled.2 ++ later.2)

def goOn (object : Nat) : SessionTable × List Output :=
  match s.find object with
  | none => (s, [])
  | some x =>
    if x.session.rest = .done then (s, [])
    else s.handleAll jid bareEqual
      ((listener x.session.state).map (fun c => .call object c.1 c.2) ++ [.resume object])

/-- The thread handles what is queued for a session, and what is posted by that. -/
def drain (object : Nat) : SessionTable :=
  let queued := ((s.find object).map fun x => x.session.queue.length).getD 0
  (s.handleAll jid bareEqual (List.replicate (queued + 1) (.dispatch object))).1

def settle (parsed : Except String Stanza) : SessionTable × List Output :=
  let received := s.onIncomingMessage jid parsed
  match parsed with
  | .error _ => received
  | .ok stanza =>
    let object := ((s.findSession jid stanza.sid stanza.sender).map Entry.object).getD s.next
    let first := received.1.goOn jid bareEqual listener object
    let second := first.1.goOn jid bareEqual listener object
    (second.1.drain jid bareEqual object, received.2 ++ first.2 ++ second.2)

/-- A stanza is answered with an error. -/
def Refused (parsed : Except String Stanza) : Prop :=
  ∃ o ∈ (s.settle jid bareEqual listener parsed).2, o.isError = true

/-- The map has the same sessions when the stanza and what was posted have been handled. -/
def Unchanged (parsed : Except String Stanza) : Prop :=
  ∀ sid, (s.settle jid bareEqual listener parsed).1.getSession sid = s.getSession sid

def Creates (stanza : Stanza) : Prop :=
  s.findSession jid stanza.sid stanza.sender = none ∧ stanza.msg.type = .sessionInitiate ∧
    ∃ type, stanza.contentType = .ok type ∧ type ∈ s.clientMap

/-- The listeners terminate a session that is created for the stanza, under an id that was
not in use, and no other one. -/
def Cleared : Except String Stanza → Prop
  | .error _ => True
  | .ok stanza =>
    (∀ x, s.findSession jid stanza.sid stanza.sender = some x →
        ¬ x.session.Terminated listener stanza.msg) ∧
      (s.Creates jid stanza → s.getSession stanza.sid = none ∧
        Session.Terminated listener {} stanza.msg)

end Settling

/-- Every session has a number of its own, and the map has only live sessions, under their
ids. -/
structure Numbered (s : SessionTable) : Prop where
  objects : (s.live.map Entry.object).Nodup
  bound : ∀ x ∈ s.live, x.object < s.next
  named : ∀ sid object, s.getSession sid = some object →
    ∃ x ∈ s.live, x.object = object ∧ x.id = sid

inductive Changes : SessionTable → SessionTable → Prop
  | same (s : SessionTable) : Changes s s
  | clients (s : SessionTable) (types : List String) : Changes s { s with clientMap := types }
  | modify (s : SessionTable) (object : Nat) {f : Entry → Entry} (hf : Keeping f) :
    Changes s (s.modify object f)
  | create (s : SessionTable) (sid : String) : Changes s (s.createSession sid)
  | destroy (s : SessionTable) (object : Nat) : Changes s (s.destroySession object)
  | trans {s t u : SessionTable} (first : Changes s t) (second : Changes t u) : Changes s u

section Numbers

variable {s t : SessionTable} {x y : Entry}

theorem numbered_empty : Numbered {} where
  objects := List.nodup_nil
  bound _ h := absurd h List.not_mem_nil
  named sid object h := by
    rw [getSession, AList.lookup_empty] at h
    cases h

theorem Numbered.find (h : Numbered s) (hx : x ∈ s.live) : s.find x.object = some x := by
  have hsome : (s.find x.object).isSome := List.find?_isSome.mpr ⟨x, hx, decide_eq_true rfl⟩
  obtain ⟨y, hy⟩ := Option.isSome_iff_exists.mp hsome
  obtain ⟨hmem, hobject⟩ := of_find hy
  rw [hy, List.inj_on_of_nodup_map h.objects hmem hx hobject]

theorem Numbered.modify (h : Numbered s) (object : Nat) {f : Entry → Entry} (hf : Keeping f) :
    Numbered (s.modify object f) := by
  have hkept : ∀ x : Entry, (if x.object = object then f x else x).object = x.object ∧
      (if x.object = object then f x else x).id = x.id := by
    intro x
    split
    · exact hf x
    · exact ⟨rfl, rfl⟩
  refine ⟨?_, fun y hy => ?_, fun sid o hsid => ?_⟩
  · have hmap : (s.modify object f).live.map Entry.object = s.live.map Entry.object := by
      rw [SessionTable.modify, List.map_map]
      exact List.map_congr_left fun x _ => (hkept x).1
    rw [hmap]
    exact h.objects
  · obtain ⟨x, hx, rfl⟩ := mem_modify hy
    rw [(hkept x).1]
    exact h.bound x hx
  · obtain ⟨x, hx, rfl, rfl⟩ := h.named sid o hsid
    exact ⟨_, List.mem_map_of_mem hx, (hkept x).1, (hkept x).2⟩

theorem Numbered.createSession (h : Numbered s) (sid : String) : Numbered (s.createSession sid) := by
  refine ⟨?_, fun x hx => ?_, fun id object hid => ?_⟩
  · rw [SessionTable.createSession, List.map_append, List.map_singleton]
    refine List.nodup_append.mpr ⟨h.objects, List.nodup_singleton _, fun a ha b hb => ?_⟩
    obtain ⟨x, hx, rfl⟩ := List.mem_map.mp ha
    rw [List.mem_singleton.mp hb]
    exact Nat.ne_of_lt (h.bound x hx)
  · rcases List.mem_append.mp hx with hx | hx
    · exact Nat.lt_succ_of_lt (h.bound x hx)
    · rw [List.mem_singleton.mp hx]
      exact Nat.lt_succ_self _
  · by_cases hsid : id = sid
    · subst hsid
      have hlookup : (s.createSession id).getSession id = some s.next := AList.lookup_insert _
      rw [hlookup] at hid
      cases hid
      exact ⟨_, List.mem_append_right _ (List.mem_singleton_self _), rfl, rfl⟩
    · have hlookup : (s.createSession sid).getSession id = s.getSession id :=
        AList.lookup_insert_ne hsid
      obtain ⟨x, hx, rfl, rfl⟩ := h.named id object (hlookup ▸ hid)
      exact ⟨x, List.mem_append_left _ hx, rfl, rfl⟩

theorem Numbered.destroySession (h : Numbered s) (object : Nat) :
    Numbered (s.destroySession object) := by
  rw [SessionTable.destroySession]
  split
  · exact h
  · rename_i x hfind
    obtain ⟨hx, rfl⟩ := of_find hfind
    split
    · exact h
    · refine ⟨h.objects.sublist (List.filter_sublist.map _),
        fun y hy => h.bound y (List.mem_filter.mp hy).1, fun sid o hsid => ?_⟩
      have hne : sid ≠ x.id := by
        rintro rfl
        rw [getSession, AList.lookup_erase] at hsid
        cases hsid
      have hlookup : s.getSession sid = some o := by
        rwa [getSession, AList.lookup_erase_ne hne] at hsid
      obtain ⟨y, hy, rfl, rfl⟩ := h.named sid o hlookup
      refine ⟨y, List.mem_filter.mpr ⟨hy, decide_eq_true fun he => hne ?_⟩, rfl, rfl⟩
      rw [List.inj_on_of_nodup_map h.objects hy hx he]

theorem Changes.numbered (h : Changes s t) (hs : Numbered s) : Numbered t := by
  induction h with
  | same s => exact hs
  | clients s types => exact ⟨hs.objects, hs.bound, hs.named⟩
  | modify s object hf => exact hs.modify object hf
  | create s sid => exact hs.createSession sid
  | destroy s object => exact hs.destroySession object
  | trans first second ih ih' => exact ih' (ih hs)

variable {Jid : Type} [DecidableEq Jid] {jid : String → Jid} {bareEqual : Jid → Jid → Bool}
  {listener : Session.Listener}

theorem changes_deliver (s : SessionTable) (object : Nat) (stanza : Stanza) :
    Changes s (s.deliver object stanza).1 := by
  obtain heq | ⟨f, hf, heq⟩ := deliver_cases s object stanza
  · rw [heq]
    exact .same s
  · rw [heq]
    exact .modify s object hf

variable (jid) in
theorem changes_onIncomingMessage (s : SessionTable) (parsed : Except String Stanza) :
    Changes s (s.onIncomingMessage jid parsed).1 := by
  cases parsed with
  | error text => exact .same s
  | ok stanza =>
    rw [onIncomingMessage]
    split
    · exact changes_deliver s _ stanza
    · split
      · exact .same s
      · split
        · exact .same s
        · split
          · exact .same s
          · exact (Changes.create s stanza.sid).trans (changes_deliver _ _ stanza)

theorem changes_dispatch (s : SessionTable) (object : Nat) : Changes s (s.dispatch object).1 := by
  rw [dispatch]
  split
  · exact .same s
  · split
    · exact .same s
    · dsimp only
      split
      · refine .trans (.modify s object ?_) (.destroy _ object)
        exact fun _ => ⟨rfl, rfl⟩
      · exact .modify s object fun _ => ⟨rfl, rfl⟩

theorem changes_step (s : SessionTable) (e : Event) : Changes s (s.step jid bareEqual e) := by
  cases e with
  | addClient type => exact .clients s _
  | removeClient type => exact .clients s _
  | createSession sid type =>
    rw [step, handle]
    dsimp only
    split
    · exact .create s sid
    · exact .same s
  | destroySession object => exact .destroy s object
  | incomingMessage parsed => exact changes_onIncomingMessage _ s parsed
  | incomingResponse sid receiver type =>
    rw [step, handle, onIncomingResponse]
    dsimp only
    split
    · exact .same s
    · exact .modify s _ fun _ => ⟨rfl, rfl⟩
  | failedSend sid receiver type failure =>
    rw [step, handle, onFailedSend]
    split
    · exact .same s
    · exact .modify s _ (keeping_failed type failure)
  | setCurrentProtocol object protocol => exact .modify s object fun _ => ⟨rfl, rfl⟩
  | call object receiver call =>
    rw [step, handle, SessionTable.call]
    split
    · exact .same s
    · exact .modify s object fun _ => ⟨rfl, rfl⟩
  | transportWritable object waits => exact .modify s object fun _ => ⟨rfl, rfl⟩
  | timer object id => exact .modify s object fun _ => ⟨rfl, rfl⟩
  | dispatch object => exact changes_dispatch s object
  | resume object =>
    rw [step, handle, resume]
    split
    · exact .same s
    · exact .modify s object fun _ => ⟨rfl, rfl⟩

theorem numbered_run (events : List Event) (hs : Numbered s) :
    Numbered (events.foldl (step jid bareEqual) s) := by
  induction events generalizing s with
  | nil => exact hs
  | cons e rest ih => exact ih ((changes_step s e).numbered hs)

/-- One session is led from `σ` to `τ`, and the rest of the table stays. -/
def Leads (object : Nat) (s : SessionTable) (σ : Session) (t : SessionTable) (τ : Session) : Prop :=
  ∃ x f, s.find object = some x ∧ x.session = σ ∧ Keeping f ∧ t = s.modify object f ∧
    (f x).session = τ

theorem find_modify {object : Nat} {f : Entry → Entry} (hf : Keeping f)
    (h : s.find object = some x) : (s.modify object f).find object = some (f x) := by
  have hobject := (of_find h).2
  have hsame : (fun y : Entry => decide (y.object = object)) ∘
      (fun y => if y.object = object then f y else y) = fun y => decide (y.object = object) := by
    funext y
    by_cases hy : y.object = object
    · simp [hy, (hf y).1]
    · simp [hy]
  rw [find, SessionTable.modify, List.find?_map, hsame]
  rw [find] at h
  rw [h, Option.map_some, if_pos hobject]

theorem modify_modify {object : Nat} {f g : Entry → Entry} (hf : Keeping f) :
    (s.modify object f).modify object g = s.modify object (g ∘ f) := by
  rw [SessionTable.modify, SessionTable.modify, SessionTable.modify, List.map_map]
  congr 1
  refine List.map_congr_left fun y _ => ?_
  by_cases hy : y.object = object
  · simp [hy, (hf y).1]
  · simp [hy]

section Leading

variable {object : Nat} {σ τ υ : Session} {u : SessionTable}

theorem leads_modify {f : Entry → Entry} (h : s.find object = some x) (hf : Keeping f) :
    Leads object s x.session (s.modify object f) (f x).session :=
  ⟨x, f, h, rfl, hf, rfl, rfl⟩

theorem leads_refl (h : s.find object = some x) : Leads object s x.session s x.session := by
  have hid : s.modify object id = s := by
    rw [SessionTable.modify]
    simp
  have hleads := leads_modify h (f := id) fun _ => ⟨rfl, rfl⟩
  rwa [hid] at hleads

theorem Leads.trans (h : Leads object s σ t τ) (h' : Leads object t τ u υ) : Leads object s σ u υ := by
  obtain ⟨x, f, hfind, rfl, hf, rfl, rfl⟩ := h
  obtain ⟨y, g, hfind', hsession, hg, rfl, rfl⟩ := h'
  rw [find_modify hf hfind] at hfind'
  cases hfind'
  refine ⟨x, g ∘ f, hfind, rfl, fun y => ?_, modify_modify hf, rfl⟩
  exact ⟨(hg (f y)).1.trans (hf y).1, (hg (f y)).2.trans (hf y).2⟩

theorem Leads.find (h : Leads object s σ t τ) : ∃ y, t.find object = some y ∧ y.session = τ := by
  obtain ⟨x, f, hfind, rfl, hf, rfl, rfl⟩ := h
  exact ⟨f x, find_modify hf hfind, rfl⟩

theorem handleAll_append (s : SessionTable) (events events' : List Event) :
    s.handleAll jid bareEqual (events ++ events') =
      (((s.handleAll jid bareEqual events).1.handleAll jid bareEqual events').1,
        (s.handleAll jid bareEqual events).2 ++
          ((s.handleAll jid bareEqual events).1.handleAll jid bareEqual events').2) := by
  induction events generalizing s with
  | nil => rfl
  | cons e rest ih => simp [handleAll, ih]

theorem handleAll_fst (s : SessionTable) (events : List Event) :
    (s.handleAll jid bareEqual events).1 = events.foldl (step jid bareEqual) s := by
  induction events generalizing s with
  | nil => rfl
  | cons e rest ih => exact ih _

theorem errors_session (object : Nat) (outputs : List Session.Output) :
    (∃ o ∈ outputs.map (Output.session object), o.isError = true) ↔
      ∃ o ∈ outputs, o.isError = true := by
  constructor
  · rintro ⟨o, ho, herror⟩
    obtain ⟨p, hp, rfl⟩ := List.mem_map.mp ho
    exact ⟨p, hp, herror⟩
  · rintro ⟨o, ho, herror⟩
    exact ⟨_, List.mem_map_of_mem ho, herror⟩

theorem call_no_error (σ : Session) (c : Session.Call) :
    ∀ o ∈ (σ.call c).2.2, o.isError = false := by
  cases c with
  | initiate written readable usable =>
    rw [Session.call, Session.initiate]
    split
    · simp
    · dsimp only
      split
      · simp
      · simp [Session.actionMessage, Session.Output.isError]
  | accept written readable usable =>
    rw [Session.call, Session.accept]
    split
    · simp
    · split
      · simp
      · simp [Session.elementsMessage, Session.Output.isError]
  | reject reason =>
    rw [Session.call, Session.reject]
    split
    · simp
    · simp [Session.actionMessage, Session.Output.isError]
  | terminate reason =>
    rw [Session.call, Session.terminateWithReason]
    split
    case h_7 => simp [Session.actionMessage, Session.Output.isError]
    all_goals simp
  | sendInfo info =>
    cases info <;>
      simp [Session.call, Session.actionMessage, Session.elementsMessage, Session.Output.isError]

variable (bareEqual) in
theorem leads_calls (h : s.find object = some x) (calls : List (String × Session.Call)) :
    Leads object s x.session
        (s.handleAll jid bareEqual (calls.map fun c => .call object c.1 c.2)).1
        (x.session.afterCalls calls) ∧
      ∀ o ∈ (s.handleAll jid bareEqual (calls.map fun c => .call object c.1 c.2)).2,
        o.isError = false := by
  induction calls generalizing s x with
  | nil => exact ⟨leads_refl h, by simp [handleAll]⟩
  | cons c rest ih =>
    have hcall : Leads object s x.session (s.call object c.1 c.2).1 (x.session.call c.2).1 := by
      rw [SessionTable.call, h]
      exact leads_modify h fun _ => ⟨rfl, rfl⟩
    have hout : (s.call object c.1 c.2).2 = (x.session.call c.2).2.2.map (.session object) := by
      rw [SessionTable.call, h]
    obtain ⟨y, hfind, hsession⟩ := hcall.find
    obtain ⟨hrest, hquiet⟩ := ih hfind
    rw [hsession] at hrest
    refine ⟨hcall.trans hrest, fun o ho => ?_⟩
    rcases List.mem_append.mp ho with ho | ho
    · have ho : o ∈ (s.call object c.1 c.2).2 := ho
      rw [hout] at ho
      obtain ⟨p, hp, rfl⟩ := List.mem_map.mp ho
      exact call_no_error x.session c.2 p hp
    · exact hquiet o ho

theorem leads_resume (h : s.find object = some x) :
    Leads object s x.session (s.resume object).1 x.session.resume.1 ∧
      (s.resume object).2 = x.session.resume.2.map (.session object) := by
  rw [resume, h]
  exact ⟨leads_modify h fun _ => ⟨rfl, rfl⟩, rfl⟩

variable (bareEqual) in
theorem leads_goOn (h : s.find object = some x) :
    Leads object s x.session (s.goOn jid bareEqual listener object).1 (x.session.goOn listener).1 ∧
      ((∃ o ∈ (s.goOn jid bareEqual listener object).2, o.isError = true) ↔
        ∃ o ∈ (x.session.goOn listener).2, o.isError = true) := by
  rw [goOn, h, Session.goOn]
  dsimp only
  split
  · exact ⟨leads_refl h, by simp⟩
  · obtain ⟨hcalls, hquiet⟩ := leads_calls bareEqual h
      (listener x.session.state)
    obtain ⟨y, hfind, hsession⟩ := hcalls.find
    obtain ⟨hresume, hout⟩ := leads_resume hfind
    rw [hsession] at hresume hout
    rw [handleAll_append]
    refine ⟨hcalls.trans hresume, ?_⟩
    simp only [handleAll, handle, List.append_nil]
    rw [hout, ← errors_session object]
    constructor
    · rintro ⟨o, ho, herror⟩
      rcases List.mem_append.mp ho with ho | ho
      · rw [hquiet o ho] at herror
        cases herror
      · exact ⟨o, ho, herror⟩
    · rintro ⟨o, ho, herror⟩
      exact ⟨o, List.mem_append_right _ ho, herror⟩

theorem leads_deliver (h : s.find object = some x) (stanza : Stanza) :
    Leads object s x.session (s.deliver object stanza).1 (x.session.onIncomingMessage stanza.msg).1 ∧
      (s.deliver object stanza).2 =
        (x.session.onIncomingMessage stanza.msg).2.map (.session object) := by
  rw [deliver, h]
  exact ⟨leads_modify h fun _ => ⟨rfl, rfl⟩, rfl⟩

/-- All that a table does with a stanza for a session, before the posted messages. -/
def respondAt (jid : String → Jid) (bareEqual : Jid → Jid → Bool) (listener : Session.Listener)
    (received : SessionTable × List Output) (object : Nat) : SessionTable × List Output :=
  let first := received.1.goOn jid bareEqual listener object
  let second := first.1.goOn jid bareEqual listener object
  (second.1, received.2 ++ first.2 ++ second.2)

variable (bareEqual) in
theorem leads_respond (h : s.find object = some x) (stanza : Stanza) :
    Leads object s x.session
        (respondAt jid bareEqual listener (s.deliver object stanza) object).1
        (x.session.respond listener stanza.msg).1 ∧
      ((∃ o ∈ (respondAt jid bareEqual listener (s.deliver object stanza) object).2,
          o.isError = true) ↔
        ∃ o ∈ (x.session.respond listener stanza.msg).2, o.isError = true) := by
  obtain ⟨hdeliver, hout⟩ := leads_deliver h stanza
  obtain ⟨y, hy, hsession⟩ := hdeliver.find
  obtain ⟨hfirst, herror⟩ := leads_goOn bareEqual hy
  rw [hsession] at hfirst herror
  obtain ⟨z, hz, hsession'⟩ := hfirst.find
  obtain ⟨hsecond, herror'⟩ := leads_goOn bareEqual hz
  rw [hsession'] at hsecond herror'
  refine ⟨(hdeliver.trans hfirst).trans hsecond, ?_⟩
  simp only [respondAt, Session.respond, Session.goOnTwice, List.mem_append, or_and_right,
    exists_or, hout, errors_session, herror, herror']

variable (bareEqual) in
theorem drain_eq (s : SessionTable) (object : Nat) : ∃ n,
    (∀ x, s.find object = some x → n = x.session.queue.length) ∧
      s.drain jid bareEqual object =
        (List.replicate (n + 1) (Event.dispatch object)).foldl (step jid bareEqual) s := by
  refine ⟨((s.find object).map fun x => x.session.queue.length).getD 0, fun x hx => ?_, ?_⟩
  · rw [hx]
    rfl
  · rw [drain, handleAll_fst]

theorem dispatches_idle (h : ∀ x, s.find object = some x → x.session.queue = []) (n : Nat) :
    (List.replicate n (Event.dispatch object)).foldl (step jid bareEqual) s = s := by
  have hdispatch : (s.dispatch object).1 = s := by
    cases hfind : s.find object with
    | none => rw [dispatch, hfind]
    | some x =>
      rw [dispatch, hfind]
      dsimp only
      rw [h x hfind]
  induction n with
  | zero => rfl
  | succ n ih =>
    have hstep : step jid bareEqual s (.dispatch object) = s := hdispatch
    rw [List.replicate_succ, List.foldl_cons, hstep, ih]

theorem onMessage_open {s : Session} (h : ¬ s.state.Ended) : s.onMessage .state =
    (if s.state = .sentAccept ∨ s.state = .receivedAccept then s.setState .inProgress else s,
      false, []) := by
  rw [Session.onMessage]
  cases hs : s.state <;> first | rfl | exact absurd (by rw [hs]; trivial) h

theorem leads_dispatches {n : Nat} (h : s.find object = some x) (hopen : ¬ x.session.state.Ended)
    (honly : x.session.OnlyState) (hdone : x.session.rest = .done)
    (hn : x.session.queue.length +
      (if x.session.state = .sentAccept ∨ x.session.state = .receivedAccept then 1 else 0) ≤ n) :
    ∃ τ, Leads object s x.session
      ((List.replicate n (Event.dispatch object)).foldl (step jid bareEqual) s) τ ∧ τ.Idle := by
  induction n generalizing s x with
  | zero => exact ⟨_, leads_refl h, List.length_eq_zero_iff.mp (by omega), hdone⟩
  | succ n ih =>
    cases hqueue : x.session.queue with
    | nil =>
      rw [dispatches_idle (fun y hy => by rw [h] at hy; cases hy; exact hqueue)]
      exact ⟨_, leads_refl h, hqueue, hdone⟩
    | cons id queue =>
      have hid : id = .state := honly id (by simp [hqueue])
      subst hid
      have hmessage := onMessage_open (s := { x.session with queue := queue }) hopen
      have hstep : step jid bareEqual s (.dispatch object) = s.modify object fun y =>
          { y with session := ({ x.session with queue := queue }.onMessage .state).1 } := by
        rw [step, handle, dispatch, h]
        dsimp only
        rw [hqueue]
        dsimp only
        rw [hmessage]
        rfl
      have hleads := leads_modify h (f := fun y => { y with
        session := ({ x.session with queue := queue }.onMessage .state).1 }) fun _ => ⟨rfl, rfl⟩
      obtain ⟨y, hy, hsession⟩ := hleads.find
      rw [← hsession] at hleads
      have hrest : Session.OnlyState { x.session with queue := queue } := fun id hid =>
        honly id (by rw [hqueue]; exact List.mem_cons_of_mem _ hid)
      rw [hqueue, List.length_cons] at hn
      rw [hmessage] at hsession
      rw [List.replicate_succ, List.foldl_cons, hstep]
      suffices hnext : ¬ y.session.state.Ended ∧ y.session.OnlyState ∧ y.session.rest = .done ∧
          y.session.queue.length +
            (if y.session.state = .sentAccept ∨ y.session.state = .receivedAccept then 1 else 0) ≤ n by
        obtain ⟨hopen, honly, hdone, hn⟩ := hnext
        obtain ⟨τ, hτ, hidle⟩ := ih hy hopen honly hdone hn
        exact ⟨τ, hleads.trans hτ, hidle⟩
      by_cases haccept : x.session.state = .sentAccept ∨ x.session.state = .receivedAccept
      · rw [if_pos haccept] at hn
        have hne : Session.State.inProgress ≠ x.session.state := by
          rcases haccept with hs | hs <;> simp [hs]
        have hset : y.session =
            { x.session with state := .inProgress, queue := queue ++ [.state] } := by
          rw [hsession]
          dsimp only
          rw [if_pos haccept]
          exact if_pos hne
        rw [hset]
        refine ⟨id, fun id hid => ?_, hdone, ?_⟩
        · rcases List.mem_append.mp hid with hid | hid
          · exact hrest id hid
          · exact List.mem_singleton.mp hid
        · simp only [List.length_append, List.length_singleton]
          simp
          omega
      · have hset : y.session = { x.session with queue := queue } := by
          rw [hsession]
          exact if_neg haccept
        rw [hset]
        have hlength : queue.length ≤ n := by omega
        refine ⟨hopen, hrest, hdone, ?_⟩
        rw [if_neg haccept]
        exact hlength

variable (bareEqual) in
theorem drain_ended (h : s.find object = some x) (hended : x.session.state.Ended)
    (honly : x.session.OnlyState) (hposted : Session.MessageId.state ∈ x.session.queue)
    (hmapped : s.getSession x.id = some object) :
    (s.drain jid bareEqual object).sessionMap = s.sessionMap.erase x.id ∧
      ∀ y ∈ (s.drain jid bareEqual object).live, y ∈ s.live ∧ y.object ≠ object := by
  obtain ⟨n, -, hdrain⟩ := drain_eq bareEqual s object
  obtain ⟨id, queue, hqueue⟩ := List.exists_cons_of_ne_nil (List.ne_nil_of_mem hposted)
  have hid : id = .state := honly id (by simp [hqueue])
  subst hid
  have hmessage := Session.onMessage_state_of_ended (s := { x.session with queue := queue }) hended
  have hfind := find_modify (f := fun y => { y with
    session := { x.session with queue := queue } }) (fun _ => ⟨rfl, rfl⟩) h
  have hstep : step jid bareEqual s (.dispatch object) =
      { s.modify object (fun y => { y with session := { x.session with queue := queue } }) with
        sessionMap := s.sessionMap.erase x.id
        live := (s.modify object fun y =>
          { y with session := { x.session with queue := queue } }).live.filter
            (·.object ≠ object) } := by
    rw [step, handle, dispatch, h]
    dsimp only
    rw [hqueue]
    dsimp only
    rw [hmessage]
    dsimp only
    rw [if_pos rfl, SessionTable.destroySession, hfind]
    dsimp only
    rw [show getSession (s.modify object _) x.id = some object from hmapped]
    rfl
  have hlive : ∀ y ∈ (step jid bareEqual s (.dispatch object)).live,
      y ∈ s.live ∧ y.object ≠ object := by
    intro y hy
    rw [hstep] at hy
    obtain ⟨hy, hne⟩ := List.mem_filter.mp hy
    obtain ⟨z, hz, rfl⟩ := mem_modify hy
    have hne := of_decide_eq_true hne
    by_cases hobject : z.object = object
    · rw [if_pos hobject] at hne
      exact absurd hobject hne
    · rw [if_neg hobject]
      exact ⟨hz, hobject⟩
  have hgone : (step jid bareEqual s (.dispatch object)).find object = none :=
    List.find?_eq_none.mpr fun y hy => by simpa using (hlive y hy).2
  rw [hdrain, List.replicate_succ, List.foldl_cons,
    dispatches_idle (fun y hy => by rw [hgone] at hy; cases hy)]
  refine ⟨?_, hlive⟩
  rw [hstep]

variable (bareEqual) in
theorem leads_drain (h : s.find object = some x)
    (hopen : ¬ x.session.state.Ended ∨ x.session.queue = []) (honly : x.session.OnlyState)
    (hdone : x.session.rest = .done) :
    ∃ τ, Leads object s x.session (s.drain jid bareEqual object) τ ∧ τ.Idle := by
  obtain ⟨n, hn, hdrain⟩ := drain_eq bareEqual s object
  rw [hdrain]
  rcases hopen with hopen | hqueue
  · refine leads_dispatches h hopen honly hdone ?_
    rw [hn x h]
    split <;> omega
  · rw [dispatches_idle (fun y hy => by rw [h] at hy; cases hy; exact hqueue)]
    exact ⟨_, leads_refl h, hqueue, hdone⟩

/-- No session of the table has anything to be handled. -/
def AllIdle (s : SessionTable) : Prop := ∀ x ∈ s.live, x.session.Idle

theorem Leads.sessionMap (h : Leads object s σ t τ) : t.sessionMap = s.sessionMap := by
  obtain ⟨x, f, -, -, -, rfl, -⟩ := h
  rfl

theorem Leads.live (h : Leads object s σ t τ) (hs : Numbered s) :
    ∀ y ∈ t.live, (y.object = object ∧ y.session = τ) ∨ (y.object ≠ object ∧ y ∈ s.live) := by
  obtain ⟨x, f, hfind, -, hf, rfl, rfl⟩ := h
  intro y hy
  obtain ⟨z, hz, rfl⟩ := mem_modify hy
  by_cases hobject : z.object = object
  · have hzx : z = x := by
      have hz' := hs.find hz
      rw [hobject, hfind] at hz'
      exact (Option.some.inj hz').symm
    rw [if_pos hobject]
    exact .inl ⟨(hf z).1.trans hobject, by rw [hzx]⟩
  · rw [if_neg hobject]
    exact .inr ⟨hobject, hz⟩

structure Left (jid : String → Jid) (bareEqual : Jid → Jid → Bool) (listener : Session.Listener)
    (stanza : Stanza) (x : Entry) (s : SessionTable) (t : SessionTable × List Output) : Prop where
  idle : t.1.AllIdle
  refused : (∃ o ∈ t.2, o.isError = true) →
    (t.1.sessionMap = s.sessionMap ∧ ¬ x.session.Terminated listener stanza.msg) ∨
      (t.1.sessionMap = s.sessionMap.erase x.id ∧ x.session.Terminated listener stanza.msg)

theorem left_settled (hs : Numbered s) (hidle : ∀ y ∈ s.live, y.object ≠ object → y.session.Idle)
    (h : s.find object = some x) (hx : x.session.Idle) (hmapped : s.getSession x.id = some object)
    (stanza : Stanza) :
    Left jid bareEqual listener stanza x s
      ((respondAt jid bareEqual listener (s.deliver object stanza) object).1.drain jid bareEqual
          object, (respondAt jid bareEqual listener (s.deliver object stanza) object).2) := by
  obtain ⟨hleads, herrors⟩ := leads_respond bareEqual h stanza
  obtain ⟨hdone, honly⟩ := Session.respond_done hx stanza.msg
  obtain ⟨y, hy, hsession⟩ := hleads.find
  have hid : y.id = x.id := by
    obtain ⟨z, f, hz, -, hf, heq, -⟩ := hleads
    rw [h] at hz
    cases hz
    rw [heq, find_modify hf h] at hy
    cases hy
    exact (hf x).2
  have hmapped' : getSession (respondAt jid bareEqual listener (s.deliver object stanza) object).1
      y.id = some object := by
    rw [getSession, hleads.sessionMap, hid]
    exact hmapped
  rw [← hsession] at hdone honly
  have hrefusal : (∃ o ∈ (respondAt jid bareEqual listener (s.deliver object stanza) object).2,
      o.isError = true) → Session.Refusal listener x.session stanza.msg y.session := by
    intro herror
    rw [hsession]
    exact Session.respond_refusal hx (herrors.mp herror)
  by_cases hleft : y.session.state.Ended ∧ Session.MessageId.state ∈ y.session.queue
  · obtain ⟨hmap, hlive⟩ := drain_ended bareEqual hy hleft.1 honly
      hleft.2 hmapped'
    refine ⟨fun z hz => ?_, fun herror => .inr ⟨?_, ?_⟩⟩
    · obtain ⟨hz, hobject⟩ := hlive z hz
      rcases hleads.live hs z hz with ⟨hsame, -⟩ | ⟨-, hz⟩
      · exact absurd hsame hobject
      · exact hidle z hz hobject
    · rw [hmap, hleads.sessionMap, hid]
    · rcases hrefusal herror with ⟨-, hempty⟩ | ⟨-, hended⟩
      · rw [hempty] at hleft
        exact absurd hleft.2 List.not_mem_nil
      · exact hended.mp hleft.1
  · have hopen : ¬ y.session.state.Ended ∨ y.session.queue = [] := by
      rcases not_and_or.mp hleft with hopen | hempty
      · exact .inl hopen
      · refine .inr (List.eq_nil_iff_forall_not_mem.mpr fun id hid => hempty ?_)
        rw [← honly id hid]
        exact hid
    obtain ⟨τ, hdrain, hτ⟩ := leads_drain bareEqual hy hopen honly hdone
    rw [hsession] at hdrain
    have hall := hleads.trans hdrain
    refine ⟨fun z hz => ?_, fun herror => .inl ⟨hall.sessionMap, fun hterminated => ?_⟩⟩
    · rcases hall.live hs z hz with ⟨-, rfl⟩ | ⟨hobject, hz⟩
      · exact hτ
      · exact hidle z hz hobject
    · rcases hrefusal herror with ⟨hnone, -⟩ | ⟨hposted, hended⟩
      · obtain ⟨state, hstop, -⟩ := hterminated
        rw [hnone] at hstop
        cases hstop
      · exact hleft ⟨hended.mpr hterminated, hposted⟩

theorem settle_found (hs : Numbered s) (hidle : s.AllIdle) {stanza : Stanza}
    (h : s.findSession jid stanza.sid stanza.sender = some x) :
    x ∈ s.live ∧ s.getSession x.id = some x.object ∧
      Left jid bareEqual listener stanza x s (s.settle jid bareEqual listener (.ok stanza)) := by
  have hx : x ∈ s.live := (of_findSession h).1
  have hmapped : s.getSession x.id = some x.object := by
    rw [findSession] at h
    split at h
    · cases h
    · rename_i object hsid
      obtain ⟨y, hy, rfl, hid⟩ := hs.named _ _ hsid
      rw [hs.find hy] at h
      obtain ⟨hsome, -⟩ := Option.filter_eq_some_iff.mp h
      cases hsome
      rw [hid]
      exact hsid
  refine ⟨hx, hmapped, ?_⟩
  have hsettle : s.settle jid bareEqual listener (.ok stanza) =
      ((respondAt jid bareEqual listener (s.deliver x.object stanza) x.object).1.drain jid
        bareEqual x.object,
        (respondAt jid bareEqual listener (s.deliver x.object stanza) x.object).2) := by
    rw [settle, onIncomingMessage]
    rw [h]
    rfl
  rw [hsettle]
  exact left_settled hs (fun y hy _ => hidle y hy) (hs.find hx) (hidle x hx) hmapped stanza

variable (bareEqual) (listener) in
theorem settle_created (hs : Numbered s) (hidle : s.AllIdle) {stanza : Stanza}
    (h : s.Creates jid stanza) :
    Left jid bareEqual listener stanza { object := s.next, id := stanza.sid }
      (s.createSession stanza.sid) (s.settle jid bareEqual listener (.ok stanza)) := by
  obtain ⟨hnone, htype, type, hcontent, hclient⟩ := h
  have hnew := hs.createSession stanza.sid
  have hmem : ({ object := s.next, id := stanza.sid } : Entry) ∈
      (s.createSession stanza.sid).live := List.mem_append_right _ (List.mem_singleton_self _)
  have hsettle : s.settle jid bareEqual listener (.ok stanza) =
      ((respondAt jid bareEqual listener ((s.createSession stanza.sid).deliver s.next stanza)
        s.next).1.drain jid bareEqual s.next,
        (respondAt jid bareEqual listener ((s.createSession stanza.sid).deliver s.next stanza)
          s.next).2) := by
    rw [settle, onIncomingMessage]
    rw [hnone, if_neg (by simp [htype]), hcontent]
    dsimp only
    rw [if_neg (by simp [hclient])]
    rfl
  rw [hsettle]
  refine left_settled hnew (fun y hy hne => ?_) (hnew.find hmem) ⟨rfl, rfl⟩
    (AList.lookup_insert _) stanza
  rcases List.mem_append.mp hy with hy | hy
  · exact hidle y hy
  · rw [List.mem_singleton.mp hy] at hne
    exact absurd rfl hne

variable (bareEqual) (listener) in
theorem settle_unknown (hs : Numbered s) {stanza : Stanza}
    (hnone : s.findSession jid stanza.sid stanza.sender = none) (h : ¬ s.Creates jid stanza) :
    (s.settle jid bareEqual listener (.ok stanza)).1 = s := by
  have hreceived : (s.onIncomingMessage jid (.ok stanza)).1 = s := by
    rw [onIncomingMessage]
    rw [hnone]
    dsimp only
    split
    · rfl
    · rename_i htype
      split
      · rfl
      · rename_i type hcontent
        split
        · rfl
        · rename_i hclient
          exact absurd ⟨hnone, not_not.mp htype, type, hcontent, not_not.mp hclient⟩ h
  have hgone : s.find s.next = none := by
    refine List.find?_eq_none.mpr fun x hx => ?_
    simpa using Nat.ne_of_lt (hs.bound x hx)
  have hgoOn : s.goOn jid bareEqual listener s.next = (s, []) := by
    rw [goOn, hgone]
  obtain ⟨n, -, hdrain⟩ := drain_eq bareEqual s s.next
  rw [settle]
  dsimp only
  rw [hnone, hreceived, Option.map_none, Option.getD_none, hgoOn]
  dsimp only
  rw [hgoOn]
  dsimp only
  rw [hdrain, dispatches_idle (fun x hx => by rw [hgone] at hx; cases hx)]

end Leading

variable (jid) (bareEqual) (listener) in
theorem settle_spec (hs : Numbered s) (hidle : s.AllIdle) (parsed : Except String Stanza) :
    (s.settle jid bareEqual listener parsed).1.AllIdle ∧
      (s.Refused jid bareEqual listener parsed →
        (s.Unchanged jid bareEqual listener parsed ↔ s.Cleared jid listener parsed)) := by
  cases parsed with
  | error text => exact ⟨hidle, fun _ => ⟨fun _ => trivial, fun _ _ => rfl⟩⟩
  | ok stanza =>
    cases hfound : s.findSession jid stanza.sid stanza.sender with
    | some x =>
      obtain ⟨hx, hmapped, hleft⟩ := settle_found hs hidle hfound
      have hcleared : s.Cleared jid listener (.ok stanza) ↔
          ¬ x.session.Terminated listener stanza.msg := by
        simp [Cleared, Creates, hfound]
      refine ⟨hleft.idle, fun hrefused => ?_⟩
      rw [hcleared]
      rcases hleft.refused hrefused with ⟨hmap, hkept⟩ | ⟨hmap, hterminated⟩
      · refine ⟨fun _ => hkept, fun _ sid => ?_⟩
        rw [getSession, hmap]
        rfl
      · refine ⟨fun h => ?_, fun h => absurd hterminated h⟩
        have hsame := h x.id
        rw [getSession, hmap, AList.lookup_erase, hmapped] at hsame
        cases hsame
    | none =>
      by_cases hcreates : s.Creates jid stanza
      · have hleft := settle_created bareEqual listener hs hidle hcreates
        have hcleared : s.Cleared jid listener (.ok stanza) ↔ s.getSession stanza.sid = none ∧
            Session.Terminated listener {} stanza.msg := by
          simp [Cleared, hcreates, hfound]
        refine ⟨hleft.idle, fun hrefused => ?_⟩
        rw [hcleared]
        rcases hleft.refused hrefused with ⟨hmap, hkept⟩ | ⟨hmap, hterminated⟩
        · refine ⟨fun h => ?_, fun h => absurd h.2 hkept⟩
          have hsame := h stanza.sid
          have hnew : (s.createSession stanza.sid).getSession stanza.sid = some s.next :=
            AList.lookup_insert _
          rw [getSession, hmap] at hsame
          obtain ⟨x, hx, hobject, -⟩ := hs.named stanza.sid s.next (hsame ▸ hnew)
          exact absurd hobject (Nat.ne_of_lt (hs.bound x hx))
        · have herased : ∀ sid, (s.settle jid bareEqual listener (.ok stanza)).1.getSession sid =
              if sid = stanza.sid then none else s.getSession sid := by
            intro sid
            rw [getSession, hmap]
            split
            · rename_i hsid
              rw [hsid]
              exact AList.lookup_erase _ _
            · rename_i hsid
              rw [AList.lookup_erase_ne hsid]
              exact AList.lookup_insert_ne hsid
          constructor
          · intro h
            have hsame := h stanza.sid
            rw [herased, if_pos rfl] at hsame
            exact ⟨hsame.symm, hterminated⟩
          · rintro ⟨hsid, -⟩ sid
            rw [herased]
            split
            · rename_i heq
              rw [heq, hsid]
            · rfl
      · have hsame := settle_unknown bareEqual listener hs hfound hcreates
        have hcleared : s.Cleared jid listener (.ok stanza) := by
          simp [Cleared, hcreates, hfound]
        rw [hsame]
        refine ⟨hidle, fun _ => ⟨fun _ => hcleared, fun _ sid => ?_⟩⟩
        rw [hsame]

theorem changes_handleAll (s : SessionTable) (events : List Event) :
    Changes s (s.handleAll jid bareEqual events).1 := by
  induction events generalizing s with
  | nil => exact .same s
  | cons e rest ih => exact (changes_step s e).trans (ih _)

theorem changes_goOn (s : SessionTable) (object : Nat) :
    Changes s (s.goOn jid bareEqual listener object).1 := by
  rw [goOn]
  split
  · exact .same s
  · split
    · exact .same s
    · exact changes_handleAll s _

theorem changes_settle (s : SessionTable) (parsed : Except String Stanza) :
    Changes s (s.settle jid bareEqual listener parsed).1 := by
  have hreceived := changes_onIncomingMessage jid s parsed
  cases parsed with
  | error text => exact hreceived
  | ok stanza =>
    exact ((hreceived.trans (changes_goOn _ _)).trans (changes_goOn _ _)).trans
      (changes_handleAll _ _)

/-- The stanzas that are refused leave the map alone exactly when each of them is cleared. -/
theorem unchanged_iff (events : List Event)
    (hidle : AllIdle (events.foldl (step jid bareEqual) {})) (stanzas : List (Except String Stanza)) :
    Runs.Along (fun s parsed => (settle jid bareEqual listener s parsed).1)
        (fun s parsed => s.Refused jid bareEqual listener parsed →
          s.Unchanged jid bareEqual listener parsed)
        (events.foldl (step jid bareEqual) {}) stanzas ↔
      Runs.Along (fun s parsed => (settle jid bareEqual listener s parsed).1)
        (fun s parsed => s.Refused jid bareEqual listener parsed → s.Cleared jid listener parsed)
        (events.foldl (step jid bareEqual) {}) stanzas := by
  refine @Runs.along_iff _ _ _ _ _ (fun s => Numbered s ∧ AllIdle s) (fun s parsed hs => ?_)
    (fun s parsed hs _ => ?_) _ ⟨numbered_run events numbered_empty, hidle⟩ stanzas
  · have hspec := (settle_spec jid bareEqual listener hs.1 hs.2 parsed).2
    exact forall_congr' hspec
  · exact ⟨(changes_settle s parsed).numbered hs.1, (settle_spec _ _ _ hs.1 hs.2 parsed).1⟩

/-- An initiate whose contents cannot be read, or whose candidates cannot be taken. -/
def badInitiate (sid : String) (readable : Bool) : Except String Stanza :=
  .ok ⟨sid, "romeo@example.net/a", .ok "rtp", ⟨.jingle, .sessionInitiate, "", readable, false⟩⟩

/-- The listeners terminate every session with bad candidates. -/
theorem unchanged_iff_terminated :
    Runs.Along (fun s parsed => (settle id (fun a b => a == b)
        (fun _ => [("", .terminate "general-error")]) s parsed).1)
      (fun s parsed => s.Refused id (fun a b => a == b)
          (fun _ => [("", .terminate "general-error")]) parsed →
        s.Unchanged id (fun a b => a == b) (fun _ => [("", .terminate "general-error")]) parsed)
      ([Event.addClient "rtp"].foldl (step id fun a b => a == b) {})
      [badInitiate "1" true] := by
  refine (unchanged_iff _ (fun x hx => absurd hx List.not_mem_nil) _).mpr ⟨fun _ => ?_, trivial⟩
  refine ⟨fun x hx => ?_, fun _ => ⟨by decide, .receivedInitiate, by decide, ?_⟩⟩
  · have hnone : findSession ([Event.addClient "rtp"].foldl (step id fun a b => a == b) {}) id "1"
        "romeo@example.net/a" = none := by decide
    rw [hnone] at hx
    cases hx
  · exact ⟨_, List.mem_cons_self, _, rfl⟩

/-- A session whose initiate could not be read stays in the map. -/
theorem refused_session_stays :
    let s := [Event.addClient "rtp"].foldl (step id fun a b => a == b) {}
    s.Refused id (fun a b => a == b) (fun _ => []) (badInitiate "1" false) ∧
      ¬ s.Unchanged id (fun a b => a == b) (fun _ => []) (badInitiate "1" false) := by
  intro s
  have hrefused : (s.settle id (fun a b => a == b) (fun _ => []) (badInitiate "1" false)).2.any
      Output.isError = true := by decide
  refine ⟨List.any_eq_true.mp hrefused, fun h => ?_⟩
  have hsame := h "1"
  revert hsame
  decide

end Numbers

end SessionTable

end Libjingle
