import Libjingle.Xmpp.LoginSafety

/-! What was received and is not looked at any more: engines that differ only in it do the
same for ever. -/

namespace Libjingle

namespace XmppLoginTask

variable {env : XmppEnvironment}

/-- The task without what its state does not look at. -/
def core (t : XmppLoginTask env.sasl) : XmppLoginTask env.sasl :=
  { t with
    fullJid := if t.state = .sessionRequested then t.fullJid else ""
    streamId := ""
    saslMech := if t.state = .saslRunning then t.saslMech else none }

def forget (t : XmppLoginTask env.sasl) : XmppLoginTask env.sasl :=
  { t with
    stanza := none
    isStart := false
    features := none
    fullJid := ""
    streamId := ""
    saslMech := none }

namespace Login

variable {l : Login env}

/-- The engine that the task works on has the task as it was before. -/
def core (l : Login env) : Login env :=
  ⟨{ l.engine with loginTask := none }, l.task.core⟩

/-- Turns that cannot be told apart. -/
structure Alike (r r' : Login env × Bool) : Prop where
  core : r.1.core = r'.1.core
  again : r.2 = r'.2

theorem alike_ite {c : Prop} [Decidable c] {r₁ r₂ r₁' r₂' : Login env × Bool}
    (h₁ : c → Alike r₁ r₁') (h₂ : ¬ c → Alike r₂ r₂') :
    Alike (if c then r₁ else r₂) (if c then r₁' else r₂') := by
  split
  next hc => exact h₁ hc
  next hc => exact h₂ hc

theorem alike_failure {m : Login env} (hengine : m.engine = { l.engine with loginTask := none })
    (htask : XmppLoginTask.core { m.task with state := .done } =
      XmppLoginTask.core { l.task with state := .done }) (error : XmppEngine.Error) :
    Alike (m.failure error, false) (l.failure error, false) := by
  have herror : (XmppEngine.signalError { l.engine with loginTask := none } error) =
      { l.engine.signalError error with loginTask := none } := by
    unfold XmppEngine.signalError
    simp only
    split <;> rfl
  refine ⟨?_, rfl⟩
  simp only [core, failure, setState, hengine, herror, htask]

theorem alike_startedXmpp (l : Login env) (e : XmlElement) :
    Alike (l.core.startedXmpp e) (l.startedXmpp e) := by
  unfold startedXmpp
  refine alike_ite (fun _ => alike_failure (by rfl) (by rfl) _) fun _ => ?_
  refine alike_ite (fun _ => alike_failure (by rfl) (by rfl) _) fun _ => ?_
  refine alike_ite (fun _ => ⟨rfl, rfl⟩) fun _ => ?_
  exact alike_ite (fun _ => ⟨rfl, rfl⟩) fun _ => ⟨rfl, rfl⟩

theorem alike_authInit (l : Login env) : Alike l.core.authInit l.authInit := by
  unfold authInit
  have hfeature : l.core.getFeature qnSaslMechanisms = l.getFeature qnSaslMechanisms := rfl
  have hencrypted : l.core.engine.encrypted = l.engine.encrypted := rfl
  rw [hfeature, hencrypted]
  split
  next => exact alike_failure (by rfl) (by rfl) _
  next =>
    refine alike_ite (fun _ => alike_failure (by rfl) (by rfl) _) fun _ => ?_
    split
    next => exact alike_failure (by rfl) (by rfl) _
    next => exact alike_failure (by rfl) (by rfl) _
    next => exact ⟨rfl, rfl⟩

theorem alike_saslRunning (hstate : l.task.state = .saslRunning) (e : XmlElement) :
    Alike (l.core.saslRunning e) (l.saslRunning e) := by
  have hmech : l.core.task.saslMech = l.task.saslMech := if_pos hstate
  unfold saslRunning
  refine alike_ite (fun _ => alike_failure (by rfl) (by rfl) _) fun _ => ?_
  refine alike_ite (fun _ => ?_) fun _ => ?_
  · rw [hmech]
    split
    next => exact ⟨rfl, rfl⟩
    next => exact alike_failure (by rfl) (by rfl) _
    next => exact alike_failure (by rfl) (by rfl) _
  · exact alike_ite (fun _ => alike_failure (by rfl) (by rfl) _) fun _ => ⟨rfl, rfl⟩

theorem core_core (l : Login env) : l.core.core = l.core := by
  simp only [core, XmppLoginTask.core]
  split <;> split <;> simp_all

theorem alike_bindRequested (l : Login env) (e : XmlElement) :
    Alike (l.core.bindRequested e) (l.bindRequested e) := by
  unfold bindRequested
  refine alike_ite (fun _ => ⟨core_core l, rfl⟩) fun _ => ?_
  split
  next => exact alike_failure (by rfl) (by rfl) _
  next first _ =>
    refine alike_ite (fun _ => alike_failure (by rfl) (by rfl) _) fun _ => ?_
    exact alike_ite (fun _ => alike_failure (by rfl) (by rfl) _) fun _ => ⟨rfl, rfl⟩

theorem alike_sessionRequested (hstate : l.task.state = .sessionRequested) (e : XmlElement) :
    Alike (l.core.sessionRequested e) (l.sessionRequested e) := by
  have hjid : l.core.task.fullJid = l.task.fullJid := if_pos hstate
  have hbound : XmppEngine.signalBound { l.engine with loginTask := none } l.task.fullJid =
      { l.engine.signalBound l.task.fullJid with loginTask := none } := by
    unfold XmppEngine.signalBound
    simp only
    split <;> rfl
  unfold sessionRequested
  refine alike_ite (fun _ => ⟨core_core l, rfl⟩) fun _ => ?_
  refine alike_ite (fun _ => alike_failure (by rfl) (by rfl) _) fun _ => ⟨?_, rfl⟩
  rw [hjid]
  simp only [core, flushQueuedStanzas, setState]
  rw [hbound]
  rfl

theorem alike_startTls (l : Login env) (duringTls : List XmlElement) :
    Alike ({ (l.core.startTls duringTls).setState .init with
        engine := { (l.core.startTls duringTls).engine with tlsOption := .enabled } }, true)
      ({ (l.startTls duringTls).setState .init with
        engine := { (l.startTls duringTls).engine with tlsOption := .enabled } }, true) := by
  have hhandler : l.core.engine.outputHandler = l.engine.outputHandler := rfl
  unfold startTls
  rw [hhandler]
  split
  next =>
    rw [foldl_accepted, foldl_accepted]
    exact ⟨rfl, rfl⟩
  next => exact ⟨rfl, rfl⟩

theorem alike_turn (l : Login env) (duringTls : List XmlElement) :
    Alike (l.core.turn duringTls) (l.turn duringTls) := by
  have hstate : l.core.task.state = l.task.state := rfl
  have hstanza : l.core.task.stanza = l.task.stanza := rfl
  unfold turn
  rw [hstate, hstanza]
  split
  next => exact ⟨rfl, rfl⟩
  next => exact alike_ite (fun _ => ⟨rfl, rfl⟩) fun _ => alike_failure (by rfl) (by rfl) _
  next e _ _ => exact alike_startedXmpp (l.take e) e
  next => exact alike_ite (fun _ => ⟨rfl, rfl⟩) fun _ => alike_failure (by rfl) (by rfl) _
  next e _ _ =>
    exact alike_ite (fun _ => alike_failure (by rfl) (by rfl) _) fun _ =>
      alike_startTls (l.take e) duringTls
  next => exact alike_authInit l
  next e hs _ => exact alike_saslRunning (l := l.take e) hs e
  next => exact alike_ite (fun _ => ⟨rfl, rfl⟩) fun _ => alike_failure (by rfl) (by rfl) _
  next e _ _ => exact alike_bindRequested (l.take e) e
  next e hs _ => exact alike_sessionRequested (l := l.take e) hs e
  next => exact ⟨core_core l, rfl⟩

theorem core_loop {m : Login env} (h : l.core = m.core) (duringTls : List XmlElement) (n : Nat) :
    (loop duringTls n l).core = (loop duringTls n m).core := by
  induction n generalizing l m with
  | zero => exact h
  | succ n ih =>
    have hl := alike_turn l duringTls
    have hm := alike_turn m duringTls
    rw [h] at hl
    have hcore : (l.turn duringTls).1.core = (m.turn duringTls).1.core := hl.core.symm.trans hm.core
    have hagain : (l.turn duringTls).2 = (m.turn duringTls).2 := hl.again.symm.trans hm.again
    unfold loop
    split
    next l' hturn =>
      split
      next m' hturn' =>
        rw [hturn, hturn'] at hcore
        exact ih hcore
      next hturn' =>
        rw [hturn, hturn'] at hagain
        cases hagain
    next l' hturn =>
      split
      next hturn' =>
        rw [hturn, hturn'] at hagain
        cases hagain
      next m' hturn' =>
        rw [hturn, hturn'] at hcore
        exact hcore

end Login

end XmppLoginTask

namespace XmppEngine

variable {env : XmppEnvironment} {s s' : XmppEngine env}

def core (s : XmppEngine env) : XmppEngine env :=
  { s with loginTask := s.loginTask.map XmppLoginTask.core }

def forget (s : XmppEngine env) : XmppEngine env :=
  { s with stanzaParser := {}, loginTask := s.loginTask.map XmppLoginTask.forget }

def Agree (s s' : XmppEngine env) : Prop := s.core = s'.core

theorem Agree.log (h : Agree s s') : s.log = s'.log := congrArg (fun t => t.log) h

theorem Agree.map {f : XmppEngine env → XmppEngine env} (hf : ∀ s, (f s).core = f s.core)
    (h : Agree s s') : Agree (f s) (f s') := by
  rw [Agree, hf, hf, h]

theorem Agree.signalError (h : Agree s s') (error : Error) :
    Agree (s.signalError error) (s'.signalError error) :=
  Agree.map (f := fun s => s.signalError error) (fun _ => apply_ite core ..) h

theorem Agree.takeStanza (h : Agree s s') (e : XmlElement) :
    Agree (s.takeStanza e) (s'.takeStanza e) := by
  refine Agree.map (f := fun s => s.takeStanza e) (fun s => ?_) h
  cases hlogin : s.loginTask with
  | none => simp only [XmppEngine.takeStanza, core, hlogin, Option.map_none, send, record]
  | some t => simp only [XmppEngine.takeStanza, core, hlogin, Option.map_some, record,
      XmppLoginTask.core]

theorem Agree.advanceLogin (h : Agree s s') {t t' : XmppLoginTask env.sasl} (ht : t.core = t'.core)
    (stanza : Option XmlElement) (isStart : Bool) (duringTls : List XmlElement) :
    Agree (s.advanceLogin t stanza isStart duringTls)
      (s'.advanceLogin t' stanza isStart duringTls) := by
  have hengine : { s with loginTask := none } = { s' with loginTask := none } :=
    congrArg (fun u : XmppEngine env => { u with loginTask := none }) h
  have hstart : XmppLoginTask.Login.core ⟨s, { t with stanza, isStart }⟩ =
      XmppLoginTask.Login.core ⟨s', { t' with stanza, isStart }⟩ := by
    have htask := congrArg (fun u : XmppLoginTask env.sasl => { u with stanza, isStart }) ht
    simp only [XmppLoginTask.Login.core, hengine]
    exact congrArg _ htask
  have hloop := XmppLoginTask.Login.core_loop hstart duringTls 4
  unfold XmppEngine.advanceLogin XmppLoginTask.Login.advance
  generalize XmppLoginTask.Login.loop duringTls 4 ⟨s, { t with stanza, isStart }⟩ = l at hloop
  generalize XmppLoginTask.Login.loop duringTls 4 ⟨s', { t' with stanza, isStart }⟩ = l' at hloop
  have hlogin : l.task.core = l'.task.core := congrArg (fun m => m.task) hloop
  have hstate : l.task.state = l'.task.state := congrArg (fun u => u.state) hlogin
  have hrest : { l.engine with loginTask := none } = { l'.engine with loginTask := none } :=
    congrArg (fun m => m.engine) hloop
  have hput : ∀ login : Option (XmppLoginTask env.sasl),
      { l.engine with loginTask := login } = { l'.engine with loginTask := login } := fun login =>
    congrArg (fun u : XmppEngine env => { u with loginTask := login }) hrest
  have hleft := congrArg (fun u : XmppLoginTask env.sasl => { u with stanza := none, isStart := false })
    hlogin
  simp only [Agree, core]
  by_cases hdone : l'.task.state = .done
  · rw [if_pos hdone, if_pos (hstate.trans hdone)]
    exact hput none
  · rw [if_neg hdone, if_neg fun hs => hdone (hstate.symm.trans hs)]
    exact (hput _).trans (congrArg (fun u => { l'.engine with loginTask := some u }) hleft)

theorem Agree.foldl {α : Type} {f : XmppEngine env → α → XmppEngine env}
    (hf : ∀ s s' a, Agree s s' → Agree (f s a) (f s' a)) (h : Agree s s') (l : List α) :
    Agree (l.foldl f s) (l.foldl f s') := by
  induction l generalizing s s' with
  | nil => exact h
  | cons a rest ih => exact ih (hf s s' a h)

theorem Agree.login (h : Agree s s') : (s.loginTask = none ∧ s'.loginTask = none) ∨
    ∃ t t', s.loginTask = some t ∧ s'.loginTask = some t' ∧ t.core = t'.core := by
  have hlogin : s.loginTask.map XmppLoginTask.core = s'.loginTask.map XmppLoginTask.core :=
    congrArg (fun u => u.loginTask) h
  cases hs : s.loginTask with
  | none =>
    rw [hs, Option.map_none] at hlogin
    exact .inl ⟨rfl, Option.map_eq_none_iff.mp hlogin.symm⟩
  | some t =>
    rw [hs, Option.map_some] at hlogin
    obtain ⟨t', ht', hcore⟩ := Option.map_eq_some_iff.mp hlogin.symm
    exact .inr ⟨t, t', rfl, ht', hcore.symm⟩

theorem Agree.incoming (h : Agree s s') (duringTls : List XmlElement) (event : StanzaEvent) :
    Agree (s.incoming duringTls event) (s'.incoming duringTls event) := by
  have hignore : (s.hasError || s.raisedReset) = (s'.hasError || s'.raisedReset) :=
    congrArg (fun u => u.errorCode.isSome || u.raisedReset) h
  unfold XmppEngine.incoming
  rw [hignore]
  split
  next => exact h
  next =>
    split
    next stream =>
      unfold incomingStart
      obtain ⟨hs, hs'⟩ | ⟨t, t', hs, hs', ht⟩ := h.login
      · rw [hs, hs']
        exact h.signalError _
      · rw [hs, hs']
        exact h.advanceLogin ht _ _ _
    next stanza =>
      unfold incomingStanza
      split
      next => exact h.signalError _
      next =>
        obtain ⟨hs, hs'⟩ | ⟨t, t', hs, hs', ht⟩ := h.login
        · rw [hs, hs']
          exact h.foldl (fun _ _ e hagree => hagree.takeStanza e) _
        · rw [hs, hs']
          exact h.advanceLogin ht _ _ _
    next => exact h.signalError _
    next => exact h.signalError _

variable {during : XmppEngine env → XmppEngine env}

theorem Agree.writeOutput (hduring : ∀ s s', Agree s s' → Agree (during s) (during s'))
    (h : Agree s s') : Agree (s.writeOutput during) (s'.writeOutput during) := by
  have houtput : s.output = s'.output := congrArg (fun u => u.output) h
  unfold XmppEngine.writeOutput
  by_cases hempty : s'.output.isEmpty
  · rw [if_pos hempty, if_pos (houtput ▸ hempty)]
    exact h
  · rw [if_neg hempty, if_neg (houtput ▸ hempty)]
    have hwritten := hduring _ _ (Agree.map
      (f := fun s => { s with log := s.log ++ s.output.map .wrote }) (fun _ => rfl) h)
    exact Agree.map (f := fun s => { s with output := [] }) (fun _ => rfl) hwritten

theorem Agree.flush (hduring : ∀ s s', Agree s s' → Agree (during s) (during s'))
    (h : Agree s s') (before : State) : Agree (s.flush during before) (s'.flush during before) := by
  have hhandler : s.outputHandler = s'.outputHandler := congrArg (fun u => u.outputHandler) h
  have hstate : s.state = s'.state := congrArg (fun u => u.state) h
  have hentered : s.engineEntered = s'.engineEntered := congrArg (fun u => u.engineEntered) h
  have hwritten := h.writeOutput hduring
  unfold XmppEngine.flush
  rw [hhandler, hstate, hentered]
  split
  next =>
    split
    next =>
      exact Agree.map (f := fun s => { s.record .closeConnection with outputHandler := false })
        (fun _ => rfl) hwritten
    next => exact hwritten
  next => exact h

theorem Agree.leave (hduring : ∀ s s', Agree s s' → Agree (during s) (during s'))
    (h : Agree s s') (before : State) : Agree (s.leave during before) (s'.leave during before) := by
  have hleft := Agree.flush hduring
    (Agree.map (f := fun s => { s with engineEntered := s.engineEntered - 1 }) (fun _ => rfl) h) before
  exact Agree.map (f := resetParser) (fun _ => apply_ite core ..) hleft

theorem Agree.enter (h : Agree s s') : Agree s.enter s'.enter :=
  Agree.map (f := XmppEngine.enter) (fun _ => rfl) h

theorem Agree.sendStanzaWith (hduring : ∀ s s', Agree s s' → Agree (during s) (during s'))
    (h : Agree s s') (e : XmlElement) :
    Agree (s.sendStanzaWith during e) (s'.sendStanzaWith during e) := by
  have hstate : s.state = s'.state := congrArg (fun u => u.state) h
  unfold XmppEngine.sendStanzaWith
  rw [hstate]
  split
  next => exact h
  next => exact (h.enter.takeStanza e).leave hduring _

theorem Agree.sendAll (h : Agree s s') (elements : List XmlElement) :
    Agree (s.sendAll elements) (s'.sendAll elements) :=
  h.foldl (fun _ _ e hagree => hagree.sendStanzaWith (fun _ _ => id) e) elements

theorem Agree.handleInput (h : Agree s s') (bytes : List UInt8) (duringTls : List XmlElement) :
    Agree (s.handleInput bytes duringTls) (s'.handleInput bytes duringTls) := by
  have hparser : s.stanzaParser = s'.stanzaParser := congrArg (fun u => u.stanzaParser) h
  unfold XmppEngine.handleInput
  rw [hparser]
  refine Agree.foldl (fun _ _ event hagree => hagree.incoming duringTls event) ?_ _
  exact Agree.map (f := fun s => { s with stanzaParser := (s'.stanzaParser.parse bytes).1 })
    (fun _ => rfl) h

theorem Agree.startLogin (h : Agree s s') : Agree s.startLogin s'.startLogin := by
  unfold XmppEngine.startLogin
  obtain ⟨hs, hs'⟩ | ⟨t, t', hs, hs', ht⟩ := h.login
  · rw [hs, hs']
    exact h
  · rw [hs, hs']
    exact h.advanceLogin ht _ _ _

theorem Agree.step (h : Agree s s') (e : Event) : Agree (s.step e) (s'.step e) := by
  have hstate : s.state = s'.state := congrArg (fun u => u.state) h
  have hduring : ∀ s s' : XmppEngine env, Agree s s' →
      Agree (s.sendAll e.duringWrite) (s'.sendAll e.duringWrite) := fun _ _ hagree =>
    hagree.sendAll _
  unfold XmppEngine.step
  cases e.call with
  | connect =>
    simp only [hstate]
    split
    next => exact h
    next =>
      have hopening : Agree { s.enter with state := .opening } { s'.enter with state := .opening } :=
        Agree.map (f := fun s => { s with state := .opening }) (fun _ => rfl) h.enter
      exact hopening.startLogin.leave hduring _
  | handleInput bytes duringTls =>
    simp only [hstate]
    split
    next => exact (h.enter.handleInput bytes duringTls).leave hduring _
    next => exact h
  | sendStanza element => exact h.sendStanzaWith hduring element
  | sendRaw text =>
    have hsome : s.loginTask.isSome = s'.loginTask.isSome := by
      have := congrArg (fun u => u.loginTask.isSome) h
      simpa [core] using this
    simp only [hstate, hsome]
    split
    next => exact h
    next =>
      exact (Agree.map (f := fun s => s.send (.raw text)) (fun _ => rfl) h.enter).leave hduring _
  | disconnect =>
    simp only [hstate]
    split
    next => exact h
    next =>
      split
      next =>
        exact (Agree.map (f := fun s => { s.send .streamEnd with state := .closed })
          (fun _ => rfl) h.enter).leave hduring _
      next =>
        exact (Agree.map (f := fun s => { s with state := .closed }) (fun _ => rfl)
          h.enter).leave hduring _
  | connectionClosed subcode =>
    simp only [hstate]
    split
    next => exact h
    next => exact (h.enter.signalError _).leave hduring _
  | nextId => exact Agree.map (f := fun s => { s with nextId := s.nextId + 1 }) (fun _ => rfl) h

theorem Agree.run (h : Agree s s') (events : List Event) :
    (events.foldl XmppEngine.step s).log = (events.foldl XmppEngine.step s').log :=
  (h.foldl (fun _ _ e hagree => hagree.step e) events).log

end XmppEngine

end Libjingle
