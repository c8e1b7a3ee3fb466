import Libjingle.Lib.EventLog
import Libjingle.Lib.Runs
import Libjingle.Xmpp.XmppEngine

/-! What the engine keeps during a login: nothing but the start of TLS is written before TLS
is on where it is required, the engine opens when the login task has got all it asked for,
and what was queued is written after that. -/

namespace Libjingle

namespace XmppEngine

open EventLog

def Output.Harmless : Output → Prop
  | .streamStart _ _ => True
  | .login e => e = .withNs qnTlsStartTls
  | _ => False

def TlsStarted (log : List Action) : Prop := ∃ domain, .startTls domain ∈ log

def Opened (log : List Action) : Prop := ∃ jid, .opened jid ∈ log

/-- A request for `name` with an id. -/
def IsRequest (id : String) (name : QName) (e : XmlElement) : Prop :=
  e.name = qnIq ∧ e.attr qnId = id ∧ ∃ first, e.firstElement = some first ∧ first.name = name

def IsResult (id : String) (e : XmlElement) : Prop :=
  e.name = qnIq ∧ e.attr qnId = id ∧ e.attr qnType = "result"

def IsBindResult (id jid : String) (e : XmlElement) : Prop :=
  IsResult id e ∧ ∃ first, e.firstElement = some first ∧ first.name = qnBindBind ∧
    first.textNamed qnBindJid = jid

def Authenticated : List Action → Prop :=
  After (fun _ => True) fun a => ∃ e, a = .taken e ∧ e.name = qnSaslSuccess

def BindAsked (id : String) : List Action → Prop :=
  After Authenticated fun a => ∃ e, a = .asked e ∧ IsRequest id qnBindBind e

def Bound (jid : String) (log : List Action) : Prop :=
  ∃ id, After (BindAsked id) (fun a => ∃ e, a = .taken e ∧ IsBindResult id jid e) log

def SessionAsked (id jid : String) : List Action → Prop :=
  After (Bound jid) fun a => ∃ e, a = .asked e ∧ IsRequest id qnSessionSession e

def Granted (jid : String) (log : List Action) : Prop :=
  ∃ id, After (SessionAsked id jid) (fun a => ∃ e, a = .taken e ∧ IsResult id e) log

/-- What must have happened before an action. -/
def Justification (tls : TlsOption) (before : List Action) : Action → Prop
  | .wrote o => (tls = .required → o.Harmless ∨ TlsStarted before) ∧
    ∀ e, o = .stanza e → Opened before
  | .opened jid => Granted jid before
  | _ => True

def Action.accepted? : Action → Option XmlElement
  | .accepted e => some e
  | _ => none

def Output.stanza? : Output → Option XmlElement
  | .stanza e => some e
  | _ => none

def Action.written? : Action → Option XmlElement
  | .wrote o => o.stanza?
  | _ => none

def accepted (log : List Action) : List XmlElement := log.filterMap Action.accepted?

def stanzas (output : List Output) : List XmlElement := output.filterMap Output.stanza?

def written (log : List Action) : List XmlElement := log.filterMap Action.written?

@[simp] theorem accepted_append (log more : List Action) :
    accepted (log ++ more) = accepted log ++ accepted more := List.filterMap_append

@[simp] theorem stanzas_append (output more : List Output) :
    stanzas (output ++ more) = stanzas output ++ stanzas more := List.filterMap_append

@[simp] theorem written_append (log more : List Action) :
    written (log ++ more) = written log ++ written more := List.filterMap_append

@[simp] theorem stanzas_map (elements : List XmlElement) :
    stanzas (elements.map .stanza) = elements :=
  (List.filterMap_map ..).trans List.filterMap_some

@[simp] theorem accepted_map (elements : List XmlElement) :
    accepted (elements.map .accepted) = elements :=
  (List.filterMap_map ..).trans List.filterMap_some

theorem written_map_accepted (elements : List XmlElement) :
    written (elements.map .accepted) = [] := by
  refine List.filterMap_eq_nil_iff.mpr fun a ha => ?_
  obtain ⟨e, -, rfl⟩ := List.mem_map.mp ha
  rfl

end XmppEngine

/-- The states before TLS is on, and the last one. -/
def XmppLoginTask.State.early : XmppLoginTask.State → Bool
  | .init | .streamStartSent | .startedXmpp | .tlsInit | .tlsRequested | .done => true
  | _ => false

namespace XmppEngine

open EventLog

variable {env : XmppEnvironment}

structure Progress (log : List Action) (t : XmppLoginTask env.sasl) : Prop where
  auth : t.authNeeded = false → Authenticated log
  bindInit : t.state = .bindInit → t.authNeeded = false
  bindRequested : t.state = .bindRequested → BindAsked t.iqId log
  sessionRequested : t.state = .sessionRequested → SessionAsked t.iqId t.fullJid log

/-- As long as TLS is not on, nothing is sent that gives anything away. -/
structure Guarded (s : XmppEngine env) (login : Option (XmppLoginTask env.sasl)) : Prop where
  tlsOption : s.tlsOption = .required
  output : ∀ o ∈ s.output, o.Harmless
  early : ∀ t, login = some t → t.state.early = true
  opened : ¬ Opened s.log

structure Accounted (s : XmppEngine env) (login : Option (XmppLoginTask env.sasl)) : Prop where
  before : ¬ Opened s.log → written s.log = [] ∧ stanzas s.output = [] ∧ s.state ≠ .isOpen ∧
    (∀ t, login = some t → accepted s.log = t.queuedStanzas) ∧
    ((∀ t, login = some t → t.state = .done) → s.state = .closed)
  after : Opened s.log → accepted s.log = written s.log ++ stanzas s.output ∧
    (∀ t, login = some t → t.state = .done ∧ t.queuedStanzas = []) ∧ s.state ≠ .start ∧
    s.state ≠ .opening

/-- The invariant, with the login task that is in the engine or works on it. -/
structure Inv (s : XmppEngine env) (login : Option (XmppLoginTask env.sasl)) : Prop where
  justified : Justified (Justification s.settings.tlsOption) s.log
  guarded : s.settings.tlsOption = .required → s.outputHandler = true → ¬ TlsStarted s.log →
    Guarded s login
  progress : ∀ t, login = some t → Progress s.log t
  accounted : Accounted s login
  handler : s.settings.outputHandler = true →
    s.outputHandler = true ∨ (s.state = .closed ∧ s.output = [])
  entered : s.engineEntered ≤ 1

theorem TlsStarted.append {log : List Action} (h : TlsStarted log) (more : List Action) :
    TlsStarted (log ++ more) := by
  obtain ⟨domain, hmem⟩ := h
  exact ⟨domain, List.mem_append_left _ hmem⟩

theorem Opened.append {log : List Action} (h : Opened log) (more : List Action) :
    Opened (log ++ more) := by
  obtain ⟨jid, hmem⟩ := h
  exact ⟨jid, List.mem_append_left _ hmem⟩

theorem Granted.append {jid : String} {log : List Action} (h : Granted jid log)
    (more : List Action) : Granted jid (log ++ more) := by
  obtain ⟨id, hafter⟩ := h
  exact ⟨id, hafter.append more⟩

theorem Justification.append {tls : TlsOption} {log : List Action} {a : Action}
    (h : Justification tls log a) (more : List Action) : Justification tls (log ++ more) a := by
  cases a with
  | wrote o => exact ⟨fun htls => (h.1 htls).imp_right (·.append more),
      fun e he => (h.2 e he).append more⟩
  | opened jid => exact Granted.append h more
  | _ => trivial

theorem Progress.append {log : List Action} {t : XmppLoginTask env.sasl} (h : Progress log t)
    (more : List Action) : Progress (log ++ more) t where
  auth ht := (h.auth ht).append more
  bindInit := h.bindInit
  bindRequested ht := (h.bindRequested ht).append more
  sessionRequested ht := (h.sessionRequested ht).append more

/-- An action that is neither of the application nor of the output. -/
def Action.Quiet : Action → Prop
  | .taken _ | .asked _ | .authenticated => True
  | _ => False

section Quiet

variable {log more : List Action}

theorem tlsStarted_quiet (hmore : ∀ a ∈ more, a.Quiet) :
    TlsStarted (log ++ more) ↔ TlsStarted log := by
  refine ⟨fun ⟨domain, hmem⟩ => ?_, fun h => h.append more⟩
  rcases List.mem_append.mp hmem with hold | hnew
  · exact ⟨domain, hold⟩
  · exact (hmore _ hnew).elim

theorem opened_quiet (hmore : ∀ a ∈ more, a.Quiet) : Opened (log ++ more) ↔ Opened log := by
  refine ⟨fun ⟨jid, hmem⟩ => ?_, fun h => h.append more⟩
  rcases List.mem_append.mp hmem with hold | hnew
  · exact ⟨jid, hold⟩
  · exact (hmore _ hnew).elim

theorem justified_quiet {tls : TlsOption} (h : Justified (Justification tls) log)
    (hmore : ∀ a ∈ more, a.Quiet) : Justified (Justification tls) (log ++ more) := by
  refine h.append (fun l b hb => hb.append l) fun a ha => ?_
  have hquiet := hmore a ha
  cases a with
  | wrote o => exact hquiet.elim
  | opened jid => exact hquiet.elim
  | _ => trivial

theorem accepted_quiet (hmore : ∀ a ∈ more, a.Quiet) : accepted (log ++ more) = accepted log := by
  have hnil : accepted more = [] := by
    refine List.filterMap_eq_nil_iff.mpr fun a ha => ?_
    have hquiet := hmore a ha
    cases a with
    | accepted e => exact hquiet.elim
    | _ => rfl
  rw [accepted_append, hnil, List.append_nil]

theorem written_quiet (hmore : ∀ a ∈ more, a.Quiet) : written (log ++ more) = written log := by
  have hnil : written more = [] := by
    refine List.filterMap_eq_nil_iff.mpr fun a ha => ?_
    have hquiet := hmore a ha
    cases a with
    | wrote o => exact hquiet.elim
    | _ => rfl
  rw [written_append, hnil, List.append_nil]

end Quiet

/-- Only an error closes the engine while it is entered. -/
def Running (s : XmppEngine env) : Prop :=
  s.errorCode = none → s.state = .opening ∨ s.state = .isOpen

/-- A step of the login task that adds nothing but its own requests. -/
structure QuietStep (s s' : XmppEngine env) (more : List Action) (outs : List Output) : Prop where
  settings : s'.settings = s.settings
  outputHandler : s'.outputHandler = s.outputHandler
  entered : s'.engineEntered = s.engineEntered
  log : s'.log = s.log ++ more
  output : s'.output = s.output ++ outs
  quiet : ∀ a ∈ more, a.Quiet
  own : stanzas outs = []

theorem Inv.quietStep {s s' : XmppEngine env} {t t' : XmppLoginTask env.sasl}
    (h : Inv s (some t)) (more : List Action) (outs : List Output) (ht : t.state ≠ .done)
    (hopening : s.state = .opening) (hstep : QuietStep s s' more outs)
    (hstate : s'.state = s.state ∧ t'.state ≠ .done ∨ s'.state = .closed)
    (hqueue : t'.queuedStanzas = t.queuedStanzas)
    (hguard : s.tlsOption = .required → t.state.early = true →
      t'.state.early = true ∧ s'.tlsOption = .required ∧ ∀ o ∈ outs, o.Harmless)
    (hprogress : Progress s'.log t') : Inv s' (some t') := by
  have hnot : ¬ Opened s.log := fun hopen => ht ((h.accounted.after hopen).2.1 t rfl).1
  have hnot' : ¬ Opened s'.log := by
    rw [hstep.log, opened_quiet hstep.quiet]
    exact hnot
  obtain ⟨hwritten, hstanzas, hopen, haccepted, -⟩ := h.accounted.before hnot
  exact {
    justified := by
      rw [hstep.settings, hstep.log]
      exact justified_quiet h.justified hstep.quiet
    guarded := by
      rw [hstep.settings, hstep.outputHandler, hstep.log, tlsStarted_quiet hstep.quiet]
      intro htls hhandler hoff
      obtain ⟨hoption, houtput, hearly, -⟩ := h.guarded htls hhandler hoff
      obtain ⟨hearly', hoption', houts⟩ := hguard hoption (hearly t rfl)
      refine ⟨hoption', fun o ho => ?_, fun u hu => Option.some.inj hu ▸ hearly', hnot'⟩
      rw [hstep.output] at ho
      exact (List.mem_append.mp ho).elim (houtput o) (houts o)
    progress := fun u hu => Option.some.inj hu ▸ hprogress
    accounted := by
      refine ⟨fun _ => ?_, fun hopened => absurd hopened hnot'⟩
      rw [hstep.log, written_quiet hstep.quiet, hstep.output, accepted_quiet hstep.quiet]
      refine ⟨hwritten, ?_, ?_, fun u hu => ?_, fun hdone => ?_⟩
      · rw [stanzas_append, hstanzas, hstep.own]
        rfl
      · rcases hstate with ⟨heq, -⟩ | heq
        · rwa [heq]
        · rw [heq]
          decide
      · rw [← Option.some.inj hu, hqueue]
        exact haccepted t rfl
      · exact hstate.resolve_left fun hstay => hstay.2 (hdone _ rfl)
    handler := by
      rw [hstep.settings, hstep.outputHandler]
      intro hhandler
      exact .inl ((h.handler hhandler).resolve_right fun hclosed => by simp [hopening] at hclosed)
    entered := hstep.entered ▸ h.entered }

end XmppEngine

namespace XmppLoginTask.Login

open EventLog XmppEngine

variable {env : XmppEnvironment} {l : Login env}

structure Kept (l : Login env) : Prop where
  inv : Inv l.engine (some l.task)
  opening : l.engine.state = .opening
  working : l.task.state ≠ .done

/-- A turn keeps the invariant. The task goes on if there is another turn, and without an
error the engine does. -/
structure Keeps (r : Login env × Bool) : Prop where
  inv : Inv r.1.engine (some r.1.task)
  again : r.2 = true → r.1.Kept
  running : r.1.engine.Running

theorem Kept.setTask (h : l.Kept) {t : XmppLoginTask env.sasl} (ht : t.state ≠ .done)
    (hqueue : t.queuedStanzas = l.task.queuedStanzas)
    (hearly : l.engine.tlsOption = .required → l.task.state.early = true → t.state.early = true)
    (hprogress : Progress l.engine.log t) : Kept { l with task := t } where
  inv := h.inv.quietStep [] [] h.working h.opening
    ⟨rfl, rfl, rfl, (List.append_nil _).symm, (List.append_nil _).symm, nofun, rfl⟩
    (.inl ⟨rfl, ht⟩) hqueue (fun hoption he => ⟨hearly hoption he, hoption, nofun⟩) hprogress
  opening := h.opening
  working := ht

theorem Kept.setState (h : l.Kept) (state : State) (hs : state ≠ .done)
    (hearly : l.engine.tlsOption = .required → l.task.state.early = true → state.early = true)
    (hprogress : Progress l.engine.log { l.task with state }) : (l.setState state).Kept :=
  h.setTask hs rfl hearly hprogress

theorem Kept.take (h : l.Kept) (e : XmlElement) : (l.take e).Kept where
  inv := h.inv.quietStep [.taken e] [] h.working h.opening
    ⟨rfl, rfl, rfl, rfl, (List.append_nil _).symm,
      fun _ ha => List.mem_singleton.mp ha ▸ trivial, rfl⟩ (.inl ⟨rfl, h.working⟩) rfl
    (fun hoption he => ⟨he, hoption, nofun⟩)
    (let hold := (h.inv.progress _ rfl).append [.taken e]
    ⟨hold.auth, hold.bindInit, hold.bindRequested, hold.sessionRequested⟩)
  opening := h.opening
  working := h.working

theorem Kept.failure (h : l.Kept) (error : XmppEngine.Error) : Keeps (l.failure error, false) := by
  have hengine : l.engine.signalError error =
      { l.engine with errorCode := some error, state := .closed } := by
    rw [signalError, if_neg]
    rw [h.opening]
    decide
  refine ⟨?_, nofun, ?_⟩
  · show Inv (l.engine.signalError error) (some { l.task with state := .done })
    rw [hengine]
    exact h.inv.quietStep [] [] h.working h.opening
      ⟨rfl, rfl, rfl, (List.append_nil _).symm, (List.append_nil _).symm, nofun, rfl⟩ (.inr rfl)
      rfl (fun hoption _ => ⟨rfl, hoption, nofun⟩)
      ⟨(h.inv.progress _ rfl).auth, nofun, nofun, nofun⟩
  · show (l.engine.signalError error).errorCode = none → _
    rw [hengine]
    nofun

theorem Kept.goOn (h : l.Kept) : Keeps (l, true) := ⟨h.inv, fun _ => h, fun _ => .inl h.opening⟩

theorem Kept.wait (h : l.Kept) : Keeps (l, false) := ⟨h.inv, nofun, fun _ => .inl h.opening⟩

theorem Kept.sendLogin (h : l.Kept) {e : XmlElement} {nextId : Nat} {t : XmppLoginTask env.sasl}
    (ht : t.state ≠ .done) (hqueue : t.queuedStanzas = l.task.queuedStanzas)
    (hguard : l.task.state.early = true → t.state.early = true ∧ e = .withNs qnTlsStartTls)
    (hprogress : Progress (l.engine.log ++ [.asked e]) t) :
    Keeps (⟨{ l.engine with nextId }.sendLogin e, t⟩, true) := by
  refine Kept.goOn ⟨h.inv.quietStep [.asked e] [.login e] h.working
    h.opening
    ⟨rfl, rfl, rfl, rfl, rfl, fun _ ha => List.mem_singleton.mp ha ▸ trivial, rfl⟩
    (.inl ⟨rfl, ht⟩) hqueue (fun hoption he => ⟨(hguard he).1, hoption, fun o ho => ?_⟩) hprogress,
    h.opening, ht⟩
  obtain rfl := List.mem_singleton.mp ho
  exact (hguard he).2

theorem Kept.startedXmpp (h : l.Kept) (e : XmlElement) : Keeps (l.startedXmpp e) := by
  have hauth := (h.inv.progress _ rfl).auth
  unfold Login.startedXmpp
  split
  next => exact h.failure _
  next =>
    have hfeatures : Kept { l with task := { l.task with features := some e } } :=
      h.setTask h.working rfl (fun _ he => he)
        (let hold := h.inv.progress _ rfl
        ⟨hold.auth, hold.bindInit, hold.bindRequested, hold.sessionRequested⟩)
    simp only
    split
    next => exact hfeatures.failure _
    next habsent =>
      split
      next =>
        exact (hfeatures.setState .tlsInit nofun (fun _ _ => rfl) ⟨hauth, nofun, nofun, nofun⟩).goOn
      next hplain =>
        -- TLS is not required here
        have hoption : l.engine.tlsOption ≠ .required := by
          intro hrequired
          cases htls : (getFeature { l with task := { l.task with features := some e } }
              qnTlsStartTls).isSome with
          | true => exact hplain ⟨by rw [hrequired]; decide, htls⟩
          | false => exact habsent ⟨hrequired, htls⟩
        split
        next =>
          exact (hfeatures.setState .authInit nofun (fun hrequired _ => absurd hrequired hoption)
            ⟨hauth, nofun, nofun, nofun⟩).goOn
        next hneeded =>
          exact (hfeatures.setState .bindInit nofun (fun hrequired _ => absurd hrequired hoption)
            ⟨hauth, fun _ => eq_false_of_ne_true hneeded, nofun, nofun⟩).goOn

theorem Kept.sendOpenly (h : l.Kept) {e : XmlElement} {nextId : Nat}
    {t : XmppLoginTask env.sasl} (ht : t.state ≠ .done)
    (hqueue : t.queuedStanzas = l.task.queuedStanzas) (hlate : l.task.state.early = false)
    (hprogress : Progress (l.engine.log ++ [.asked e]) t) :
    Keeps (⟨{ l.engine with nextId }.sendLogin e, t⟩, true) :=
  h.sendLogin ht hqueue (fun he => absurd he (hlate ▸ Bool.false_ne_true)) hprogress

theorem Kept.authInit (h : l.Kept) (hstate : l.task.state = .authInit) : Keeps l.authInit := by
  have hauth := (h.inv.progress _ rfl).auth
  have hmech : ∀ saslMech, Kept { l with task := { l.task with saslMech } } := fun saslMech =>
    h.setTask h.working rfl (fun _ he => he)
      (let hold := h.inv.progress _ rfl
      ⟨hold.auth, hold.bindInit, hold.bindRequested, hold.sessionRequested⟩)
  unfold Login.authInit
  split
  next => exact h.failure _
  next =>
    simp only
    split
    next => exact h.failure _
    next =>
      split
      next => exact (hmech none).failure _
      next mech _ => exact (hmech (some mech)).failure _
      next auth mech _ =>
        exact (hmech (some mech)).sendOpenly nofun rfl (by simp only [hstate]; rfl)
          ⟨fun ht => (hauth ht).append _, nofun, nofun, nofun⟩

theorem Kept.saslRunning (h : l.Kept) (hstate : l.task.state = .saslRunning) (e : XmlElement)
    (htaken : ∃ log, l.engine.log = log ++ [.taken e]) : Keeps (l.saslRunning e) := by
  have hauth := (h.inv.progress _ rfl).auth
  have hmech : ∀ saslMech, Kept { l with task := { l.task with saslMech } } := fun saslMech =>
    h.setTask h.working rfl (fun _ he => he)
      (let hold := h.inv.progress _ rfl
      ⟨hold.auth, hold.bindInit, hold.bindRequested, hold.sessionRequested⟩)
  unfold Login.saslRunning
  split
  next => exact h.failure _
  next =>
    split
    next =>
      split
      next response mech _ =>
        exact (hmech (some mech)).sendOpenly nofun rfl (by simp only [hstate]; rfl)
          ⟨fun ht => (hauth ht).append _, nofun, nofun, nofun⟩
      next mech _ => exact (hmech (some mech)).failure _
      next => exact h.failure _
    next =>
      split
      next => exact h.failure _
      next hsuccess =>
        obtain ⟨log, hlog⟩ := htaken
        have hnow : Authenticated l.engine.log := by
          rw [hlog]
          exact after_concat trivial ⟨e, rfl, not_not.mp hsuccess⟩
        refine Kept.goOn ⟨h.inv.quietStep [.authenticated] [] h.working
          h.opening ⟨rfl, rfl, rfl, rfl, (List.append_nil _).symm,
            fun _ ha => List.mem_singleton.mp ha ▸ trivial, rfl⟩ (.inl ⟨rfl, nofun⟩) rfl
          (fun hoption _ => ⟨rfl, hoption, nofun⟩)
          ⟨fun _ => hnow.append _, nofun, nofun, nofun⟩, h.opening, nofun⟩

theorem isRequest_request {id : String} {e : XmlElement} :
    IsRequest id e.name (((({ name := qnIq } : XmlElement).addAttr qnType "set").addAttr qnId
      id).addElement e) := by
  refine ⟨rfl, ?_, e, ?_, rfl⟩
  · simp [XmlElement.attr, XmlElement.attr?_addAttr]
    rfl
  · simp [XmlElement.firstElement]

theorem Kept.request (h : l.Kept) (e : XmlElement) (state : State) (hs : state ≠ .done)
    (hlate : l.task.state.early = false)
    (hprogress : Progress (l.engine.log ++ [.asked (((({ name := qnIq } : XmlElement).addAttr qnType
      "set").addAttr qnId (toString l.engine.nextId)).addElement e)])
      { l.task with iqId := toString l.engine.nextId, state }) :
    Keeps (l.request e state, true) :=
  h.sendOpenly hs rfl hlate hprogress

theorem bindElement_name : l.bindElement.name = qnBindBind := by
  simp only [bindElement]
  split <;> rfl

theorem Kept.bindInit (h : l.Kept) (hstate : l.task.state = .bindInit) :
    Keeps (l.request l.bindElement .bindRequested, true) := by
  have hprogress := h.inv.progress _ rfl
  have hauth := hprogress.auth (hprogress.bindInit hstate)
  refine h.request _ _ nofun (by rw [hstate]; rfl) ⟨fun _ => hauth.append _, nofun, fun _ => ?_,
    nofun⟩
  exact after_concat hauth ⟨_, rfl, bindElement_name ▸ isRequest_request⟩

theorem responds_iff {e : XmlElement} (h : l.responds e = true) :
    e.name = qnIq ∧ e.attr qnId = l.task.iqId := by
  simp only [responds, Bool.and_eq_true, decide_eq_true_eq] at h
  exact ⟨h.1.1.1, h.1.1.2⟩

theorem Kept.bindRequested (h : l.Kept) (hstate : l.task.state = .bindRequested) {e : XmlElement}
    {log : List Action} (hlog : l.engine.log = log ++ [.taken e])
    (hasked : BindAsked l.task.iqId log) : Keeps (l.bindRequested e) := by
  have hauth := (h.inv.progress _ rfl).auth
  unfold Login.bindRequested
  split
  next => exact h.wait
  next hresponds =>
    obtain ⟨hname, hid⟩ := responds_iff (eq_true_of_ne_false hresponds)
    split
    next => exact h.failure _
    next first hfirst =>
      split
      next => exact h.failure _
      next hresult =>
        obtain ⟨htype, hbind⟩ := not_or.mp hresult
        have hkept : Kept { l with
            task := { l.task with fullJid := first.textNamed qnBindJid } } :=
          h.setTask h.working rfl (fun _ he => he)
            (let hold := h.inv.progress _ rfl
            ⟨hold.auth, hold.bindInit, hold.bindRequested, fun hs => absurd (hstate ▸ hs) nofun⟩)
        simp only
        split
        next => exact hkept.failure _
        next =>
          have hbound : Bound (first.textNamed qnBindJid) l.engine.log :=
            ⟨l.task.iqId, hlog ▸ after_concat hasked ⟨e, rfl, ⟨hname, hid, not_not.mp htype⟩,
              first, hfirst, not_not.mp hbind, rfl⟩⟩
          refine hkept.request _ _ nofun (by simp only [hstate]; rfl)
            ⟨fun ht => (hauth ht).append _, nofun, nofun, fun _ => ?_⟩
          exact after_concat hbound ⟨_, rfl, isRequest_request⟩

theorem Kept.opens (h : l.Kept) (hlate : l.task.state.early = false)
    (hgranted : Granted l.task.fullJid l.engine.log) :
    Inv (flushQueuedStanzas { l with engine := l.engine.signalBound l.task.fullJid }).engine
      (some ((flushQueuedStanzas
        { l with engine := l.engine.signalBound l.task.fullJid }).setState .done).task) := by
  have hnot : ¬ Opened l.engine.log := fun hopen =>
    h.working ((h.inv.accounted.after hopen).2.1 _ rfl).1
  obtain ⟨hwritten, hstanzas, -, haccepted, -⟩ := h.inv.accounted.before hnot
  have hopen : Opened (l.engine.log ++ [.opened l.task.fullJid]) :=
    ⟨_, List.mem_append_right _ (List.mem_singleton_self _)⟩
  simp only [flushQueuedStanzas, signalBound, if_pos h.opening, record, Login.setState]
  exact {
    justified := h.inv.justified.concat hgranted
    guarded := by
      intro htls hhandler hoff
      have hold := h.inv.guarded htls hhandler fun hon => hoff (hon.append _)
      exact absurd (hold.early _ rfl) (hlate ▸ Bool.false_ne_true)
    progress := fun t ht => by
      obtain rfl := Option.some.inj ht
      exact ⟨fun ha => ((h.inv.progress _ rfl).auth ha).append _, nofun, nofun, nofun⟩
    accounted := by
      refine ⟨fun hno => absurd hopen hno, fun _ => ⟨?_, ?_, nofun, nofun⟩⟩
      · rw [accepted_append, written_append, stanzas_append, stanzas_map, hwritten, hstanzas,
          haccepted _ rfl]
        exact List.append_nil _
      · rintro t ht
        obtain rfl := Option.some.inj ht
        exact ⟨rfl, rfl⟩
    handler := fun hhandler =>
      .inl ((h.inv.handler hhandler).resolve_right fun hclosed => by simp [h.opening] at hclosed)
    entered := h.inv.entered }

theorem Kept.sessionRequested (h : l.Kept) (hstate : l.task.state = .sessionRequested)
    {e : XmlElement} {log : List Action} (hlog : l.engine.log = log ++ [.taken e])
    (hasked : SessionAsked l.task.iqId l.task.fullJid log) : Keeps (l.sessionRequested e) := by
  unfold Login.sessionRequested
  split
  next => exact h.wait
  next hresponds =>
    obtain ⟨hname, hid⟩ := responds_iff (eq_true_of_ne_false hresponds)
    split
    next => exact h.failure _
    next htype =>
      refine ⟨h.opens (by rw [hstate]; rfl) ⟨l.task.iqId, ?_⟩, nofun, fun _ => .inr ?_⟩
      · exact hlog ▸ after_concat hasked ⟨e, rfl, hname, hid, not_not.mp htype⟩
      · simp only [Login.setState, flushQueuedStanzas, signalBound, if_pos h.opening, record]

theorem foldl_accepted (elements : List XmlElement) (s : XmppEngine env) :
    elements.foldl (fun s e => s.record (.accepted e)) s =
      { s with log := s.log ++ elements.map .accepted } := by
  induction elements generalizing s with
  | nil => simp
  | cons e rest ih =>
    rw [List.foldl_cons, ih]
    simp [record]

theorem Kept.tlsStarted (h : l.Kept) (domain : String) (duringTls : List XmlElement) :
    Inv { l.engine with
        log := l.engine.log ++ [.startTls domain] ++ duringTls.map .accepted
        encrypted := true
        tlsOption := .enabled }
      (some { l.task with
        queuedStanzas := l.task.queuedStanzas ++ duringTls
        state := .init }) := by
  have hnot : ¬ Opened l.engine.log := fun hopen =>
    h.working ((h.inv.accounted.after hopen).2.1 _ rfl).1
  obtain ⟨hwritten, hstanzas, hopen, haccepted, -⟩ := h.inv.accounted.before hnot
  have hnot' : ¬ Opened (l.engine.log ++ [.startTls domain] ++ duringTls.map .accepted) := by
    simpa [Opened] using hnot
  have hjustified : Justified (Justification l.engine.settings.tlsOption)
      (l.engine.log ++ [.startTls domain]) := h.inv.justified.concat (by trivial)
  exact {
    justified := hjustified.append (fun _ _ hb => hb.append _) fun a ha => by
      obtain ⟨e, -, rfl⟩ := List.mem_map.mp ha
      trivial
    guarded := fun _ _ hoff => absurd ⟨domain, List.mem_append_left _
      (List.mem_append_right _ (List.mem_singleton_self _))⟩ hoff
    progress := fun t ht => by
      obtain rfl := Option.some.inj ht
      exact ⟨fun ha => (((h.inv.progress _ rfl).auth ha).append _).append _, nofun, nofun, nofun⟩
    accounted := by
      refine ⟨fun _ => ⟨?_, hstanzas, hopen, fun t ht => ?_,
        fun hdone => absurd (hdone _ rfl) nofun⟩, fun hon => absurd hon hnot'⟩
      · rw [written_append, written_map_accepted, List.append_nil, written_append, hwritten]
        rfl
      · obtain rfl := Option.some.inj ht
        rw [accepted_append, accepted_map, accepted_append, haccepted _ rfl]
        exact congrArg (· ++ duringTls) (List.append_nil _)
    handler := h.inv.handler
    entered := h.inv.entered }

theorem Kept.startTls (h : l.Kept) (duringTls : List XmlElement) :
    Keeps ({ (l.startTls duringTls).setState .init with
      engine := { (l.startTls duringTls).engine with tlsOption := .enabled } }, true) := by
  unfold Login.startTls
  split
  next hhandler =>
    refine Kept.goOn ⟨?_, ?_, nofun⟩
    · rw [foldl_accepted]
      exact h.tlsStarted _ duringTls
    · rw [foldl_accepted]
      exact h.opening
  next hhandler =>
    -- without a handler nothing is ever written
    have hnot : ¬ Opened l.engine.log := fun hopen =>
      h.working ((h.inv.accounted.after hopen).2.1 _ rfl).1
    obtain ⟨hwritten, hstanzas, hopen, haccepted, -⟩ := h.inv.accounted.before hnot
    refine Kept.goOn ⟨?_, h.opening, nofun⟩
    exact {
      justified := h.inv.justified
      guarded := fun _ hon => absurd hon hhandler
      progress := fun t ht => by
        obtain rfl := Option.some.inj ht
        exact ⟨(h.inv.progress _ rfl).auth, nofun, nofun, nofun⟩
      accounted := ⟨fun _ => ⟨hwritten, hstanzas, hopen, fun t ht => by
        obtain rfl := Option.some.inj ht
        exact haccepted l.task rfl, fun hdone => absurd (hdone _ rfl) nofun⟩,
        fun hon => absurd hon hnot⟩
      handler := h.inv.handler
      entered := h.inv.entered }

theorem Kept.start (h : l.Kept) : Keeps
    (⟨XmppEngine.internalSendStart { l.engine with raisedReset := true } l.engine.settings.userDomain,
      { l.task with features := none, state := .streamStartSent }⟩, true) := by
  refine Kept.goOn ⟨h.inv.quietStep [] [_] h.working h.opening
    ⟨rfl, rfl, rfl, (List.append_nil _).symm, rfl, nofun, rfl⟩ (.inl ⟨rfl, nofun⟩) rfl
    (fun hoption _ => ⟨rfl, hoption, fun o ho => ?_⟩)
    ⟨(h.inv.progress _ rfl).auth, nofun, nofun, nofun⟩, h.opening, nofun⟩
  obtain rfl := List.mem_singleton.mp ho
  trivial

theorem Kept.streamStartSent (h : l.Kept) (e : XmlElement) : Kept { l with
      task := { l.task with streamId := e.attr qnId, state := .startedXmpp } } :=
  h.setTask nofun rfl (fun _ _ => rfl) ⟨(h.inv.progress _ rfl).auth, nofun, nofun, nofun⟩

theorem Kept.turn (h : l.Kept) (duringTls : List XmlElement) : Keeps (l.turn duringTls) := by
  have hprogress := h.inv.progress _ rfl
  unfold Login.turn
  split
  next => exact h.start
  next e _ _ =>
    simp only
    split
    next => exact ((h.take e).streamStartSent e).wait
    next => exact (h.take e).failure _
  next e _ _ => exact (h.take e).startedXmpp e
  next hstate =>
    split
    next =>
      refine h.sendLogin nofun rfl (fun _ => ⟨rfl, rfl⟩)
        ⟨fun ha => (hprogress.auth ha).append _, nofun, nofun, nofun⟩
    next => exact h.failure _
  next e _ _ =>
    simp only
    split
    next => exact (h.take e).failure _
    next => exact (h.take e).startTls duringTls
  next hstate => exact h.authInit hstate
  next e hstate _ => exact (h.take e).saslRunning hstate e ⟨_, rfl⟩
  next hstate =>
    split
    next => exact h.bindInit hstate
    next => exact h.failure _
  next e hstate _ =>
    exact (h.take e).bindRequested hstate rfl (hprogress.bindRequested hstate)
  next e hstate _ =>
    exact (h.take e).sessionRequested hstate rfl (hprogress.sessionRequested hstate)
  next => exact h.wait

theorem Kept.loop (h : l.Kept) (duringTls : List XmlElement) (n : Nat) :
    Keeps (Login.loop duringTls n l, false) := by
  induction n generalizing l with
  | zero => exact h.wait
  | succ n ih =>
    have hturn := h.turn duringTls
    unfold Login.loop
    split
    next m heq =>
      rw [heq] at hturn
      exact ih (hturn.again rfl)
    next m heq =>
      rw [heq] at hturn
      exact hturn

end XmppLoginTask.Login

end Libjingle
