import Libjingle.Xmpp.EngineSafety
import Libjingle.Xmpp.LoginForget
import Libjingle.Xmpp.LoginReset

/-! The safety of a login, whatever the server sends. -/

namespace Libjingle

namespace XmppEngine

open EventLog

variable {env : XmppEnvironment} {s s' : XmppEngine env}

theorem not_restarts_self (log : List Action) : ¬ Restarts log log := by
  rintro ⟨more, hmore, a, ha, -⟩
  rw [List.self_eq_append_right.mp hmore] at ha
  cases ha

/-- A parser that has been reset, and a login task that has nothing that was received. -/
structure Renewed (s : XmppEngine env) : Prop where
  parser : s.stanzaParser = {}
  login : ∃ t, s.loginTask = some t ∧ t.state = .streamStartSent ∧ t.features = none ∧
    t.stanza = none ∧ t.isStart = false

theorem Renewed.agree (h : s.Renewed) : Agree s s.forget := by
  obtain ⟨hparser, t, ht, hstate, hfeatures, hstanza, hstart⟩ := h
  have htask : t.core = t.forget.core := by
    simp only [XmppLoginTask.core, XmppLoginTask.forget, hstate, hfeatures, hstanza, hstart]
    rfl
  simp only [Agree, core, forget, hparser, ht, Option.map_some, htask]

theorem writeOutput_id (s : XmppEngine env) : ∃ more output,
    s.writeOutput id = { s with log := s.log ++ more, output } ∧ ∀ a ∈ more, ¬ a.Restart := by
  unfold writeOutput
  split
  next => exact ⟨[], s.output, by rw [List.append_nil], nofun⟩
  next =>
    refine ⟨s.output.map .wrote, [], rfl, fun a ha hr => ?_⟩
    obtain ⟨o, -, rfl⟩ := List.mem_map.mp ha
    exact hr

theorem flush_id (s : XmppEngine env) (before : State) : ∃ more output outputHandler,
    s.flush id before = { s with log := s.log ++ more, output, outputHandler } ∧
      ∀ a ∈ more, ¬ a.Restart := by
  obtain ⟨more, output, hwrite, hmore⟩ := s.writeOutput_id
  unfold flush
  rw [hwrite]
  split
  next =>
    split
    next =>
      refine ⟨more ++ [.closeConnection], output, false, ?_, fun a ha hr => ?_⟩
      · simp only [record, List.append_assoc]
      · rcases List.mem_append.mp ha with hmem | hmem
        · exact hmore a hmem hr
        · obtain rfl := List.mem_singleton.mp hmem
          exact hr
    next => exact ⟨more, output, s.outputHandler, rfl, hmore⟩
  next => exact ⟨[], s.output, s.outputHandler, by rw [List.append_nil], fun _ ha =>
    absurd ha List.not_mem_nil⟩

theorem Clears.leave {t : XmppEngine env} (h : Clears s t) (hentered : t.engineEntered ≤ 1)
    (before : State) (hrestart : Restarts s.log (t.leave id before).log) :
    (t.leave id before).Renewed := by
  obtain ⟨more, output, outputHandler, hflush, hmore⟩ :=
    flush_id { t with engineEntered := t.engineEntered - 1 } before
  have hlog : (t.leave id before).log = t.log ++ more := by
    unfold XmppEngine.leave resetParser
    rw [hflush]
    split <;> rfl
  obtain ⟨first, hfirst⟩ := h.log
  obtain ⟨all, hall, a, ha, hr⟩ := hrestart
  rw [hlog, hfirst, List.append_assoc, List.append_cancel_left_eq] at hall
  rw [← hall] at ha
  have hmem : a ∈ first := (List.mem_append.mp ha).resolve_right fun hm => hmore a hm hr
  obtain ⟨hraised, hlogin⟩ := h.fresh ⟨first, hfirst, a, hmem, hr⟩
  have hleave : t.leave id before = { t with
      engineEntered := t.engineEntered - 1, log := t.log ++ more, output, outputHandler
      stanzaParser := {}, raisedReset := false } := by
    unfold XmppEngine.leave resetParser
    rw [hflush, if_pos ⟨by simp only; omega, hraised⟩]
    rfl
  rw [hleave]
  exact ⟨rfl, hlogin⟩

theorem clears_startLogin (s : XmppEngine env) : Clears s s.startLogin := by
  unfold startLogin
  split
  next => exact clears_advanceLogin ..
  next => exact clears_of_log ⟨[], (List.append_nil _).symm, nofun⟩

theorem clears_takeStanza (s : XmppEngine env) (e : XmlElement) : Clears s (s.takeStanza e) :=
  clears_of_log ⟨_, log_takeStanza s e, fun a ha hr => by
    obtain rfl := List.mem_singleton.mp ha
    exact hr⟩

theorem Clears.of_log_eq {t : XmppEngine env} (hlog : t.log = s.log) (h : Clears t s') :
    Clears s s' := ⟨hlog ▸ h.log, hlog ▸ h.fresh⟩

theorem clears_of_log_eq (hlog : s'.log = s.log) : Clears s s' :=
  clears_of_log ⟨[], hlog.trans (List.append_nil _).symm, nofun⟩

theorem Idle.renewed_step (h : s.Idle) {e : Event} (he : e.duringWrite = [])
    (hrestart : Restarts s.log (s.step e).log) : (s.step e).Renewed := by
  have hduring : (fun s : XmppEngine env => s.sendAll e.duringWrite) = id := by
    rw [he]
    rfl
  have hsteady := h.enter
  unfold XmppEngine.step at hrestart ⊢
  rw [hduring] at hrestart ⊢
  cases hcall : e.call with
  | connect =>
    simp only [hcall] at hrestart ⊢
    split at hrestart
    next => exact (not_restarts_self _ hrestart).elim
    next hstart =>
      rw [if_neg hstart]
      exact (Clears.of_log_eq rfl (clears_startLogin _)).leave
        (h.connect (not_not.mp hstart)).inv.entered _ hrestart
  | handleInput bytes duringTls =>
    simp only [hcall] at hrestart ⊢
    split at hrestart
    next hstate =>
      rw [if_pos hstate]
      exact (Clears.of_log_eq rfl (clears_incomingAll duringTls _ _)).leave
        (h.handleInput hstate bytes duringTls).inv.entered _ hrestart
    next => exact (not_restarts_self _ hrestart).elim
  | sendStanza element =>
    simp only [hcall, sendStanzaWith] at hrestart ⊢
    split at hrestart
    next => exact (not_restarts_self _ hrestart).elim
    next hstate =>
      rw [if_neg hstate]
      exact (Clears.of_log_eq rfl (clears_takeStanza _ _)).leave
        (hsteady.takeStanza hstate element).inv.entered _ hrestart
  | sendRaw text =>
    simp only [hcall] at hrestart ⊢
    split at hrestart
    next => exact (not_restarts_self _ hrestart).elim
    next hstate =>
      rw [if_neg hstate]
      exact Clears.leave (s := s) (t := s.enter.send (.raw text)) (clears_of_log_eq rfl)
        hsteady.inv.entered _ hrestart
  | disconnect =>
    simp only [hcall] at hrestart ⊢
    split at hrestart
    next => exact (not_restarts_self _ hrestart).elim
    next hstate =>
      rw [if_neg hstate]
      refine Clears.leave (clears_of_log_eq ?_) ?_ _ hrestart
      · split <;> rfl
      · split <;> exact hsteady.inv.entered
  | connectionClosed subcode =>
    simp only [hcall] at hrestart ⊢
    split at hrestart
    next => exact (not_restarts_self _ hrestart).elim
    next hstate =>
      rw [if_neg hstate]
      exact (Clears.of_log_eq rfl (clears_signalError _ _)).leave
        (hsteady.signalError _).inv.entered _ hrestart
  | nextId =>
    simp only [hcall] at hrestart
    exact (not_restarts_self _ hrestart).elim

/-- The engine after the first callbacks of an input. -/
def afterCallbacks (s : XmppEngine env) (bytes : List UInt8) (duringTls : List XmlElement)
    (events : List StanzaEvent) : XmppEngine env :=
  events.foldl (incoming · duringTls)
    { s.enter with stanzaParser := (s.stanzaParser.parse bytes).1 }

/-- When a call starts TLS or SASL succeeds in it, the rest of its input does nothing, and
nothing that was received is used afterwards. -/
structure Forgets (s : XmppEngine env) (e : Event) : Prop where
  rest : ∀ bytes duringTls pre post, e.call = .handleInput bytes duringTls →
    (s.stanzaParser.parse bytes).2 = pre ++ post →
    Restarts s.log (s.afterCallbacks bytes duringTls pre).log →
    s.enter.handleInput bytes duringTls = s.afterCallbacks bytes duringTls pre
  later : Restarts s.log (s.step e).log → ∀ events : List Event,
    (events.foldl step (s.step e)).log = (events.foldl step (s.step e).forget).log

/-- What was written and what was accepted, and what must have happened before. -/
structure Safe (s : XmppEngine env) : Prop where
  justified : Justified (Justification s.settings.tlsOption) s.log
  opened : s.state = .isOpen → Opened s.log
  pending : written s.log <+: accepted s.log
  complete : s.settings.outputHandler = true → Opened s.log → written s.log = accepted s.log

theorem Idle.forgets (h : s.Idle) {e : Event} (he : e.duringWrite = []) : s.Forgets e where
  rest bytes duringTls pre post _ hparsed hrestart := by
    have hclears : Clears s (s.afterCallbacks bytes duringTls pre) :=
      Clears.of_log_eq (t := { s.enter with stanzaParser := (s.stanzaParser.parse bytes).1 }) rfl
        (clears_incomingAll duringTls pre _)
    have hall : s.enter.handleInput bytes duringTls =
        post.foldl (incoming · duringTls) (s.afterCallbacks bytes duringTls pre) := by
      rw [afterCallbacks, ← List.foldl_append, ← hparsed]
      rfl
    rw [hall, incomingAll_of_raised (hclears.fresh hrestart).1]
  later hrestart events := (h.renewed_step he hrestart).agree.run events

theorem Idle.safe (h : s.Idle) : s.Safe where
  justified := h.inv.justified
  opened := h.toSteady.opened_of_isOpen
  pending := by
    by_cases hon : Opened s.log
    · rw [(h.inv.accounted.after hon).1]
      exact List.prefix_append ..
    · rw [(h.inv.accounted.before hon).1]
      exact List.nil_prefix
  complete hhandler hon := by
    rw [(h.inv.accounted.after hon).1, h.flushed hhandler]
    exact (List.append_nil _).symm

theorem idle_initial (settings : Settings) : Idle ({ settings } : XmppEngine env) where
  inv :=
    { justified := justified_nil
      guarded := fun hrequired _ _ => ⟨hrequired, nofun, fun t ht => by
        obtain rfl := Option.some.inj ht
        rfl, nofun⟩
      progress := fun t ht => by
        obtain rfl := Option.some.inj ht
        exact ⟨nofun, nofun, nofun, nofun⟩
      accounted := by
        refine ⟨fun _ => ⟨rfl, rfl, nofun, fun t ht => ?_, fun hdone => ?_⟩, nofun⟩
        · obtain rfl := Option.some.inj ht
          rfl
        · exact absurd (hdone _ rfl) nofun
      handler := fun hhandler => .inl hhandler
      entered := Nat.zero_le 1 }
  working t ht := by
    obtain rfl := Option.some.inj ht
    nofun
  flushed _ := rfl
  left := rfl

/-- As long as nothing is sent from `WriteOutput`, the login is safe. -/
theorem safe_run (settings : Settings) {events : List Event}
    (h : Runs.Along step (fun (_ : XmppEngine env) e => e.duringWrite = []) { settings } events) :
    Runs.Along step (fun (s : XmppEngine env) e => (s.step e).Safe ∧ s.Forgets e) { settings }
        events ∧ Safe (events.foldl step ({ settings } : XmppEngine env)) := by
  have hstep : ∀ (s : XmppEngine env) (e : Event), s.Idle → e.duringWrite = [] →
      (s.step e).Idle ∧ (s.step e).Safe ∧ s.Forgets e := fun s e hidle he =>
    ⟨hidle.step he, (hidle.step he).safe, hidle.forgets he⟩
  obtain ⟨hrun, hlast⟩ := h.invariant hstep (idle_initial settings)
  exact ⟨hrun, hlast.safe⟩

section Examples

def exampleHeader : String :=
  "<stream:stream xmlns='jabber:client' xmlns:stream='http://etherx.jabber.org/streams' " ++
    "id='1' version='1.0'>"

def exampleMechanisms : String :=
  "<stream:features><mechanisms xmlns='urn:ietf:params:xml:ns:xmpp-sasl'>" ++
    "<mechanism>PLAIN</mechanism></mechanisms></stream:features>"

def exampleSuccess : String := "<success xmlns='urn:ietf:params:xml:ns:xmpp-sasl'/>"

def exampleFeatures : String :=
  "<stream:features><bind xmlns='urn:ietf:params:xml:ns:xmpp-bind'/>" ++
    "<session xmlns='urn:ietf:params:xml:ns:xmpp-session'/></stream:features>"

def exampleBound : String :=
  "<iq type='result' id='0'><bind xmlns='urn:ietf:params:xml:ns:xmpp-bind'>" ++
    "<jid>a@b/c</jid></bind></iq>"

def exampleSession : String := "<iq type='result' id='1'/>"

/-- What expat finds in each of them. -/
def exampleEvents : List (String × List ExpatEvent) :=
  [(exampleHeader, [.startElement "stream:stream" [("xmlns", "jabber:client"),
      ("xmlns:stream", "http://etherx.jabber.org/streams"), ("id", "1"), ("version", "1.0")]]),
    (exampleMechanisms, [.startElement "stream:features" [],
      .startElement "mechanisms" [("xmlns", "urn:ietf:params:xml:ns:xmpp-sasl")],
      .startElement "mechanism" [], .characterData "PLAIN", .endElement "mechanism",
      .endElement "mechanisms", .endElement "stream:features"]),
    (exampleSuccess, [.startElement "success" [("xmlns", "urn:ietf:params:xml:ns:xmpp-sasl")],
      .endElement "success"]),
    (exampleFeatures, [.startElement "stream:features" [],
      .startElement "bind" [("xmlns", "urn:ietf:params:xml:ns:xmpp-bind")], .endElement "bind",
      .startElement "session" [("xmlns", "urn:ietf:params:xml:ns:xmpp-session")],
      .endElement "session", .endElement "stream:features"]),
    (exampleBound, [.startElement "iq" [("type", "result"), ("id", "0")],
      .startElement "bind" [("xmlns", "urn:ietf:params:xml:ns:xmpp-bind")],
      .startElement "jid" [], .characterData "a@b/c", .endElement "jid", .endElement "bind",
      .endElement "iq"]),
    (exampleSession, [.startElement "iq" [("type", "result"), ("id", "1")], .endElement "iq"])]

def exampleBytes (text : String) : List UInt8 := text.toUTF8.data.toList

def exampleEnvironment : XmppEnvironment where
  expat :=
    { State := Unit
      initial := ()
      parse := fun _ bytes => ((), ((exampleEvents.find? fun known =>
        exampleBytes known.1 = bytes).map (·.2)).getD [], true) }
  sasl :=
    { Mechanism := Unit
      chooseBestSaslMechanism := fun mechanisms _ => if "PLAIN" ∈ mechanisms then "PLAIN" else ""
      createSaslMechanism := fun _ => some ()
      startSaslAuth := fun _ =>
        (some (((XmlElement.withNs ⟨nsSasl, "auth"⟩).addAttr ⟨"", "mechanism"⟩ "PLAIN").addText
          "AGEAYg=="), ())
      handleSaslChallenge := fun _ _ => (none, ()) }
  isFull jid := jid.toList.contains '/'
  respond _ := []

def exampleMessage (receiver : String) : XmlElement :=
  ({ name := ⟨nsClient, "message"⟩ } : XmlElement).addAttr qnTo receiver

/-- A login without TLS, while a message is queued. -/
def exampleLogin (duringWrite : List XmlElement) : List Event :=
  [{ call := .connect }, { call := .sendStanza (exampleMessage "x@b") },
    { call := .handleInput (exampleBytes exampleHeader) [] },
    { call := .handleInput (exampleBytes exampleMechanisms) [] },
    { call := .handleInput (exampleBytes exampleSuccess) [] },
    { call := .handleInput (exampleBytes exampleHeader) [] },
    { call := .handleInput (exampleBytes exampleFeatures) [] },
    { call := .handleInput (exampleBytes exampleBound) [] },
    { call := .handleInput (exampleBytes exampleSession) [], duringWrite }]

def exampleSettings : Settings := { userDomain := "b", tlsOption := .disabled }

end Examples

/-- The message is written when the session has been granted. -/
theorem safe_run_login : Safe (List.foldl step
    ({ settings := exampleSettings } : XmppEngine exampleEnvironment) (exampleLogin [])) := by
  refine (safe_run exampleSettings ?_).2
  exact ⟨rfl, rfl, rfl, rfl, rfl, rfl, rfl, rfl, rfl, trivial⟩

/-- A second message that is sent while the first one is written writes the first one again. -/
theorem queued_written_twice : ¬ Safe (List.foldl step
    ({ settings := exampleSettings } : XmppEngine exampleEnvironment)
    (exampleLogin [exampleMessage "y@b"])) := by
  intro h
  have hlength := h.pending.length_le
  exact absurd hlength (by decide +kernel)

end XmppEngine

end Libjingle
