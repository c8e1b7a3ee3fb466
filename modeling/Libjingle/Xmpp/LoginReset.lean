import Libjingle.Xmpp.LoginSafety

/-! What the engine forgets when TLS is started and when SASL succeeds. The rest of the input
is dropped, and after the reset of the parser nothing that was received matters. -/

namespace Libjingle

open XmppEngine

/-- TLS is started, or SASL succeeds. -/
def XmppEngine.Action.Restart : Action → Prop
  | .startTls _ | .authenticated => True
  | _ => False

namespace XmppLoginTask

/-- The states in which the task waits for a stanza, and the last one. -/
def State.rests : State → Bool
  | .init | .tlsInit | .authInit | .bindInit => false
  | _ => true

/-- The turns that are left at most, by whether there is a stanza. -/
def State.rank : State → Bool → Nat
  | .tlsInit, true | .authInit, true => 4
  | .tlsRequested, true | .saslRunning, true | .startedXmpp, true | .bindInit, true => 3
  | .init, _ | .tlsInit, false | .authInit, false | .bindInit, false | .bindRequested, true => 2
  | _, _ => 1

theorem State.rank_pos (state : State) (isSome : Bool) : 0 < state.rank isSome := by
  cases state <;> cases isSome <;> decide

theorem State.rank_le (state : State) (isSome : Bool) : state.rank isSome ≤ 4 := by
  cases state <;> cases isSome <;> decide

variable {env : XmppEnvironment}

def rank (t : XmppLoginTask env.sasl) : Nat := t.state.rank t.stanza.isSome

namespace Login

variable {l : Login env} {n : Nat}

/-- What a turn does: a restart leads back to the start, and another turn has less of them
left. -/
structure Moves (n : Nat) (l : Login env) (r : Login env × Bool) : Prop where
  log : ∃ more, r.1.engine.log = l.engine.log ++ more ∧
    ((∃ a ∈ more, a.Restart) → r.1.task.state = .init ∧ r.1.task.stanza = none)
  again : r.2 = true → r.1.task.rank < n
  rests : r.2 = false → r.1.task.state.rests = true

theorem Moves.task {t : XmppLoginTask env.sasl} {again : Bool} (hagain : again = true → t.rank < n)
    (hrests : again = false → t.state.rests = true) : Moves n l (⟨l.engine, t⟩, again) :=
  ⟨⟨[], (List.append_nil _).symm, by simp⟩, hagain, hrests⟩

theorem moves_failure (l : Login env) (t : XmppLoginTask env.sasl) (error : XmppEngine.Error) :
    Moves n l (failure ⟨l.engine, t⟩ error, false) := by
  have hlog : (l.engine.signalError error).log = l.engine.log := by
    unfold signalError
    split <;> rfl
  exact ⟨⟨[], hlog.trans (List.append_nil _).symm, by simp⟩, nofun, fun _ => rfl⟩

theorem Moves.sendLogin {e : XmlElement} {nextId : Nat} {t : XmppLoginTask env.sasl}
    (hrank : t.rank < n) : Moves n l (⟨{ l.engine with nextId }.sendLogin e, t⟩, true) :=
  ⟨⟨[.asked e], rfl, by simp [Action.Restart]⟩, fun _ => hrank, nofun⟩

theorem Moves.take {e : XmlElement} {r : Login env × Bool} (h : Moves n (l.take e) r) :
    Moves n l r := by
  obtain ⟨more, hlog, hrestart⟩ := h.log
  refine ⟨⟨.taken e :: more, ?_, fun ⟨a, ha, hr⟩ => ?_⟩, h.again, h.rests⟩
  · rw [hlog]
    exact List.append_assoc ..
  · rcases List.mem_cons.mp ha with rfl | hmem
    · exact hr.elim
    · exact hrestart ⟨a, hmem, hr⟩

theorem moves_startedXmpp (hstanza : l.task.stanza = none) (e : XmlElement) :
    Moves 3 l (l.startedXmpp e) := by
  have hrank : ∀ state, XmppLoginTask.rank { l.task with features := some e, state } =
      state.rank false := fun state => by simp only [XmppLoginTask.rank, hstanza]; rfl
  unfold startedXmpp
  split
  next => exact moves_failure l l.task _
  next =>
    simp only
    split
    next => exact moves_failure l { l.task with features := some e } _
    next =>
      split
      next => exact Moves.task (fun _ => (hrank .tlsInit).symm ▸ by decide) nofun
      next =>
        split
        next => exact Moves.task (fun _ => (hrank .authInit).symm ▸ by decide) nofun
        next => exact Moves.task (fun _ => (hrank .bindInit).symm ▸ by decide) nofun

theorem moves_authInit (hstate : l.task.state = .authInit) :
    Moves l.task.rank l l.authInit := by
  unfold authInit
  split
  next => exact moves_failure l l.task _
  next =>
    simp only
    split
    next => exact moves_failure l l.task _
    next =>
      split
      next => exact moves_failure l { l.task with saslMech := none } _
      next mech _ => exact moves_failure l { l.task with saslMech := some mech } _
      next auth mech _ =>
        refine Moves.sendLogin ?_
        show State.rank .saslRunning l.task.stanza.isSome < l.task.rank
        rw [XmppLoginTask.rank, hstate]
        cases l.task.stanza.isSome <;> decide

theorem moves_saslRunning (hstanza : l.task.stanza = none) (e : XmlElement) :
    Moves 3 l (l.saslRunning e) := by
  unfold saslRunning
  split
  next => exact moves_failure l l.task _
  next =>
    split
    next =>
      split
      next =>
        refine Moves.sendLogin ?_
        show State.rank .saslRunning l.task.stanza.isSome < 3
        rw [hstanza]
        decide
      next mech _ => exact moves_failure l { l.task with saslMech := some mech } _
      next => exact moves_failure l l.task _
    next =>
      split
      next => exact moves_failure l l.task _
      next =>
        refine ⟨⟨[.authenticated], rfl, fun _ => ⟨rfl, hstanza⟩⟩, fun _ => ?_, nofun⟩
        show State.rank .init l.task.stanza.isSome < 3
        rw [hstanza]
        decide

theorem moves_bindRequested (hstate : l.task.state = .bindRequested)
    (hstanza : l.task.stanza = none) (e : XmlElement) : Moves 2 l (l.bindRequested e) := by
  unfold bindRequested
  split
  next => exact Moves.task nofun fun _ => by rw [hstate]; rfl
  next =>
    split
    next => exact moves_failure l l.task _
    next first _ =>
      split
      next => exact moves_failure l l.task _
      next =>
        simp only
        split
        next => exact moves_failure l { l.task with fullJid := first.textNamed qnBindJid } _
        next =>
          refine Moves.sendLogin ?_
          show State.rank .sessionRequested l.task.stanza.isSome < 2
          rw [hstanza]
          decide

theorem moves_sessionRequested (hstate : l.task.state = .sessionRequested) (e : XmlElement) :
    Moves 1 l (l.sessionRequested e) := by
  unfold sessionRequested
  split
  next => exact Moves.task nofun fun _ => by rw [hstate]; rfl
  next =>
    split
    next => exact moves_failure l l.task _
    next =>
      refine ⟨?_, nofun, fun _ => rfl⟩
      simp only [setState, flushQueuedStanzas, signalBound]
      split
      next => exact ⟨[.opened l.task.fullJid], rfl, by simp [Action.Restart]⟩
      next => exact ⟨[], (List.append_nil _).symm, by simp⟩

theorem moves_startTls (hstanza : l.task.stanza = none) (duringTls : List XmlElement) :
    Moves 3 l ({ (l.startTls duringTls).setState .init with
      engine := { (l.startTls duringTls).engine with tlsOption := .enabled } }, true) := by
  unfold startTls
  split
  next =>
    rw [foldl_accepted]
    refine ⟨⟨_ :: duringTls.map .accepted, List.append_assoc .., fun _ => ⟨rfl, hstanza⟩⟩,
      fun _ => ?_, nofun⟩
    show State.rank .init l.task.stanza.isSome < 3
    rw [hstanza]
    decide
  next =>
    refine ⟨⟨[], (List.append_nil _).symm, by simp⟩, fun _ => ?_, nofun⟩
    show State.rank .init l.task.stanza.isSome < 3
    rw [hstanza]
    decide

theorem moves_turn (l : Login env) (duringTls : List XmlElement) :
    Moves l.task.rank l (l.turn duringTls) := by
  have hrank : ∀ {e state}, l.task.state = state → l.task.stanza = some e →
      l.task.rank = state.rank true := fun {_ _} hstate hstanza => by
    simp only [XmppLoginTask.rank, hstate, hstanza]
    rfl
  unfold turn
  split
  next hstate =>
    refine ⟨⟨[], (List.append_nil _).symm, by simp⟩, fun _ => ?_, nofun⟩
    show State.rank .streamStartSent l.task.stanza.isSome < l.task.rank
    rw [XmppLoginTask.rank, hstate]
    cases l.task.stanza.isSome <;> decide
  next e hstate hstanza =>
    simp only
    split
    next => exact Moves.take (e := e) (Moves.task nofun fun _ => rfl)
    next => exact Moves.take (moves_failure (l.take e) (l.take e).task _)
  next e hstate hstanza =>
    rw [hrank hstate hstanza]
    exact (moves_startedXmpp rfl e).take
  next hstate =>
    split
    next =>
      refine Moves.sendLogin ?_
      show State.rank .tlsRequested l.task.stanza.isSome < l.task.rank
      rw [XmppLoginTask.rank, hstate]
      cases l.task.stanza.isSome <;> decide
    next => exact moves_failure l l.task _
  next e hstate hstanza =>
    rw [hrank hstate hstanza]
    simp only
    split
    next => exact Moves.take (moves_failure (l.take e) (l.take e).task _)
    next => exact (moves_startTls (l := l.take e) rfl duringTls).take
  next hstate => exact moves_authInit hstate
  next e hstate hstanza =>
    rw [hrank hstate hstanza]
    exact (moves_saslRunning rfl e).take
  next hstate =>
    split
    next =>
      refine Moves.sendLogin ?_
      show State.rank .bindRequested l.task.stanza.isSome < l.task.rank
      rw [XmppLoginTask.rank, hstate]
      cases l.task.stanza.isSome <;> decide
    next => exact moves_failure l l.task _
  next e hstate hstanza =>
    rw [hrank hstate hstanza]
    exact (moves_bindRequested (l := l.take e) hstate rfl e).take
  next e hstate hstanza =>
    rw [hrank hstate hstanza]
    exact (moves_sessionRequested (l := l.take e) hstate e).take
  next hinit htlsInit hauthInit hbindInit _ _ _ _ _ _ =>
    refine Moves.task nofun fun _ => ?_
    cases hstate : l.task.state with
    | init => exact (hinit hstate).elim
    | tlsInit => exact (htlsInit hstate).elim
    | authInit => exact (hauthInit hstate).elim
    | bindInit => exact (hbindInit hstate).elim
    | _ => rfl

theorem loop_init (hstate : l.task.state = .init) (hstanza : l.task.stanza = none)
    (duringTls : List XmlElement) (n : Nat) : loop duringTls (n + 1) l =
      ⟨XmppEngine.internalSendStart { l.engine with raisedReset := true }
        l.engine.settings.userDomain, { l.task with features := none, state := .streamStartSent }⟩ := by
  have hturn : l.turn duringTls = (⟨XmppEngine.internalSendStart
      { l.engine with raisedReset := true } l.engine.settings.userDomain,
      { l.task with features := none, state := .streamStartSent }⟩, true) := by
    simp only [turn, hstate]
  rw [loop, hturn]
  cases n with
  | zero => rfl
  | succ n =>
    simp only [loop, turn]
    rw [hstanza]

/-- What the turns do together. After a restart the parser will be reset, and the task waits
for a new stream. -/
structure Settles (l l' : Login env) : Prop where
  log : ∃ more, l'.engine.log = l.engine.log ++ more ∧ ((∃ a ∈ more, a.Restart) →
    l'.engine.raisedReset = true ∧ l'.task.state = .streamStartSent ∧ l'.task.features = none)
  rests : l'.task.state.rests = true

theorem settles_loop (duringTls : List XmlElement) (n : Nat) (l : Login env)
    (hrank : l.task.rank ≤ n) : Settles l (loop duringTls n l) := by
  induction n generalizing l with
  | zero => exact absurd hrank (Nat.not_le.mpr (State.rank_pos ..))
  | succ n ih =>
    have hmoves := moves_turn l duringTls
    unfold loop
    split
    next m hturn =>
      rw [hturn] at hmoves
      obtain ⟨first, hfirst, hrestart⟩ := hmoves.log
      have hless : m.task.rank ≤ n := Nat.le_of_lt_succ (Nat.lt_of_lt_of_le (hmoves.again rfl) hrank)
      obtain ⟨⟨rest, hrest, hreset⟩, hrests⟩ := ih m hless
      refine ⟨⟨first ++ rest, ?_, fun ⟨a, ha, hr⟩ => ?_⟩, hrests⟩
      · rw [hrest, hfirst, List.append_assoc]
      · rcases List.mem_append.mp ha with hmem | hmem
        · obtain ⟨hstate, hstanza⟩ := hrestart ⟨a, hmem, hr⟩
          have hpos : 0 < n := Nat.lt_of_lt_of_le (State.rank_pos ..) hless
          rw [← Nat.sub_add_cancel hpos, loop_init hstate hstanza]
          exact ⟨rfl, rfl, rfl⟩
        · exact hreset ⟨a, hmem, hr⟩
    next m hturn =>
      rw [hturn] at hmoves
      obtain ⟨more, hmore, hrestart⟩ := hmoves.log
      have hrests := hmoves.rests rfl
      refine ⟨⟨more, hmore, fun hr => ?_⟩, hrests⟩
      rw [(hrestart hr).1] at hrests
      cases hrests

end Login

end XmppLoginTask

namespace XmppEngine

variable {env : XmppEnvironment} {s s' : XmppEngine env}

/-- The parser will be reset, and the login task has nothing that was received. -/
def Fresh (s : XmppEngine env) : Prop :=
  s.raisedReset = true ∧ ∃ t, s.loginTask = some t ∧ t.state = .streamStartSent ∧
    t.features = none ∧ t.stanza = none ∧ t.isStart = false

def Restarts (before after : List Action) : Prop :=
  ∃ more, after = before ++ more ∧ ∃ a ∈ more, a.Restart

/-- What happens is added to the log, and after a restart the engine is fresh. -/
structure Clears (s s' : XmppEngine env) : Prop where
  log : ∃ more, s'.log = s.log ++ more
  fresh : Restarts s.log s'.log → s'.Fresh

theorem clears_of_log (hlog : ∃ more, s'.log = s.log ++ more ∧ ∀ a ∈ more, ¬ a.Restart) :
    Clears s s' := by
  obtain ⟨more, hmore, hno⟩ := hlog
  refine ⟨⟨more, hmore⟩, fun ⟨others, hothers, a, ha, hr⟩ => ?_⟩
  rw [hmore, List.append_cancel_left_eq] at hothers
  exact absurd hr (hno a (hothers ▸ ha))

theorem clears_signalError (s : XmppEngine env) (error : Error) : Clears s (s.signalError error) := by
  refine clears_of_log ⟨[], ?_, nofun⟩
  unfold signalError
  split <;> exact (List.append_nil _).symm

theorem clears_advanceLogin (s : XmppEngine env) (t : XmppLoginTask env.sasl)
    (stanza : Option XmlElement) (isStart : Bool) (duringTls : List XmlElement) :
    Clears s (s.advanceLogin t stanza isStart duringTls) := by
  obtain ⟨⟨more, hmore, hreset⟩, -⟩ := XmppLoginTask.Login.settles_loop duringTls 4
    ⟨s, { t with stanza, isStart }⟩ (XmppLoginTask.State.rank_le ..)
  refine ⟨⟨more, hmore⟩, fun ⟨others, hothers, a, ha, hr⟩ => ?_⟩
  obtain rfl : more = others := List.append_cancel_left (hmore.symm.trans hothers)
  obtain ⟨hraised, hstate, hfeatures⟩ := hreset ⟨a, ha, hr⟩
  refine ⟨hraised, _, if_neg ?_, hstate, hfeatures, rfl, rfl⟩
  show ¬ (XmppLoginTask.Login.loop duringTls 4 ⟨s, { t with stanza, isStart }⟩).task.state = .done
  rw [hstate]
  nofun

theorem log_takeStanza (s : XmppEngine env) (e : XmlElement) :
    (s.takeStanza e).log = s.log ++ [.accepted e] := by
  unfold takeStanza
  split <;> rfl

theorem log_takeStanzas (elements : List XmlElement) (s : XmppEngine env) :
    (elements.foldl takeStanza s).log = s.log ++ elements.map .accepted := by
  induction elements generalizing s with
  | nil => exact (List.append_nil _).symm
  | cons e rest ih =>
    rw [List.foldl_cons, ih, log_takeStanza, List.append_assoc]
    rfl

theorem clears_incoming (s : XmppEngine env) (duringTls : List XmlElement) (event : StanzaEvent) :
    Clears s (s.incoming duringTls event) := by
  unfold incoming
  split
  next => exact clears_of_log ⟨[], (List.append_nil _).symm, nofun⟩
  next =>
    split
    next stream =>
      unfold incomingStart
      split
      next => exact clears_advanceLogin ..
      next => exact clears_signalError ..
    next stanza =>
      unfold incomingStanza
      split
      next => exact clears_signalError ..
      next =>
        split
        next => exact clears_advanceLogin ..
        next =>
          refine clears_of_log ⟨_, log_takeStanzas _ s, fun a ha hr => ?_⟩
          obtain ⟨e, -, rfl⟩ := List.mem_map.mp ha
          exact hr
    next => exact clears_signalError ..
    next => exact clears_signalError ..

theorem incomingAll_of_raised (h : s.raisedReset = true) (duringTls : List XmlElement)
    (events : List StanzaEvent) : events.foldl (incoming · duringTls) s = s := by
  induction events with
  | nil => rfl
  | cons event rest ih =>
    have hdrop : s.incoming duringTls event = s := by
      unfold incoming
      rw [h, Bool.or_true, if_pos rfl]
    rw [List.foldl_cons, hdrop, ih]

theorem clears_incomingAll (duringTls : List XmlElement) (events : List StanzaEvent)
    (s : XmppEngine env) : Clears s (events.foldl (incoming · duringTls) s) := by
  induction events generalizing s with
  | nil => exact clears_of_log ⟨[], (List.append_nil _).symm, nofun⟩
  | cons event rest ih =>
    rw [List.foldl_cons]
    have hfirst := clears_incoming s duringTls event
    obtain ⟨first, hmore⟩ := hfirst.log
    obtain ⟨later, hlater⟩ := (ih (s.incoming duringTls event)).log
    refine ⟨⟨first ++ later, by rw [hlater, hmore, List.append_assoc]⟩, fun hrestart => ?_⟩
    obtain ⟨more, hall, a, ha, hr⟩ := hrestart
    rw [hlater, hmore, List.append_assoc, List.append_cancel_left_eq] at hall
    rw [← hall] at ha
    rcases List.mem_append.mp ha with hmem | hmem
    · have hfresh := hfirst.fresh ⟨first, hmore, a, hmem, hr⟩
      rw [incomingAll_of_raised hfresh.1]
      exact hfresh
    · exact (ih (s.incoming duringTls event)).fresh ⟨later, hlater, a, hmem, hr⟩

end XmppEngine

end Libjingle
