import Libjingle.Xmpp.LoginSafety

/-! The invariant of the login through the calls of the engine. -/

namespace Libjingle

namespace XmppEngine

open EventLog

variable {env : XmppEnvironment} {s s' : XmppEngine env}
  {login login' : Option (XmppLoginTask env.sasl)}

theorem Inv.congr (h : Inv s login) (hsettings : s'.settings = s.settings)
    (htls : s'.tlsOption = s.tlsOption) (hstate : s'.state = s.state)
    (hhandler : s'.outputHandler = s.outputHandler) (houtput : s'.output = s.output)
    (hlog : s'.log = s.log) (hentered : s'.engineEntered ≤ 1) : Inv s' login where
  justified := by rw [hsettings, hlog]; exact h.justified
  guarded := by
    rw [hsettings, hhandler, hlog]
    intro hrequired hon hoff
    obtain ⟨hoption, hharmless, hearly, hnot⟩ := h.guarded hrequired hon hoff
    exact ⟨htls.trans hoption, houtput ▸ hharmless, hearly, hlog ▸ hnot⟩
  progress := by rw [hlog]; exact h.progress
  accounted := by
    obtain ⟨hbefore, hafter⟩ := h.accounted
    refine ⟨?_, ?_⟩
    · rw [hlog, houtput, hstate]
      exact hbefore
    · rw [hlog, houtput, hstate]
      exact hafter
  handler := by rw [hsettings, hstate, hhandler, houtput]; exact h.handler
  entered := hentered

theorem Inv.delete {t : XmppLoginTask env.sasl} (h : Inv s (some t)) (ht : t.state = .done) :
    Inv s none where
  justified := h.justified
  guarded htls hhandler hoff :=
    let hold := h.guarded htls hhandler hoff
    ⟨hold.tlsOption, hold.output, (fun _ hu => nomatch hu), hold.opened⟩
  progress _ hu := nomatch hu
  accounted := by
    refine ⟨fun hnot => ?_, fun hon => ?_⟩
    · obtain ⟨hwritten, hstanzas, hopen, -, hclosed⟩ := h.accounted.before hnot
      refine ⟨hwritten, hstanzas, hopen, (fun _ hu => nomatch hu),
        fun _ => hclosed fun u hu => ?_⟩
      rw [← Option.some.inj hu, ht]
    · obtain ⟨haccepted, -, hstates⟩ := h.accounted.after hon
      exact ⟨haccepted, (fun _ hu => nomatch hu), hstates⟩
  handler := h.handler
  entered := h.entered

theorem Inv.setStanza {t : XmppLoginTask env.sasl} (h : Inv s (some t))
    (stanza : Option XmlElement) (isStart : Bool) : Inv s (some { t with stanza, isStart }) where
  justified := h.justified
  guarded htls hhandler hoff :=
    let hold := h.guarded htls hhandler hoff
    ⟨hold.tlsOption, hold.output, fun _ hu => Option.some.inj hu ▸ hold.early t rfl, hold.opened⟩
  progress u hu := by
    obtain ⟨hauth, hinit, hbind, hsession⟩ := h.progress t rfl
    exact Option.some.inj hu ▸ ⟨hauth, hinit, hbind, hsession⟩
  accounted := by
    refine ⟨fun hnot => ?_, fun hon => ?_⟩
    · obtain ⟨hwritten, hstanzas, hopen, haccepted, hclosed⟩ := h.accounted.before hnot
      refine ⟨hwritten, hstanzas, hopen, fun u hu => ?_, fun hdone => hclosed fun u hu => ?_⟩
      · obtain rfl := Option.some.inj hu
        exact haccepted t rfl
      · obtain rfl := Option.some.inj hu
        exact hdone { t with stanza, isStart } rfl
    · obtain ⟨haccepted, hdone, hstates⟩ := h.accounted.after hon
      refine ⟨haccepted, fun u hu => ?_, hstates⟩
      obtain rfl := Option.some.inj hu
      exact hdone t rfl
  handler := h.handler
  entered := h.entered

structure Steady (s : XmppEngine env) : Prop where
  inv : Inv s s.loginTask
  working : ∀ t, s.loginTask = some t → t.state ≠ .done

structure Busy (s : XmppEngine env) : Prop extends s.Steady where
  running : s.Running

theorem Inv.not_opened (h : Inv s login) {t : XmppLoginTask env.sasl} (ht : login = some t)
    (hworking : t.state ≠ .done) : ¬ Opened s.log :=
  fun hon => hworking ((h.accounted.after hon).2.1 t ht).1

theorem Busy.advanceLogin (h : s.Busy) {t : XmppLoginTask env.sasl} (ht : s.loginTask = some t)
    (hopening : s.state = .opening) (stanza : Option XmlElement) (isStart : Bool)
    (duringTls : List XmlElement) : (s.advanceLogin t stanza isStart duringTls).Busy := by
  have hkept : XmppLoginTask.Login.Kept ⟨s, t⟩ := ⟨ht ▸ h.inv, hopening, h.working t ht⟩
  have hstart : XmppLoginTask.Login.Kept ⟨s, { t with stanza, isStart }⟩ :=
    ⟨hkept.inv.setStanza stanza isStart, hopening, hkept.working⟩
  have hloop := hstart.loop duringTls 4
  unfold XmppEngine.advanceLogin XmppLoginTask.Login.advance
  generalize XmppLoginTask.Login.loop duringTls 4 ⟨s, { t with stanza, isStart }⟩ = l at hloop
  refine ⟨⟨?_, ?_⟩, hloop.running⟩
  · simp only
    split
    next hdone => exact (hloop.inv.delete hdone).congr rfl rfl rfl rfl rfl rfl hloop.inv.entered
    next =>
      exact (hloop.inv.setStanza none false).congr rfl rfl rfl rfl rfl rfl hloop.inv.entered
  · intro u hu
    simp only at hu
    split at hu
    next => cases hu
    next hdone => exact Option.some.inj hu ▸ hdone

theorem Steady.close (h : s.Steady) (errorCode : Option Error) :
    Steady { s with errorCode, state := .closed } where
  inv :=
    { justified := h.inv.justified
      guarded := fun htls hhandler hoff =>
        let hold := h.inv.guarded htls hhandler hoff
        ⟨hold.tlsOption, hold.output, hold.early, hold.opened⟩
      progress := h.inv.progress
      accounted := by
        refine ⟨fun hnot => ?_, fun hon => ?_⟩
        · obtain ⟨hwritten, hstanzas, -, haccepted, -⟩ := h.inv.accounted.before hnot
          exact ⟨hwritten, hstanzas, nofun, haccepted, fun _ => rfl⟩
        · obtain ⟨haccepted, hdone, -, -⟩ := h.inv.accounted.after hon
          exact ⟨haccepted, hdone, nofun, nofun⟩
      handler := fun hhandler => (h.inv.handler hhandler).imp_right fun hclosed => ⟨rfl, hclosed.2⟩
      entered := h.inv.entered }
  working := h.working

theorem Steady.signalError (h : s.Steady) (error : Error) : (s.signalError error).Steady := by
  unfold XmppEngine.signalError
  split
  next => exact h
  next => exact h.close _

theorem Busy.signalError (h : s.Busy) (error : Error) : (s.signalError error).Busy := by
  refine ⟨h.toSteady.signalError error, ?_⟩
  unfold XmppEngine.signalError
  split
  next => exact h.running
  next => nofun

theorem Steady.takeStanza (h : s.Steady) (hstate : s.state ≠ .closed) (e : XmlElement) :
    (s.takeStanza e).Steady := by
  have hjustified : Justified (Justification s.settings.tlsOption) (s.log ++ [.accepted e]) :=
    h.inv.justified.concat (by trivial)
  have hopened : Opened (s.log ++ [.accepted e]) ↔ Opened s.log := by simp [Opened]
  have htls : TlsStarted (s.log ++ [.accepted e]) ↔ TlsStarted s.log := by simp [TlsStarted]
  unfold XmppEngine.takeStanza
  split
  next t hlogin =>
    have hworking := h.working t hlogin
    have hnot := h.inv.not_opened hlogin hworking
    obtain ⟨hwritten, hstanzas, hopen, haccepted, -⟩ := h.inv.accounted.before hnot
    refine ⟨?_, fun u hu => Option.some.inj hu ▸ hworking⟩
    exact {
      justified := hjustified
      guarded := fun hrequired hhandler hoff =>
        let hold := h.inv.guarded hrequired hhandler (mt htls.mpr hoff)
        ⟨hold.tlsOption, hold.output, fun u hu => by
          obtain rfl := Option.some.inj hu
          exact hold.early t hlogin, mt hopened.mp hold.opened⟩
      progress := fun u hu => by
        obtain rfl := Option.some.inj hu
        obtain ⟨hauth, hinit, hbind, hsession⟩ := (h.inv.progress t hlogin).append [.accepted e]
        exact ⟨hauth, hinit, hbind, hsession⟩
      accounted := by
        refine ⟨fun _ => ⟨?_, hstanzas, hopen, fun u hu => ?_, fun hdone => ?_⟩,
          fun hon => absurd (hopened.mp hon) hnot⟩
        · simp only [record]
          rw [written_append, hwritten]
          rfl
        · obtain rfl := Option.some.inj hu
          simp only [record]
          rw [accepted_append, haccepted t hlogin]
          rfl
        · exact absurd (hdone _ rfl) hworking
      handler := h.inv.handler
      entered := h.inv.entered }
  next hlogin =>
    -- the login task is gone and the engine not closed
    have hon : Opened s.log := by
      by_contra hnot
      exact hstate ((h.inv.accounted.before hnot).2.2.2.2 fun t ht => by rw [hlogin] at ht; cases ht)
    obtain ⟨haccepted, -, hstates⟩ := h.inv.accounted.after hon
    have hgone : ∀ u, s.loginTask ≠ some u := fun u hu => by
      cases hlogin.symm.trans hu
    refine ⟨?_, fun u hu => absurd hu (hgone u)⟩
    exact {
      justified := hjustified
      guarded := fun hrequired hhandler hoff =>
        absurd hon (h.inv.guarded hrequired hhandler (mt htls.mpr hoff)).opened
      progress := fun u hu => absurd hu (hgone u)
      accounted := by
        refine ⟨fun hnot => absurd (hopened.mpr hon) hnot,
          fun _ => ⟨?_, fun u hu => absurd hu (hgone u), hstates⟩⟩
        simp only [send, record]
        rw [accepted_append, written_append, stanzas_append, haccepted]
        simp only [written, accepted, stanzas, List.filterMap_cons, List.filterMap_nil,
          Action.accepted?, Action.written?, Output.stanza?, List.append_nil, List.append_assoc]
      handler := fun hhandler =>
        .inl ((h.inv.handler hhandler).resolve_right fun hclosed => hstate hclosed.1)
      entered := h.inv.entered }

theorem state_takeStanza (s : XmppEngine env) (e : XmlElement) :
    (s.takeStanza e).state = s.state := by
  unfold XmppEngine.takeStanza
  split <;> rfl

theorem Busy.takeStanzas (h : s.Busy) (hstate : s.state ≠ .closed) (elements : List XmlElement) :
    (elements.foldl XmppEngine.takeStanza s).Busy := by
  induction elements generalizing s with
  | nil => exact h
  | cons e rest ih =>
    refine ih ⟨h.toSteady.takeStanza hstate e, ?_⟩ (by rwa [state_takeStanza])
    unfold XmppEngine.takeStanza
    split <;> exact h.running

theorem Busy.incoming (h : s.Busy) (duringTls : List XmlElement) (event : StanzaEvent) :
    (s.incoming duringTls event).Busy := by
  unfold XmppEngine.incoming
  split
  next => exact h
  next hignore =>
    have herror : s.errorCode = none := by
      simp only [hasError, Bool.or_eq_true, not_or, Bool.not_eq_true,
        Option.isSome_eq_false_iff, Option.isNone_iff_eq_none] at hignore
      exact hignore.1
    have hrunning := h.running herror
    have hopening : ∀ t, s.loginTask = some t → s.state = .opening := fun t ht =>
      hrunning.resolve_right
        (h.inv.accounted.before (h.inv.not_opened ht (h.working t ht))).2.2.1
    split
    next stream =>
      unfold incomingStart
      split
      next t ht => exact h.advanceLogin ht (hopening t ht) _ _ _
      next => exact h.signalError _
    next stanza =>
      unfold incomingStanza
      split
      next => exact h.signalError _
      next =>
        split
        next t ht => exact h.advanceLogin ht (hopening t ht) _ _ _
        next =>
          refine h.takeStanzas ?_ _
          rcases hrunning with hs | hs <;> rw [hs] <;> decide
    next => exact h.signalError _
    next => exact h.signalError _

theorem Busy.incomingAll (h : s.Busy) (duringTls : List XmlElement) (events : List StanzaEvent) :
    (events.foldl (XmppEngine.incoming · duringTls) s).Busy := by
  induction events generalizing s with
  | nil => exact h
  | cons event rest ih => exact ih (h.incoming duringTls event)

structure Idle (s : XmppEngine env) : Prop extends s.Steady where
  flushed : s.settings.outputHandler = true → s.output = []
  left : s.engineEntered = 0

theorem Inv.write (h : Inv s login) (hhandler : s.outputHandler = true) :
    Inv { s with log := s.log ++ s.output.map .wrote, output := [] } login where
  justified := by
    refine h.justified.append (fun _ _ hb => hb.append _) fun a ha => ?_
    obtain ⟨o, ho, rfl⟩ := List.mem_map.mp ha
    refine ⟨fun hrequired => ?_, fun e he => ?_⟩
    · by_cases hon : TlsStarted s.log
      · exact .inr hon
      · exact .inl ((h.guarded hrequired hhandler hon).output o ho)
    · by_contra hnot
      have hmem : e ∈ stanzas s.output := List.mem_filterMap.mpr ⟨o, ho, by rw [he]; rfl⟩
      rw [(h.accounted.before hnot).2.1] at hmem
      cases hmem
  guarded hrequired hon hoff :=
    let hold := h.guarded hrequired hon fun hstarted => hoff (hstarted.append _)
    ⟨hold.tlsOption, nofun, hold.early, by simpa [Opened] using hold.opened⟩
  progress t ht := (h.progress t ht).append _
  accounted := by
    have hopened : Opened (s.log ++ s.output.map .wrote) ↔ Opened s.log := by simp [Opened]
    have hwritten : written (s.output.map .wrote) = stanzas s.output := List.filterMap_map ..
    have haccepted : accepted (s.output.map .wrote) = [] := by
      refine List.filterMap_eq_nil_iff.mpr fun a ha => ?_
      obtain ⟨o, -, rfl⟩ := List.mem_map.mp ha
      rfl
    refine ⟨fun hnot => ?_, fun hon => ?_⟩
    · obtain ⟨hold, hstanzas, hopen, hqueue, hclosed⟩ := h.accounted.before (mt hopened.mpr hnot)
      simp only [written_append, hwritten, accepted_append, haccepted, List.append_nil, hold,
        hstanzas]
      exact ⟨trivial, rfl, hopen, hqueue, hclosed⟩
    · obtain ⟨hold, hdone, hstates⟩ := h.accounted.after (hopened.mp hon)
      simp only [written_append, hwritten, accepted_append, haccepted, List.append_nil, hold]
      exact ⟨(List.append_nil _).symm, hdone, hstates⟩
  handler _ := .inl hhandler
  entered := h.entered

theorem Inv.closeConnection (h : Inv s login) (hclosed : s.state = .closed)
    (houtput : s.output = []) :
    Inv { s.record .closeConnection with outputHandler := false } login where
  justified := h.justified.concat (by trivial)
  guarded _ hon := absurd hon Bool.false_ne_true
  progress t ht := (h.progress t ht).append _
  accounted := by
    have hopened : Opened (s.log ++ [.closeConnection]) ↔ Opened s.log := by simp [Opened]
    refine ⟨fun hnot => ?_, fun hon => ?_⟩
    · obtain ⟨hold, hstanzas, hopen, hqueue, hdone⟩ := h.accounted.before (mt hopened.mpr hnot)
      simp only [record, written_append, accepted_append, hold]
      exact ⟨rfl, hstanzas, hopen, fun t ht => (List.append_nil _).trans (hqueue t ht), hdone⟩
    · obtain ⟨hold, hdone, hstates⟩ := h.accounted.after (hopened.mp hon)
      simp only [record, written_append, accepted_append, hold]
      refine ⟨?_, hdone, hstates⟩
      rw [houtput]
      simp only [stanzas, List.filterMap_nil, List.append_nil, accepted, written,
        List.filterMap_cons, Action.accepted?, Action.written?]
  handler _ := .inr ⟨hclosed, houtput⟩
  entered := h.entered

theorem Idle.resetParser (h : s.Idle) : s.resetParser.Idle := by
  unfold XmppEngine.resetParser
  split
  next => exact ⟨⟨h.inv.congr rfl rfl rfl rfl rfl rfl h.inv.entered, h.working⟩, h.flushed, h.left⟩
  next => exact h

theorem Steady.writeOutput (h : s.Steady) (hhandler : s.outputHandler = true) :
    (s.writeOutput id).Steady ∧ (s.writeOutput id).output = [] ∧
      (s.writeOutput id).state = s.state ∧ (s.writeOutput id).engineEntered = s.engineEntered := by
  unfold XmppEngine.writeOutput
  split
  next hempty => exact ⟨h, List.isEmpty_iff.mp hempty, rfl, rfl⟩
  next => exact ⟨⟨h.inv.write hhandler, h.working⟩, rfl, rfl, rfl⟩

theorem Steady.leave (h : s.Steady) (before : State) : (s.leave id before).Idle := by
  have hzero : s.engineEntered - 1 = 0 := by
    have := h.inv.entered
    omega
  have hleft : Steady { s with engineEntered := s.engineEntered - 1 } :=
    ⟨h.inv.congr rfl rfl rfl rfl rfl rfl (Nat.le_trans (Nat.sub_le ..) h.inv.entered), h.working⟩
  refine Idle.resetParser ?_
  unfold flush
  split
  next hflush =>
    obtain ⟨hsteady, hnil, hstate, hentered⟩ := hleft.writeOutput hflush.1
    split
    next hclosing =>
      exact ⟨⟨hsteady.inv.closeConnection (hstate.trans hclosing.2) hnil, hsteady.working⟩,
        fun _ => hnil, hentered.trans hzero⟩
    next => exact ⟨hsteady, fun _ => hnil, hentered.trans hzero⟩
  next hflush =>
    refine ⟨hleft, fun hhandler => ?_, hzero⟩
    exact ((hleft.inv.handler hhandler).resolve_left fun hon => hflush ⟨hon, .inr hzero⟩).2

theorem Idle.enter (h : s.Idle) : s.enter.Steady :=
  ⟨h.inv.congr rfl rfl rfl rfl rfl rfl (by simp only [XmppEngine.enter, h.left]; omega), h.working⟩

theorem Steady.send (h : s.Steady) (hopened : Opened s.log) (hstate : s.state ≠ .closed)
    {o : Output} (ho : o.stanza? = none) : (s.send o).Steady where
  inv :=
    { justified := h.inv.justified
      guarded := fun hrequired hhandler hoff =>
        absurd hopened (h.inv.guarded hrequired hhandler hoff).opened
      progress := h.inv.progress
      accounted := by
        refine ⟨fun hnot => absurd hopened hnot, fun hon => ?_⟩
        obtain ⟨haccepted, hdone, hstates⟩ := h.inv.accounted.after hon
        refine ⟨?_, hdone, hstates⟩
        simp only [XmppEngine.send, stanzas_append, haccepted]
        simp [stanzas, ho]
      handler := fun hhandler =>
        .inl ((h.inv.handler hhandler).resolve_right fun hclosed => hstate hclosed.1)
      entered := h.inv.entered }
  working := h.working

theorem Steady.opened_of_isOpen (h : s.Steady) (hopen : s.state = .isOpen) : Opened s.log := by
  by_contra hnot
  exact (h.inv.accounted.before hnot).2.2.1 hopen

theorem Steady.opened_of_none (h : s.Steady) (hlogin : s.loginTask = none)
    (hstate : s.state ≠ .closed) : Opened s.log := by
  by_contra hnot
  refine hstate ((h.inv.accounted.before hnot).2.2.2.2 fun t ht => ?_)
  rw [hlogin] at ht
  cases ht

theorem Steady.connect (h : s.Steady) (hstart : s.state = .start) :
    Busy { s with state := .opening } where
  inv :=
    { justified := h.inv.justified
      guarded := fun htls hhandler hoff =>
        let hold := h.inv.guarded htls hhandler hoff
        ⟨hold.tlsOption, hold.output, hold.early, hold.opened⟩
      progress := h.inv.progress
      accounted := by
        have hnot : ¬ Opened s.log := fun hon => (h.inv.accounted.after hon).2.2.1 hstart
        obtain ⟨hwritten, hstanzas, -, haccepted, hclosed⟩ := h.inv.accounted.before hnot
        refine ⟨fun _ => ⟨hwritten, hstanzas, nofun, haccepted, fun hdone => ?_⟩,
          fun hon => absurd hon hnot⟩
        exact absurd (hstart.symm.trans (hclosed hdone)) nofun
      handler := fun hhandler =>
        .inl ((h.inv.handler hhandler).resolve_right fun hclosed =>
          absurd (hstart.symm.trans hclosed.1) nofun)
      entered := h.inv.entered }
  working := h.working
  running _ := .inl rfl

theorem Busy.startLogin (h : s.Busy) (hopening : s.state = .opening) : s.startLogin.Steady := by
  unfold XmppEngine.startLogin
  split
  next t ht => exact (h.advanceLogin ht hopening none false []).toSteady
  next => exact h.toSteady

theorem Idle.handleInput (h : s.Idle) (hstate : s.state = .opening ∨ s.state = .isOpen)
    (bytes : List UInt8) (duringTls : List XmlElement) :
    (s.enter.handleInput bytes duringTls).Busy := by
  have hsteady := h.enter
  have hparsed : Busy { s.enter with stanzaParser := (s.enter.stanzaParser.parse bytes).1 } :=
    ⟨⟨hsteady.inv.congr rfl rfl rfl rfl rfl rfl hsteady.inv.entered, hsteady.working⟩,
      fun _ => hstate⟩
  exact hparsed.incomingAll duringTls _

theorem Idle.connect (h : s.Idle) (hstart : s.state = .start) :
    (startLogin { s.enter with state := .opening }).Steady :=
  (h.enter.connect hstart).startLogin rfl

theorem Idle.step (h : s.Idle) {e : Event} (he : e.duringWrite = []) : (s.step e).Idle := by
  have hduring : (fun s : XmppEngine env => s.sendAll e.duringWrite) = id := by
    rw [he]
    rfl
  have hsteady := h.enter
  unfold XmppEngine.step
  rw [hduring]
  cases e.call with
  | connect =>
    simp only
    split
    next => exact h
    next hstart => exact (h.connect (not_not.mp hstart)).leave _
  | handleInput bytes duringTls =>
    simp only
    split
    next hstate => exact (h.handleInput hstate bytes duringTls).toSteady.leave _
    next => exact h
  | sendStanza element =>
    simp only [sendStanzaWith]
    split
    next => exact h
    next hstate => exact (hsteady.takeStanza hstate element).leave _
  | sendRaw text =>
    simp only
    split
    next => exact h
    next hstate =>
      obtain ⟨hclosed, hlogin⟩ := not_or.mp hstate
      have hnone : s.loginTask = none := Option.not_isSome_iff_eq_none.mp hlogin
      exact (hsteady.send (hsteady.opened_of_none hnone hclosed) hclosed rfl).leave _
  | disconnect =>
    simp only
    split
    next => exact h
    next hclosed =>
      refine Steady.leave ?_ _
      split
      next hopen => exact (hsteady.send (hsteady.opened_of_isOpen hopen) hclosed rfl).close _
      next => exact hsteady.close _
  | connectionClosed subcode =>
    simp only
    split
    next => exact h
    next => exact (hsteady.signalError _).leave _
  | nextId =>
    exact ⟨⟨h.inv.congr rfl rfl rfl rfl rfl rfl h.inv.entered, h.working⟩, h.flushed, h.left⟩

end XmppEngine

end Libjingle
