import Mathlib.Logic.Function.Basic
import Libjingle.Lib.Runs
import Libjingle.P2p.Session

/-! The timeout of a `Call` whose callee does not answer. One message serves all its sessions: each
initiate posts it anew, and an answer to any session clears it. -/

namespace Libjingle

def kSendToVoicemailTimeout : Nat := 1000 * 20
def kNoVoicemailTimeout : Nat := 1000 * 180

namespace TimedCall

/-- The states in which `TerminateWithReason` does nothing. -/
def isEnded : Session.State → Bool
  | .sentBusy | .sentReject | .receivedBusy | .receivedReject | .sentTerminate
  | .receivedTerminate => true
  | _ => false

def isAccept : Session.State → Bool
  | .sentAccept | .receivedAccept => true
  | _ => false

/-- A session, and what has become of it: when the call initiated it and for how long it is to ring,
whether it was accepted, and whether it was rejected or terminated or has failed. It is listed
unless its channels could not be created. -/
structure Entry where
  listed : Bool := true
  state : Session.State
  initiated : Option (Nat × Nat) := none
  accepted : Bool := false
  finished : Bool := false
  deriving DecidableEq, Repr

namespace Entry

variable (e : Entry)

def Ringing : Prop := e.initiated.isSome = true ∧ e.accepted = false ∧ e.finished = false

/-- `Terminate` would send a message. -/
def Live : Prop := e.listed = true ∧ isEnded e.state = false

instance : Decidable e.Ringing := inferInstanceAs (Decidable (_ ∧ _))

instance : Decidable e.Live := inferInstanceAs (Decidable (_ ∧ _))

def enter (state : Session.State) : Entry :=
  { e with
    state := state
    accepted := e.accepted || isAccept state
    finished := e.finished || isEnded state }

def terminate : Entry := if e.Live then e.enter .sentTerminate else e

/-- The call has initiated the session, its ring time ends by then, and it was not accepted. -/
def RungOut (due : Nat) : Prop :=
  ∃ start ring, e.initiated = some (start, ring) ∧ start + ring ≤ due ∧ e.accepted = false

end Entry

end TimedCall

/-- The timeout is the time at which `MSG_TERMINATECALL` is due, if it is pending. -/
structure TimedCall where
  now : Nat := 0
  sendToVoicemail : Bool := true
  timeout : Option Nat := none
  sessions : String → Option TimedCall.Entry := fun _ => none

namespace TimedCall

variable (s : TimedCall)

def ringTime : Nat := if s.sendToVoicemail then kSendToVoicemailTimeout else kNoVoicemailTimeout

def setEntry (id : String) (e : Option Entry) : TimedCall :=
  { s with sessions := Function.update s.sessions id e }

/-- The call hears of a session that is not listed only if it has left it for another call. -/
def hears (id : String) : Bool := (s.sessions id).elim true (·.listed)

def clear (id : String) : TimedCall := if s.hears id then { s with timeout := none } else s

def clears : Session.State → Bool
  | .receivedAccept | .receivedReject | .receivedTerminate => true
  | _ => false

def onSessionState (id : String) (state : Session.State) : TimedCall :=
  let entered := s.setEntry id ((s.sessions id).map (·.enter state))
  if clears state then entered.clear id else entered

/-- `OnSessionError` and `OnReceivedTerminateReason` -/
def onSessionOver (id : String) : TimedCall :=
  (s.setEntry id ((s.sessions id).map fun e => { e with finished := true })).clear id

/-- `OnMessage` with `MSG_TERMINATECALL` -/
def onTerminateCall : TimedCall :=
  { s with timeout := none, sessions := fun id => (s.sessions id).map Entry.terminate }

/-- The time that passes. A message that is due before then is dispatched. -/
def elapse (time : Nat) : TimedCall :=
  { if s.timeout.any (· < time) then s.onTerminateCall else s with now := time }

inductive Event where
  | initiateSession (id : String) (added sent : Bool)
  | incomingSession (id : String) (added : Bool)
  | setSendToVoicemail (sendToVoicemail : Bool)
  | sessionState (id : String) (state : Session.State)
  | sessionError (id : String)
  | receivedTerminateReason (id : String)
  | join (id : String) (state : Session.State)
  | removeSession (id : String)
  | wait (milliseconds : Nat)
  | terminateCall

def initiateSession (id : String) (added sent : Bool) : TimedCall :=
  { s.setEntry id (some {
      listed := added
      state := if sent then .sentInitiate else .init
      initiated := some (s.now, s.ringTime) }) with
    timeout := some (s.now + s.ringTime) }

def step (s : TimedCall) : Event → TimedCall
  | .initiateSession id added sent => s.initiateSession id added sent
  | .incomingSession id added =>
    s.setEntry id (some { listed := added, state := .receivedInitiate })
  | .setSendToVoicemail sendToVoicemail => { s with sendToVoicemail }
  | .sessionState id state => s.onSessionState id state
  | .sessionError id => s.onSessionOver id
  | .receivedTerminateReason id => s.onSessionOver id
  | .join id state => s.setEntry id (some { state, finished := isEnded state })
  | .removeSession id => s.setEntry id none
  | .wait milliseconds => s.elapse (s.now + milliseconds)
  | .terminateCall => if s.timeout.any (· ≤ s.now) then s.onTerminateCall else s

/-- However long one waits, a timeout only terminates sessions that have rung out, and none rings
longer than its ring time. -/
def Right (s : TimedCall) : Prop :=
  ∀ time, s.now ≤ time →
    (∀ due, s.timeout = some due → due < time → ∀ id e, s.sessions id = some e → e.Live →
      e.RungOut due) ∧
    ∀ id e, (s.elapse time).sessions id = some e → e.Ringing →
      ∃ start ring, e.initiated = some (start, ring) ∧ time ≤ start + ring

/-- No session but this one rings. -/
def OthersSilent (id : String) : Prop :=
  ∀ other e, other ≠ id → s.sessions other = some e → ¬ e.Ringing

/-- A session is initiated when those that have not ended will have rung out with it, and if they
ring then at the same time. The call gets another session only while no timeout is pending. A
session clears the timeout when no other rings, and does not live on under one that it has not
to do with. -/
def Alone (s : TimedCall) : Event → Prop
  | .initiateSession id added _ => added = true ∧
    ∀ other e, other ≠ id → s.sessions other = some e →
      (e.Live → e.RungOut (s.now + s.ringTime)) ∧
      (e.Ringing → ∀ start ring, e.initiated = some (start, ring) →
        start + ring = s.now + s.ringTime)
  | .incomingSession _ added => added = true → s.timeout = none
  | .sessionState id state =>
    if clears state = true ∧ s.hears id = true then s.OthersSilent id
    else ∀ e due, s.sessions id = some e → s.timeout = some due → (e.enter state).Live →
      (e.enter state).RungOut due
  | .sessionError id => s.hears id = true → s.OthersSilent id
  | .receivedTerminateReason id => s.hears id = true → s.OthersSilent id
  | .join _ state => isEnded state = false → s.timeout = none
  | _ => True

structure Entry.Fits (timeout : Option Nat) (e : Entry) : Prop where
  rings : e.Ringing → e.Live ∧
    ∃ start ring, e.initiated = some (start, ring) ∧ timeout = some (start + ring)
  rungOut : ∀ due, timeout = some due → e.Live → e.RungOut due

/-- The timeout is not over yet, and the sessions that have ended are. -/
structure Base (s : TimedCall) : Prop where
  pending : ∀ due, s.timeout = some due → s.now ≤ due
  ended : ∀ id e, s.sessions id = some e → isEnded e.state = true → e.finished = true

section Entries

variable {e : Entry} {timeout : Option Nat}

theorem Entry.live_of_ringing (h : e.Ringing) (hended : isEnded e.state = true → e.finished = true)
    (hlisted : e.listed = true) : e.Live := by
  refine ⟨hlisted, ?_⟩
  by_contra hnot
  have hover := hended (Bool.not_eq_false _ ▸ hnot)
  rw [h.2.2] at hover
  cases hover

theorem Entry.finished_terminate (h : e.Live) : e.terminate.finished = true := by
  rw [terminate, if_pos h]
  exact Bool.or_true _

theorem Entry.ringing_of_terminate (h : e.terminate.Ringing) : e.terminate = e ∧ ¬ e.Live := by
  by_cases hlive : e.Live
  · have hover := e.finished_terminate hlive
    rw [h.2.2] at hover
    cases hover
  · exact ⟨if_neg hlive, hlive⟩

theorem Entry.fits_none (h : ¬ e.Ringing) : e.Fits none :=
  ⟨fun hringing => absurd hringing h, fun _ hdue => by cases hdue⟩

end Entries

theorem hears_setEntry (id : String) {f : Entry → Entry} (hf : ∀ e, (f e).listed = e.listed) :
    (s.setEntry id ((s.sessions id).map f)).hears id = s.hears id := by
  simp only [hears, setEntry, Function.update_self]
  cases s.sessions id with
  | none => rfl
  | some e => exact hf e

variable {s}

theorem elapse_of_lt {time due : Nat} (hdue : s.timeout = some due) (h : due < time) :
    s.elapse time = { s.onTerminateCall with now := time } := by
  have hany : s.timeout.any (· < time) = true := by simp [hdue, h]
  rw [elapse, if_pos hany]

theorem sessions_elapse_of_lt {time due : Nat} (hdue : s.timeout = some due) (h : due < time)
    (id : String) : (s.elapse time).sessions id = (s.sessions id).map Entry.terminate := by
  rw [elapse_of_lt hdue h]
  rfl

theorem elapse_of_le {time : Nat} (h : ∀ due, s.timeout = some due → time ≤ due) :
    s.elapse time = { s with now := time } := by
  have hany : ¬ s.timeout.any (· < time) = true := by
    cases hdue : s.timeout with
    | none => simp
    | some due => simpa using h due hdue
  rw [elapse, if_neg hany]

theorem right_iff (hs : s.Base) : s.Right ↔ ∀ id e, s.sessions id = some e → e.Fits s.timeout := by
  constructor
  · intro h id e he
    constructor
    · intro hringing
      obtain ⟨start, ring, hinitiated, hnow⟩ : ∃ start ring, e.initiated = some (start, ring) ∧
          s.now ≤ start + ring := by
        refine (h s.now (Nat.le_refl _)).2 id e ?_ hringing
        rw [elapse_of_le hs.pending]
        exact he
      obtain ⟨hsafe, hrings⟩ := h (start + ring + 1) (by omega)
      have hlate : ∃ due, s.timeout = some due ∧ due ≤ start + ring := by
        by_contra hnot
        obtain ⟨start', ring', hinitiated', htime⟩ := hrings id e (by
          rw [elapse_of_le fun due hdue => Nat.lt_of_not_le fun hle => hnot ⟨due, hdue, hle⟩]
          exact he) hringing
        rw [hinitiated] at hinitiated'
        cases hinitiated'
        omega
      obtain ⟨due, hdue, hle⟩ := hlate
      have hlisted : e.listed = true := by
        by_contra hnot
        have hterminate : e.terminate = e := if_neg fun hlive => hnot hlive.1
        obtain ⟨start', ring', hinitiated', htime⟩ := hrings id e (by
          rw [sessions_elapse_of_lt hdue (by omega), he, Option.map_some, hterminate]) hringing
        rw [hinitiated] at hinitiated'
        cases hinitiated'
        omega
      have hlive := Entry.live_of_ringing hringing (hs.ended id e he) hlisted
      obtain ⟨start', ring', hinitiated', hrung, -⟩ := hsafe due hdue (by omega) id e he hlive
      rw [hinitiated] at hinitiated'
      cases hinitiated'
      exact ⟨hlive, start, ring, hinitiated, by rw [hdue]; congr 1; omega⟩
    · intro due hdue hlive
      have hnow := hs.pending due hdue
      exact (h (due + 1) (by omega)).1 due hdue (by omega) id e he hlive
  · intro h time htime
    refine ⟨fun due hdue _ id e he hlive => (h id e he).rungOut due hdue hlive, ?_⟩
    intro id e he hringing
    by_cases hfires : ∃ due, s.timeout = some due ∧ due < time
    · obtain ⟨due, hdue, hlt⟩ := hfires
      rw [sessions_elapse_of_lt hdue hlt] at he
      obtain ⟨d, hd, rfl⟩ := Option.map_eq_some_iff.mp he
      obtain ⟨hsame, hnot⟩ := Entry.ringing_of_terminate hringing
      rw [hsame] at hringing
      exact absurd ((h id d hd).rings hringing).1 hnot
    · have hlater : ∀ due, s.timeout = some due → time ≤ due := fun due hdue =>
        Nat.le_of_not_lt fun hlt => hfires ⟨due, hdue, hlt⟩
      rw [elapse_of_le hlater] at he
      obtain ⟨-, start, ring, hinitiated, htimeout⟩ := (h id e he).rings hringing
      exact ⟨start, ring, hinitiated, hlater _ htimeout⟩

theorem fits_setEntry_iff {id : String} {e : Option Entry} (timeout : Option Nat) :
    (∀ other d, Function.update s.sessions id e other = some d → d.Fits timeout) ↔
      (∀ d, e = some d → d.Fits timeout) ∧
        ∀ other d, other ≠ id → s.sessions other = some d → d.Fits timeout := by
  constructor
  · intro h
    exact ⟨fun d hd => h id d (by rw [Function.update_self, hd]),
      fun other d hne hd => h other d (by rw [Function.update_of_ne hne, hd])⟩
  · rintro ⟨hself, hothers⟩ other d hd
    by_cases hne : other = id
    · subst hne
      rw [Function.update_self] at hd
      exact hself d hd
    · rw [Function.update_of_ne hne] at hd
      exact hothers other d hne hd

theorem fits_none_iff {id : String} :
    (∀ other d, other ≠ id → s.sessions other = some d → d.Fits none) ↔ s.OthersSilent id := by
  refine forall_congr' fun other => forall_congr' fun d => forall_congr' fun _ =>
    forall_congr' fun _ => ⟨fun h hringing => ?_, Entry.fits_none⟩
  obtain ⟨-, start, ring, -, hnone⟩ := h.rings hringing
  cases hnone

section Step

variable (h : ∀ id e, s.sessions id = some e → e.Fits s.timeout)

include h

theorem fits_initiateSession_iff (id : String) (added sent : Bool) :
    (∀ other e, (s.initiateSession id added sent).sessions other = some e →
      e.Fits (s.initiateSession id added sent).timeout) ↔
      s.Alone (.initiateSession id added sent) := by
  refine (fits_setEntry_iff _).trans (and_congr ?_ ?_)
  · constructor
    · intro hfits
      exact ((hfits _ rfl).rings ⟨rfl, rfl, rfl⟩).1.1
    · rintro rfl e he
      obtain rfl := Option.some.inj he
      refine ⟨fun _ => ⟨⟨rfl, ?_⟩, s.now, s.ringTime, rfl, rfl⟩, fun due hdue _ => ?_⟩
      · cases sent <;> rfl
      · exact ⟨s.now, s.ringTime, rfl, Nat.le_of_eq (Option.some.inj hdue), rfl⟩
  · refine forall_congr' fun other => forall_congr' fun e => forall_congr' fun hne =>
      forall_congr' fun he => ?_
    have hold := h other e he
    constructor
    · intro hfits
      refine ⟨hfits.rungOut _ rfl, fun hringing start ring hinitiated => ?_⟩
      obtain ⟨-, start', ring', hinitiated', htimeout⟩ := hfits.rings hringing
      rw [hinitiated] at hinitiated'
      cases hinitiated'
      exact (Option.some.inj htimeout).symm
    · rintro ⟨hrungOut, hsame⟩
      refine ⟨fun hringing => ?_, fun due hdue => Option.some.inj hdue ▸ hrungOut⟩
      obtain ⟨hlive, start, ring, hinitiated, -⟩ := hold.rings hringing
      have hend := hsame hringing start ring hinitiated
      exact ⟨hlive, start, ring, hinitiated, congrArg some hend.symm⟩

theorem fits_setEntry_other_iff (id : String) {e : Entry} (hinitiated : e.initiated = none) :
    (∀ other d, (s.setEntry id (some e)).sessions other = some d →
      d.Fits (s.setEntry id (some e)).timeout) ↔ (e.Live → s.timeout = none) := by
  have hringing : ¬ e.Ringing := fun hringing => by
    rw [Entry.Ringing, hinitiated] at hringing
    cases hringing.1
  refine (fits_setEntry_iff _).trans ⟨fun hfits hlive => ?_, fun hnone => ?_⟩
  · rw [Option.eq_none_iff_forall_ne_some]
    intro due hdue
    obtain ⟨start, ring, hsome, -⟩ := (hfits.1 e rfl).rungOut due hdue hlive
    rw [hinitiated] at hsome
    cases hsome
  · refine ⟨fun d hd => ?_, fun other d _ hd => h other d hd⟩
    obtain rfl := Option.some.inj hd
    refine ⟨fun hyes => absurd hyes hringing, fun due hdue hlive => ?_⟩
    have hdue : s.timeout = some due := hdue
    rw [hnone hlive] at hdue
    cases hdue

theorem fits_onSessionState_iff (id : String) (state : Session.State) :
    (∀ other d, (s.onSessionState id state).sessions other = some d →
      d.Fits (s.onSessionState id state).timeout) ↔ s.Alone (.sessionState id state) := by
  have hhears := s.hears_setEntry id fun e => (rfl : (e.enter state).listed = e.listed)
  by_cases hclear : clears state = true ∧ s.hears id = true
  · have hdone : isAccept state = true ∨ isEnded state = true := by
      revert hclear
      cases state <;> simp [clears, isAccept, isEnded]
    rw [onSessionState, if_pos hclear.1, clear, hhears, if_pos hclear.2, Alone.eq_def]
    dsimp only
    rw [if_pos hclear]
    refine (fits_setEntry_iff none).trans ((and_iff_right ?_).trans fits_none_iff)
    intro d hd
    obtain ⟨e, -, rfl⟩ := Option.map_eq_some_iff.mp hd
    refine Entry.fits_none fun hringing => ?_
    obtain ⟨-, haccepted, hover⟩ := hringing
    rcases hdone with hdone | hdone
    · simp [Entry.enter, hdone] at haccepted
    · simp [Entry.enter, hdone] at hover
  · have hkeep : s.onSessionState id state =
        s.setEntry id ((s.sessions id).map (·.enter state)) := by
      rw [onSessionState]
      by_cases hstate : clears state = true
      · rw [if_pos hstate, clear, hhears, if_neg fun hyes => hclear ⟨hstate, hyes⟩]
      · rw [if_neg hstate]
    rw [hkeep, Alone.eq_def]
    dsimp only
    rw [if_neg hclear]
    refine (fits_setEntry_iff _).trans ⟨fun hfits e due he hdue hlive => ?_, fun hrungOut => ?_⟩
    · exact (hfits.1 (e.enter state) (by rw [he]; rfl)).rungOut due hdue hlive
    · refine ⟨fun d hd => ?_, fun other d _ hd => h other d hd⟩
      obtain ⟨e, he, rfl⟩ := Option.map_eq_some_iff.mp hd
      refine ⟨fun hringing => ?_, fun due hdue => hrungOut e due he hdue⟩
      obtain ⟨hinitiated, haccepted, hover⟩ := hringing
      obtain ⟨haccepted, -⟩ := Bool.or_eq_false_iff.mp haccepted
      obtain ⟨hover, hended⟩ := Bool.or_eq_false_iff.mp hover
      obtain ⟨⟨hlisted, -⟩, hrings⟩ := (h id e he).rings ⟨hinitiated, haccepted, hover⟩
      exact ⟨⟨hlisted, hended⟩, hrings⟩

theorem fits_onSessionOver_iff (id : String) :
    (∀ other d, (s.onSessionOver id).sessions other = some d →
      d.Fits (s.onSessionOver id).timeout) ↔ (s.hears id = true → s.OthersSilent id) := by
  have hhears := s.hears_setEntry id fun e =>
    (rfl : ({ e with finished := true } : Entry).listed = e.listed)
  have hsilent (d : Entry)
      (hd : (s.sessions id).map (fun e => { e with finished := true }) = some d) :
      ¬ d.Ringing := by
    obtain ⟨e, -, rfl⟩ := Option.map_eq_some_iff.mp hd
    rintro ⟨-, -, hover⟩
    cases hover
  rw [onSessionOver, clear, hhears]
  by_cases hyes : s.hears id = true
  · rw [if_pos hyes]
    refine (fits_setEntry_iff none).trans ((and_iff_right ?_).trans
      (fits_none_iff.trans ⟨fun hothers _ => hothers, fun hothers => hothers hyes⟩))
    exact fun d hd => Entry.fits_none (hsilent d hd)
  · rw [if_neg hyes]
    refine iff_of_true ((fits_setEntry_iff s.timeout).mpr
      ⟨fun d hd => ⟨fun hringing => absurd hringing (hsilent d hd), fun due hdue hlive => ?_⟩,
        fun other d _ hd => h other d hd⟩) fun hhear => absurd hhear hyes
    obtain ⟨e, he, rfl⟩ := Option.map_eq_some_iff.mp hd
    rw [hears, he] at hyes
    exact absurd hlive.1 hyes

theorem fits_onTerminateCall (id : String) (e : Entry)
    (he : s.onTerminateCall.sessions id = some e) : e.Fits s.onTerminateCall.timeout := by
  obtain ⟨d, hd, rfl⟩ := Option.map_eq_some_iff.mp he
  refine Entry.fits_none fun hringing => ?_
  obtain ⟨hsame, hnot⟩ := Entry.ringing_of_terminate hringing
  rw [hsame] at hringing
  exact hnot ((h id d hd).rings hringing).1

theorem fits_elapse (time : Nat) (id : String) (e : Entry)
    (he : (s.elapse time).sessions id = some e) : e.Fits (s.elapse time).timeout := by
  rw [elapse] at he ⊢
  by_cases hfires : s.timeout.any (· < time) = true
  · rw [if_pos hfires] at he ⊢
    exact fits_onTerminateCall h id e he
  · rw [if_neg hfires] at he ⊢
    exact h id e he

theorem fits_step_iff (e : Event) :
    (∀ id d, (s.step e).sessions id = some d → d.Fits (s.step e).timeout) ↔ s.Alone e := by
  cases e with
  | initiateSession id added sent => exact fits_initiateSession_iff h id added sent
  | incomingSession id added =>
    refine (fits_setEntry_other_iff h id rfl).trans ⟨fun hnone hadded => hnone ⟨hadded, rfl⟩, ?_⟩
    exact fun hnone hlive => hnone hlive.1
  | setSendToVoicemail sendToVoicemail => exact iff_of_true h trivial
  | sessionState id state => exact fits_onSessionState_iff h id state
  | sessionError id => exact fits_onSessionOver_iff h id
  | receivedTerminateReason id => exact fits_onSessionOver_iff h id
  | join id state =>
    refine (fits_setEntry_other_iff h id rfl).trans ⟨fun hnone hended => hnone ⟨rfl, hended⟩, ?_⟩
    exact fun hnone hlive => hnone hlive.2
  | removeSession id =>
    exact iff_of_true ((fits_setEntry_iff s.timeout).mpr ⟨fun d hd => (by cases hd),
      fun other d _ hd => h other d hd⟩) trivial
  | wait milliseconds => exact iff_of_true (fits_elapse h _) trivial
  | terminateCall =>
    refine iff_of_true ?_ trivial
    rw [step]
    split
    · exact fits_onTerminateCall h
    · exact h

end Step

theorem ended_setEntry {id : String} {e : Option Entry}
    (hs : ∀ other d, s.sessions other = some d → isEnded d.state = true → d.finished = true)
    (he : ∀ d, e = some d → isEnded d.state = true → d.finished = true) (other : String) (d : Entry)
    (hd : Function.update s.sessions id e other = some d) (hended : isEnded d.state = true) :
    d.finished = true := by
  by_cases hne : other = id
  · subst hne
    rw [Function.update_self] at hd
    exact he d hd hended
  · rw [Function.update_of_ne hne] at hd
    exact hs other d hd hended

theorem base_clear (hs : s.Base) (id : String) : (s.clear id).Base := by
  rw [clear]
  split
  · exact ⟨fun due hdue => (by cases hdue), hs.ended⟩
  · exact hs

theorem base_setEntry (hs : s.Base) (id : String) {e : Option Entry}
    (he : ∀ d, e = some d → isEnded d.state = true → d.finished = true) : (s.setEntry id e).Base :=
  ⟨hs.pending, ended_setEntry hs.ended he⟩

theorem base_onTerminateCall (hs : s.Base) : s.onTerminateCall.Base := by
  refine ⟨fun due hdue => (by cases hdue), fun id e he hended => ?_⟩
  obtain ⟨d, hd, rfl⟩ := Option.map_eq_some_iff.mp he
  by_cases hlive : d.Live
  · exact d.finished_terminate hlive
  · rw [Entry.terminate, if_neg hlive] at hended ⊢
    exact hs.ended id d hd hended

theorem base_step (hs : s.Base) (e : Event) : (s.step e).Base := by
  have hover (id : String) (d : Entry)
      (hd : (s.sessions id).map (fun e => { e with finished := true }) = some d) :
      d.finished = true := by
    obtain ⟨e, -, rfl⟩ := Option.map_eq_some_iff.mp hd
    rfl
  cases e with
  | initiateSession id added sent =>
    refine ⟨fun due hdue => ?_, ended_setEntry hs.ended fun d hd hended => ?_⟩
    · obtain rfl : s.now + s.ringTime = due := Option.some.inj hdue
      exact Nat.le_add_right _ _
    · obtain rfl := Option.some.inj hd
      cases sent <;> cases hended
  | incomingSession id added =>
    refine base_setEntry hs id fun d hd hended => ?_
    obtain rfl := Option.some.inj hd
    cases hended
  | setSendToVoicemail sendToVoicemail => exact ⟨hs.pending, hs.ended⟩
  | sessionState id state =>
    have hentered : (s.setEntry id ((s.sessions id).map (·.enter state))).Base := by
      refine base_setEntry hs id fun d hd hended => ?_
      obtain ⟨e, -, rfl⟩ := Option.map_eq_some_iff.mp hd
      exact Bool.or_eq_true_iff.mpr (.inr hended)
    rw [step, onSessionState]
    split
    · exact base_clear hentered id
    · exact hentered
  | sessionError id => exact base_clear (base_setEntry hs id fun d hd _ => hover id d hd) id
  | receivedTerminateReason id =>
    exact base_clear (base_setEntry hs id fun d hd _ => hover id d hd) id
  | join id state =>
    refine base_setEntry hs id fun d hd hended => ?_
    obtain rfl := Option.some.inj hd
    exact hended
  | removeSession id => exact base_setEntry hs id fun d hd => by cases hd
  | wait milliseconds =>
    rw [step, elapse]
    by_cases hfires : s.timeout.any (· < s.now + milliseconds) = true
    · rw [if_pos hfires]
      exact ⟨fun due hdue => (by cases hdue), (base_onTerminateCall hs).ended⟩
    · rw [if_neg hfires]
      refine ⟨fun due hdue => ?_, hs.ended⟩
      have hdue : s.timeout = some due := hdue
      rw [hdue] at hfires
      exact Nat.le_of_not_lt fun hlt => hfires (decide_eq_true hlt)
  | terminateCall =>
    rw [step]
    split
    · exact base_onTerminateCall hs
    · exact hs

theorem right_step_iff (hs : s.Base) (h : s.Right) (e : Event) :
    (s.step e).Right ↔ s.Alone e := by
  rw [right_iff (base_step hs e)]
  exact fits_step_iff ((right_iff hs).mp h) e

/-- At every time of a run the timeout is right exactly as long as no session meets the timeout
of another. -/
theorem timeouts_right_iff (events : List Event) :
    (∀ n, ((events.take n).foldl step {}).Right) ↔ Runs.Along step Alone {} events := by
  have hbase : Base {} := ⟨fun _ hdue => (by cases hdue), fun _ _ he => (by cases he)⟩
  have hright : Right {} := (right_iff hbase).mpr fun _ _ he => by cases he
  have hafter := @Runs.along_after_iff _ _ step Right {} hright events
  refine hafter.symm.trans ?_
  exact @Runs.along_iff TimedCall Event step (fun s e => (s.step e).Right) Alone
    (fun s => s.Base ∧ s.Right) (fun s e h => right_step_iff h.1 h.2 e)
    (fun s e h hnext => ⟨base_step h.1 e, hnext⟩) {} ⟨hbase, hright⟩ events

/-- `a` is answered while `b` rings, and then `b` rings for good. `a` is terminated in the middle
of the conversation when `b` does not answer. -/
theorem answer_clears_timeout :
    (([.initiateSession "a" true true, .wait 5000, .initiateSession "b" true true,
      .sessionState "a" .receivedAccept, .wait 1000000] : List Event).foldl step {}).sessions "b" =
        some { state := .sentInitiate, initiated := some (5000, 20000) } ∧
    (([.initiateSession "a" true true, .sessionState "a" .receivedAccept, .wait 5000,
      .initiateSession "b" true true, .wait 20001] : List Event).foldl step {}).sessions "a" =
        some ⟨true, .sentTerminate, some (0, 20000), true, true⟩ ∧
    ¬ (∀ n, ((([.initiateSession "a" true true, .wait 5000, .initiateSession "b" true true,
      .sessionState "a" .receivedAccept] : List Event).take n).foldl step {}).Right) ∧
    ¬ (∀ n, ((([.initiateSession "a" true true, .sessionState "a" .receivedAccept, .wait 5000,
      .initiateSession "b" true true] : List Event).take n).foldl step {}).Right) := by
  refine ⟨by decide, by decide, ?_, ?_⟩
  · intro h
    obtain ⟨-, hrings⟩ := h 4 1000000 (by decide)
    obtain ⟨start, ring, hinitiated, htime⟩ := hrings "b" _ rfl (by decide)
    cases hinitiated
    exact absurd htime (by decide)
  · intro h
    obtain ⟨hsafe, -⟩ := h 4 25001 (by decide)
    obtain ⟨start, ring, -, -, haccepted⟩ := hsafe 25000 rfl (by decide) "a" _ rfl (by decide)
    cases haccepted

end TimedCall

end Libjingle
