import Libjingle.Lib.Runs
import Libjingle.P2p.Session
import Mathlib.Logic.Function.Basic

/-! The timer of a session that waits for its transports to become writable. All
transports share one `MSG_TIMEOUT`. -/

namespace Libjingle

inductive TransportState
  | none
  | some
  | all
  deriving DecidableEq, Repr

structure WatchedTransport where
  connecting : Bool := false
  hasChannels : Bool := false
  writableState : TransportState := .none
  since : Nat := 0
  deriving DecidableEq, Repr

namespace WatchedTransport

variable (transport : WatchedTransport)

/-- `any_channels_writable` -/
def writable : Bool := transport.writableState = .some ∨ transport.writableState = .all

def waits : Bool := transport.connecting && transport.hasChannels && !transport.writable

end WatchedTransport

/-- The timer is the time at which the message is due, if it is pending. -/
structure SessionWatchdog (T : Type) where
  sessionTimeout : Nat
  now : Nat := 0
  timer : Option Nat := none
  timedOut : Bool := false
  transports : T → WatchedTransport := fun _ => {}

namespace SessionWatchdog

variable {T : Type} [DecidableEq T] (s : SessionWatchdog T)

/-- The message that is pending is cleared first. -/
def onTransportWritable (transport : WatchedTransport) : SessionWatchdog T :=
  let cleared := { s with timer := none }
  if transport.hasChannels && !transport.writable then
    { cleared with timer := some (s.now + s.sessionTimeout) }
  else cleared

def onTransportConnecting (transport : WatchedTransport) : SessionWatchdog T :=
  s.onTransportWritable transport

def setTransport (t : T) (transport : WatchedTransport) : SessionWatchdog T :=
  { s with transports := Function.update s.transports t transport }

def started (t : T) (hasChannels : Bool) : WatchedTransport where
  connecting := true
  hasChannels := hasChannels
  writableState := (s.transports t).writableState
  since := s.now

/-- What the transport has come to when it signals another writable state. A transport
only does so after it was told to connect. -/
def changed (hasChannels : Bool) (writableState : TransportState) : WatchedTransport where
  connecting := true
  hasChannels := hasChannels
  writableState := writableState
  since := s.now

/-- The notifications of the transports, the time that passes, and the message when it
is due. -/
inductive Event (T : Type)
  | connecting (t : T) (hasChannels : Bool)
  | writableState (t : T) (hasChannels : Bool) (writableState : TransportState)
  | tick (milliseconds : Nat)
  | timeout
  deriving DecidableEq, Repr

def Enabled : Event T → Bool
  | .connecting _ _ => true
  | .writableState t _ writableState => writableState ≠ (s.transports t).writableState
  | .tick _ => true
  | .timeout => s.timer.any (· ≤ s.now)

def handle : Event T → SessionWatchdog T
  | .connecting t hasChannels =>
    (s.setTransport t (s.started t hasChannels)).onTransportConnecting (s.started t hasChannels)
  | .writableState t hasChannels writableState =>
    (s.setTransport t (s.changed hasChannels writableState)).onTransportWritable
      (s.changed hasChannels writableState)
  | .tick milliseconds => { s with now := s.now + milliseconds }
  | .timeout => { s with timer := none, timedOut := true }

def step (s : SessionWatchdog T) (e : Event T) : SessionWatchdog T :=
  if s.Enabled e then s.handle e else s

def run (sessionTimeout : Nat) (events : List (Event T)) : SessionWatchdog T :=
  events.foldl step { sessionTimeout := sessionTimeout }

/-- The same event for the session, of which only the timer is known. -/
def follow (σ : Session) (e : Event T) : Session :=
  if s.Enabled e then
    match e with
    | .connecting t hasChannels => σ.onTransportWritable (s.started t hasChannels).waits
    | .writableState _ hasChannels writableState =>
      σ.onTransportWritable (s.changed hasChannels writableState).waits
    | .tick _ => σ
    | .timeout => σ.onTimer .timeout
  else σ

/-- What is promised of a session that has not timed out yet, and that no message is
pending without need. -/
structure Watched : Prop where
  pending : s.timedOut = false → ∀ t, (s.transports t).waits = true →
    ∃ due, s.timer = some due ∧ due ≤ (s.transports t).since + s.sessionTimeout
  idle : (∀ t, (s.transports t).waits = false) → s.timer = none

/-- The others wait for nothing, or the one that notifies waits too and they have only
begun to wait at this very time. -/
def OthersReady (t : T) (transport : WatchedTransport) : Prop :=
  s.timedOut = false → ∀ u, u ≠ t → (s.transports u).waits = true →
    transport.waits = true ∧ (s.transports u).since = s.now

def Alone (s : SessionWatchdog T) (e : Event T) : Prop :=
  s.Enabled e = true → match e with
    | .connecting t hasChannels => s.OthersReady t (s.started t hasChannels)
    | .writableState t hasChannels writableState =>
      s.OthersReady t (s.changed hasChannels writableState)
    | .tick _ => True
    | .timeout => True

variable {s} {t : T} {transport : WatchedTransport}

omit [DecidableEq T] in
theorem onTransportWritable_eq (h : transport.connecting = true) :
    s.onTransportWritable transport =
      { s with timer := if transport.waits then some (s.now + s.sessionTimeout) else none } := by
  rw [onTransportWritable, WatchedTransport.waits, h, Bool.true_and]
  by_cases hwaits : (transport.hasChannels && !transport.writable) = true
  · simp only [if_pos hwaits]
  · simp only [if_neg hwaits]

theorem watched_notify_iff (hsince : ∀ u, (s.transports u).since ≤ s.now)
    (hconnecting : transport.connecting = true) (hnow : transport.since = s.now) :
    ((s.setTransport t transport).onTransportWritable transport).Watched ↔
      s.OthersReady t transport := by
  rw [onTransportWritable_eq hconnecting]
  constructor
  · intro hwatched htimedOut u hne hu
    have hsame : (Function.update s.transports t transport) u = s.transports u :=
      Function.update_of_ne hne _ _
    obtain ⟨due, htimer, hdue⟩ := hwatched.pending htimedOut u (by
      change ((Function.update s.transports t transport) u).waits = true
      rw [hsame, hu])
    change due ≤ ((Function.update s.transports t transport) u).since + s.sessionTimeout at hdue
    change (if transport.waits then some (s.now + s.sessionTimeout) else none) = some due at htimer
    rw [hsame] at hdue
    by_cases hwaits : transport.waits = true
    · rw [if_pos hwaits] at htimer
      have hle := hsince u
      have hdueEq := Option.some.inj htimer
      exact ⟨hwaits, by omega⟩
    · rw [if_neg hwaits] at htimer
      cases htimer
  · intro hothers
    refine ⟨fun htimedOut u hu => ?_, fun hidle => ?_⟩
    · change ((Function.update s.transports t transport) u).waits = true at hu
      change ∃ due, (if transport.waits then some (s.now + s.sessionTimeout) else none) = some due ∧
        due ≤ ((Function.update s.transports t transport) u).since + s.sessionTimeout
      by_cases hut : u = t
      · subst hut
        rw [Function.update_self] at hu ⊢
        exact ⟨s.now + s.sessionTimeout, if_pos hu, by omega⟩
      · rw [Function.update_of_ne hut] at hu ⊢
        obtain ⟨hwaits, hsame⟩ := hothers htimedOut u hut hu
        exact ⟨s.now + s.sessionTimeout, if_pos hwaits, by omega⟩
    · have hself := hidle t
      change ((Function.update s.transports t transport) t).waits = false at hself
      rw [Function.update_self] at hself
      exact if_neg (by simp [hself])

/-- What a run keeps: the transports were notified of in the past. -/
structure Inv (s : SessionWatchdog T) : Prop where
  watched : s.Watched
  since : ∀ u, (s.transports u).since ≤ s.now

omit [DecidableEq T] in
theorem transports_onTransportWritable :
    (s.onTransportWritable transport).transports = s.transports := by
  rw [onTransportWritable]
  by_cases hwaits : (transport.hasChannels && !transport.writable) = true
  · simp only [if_pos hwaits]
  · simp only [if_neg hwaits]

omit [DecidableEq T] in
theorem now_onTransportWritable : (s.onTransportWritable transport).now = s.now := by
  rw [onTransportWritable]
  by_cases hwaits : (transport.hasChannels && !transport.writable) = true
  · simp only [if_pos hwaits]
  · simp only [if_neg hwaits]

theorem since_notify (h : ∀ u, (s.transports u).since ≤ s.now) (hnow : transport.since = s.now)
    (u : T) :
    (((s.setTransport t transport).onTransportWritable transport).transports u).since ≤
      ((s.setTransport t transport).onTransportWritable transport).now := by
  rw [transports_onTransportWritable, now_onTransportWritable, setTransport]
  by_cases hu : u = t
  · subst hu
    simp [hnow]
  · simpa [Function.update_of_ne hu] using h u

theorem since_step (h : ∀ u, (s.transports u).since ≤ s.now) (e : Event T) (u : T) :
    ((step s e).transports u).since ≤ (step s e).now := by
  rw [step]
  by_cases henabled : s.Enabled e = true
  · rw [if_pos henabled]
    cases e with
    | connecting t hasChannels => exact since_notify h rfl u
    | writableState t hasChannels writableState => exact since_notify h rfl u
    | tick milliseconds => exact Nat.le_add_right_of_le (h u)
    | timeout => exact h u
  · rw [if_neg henabled]
    exact h u

theorem watched_step_iff (h : s.Inv) (e : Event T) : (step s e).Watched ↔ s.Alone e := by
  rw [step]
  by_cases henabled : s.Enabled e = true
  · rw [if_pos henabled]
    cases e with
    | connecting t hasChannels =>
      rw [handle, onTransportConnecting, watched_notify_iff h.since rfl rfl]
      exact ⟨fun hothers _ => hothers, fun hothers => hothers rfl⟩
    | writableState t hasChannels writableState =>
      rw [handle, watched_notify_iff h.since rfl rfl]
      exact ⟨fun hothers _ => hothers, fun hothers => hothers henabled⟩
    | tick milliseconds => exact iff_of_true ⟨h.watched.pending, h.watched.idle⟩ fun _ => trivial
    | timeout => exact iff_of_true ⟨fun hnot => (nomatch hnot), fun _ => rfl⟩ fun _ => trivial
  · rw [if_neg henabled]
    exact iff_of_true h.watched fun h => absurd h henabled

theorem inv_step (h : s.Inv) (e : Event T) (hwatched : (step s e).Watched) : (step s e).Inv :=
  ⟨hwatched, since_step h.since e⟩

omit [DecidableEq T] in
theorem inv_start (sessionTimeout : Nat) :
    Inv ({ sessionTimeout := sessionTimeout } : SessionWatchdog T) where
  watched := ⟨fun _ _ hwaits => (by cases hwaits), fun _ => rfl⟩
  since _ := Nat.le_refl 0

/-- Every state of a run is watched over exactly when no notification comes while
another transport has been waiting. -/
theorem watched_run_iff (sessionTimeout : Nat) (events : List (Event T)) :
    (∀ n, (run sessionTimeout (events.take n)).Watched) ↔
      Runs.Along step Alone ({ sessionTimeout := sessionTimeout } : SessionWatchdog T) events := by
  have hstart := inv_start (T := T) sessionTimeout
  have hafter := @Runs.along_after_iff _ _ step _ _ hstart.watched events
  have hsteps := @Runs.along_iff _ _ step (fun s e => Watched (step s e)) Alone Inv
    (fun s e h => watched_step_iff h e) (fun s e h hwatched => inv_step h e hwatched) _ hstart events
  exact hafter.symm.trans hsteps

theorem timeoutTimer_follow {σ : Session} (h : σ.timeoutTimer = s.timer.isSome) (e : Event T) :
    (s.follow σ e).timeoutTimer = (step s e).timer.isSome := by
  rw [follow.eq_def, step]
  by_cases henabled : s.Enabled e = true
  · rw [if_pos henabled, if_pos henabled]
    cases e with
    | connecting t hasChannels =>
      rw [handle, onTransportConnecting, onTransportWritable_eq rfl]
      by_cases hwaits : (s.started t hasChannels).waits = true
      · simp [Session.onTransportWritable, hwaits]
      · simp [Session.onTransportWritable, hwaits]
    | writableState t hasChannels writableState =>
      rw [handle, onTransportWritable_eq rfl]
      by_cases hwaits : (s.changed hasChannels writableState).waits = true
      · simp [Session.onTransportWritable, hwaits]
      · simp [Session.onTransportWritable, hwaits]
    | tick milliseconds => exact h
    | timeout =>
      by_cases hset : σ.timeoutTimer = true
      · simp [Session.onTimer, hset, handle]
      · simp [Session.onTimer, hset, handle]
  · rw [if_neg henabled, if_neg henabled]
    exact h

theorem timeoutTimer_run (sessionTimeout : Nat) (events : List (Event T)) :
    (events.foldl (fun (p : SessionWatchdog T × Session) e => (step p.1 e, p.1.follow p.2 e))
      ({ sessionTimeout := sessionTimeout }, {})).2.timeoutTimer =
        (run sessionTimeout events).timer.isSome := by
  have hfold : ∀ (l : List (Event T)) (p : SessionWatchdog T × Session),
      p.2.timeoutTimer = p.1.timer.isSome →
        (l.foldl (fun (p : SessionWatchdog T × Session) e =>
          (step p.1 e, p.1.follow p.2 e)) p).2.timeoutTimer = (l.foldl step p.1).timer.isSome := by
    intro l
    induction l with
    | nil => exact fun _ h => h
    | cons e rest ih => exact fun p h => ih _ (timeoutTimer_follow h e)
  exact hfold events _ rfl

/-- The second transport becomes writable and takes the timer of the first along. -/
theorem timer_lost :
    ¬ (run 20000 [.connecting 0 true, .connecting 1 true,
      .writableState 1 true .all] : SessionWatchdog Nat).Watched := by
  intro hwatched
  obtain ⟨due, htimer, -⟩ := hwatched.pending rfl 0 rfl
  cases htimer

end SessionWatchdog

end Libjingle
