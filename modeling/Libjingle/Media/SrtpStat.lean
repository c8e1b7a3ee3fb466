import Libjingle.Base.AddressOrder
import Libjingle.Base.TimeUtils
import Libjingle.Lib.Runs
import Libjingle.Lib.SearchTree

/-! `SrtpStat` signals an error at its first time and then at most once in a silent time. The
errors are told apart by a comparison that is no order where one key has the greater ssrc and
the other the greater mode or error. -/

namespace Libjingle

inductive SrtpMode
  | protect
  | unprotect
  deriving DecidableEq, Repr

namespace SrtpMode

def toNat : SrtpMode → Nat
  | protect => 0
  | unprotect => 1

theorem toNat_inj {a b : SrtpMode} : a.toNat = b.toNat ↔ a = b := by
  cases a <;> cases b <;> decide

end SrtpMode

inductive SrtpError
  | none
  | fail
  | auth
  | replay
  deriving DecidableEq, Repr

namespace SrtpError

def toNat : SrtpError → Nat
  | none => 0
  | fail => 1
  | auth => 2
  | replay => 3

theorem toNat_inj {a b : SrtpError} : a.toNat = b.toNat ↔ a = b := by
  cases a <;> cases b <;> decide

end SrtpError

/-- The statuses of libSRTP that are told apart. -/
inductive ErrStatus
  | ok
  | authFail
  | replayFail
  | replayOld
  | other (code : Int)
  deriving DecidableEq, Repr

structure FailureKey where
  ssrc : UInt32
  mode : SrtpMode
  error : SrtpError
  deriving DecidableEq, Repr

namespace FailureKey

/-- `operator<` -/
def less (a b : FailureKey) : Bool :=
  a.ssrc < b.ssrc || a.mode.toNat < b.mode.toNat || a.error.toNat < b.error.toNat

def Below (a b : FailureKey) : Prop :=
  a.ssrc.toNat ≤ b.ssrc.toNat ∧ a.mode.toNat ≤ b.mode.toNat ∧ a.error.toNat ≤ b.error.toNat

def weight (a : FailureKey) : Nat := a.ssrc.toNat + a.mode.toNat + a.error.toNat

variable {a b : FailureKey}

theorem below_antisymm (hab : a.Below b) (hba : b.Below a) : a = b := by
  rcases a with ⟨ssrc, mode, error⟩
  rcases b with ⟨ssrc', mode', error'⟩
  obtain ⟨hssrc, hmode, herror⟩ := hab
  obtain ⟨hssrc', hmode', herror'⟩ := hba
  obtain rfl : ssrc = ssrc' := UInt32.toNat_inj.mp (Nat.le_antisymm hssrc hssrc')
  obtain rfl : mode = mode' := SrtpMode.toNat_inj.mp (Nat.le_antisymm hmode hmode')
  obtain rfl : error = error' := SrtpError.toNat_inj.mp (Nat.le_antisymm herror herror')
  rfl

theorem less_iff : a.less b = true ↔ ¬ b.Below a := by
  simp only [less, Below, Bool.or_eq_true, decide_eq_true_eq, UInt32.lt_iff_toNat_lt]
  omega

theorem less_eq_false_iff : a.less b = false ↔ b.Below a := by
  rw [← Bool.not_eq_true, less_iff, not_not]

theorem less_iff_weight (h : a.Below b ∨ b.Below a) :
    a.less b = true ↔ a.weight < b.weight := by
  rw [less_iff]
  constructor
  · intro hnot
    have hab := h.resolve_right hnot
    simp only [Below] at hab hnot
    simp only [weight]
    omega
  · rintro hlt ⟨hssrc, hmode, herror⟩
    simp only [weight] at hlt
    omega

theorem order_iff {S : Set FailureKey} :
    IsStrictWeakOrder S (fun a b => a.1.less b.1 = true) ↔
      ∀ a ∈ S, ∀ b ∈ S, a.Below b ∨ b.Below a := by
  constructor
  · intro h a ha b hb
    by_contra hnot
    obtain ⟨hab, hba⟩ := not_or.mp hnot
    exact h.irrefl ⟨a, ha⟩
      (h.trans ⟨a, ha⟩ ⟨b, hb⟩ ⟨a, ha⟩ (less_iff.mpr hba) (less_iff.mpr hab))
  · intro h
    exact isStrictWeakOrder_of_key (fun a : S => a.1.weight) fun a b =>
      less_iff_weight (h a a.2 b b.2)

end FailureKey

structure Balance where
  tree : List (FailureKey × UInt32) → SearchTree FailureKey UInt32
  toList_tree : ∀ l, (tree l).toList = l

/-- The map has the reading of the last signal for each key. The signals are kept with their
times, the last one first. -/
structure SrtpStat where
  failures : SearchTree FailureKey UInt32 := .leaf
  signalSilentTime : UInt32 := 1000
  signals : List (FailureKey × Int) := []

namespace SrtpStat

inductive Event where
  | addProtectRtpResult (ssrc : UInt32) (result : ErrStatus)
  | addUnprotectRtpResult (ssrc : UInt32) (result : ErrStatus)
  | addProtectRtcpResult (result : ErrStatus)
  | addUnprotectRtcpResult (result : ErrStatus)
  | setSignalSilentTime (time : UInt32)
  deriving DecidableEq, Repr

def protectError : ErrStatus → SrtpError
  | .ok => .none
  | .authFail => .auth
  | _ => .fail

def unprotectError : ErrStatus → SrtpError
  | .ok => .none
  | .authFail => .auth
  | .replayFail | .replayOld => .replay
  | .other _ => .fail

def Event.key? : Event → Option FailureKey
  | addProtectRtpResult ssrc result => some ⟨ssrc, .protect, protectError result⟩
  | addUnprotectRtpResult ssrc result => some ⟨ssrc, .unprotect, unprotectError result⟩
  | addProtectRtcpResult result => some ⟨0, .protect, protectError result⟩
  | addUnprotectRtcpResult result => some ⟨0, .unprotect, unprotectError result⟩
  | setSignalSilentTime _ => none

/-- A node that `operator[]` makes has the reading zero. -/
def handleSrtpResult (s : SrtpStat) (key : FailureKey) (time : Int) (balance : Balance) :
    SrtpStat :=
  if key.error = .none then s
  else
    let last := (s.failures.find FailureKey.less key).getD 0
    if last = 0 ∨ timeDiff (clockAt time) last > s.signalSilentTime.toBitVec.toInt then
      { s with
        failures := balance.tree (s.failures.assign FailureKey.less key (clockAt time))
        signals := (key, time) :: s.signals }
    else s

structure Input where
  event : Event
  time : Int
  balance : Balance

def step (s : SrtpStat) (i : Input) : SrtpStat :=
  match i.event with
  | .setSignalSilentTime time => { s with signalSilentTime := time }
  | event => event.key?.elim s fun key => s.handleSrtpResult key i.time i.balance

/-- The error that an input reports. -/
def Input.failure (i : Input) : Option FailureKey := i.event.key?.filter (·.error ≠ .none)

def lastSignal (s : SrtpStat) (key : FailureKey) : Option Int :=
  (s.signals.find? (·.1 = key)).map Prod.snd

/-- Whether an error is to be signalled, by the last signal for its key. -/
def due (silent : UInt32) (time : Int) : Option Int → Bool
  | none => true
  | some last => silent.toNat < time - last

/-- An error is signalled if and only if it is due, where the last signal for its key is less
than half a lap of the clock ago. -/
def Throttled (s : SrtpStat) (i : Input) : Prop :=
  match i.failure with
  | none => (s.step i).signals = s.signals
  | some key =>
    (∀ last, s.lastSignal key = some last → 0 ≤ i.time - last ∧ i.time - last < 2147483648) →
      (s.step i).signals =
        if due s.signalSilentTime i.time (s.lastSignal key) then (key, i.time) :: s.signals
        else s.signals

/-- An error that is not due was not signalled when the clock read zero, and the silent time is
less than half a lap. -/
def Undisturbed (s : SrtpStat) (i : Input) : Prop :=
  ∀ key last, i.failure = some key → s.lastSignal key = some last → 0 ≤ i.time - last →
    i.time - last < 2147483648 → i.time - last ≤ s.signalSilentTime.toNat →
      clockAt last ≠ 0 ∧ s.signalSilentTime.toNat < 2147483648

def keys (inputs : List Input) : Set FailureKey := {key | ∃ i ∈ inputs, i.failure = some key}

structure Lawful (inputs : List Input) : Prop where
  order : IsStrictWeakOrder (keys inputs) fun a b => a.1.less b.1 = true
  equivalence : ∀ a ∈ keys inputs, ∀ b ∈ keys inputs,
    (¬ a.less b = true ∧ ¬ b.less a = true) ↔ a = b
  throttled : Runs.Along step Throttled {} inputs

section Runs

variable {s : SrtpStat} {i : Input} {S : Set FailureKey} {key : FailureKey}

theorem step_of_failure_none (h : i.failure = none) :
    (s.step i).failures = s.failures ∧ (s.step i).signals = s.signals := by
  rcases i with ⟨event, time, balance⟩
  have hkey : ∀ key, event.key? = some key → key.error = .none := by
    intro key hkey
    rw [Input.failure, hkey] at h
    by_contra herror
    simp [Option.filter, herror] at h
  have hhandle : event.key?.elim s (fun key => s.handleSrtpResult key time balance) = s := by
    cases hsome : event.key? with
    | none => rfl
    | some key => exact if_pos (hkey key hsome)
  cases event with
  | setSignalSilentTime silent => exact ⟨rfl, rfl⟩
  | _ =>
    rw [step]
    exact ⟨congrArg failures hhandle, congrArg signals hhandle⟩

theorem step_of_failure (h : i.failure = some key) :
    key.error ≠ .none ∧ s.step i = s.handleSrtpResult key i.time i.balance := by
  rcases i with ⟨event, time, balance⟩
  obtain ⟨hkey, herror⟩ := Option.filter_eq_some_iff.mp h
  refine ⟨of_decide_eq_true herror, ?_⟩
  cases event with
  | setSignalSilentTime silent => cases hkey
  | _ =>
    obtain rfl := Option.some.inj hkey
    rfl

theorem lastSignal_cons (failures : SearchTree FailureKey UInt32) (time : Int) :
    lastSignal { s with failures, signals := (key, time) :: s.signals } =
      Function.update s.lastSignal key (some time) := by
  funext j
  by_cases hj : j = key
  · subst hj
    simp [lastSignal]
  · simp [lastSignal, hj, Ne.symm hj]

def Kept (S : Set FailureKey) (s : SrtpStat) : Prop :=
  s.failures.Represents FailureKey.less S fun key => (s.lastSignal key).map clockAt

theorem signals_when_due_iff {silent : UInt32} {time last : Int} (hlow : 0 ≤ time - last)
    (hhigh : time - last < 2147483648) :
    ((clockAt last = 0 ∨ timeDiff (clockAt time) (clockAt last) > silent.toBitVec.toInt) ↔
      silent.toNat < time - last) ↔
    (time - last ≤ silent.toNat → clockAt last ≠ 0 ∧ silent.toNat < 2147483648) := by
  have hsilent := BitVec.toInt_eq_toNat_cond silent.toBitVec
  rw [UInt32.toNat_toBitVec] at hsilent
  have hlt := silent.toNat_lt
  rw [timeDiff_clockAt (by omega) hhigh]
  by_cases hzero : clockAt last = 0
  · simp only [hzero, true_or, true_iff, ne_eq, not_true, false_and, imp_false]
    omega
  · simp only [hzero, false_or, ne_eq, not_false_iff, true_and]
    split at hsilent <;> omega

variable (hS : ∀ a ∈ S, ∀ b ∈ S, a.Below b ∨ b.Below a)

theorem eq_of_incomparable {a b : FailureKey} (hab : a.less b = false) (hba : b.less a = false) :
    a = b :=
  FailureKey.below_antisymm (FailureKey.less_eq_false_iff.mp hba)
    (FailureKey.less_eq_false_iff.mp hab)

include hS

theorem handle_spec (h : s.Kept S) (hkey : key ∈ S) (herror : key.error ≠ .none) (time : Int)
    (balance : Balance) :
    (s.handleSrtpResult key time balance).Kept S ∧
      (s.handleSrtpResult key time balance).signals =
        if ∀ last, s.lastSignal key = some last → clockAt last = 0 ∨
          timeDiff (clockAt time) (clockAt last) > s.signalSilentTime.toBitVec.toInt
        then (key, time) :: s.signals else s.signals := by
  have hfind := h.find_eq (FailureKey.order_iff.mpr hS)
    (fun _ _ _ _ => eq_of_incomparable) hkey
  have hassign := h.assign (FailureKey.order_iff.mpr hS)
    (fun _ _ _ _ => eq_of_incomparable) hkey (v := clockAt time)
    (balance.toList_tree (s.failures.assign FailureKey.less key (clockAt time)))
  have hlast : (((s.failures.find FailureKey.less key).getD 0) = 0 ∨
      timeDiff (clockAt time) ((s.failures.find FailureKey.less key).getD 0) >
        s.signalSilentTime.toBitVec.toInt) ↔
      ∀ last, s.lastSignal key = some last → clockAt last = 0 ∨
        timeDiff (clockAt time) (clockAt last) > s.signalSilentTime.toBitVec.toInt := by
    rw [hfind]
    cases s.lastSignal key <;> simp
  rw [handleSrtpResult, if_neg herror]
  dsimp only
  by_cases hsignal : ∀ last, s.lastSignal key = some last → clockAt last = 0 ∨
      timeDiff (clockAt time) (clockAt last) > s.signalSilentTime.toBitVec.toInt
  · rw [if_pos (hlast.mpr hsignal), if_pos hsignal]
    refine ⟨?_, rfl⟩
    have hmap : (fun j => (Function.update s.lastSignal key (some time) j).map clockAt) =
        Function.update (fun j => (s.lastSignal j).map clockAt) key (some (clockAt time)) := by
      funext j
      by_cases hj : j = key
      · subst hj
        simp
      · simp [hj]
    rw [Kept, lastSignal_cons, hmap]
    exact hassign
  · rw [if_neg (mt hlast.mp hsignal), if_neg hsignal]
    exact ⟨h, rfl⟩

theorem step_kept (h : s.Kept S) (hkeys : ∀ key, i.failure = some key → key ∈ S) :
    (s.step i).Kept S := by
  cases hfailure : i.failure with
  | none =>
    obtain ⟨hfailures, hsignals⟩ := step_of_failure_none (s := s) hfailure
    rw [Kept, hfailures]
    unfold lastSignal
    rw [hsignals]
    exact h
  | some key =>
    obtain ⟨herror, hstep⟩ := step_of_failure (s := s) hfailure
    rw [hstep]
    exact (handle_spec hS h (hkeys key hfailure) herror i.time i.balance).1

theorem throttled_iff (h : s.Kept S) (hkeys : ∀ key, i.failure = some key → key ∈ S) :
    s.Throttled i ↔ s.Undisturbed i := by
  cases hfailure : i.failure with
  | none =>
    simp only [Throttled, Undisturbed, hfailure]
    exact iff_of_true (step_of_failure_none hfailure).2 fun _ _ hkey => by cases hkey
  | some key =>
    obtain ⟨herror, hstep⟩ := step_of_failure (s := s) hfailure
    obtain ⟨-, hsignals⟩ := handle_spec hS h (hkeys key hfailure) herror i.time i.balance
    have hundisturbed : s.Undisturbed i ↔ ∀ last, s.lastSignal key = some last →
        0 ≤ i.time - last → i.time - last < 2147483648 →
          i.time - last ≤ s.signalSilentTime.toNat →
            clockAt last ≠ 0 ∧ s.signalSilentTime.toNat < 2147483648 := by
      constructor
      · exact fun hall last hlast => hall key last hfailure hlast
      · intro hall j last hj
        obtain rfl : key = j := Option.some.inj (hfailure.symm.trans hj)
        exact hall last
    simp only [hundisturbed, Throttled, hfailure, hstep, hsignals]
    cases hlast : s.lastSignal key with
    | none => simp [due]
    | some last =>
      have hcons : (key, i.time) :: s.signals ≠ s.signals := List.cons_ne_self _ _
      simp only [Option.some.injEq, forall_eq', due, decide_eq_true_eq, and_imp]
      refine forall_congr' fun hlow => forall_congr' fun hhigh => ?_
      rw [← signals_when_due_iff hlow hhigh]
      by_cases hsignal : clockAt last = 0 ∨
          timeDiff (clockAt i.time) (clockAt last) > s.signalSilentTime.toBitVec.toInt <;>
        by_cases hdue : s.signalSilentTime.toNat < i.time - last
      · exact iff_of_true (by rw [if_pos hsignal, if_pos hdue]) (iff_of_true hsignal hdue)
      · rw [if_pos hsignal, if_neg hdue]
        exact iff_of_false hcons fun hiff => hdue (hiff.mp hsignal)
      · rw [if_neg hsignal, if_pos hdue]
        exact iff_of_false hcons.symm fun hiff => hsignal (hiff.mpr hdue)
      · exact iff_of_true (by rw [if_neg hsignal, if_neg hdue]) (iff_of_false hsignal hdue)

end Runs

theorem along_throttled_iff {S : Set FailureKey} (hS : ∀ a ∈ S, ∀ b ∈ S, a.Below b ∨ b.Below a)
    {s : SrtpStat} (h : s.Kept S) (inputs : List Input) (hkeys : keys inputs ⊆ S) :
    Runs.Along step Throttled s inputs ↔ Runs.Along step Undisturbed s inputs := by
  induction inputs generalizing s with
  | nil => exact Iff.rfl
  | cons i inputs ih =>
    have hfirst : ∀ key, i.failure = some key → key ∈ S := fun key hkey =>
      hkeys ⟨i, List.mem_cons_self, hkey⟩
    have hrest : keys inputs ⊆ S := by
      rintro key ⟨j, hj, hkey⟩
      exact hkeys ⟨j, List.mem_cons_of_mem _ hj, hkey⟩
    exact and_congr (throttled_iff hS h hfirst) (ih (step_kept hS h hfirst) hrest)

/-- The middle of three entries is the root, else the first. -/
def middleTree : List (FailureKey × UInt32) → SearchTree FailureKey UInt32
  | [] => .leaf
  | [a, b, c] => .node (.node .leaf a.1 a.2 .leaf) b.1 b.2 (.node .leaf c.1 c.2 .leaf)
  | e :: rest => .node .leaf e.1 e.2 (middleTree rest)

theorem toList_middleTree (l : List (FailureKey × UInt32)) : (middleTree l).toList = l := by
  fun_induction middleTree l with
  | case1 => rfl
  | case2 a b c => rfl
  | case3 e rest _ ih => rw [SearchTree.toList, ih]; rfl

def exampleInput (ssrc : UInt32) (protects : Bool) (time : Int) : Input where
  event := if protects then .addProtectRtpResult ssrc (.other 1)
    else .addUnprotectRtpResult ssrc (.other 1)
  time
  balance := ⟨middleTree, toList_middleTree⟩

def mixedErrors : List Input :=
  [exampleInput 2 true 1, exampleInput 1 false 2, exampleInput 3 false 3, exampleInput 2 true 4]

def errorsFromZero : List Input := [exampleInput 2 true 0, exampleInput 2 true 1]

end SrtpStat

end Libjingle
