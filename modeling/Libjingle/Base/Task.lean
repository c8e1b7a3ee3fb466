import Mathlib.Data.List.Basic
import Mathlib.Logic.Function.Basic

/-! Tasks and the runner that steps them. The runner takes one small step at a time:
it looks at a task, or calls its code, which may call anything before it returns. -/

namespace Libjingle

def stateBlocked : Int := -1
def stateInit : Int := 0
def stateStart : Int := 1
def stateDone : Int := 2
def stateError : Int := 3
def kSecTo100ns : Int := 10000000

structure Task where
  state : Int := stateInit
  blocked : Bool := false
  done : Bool := false
  aborted : Bool := false
  busy : Bool := false
  error : Bool := false
  timeoutTime : Int := 0
  timeoutSeconds : Int := 0
  timeoutSuspended : Bool := false
  deleted : Bool := false

/-- What the subclasses settle: the children of a task, and whether `WakeTasks` runs the
tasks or leaves them to a later `RunTasks`. -/
structure TaskSetup (ι : Type*) where
  children : ι → List ι
  depth : ι → Nat
  depth_lt : ∀ t, ∀ c ∈ children t, depth c < depth t
  wakeRuns : Bool

/-- Where `RunTasks` returns to: `PollTasks` runs the tasks twice for each task it wakes. -/
inductive Caller (ι : Type*)
  | direct
  | wake (old : ι)
  | poll (old : ι)
  deriving DecidableEq

inductive Activity
  | idle
  | scanning (i : Nat) (didRun : Bool)
  | processing (i : Nat)
  deriving DecidableEq

/-- `timeoutChanges` counts the calls of `OnTimeoutChange`. -/
structure TaskRunner (ι : Type*) where
  task : ι → Task := fun _ => {}
  tasks : List ι := []
  nextTimeoutTask : Option ι := none
  currentTime : Int := 0
  activity : Activity := .idle
  previousTimeoutTime : Int := 0
  caller : Caller ι := .direct
  timeoutChanges : Nat := 0

inductive TaskOp (ι : Type*)
  | start (t : ι)
  | wake (t : ι)
  | abort (t : ι) (nowake : Bool)
  | error (t : ι)
  | setTimeoutSeconds (t : ι) (timeoutSeconds : Int)
  | suspendTimeout (t : ι)
  | resumeTimeout (t : ι)
  | pollTasks
  | runTasks
  | tick (elapsed : Nat)

def TaskOp.task {ι : Type*} : TaskOp ι → Option ι
  | .start t | .wake t | .abort t _ | .error t | .setTimeoutSeconds t _ | .suspendTimeout t
  | .resumeTimeout t => some t
  | _ => none

inductive TaskEvent (ι : Type*)
  | call (op : TaskOp ι)
  | go
  | ret (newState : Int)

namespace TaskRunner

variable {ι : Type*} [DecidableEq ι] (T : TaskSetup ι) (s : TaskRunner ι)

def running : Bool := s.activity ≠ .idle

def nextTaskTimeout : Int :=
  match s.nextTimeoutTask with
  | some n => (s.task n).timeoutTime
  | none => 0

def modify (t : ι) (f : Task → Task) : TaskRunner ι :=
  { s with task := Function.update s.task t (f (s.task t)) }

def checkForTimeoutChange (previousTimeoutTime : Int) : TaskRunner ι :=
  if previousTimeoutTime = 0 ∧ s.nextTaskTimeout ≠ 0 ∨ s.nextTaskTimeout < previousTimeoutTime ∨
      previousTimeoutTime ≤ s.currentTime ∧ previousTimeoutTime ≠ s.nextTaskTimeout then
    { s with timeoutChanges := s.timeoutChanges + 1 }
  else s

/-- One turn of the loop in `RecalcNextTimeout`, with the closest timeout so far. -/
def closer (excludeTask : Option ι) (best : Int × Option ι) (t : ι) : Int × Option ι :=
  let x := s.task t
  if !x.done ∧ 0 < x.timeoutTime ∧ excludeTask ≠ some t ∧
      (best.1 = 0 ∨ x.timeoutTime ≤ best.1) then (x.timeoutTime, some t)
  else best

def recalcNextTimeout (excludeTask : Option ι) : TaskRunner ι :=
  { s with nextTimeoutTask := (s.tasks.foldl (s.closer excludeTask) (0, none)).2 }

def updateTaskTimeout (t : ι) (previousTaskTimeoutTime : Int) : TaskRunner ι :=
  let previousTimeoutTime :=
    if s.nextTimeoutTask = some t then previousTaskTimeoutTime else s.nextTaskTimeout
  let s' :=
    if (s.task t).timeoutTime ≠ 0 then
      if s.nextTimeoutTask = none ∨ (s.task t).timeoutTime ≤ s.nextTaskTimeout then
        { s with nextTimeoutTask := some t }
      else s
    else if s.nextTimeoutTask = some t then s.recalcNextTimeout (some t)
    else s
  if s.running then s' else s'.checkForTimeoutChange previousTimeoutTime

def timedOut (t : ι) : Bool :=
  (s.task t).timeoutSeconds ≠ 0 ∧ (s.task t).timeoutTime ≠ 0 ∧ (s.task t).timeoutTime ≤ s.currentTime

/-- The timeout that `ResetTimeout` gives a task. -/
def timeoutOf (x : Task) : Int :=
  if x.timeoutSeconds ≠ 0 ∧ (x.state ≠ stateInit ∧ x.state ≠ stateDone ∧ x.state ≠ stateError) ∧
      !x.timeoutSuspended then s.currentTime + x.timeoutSeconds * kSecTo100ns
  else 0

def resetTimeout (t : ι) : TaskRunner ι :=
  (s.modify t fun x => { x with timeoutTime := s.timeoutOf x }).updateTaskTimeout t
    (s.task t).timeoutTime

def clearTimeout (t : ι) : TaskRunner ι :=
  (s.modify t ({ · with timeoutTime := 0 })).updateTaskTimeout t (s.task t).timeoutTime

def runTasks (caller : Caller ι) : TaskRunner ι :=
  if s.running then s
  else
    { s with
      activity := .scanning 0 false
      previousTimeoutTime := s.nextTaskTimeout
      caller }

def wakeTasks (caller : Caller ι) : TaskRunner ι := if T.wakeRuns then s.runTasks caller else s

def haltTask (x : Task) : Task :=
  if x.done then x
  else if x.busy then { x with aborted := true }
  else { x with aborted := true, done := true, blocked := true, error := true }

/-- `Abort` of every task in a list and of the children of those that stop. -/
def abortAll : Nat → List ι → TaskRunner ι → TaskRunner ι
  | 0, _, s => s
  | depth + 1, l, s =>
    l.foldl (fun s t =>
      if (s.task t).done || (s.task t).busy then s.modify t haltTask
      else abortAll depth (T.children t) (s.modify t haltTask)) s

def stop (t : ι) : TaskRunner ι := abortAll T (T.depth t) (T.children t) s

def abort (t : ι) (nowake : Bool) : TaskRunner ι :=
  if (s.task t).done || (s.task t).busy then s.modify t haltTask
  else if nowake then (s.modify t haltTask).stop T t
  else ((s.modify t haltTask).stop T t).wakeTasks T .direct

def wake (t : ι) (caller : Caller ι) : TaskRunner ι :=
  if !(s.task t).done && (s.task t).blocked then
    (s.modify t ({ · with blocked := false })).wakeTasks T caller
  else s

def error (t : ι) : TaskRunner ι :=
  if (s.task t).error || (s.task t).done then s
  else (s.modify t ({ · with error := true })).wake T t .direct

def start (t : ι) : TaskRunner ι :=
  if (s.task t).state ≠ stateInit then s
  else (({ s with tasks := s.tasks ++ [t] }).updateTaskTimeout t 0).wakeTasks T .direct

def setTimeoutSeconds (t : ι) (timeoutSeconds : Int) : TaskRunner ι :=
  (s.modify t ({ · with timeoutSeconds })).resetTimeout t

def suspendTimeout (t : ι) : TaskRunner ι :=
  if (s.task t).timeoutSuspended then s
  else (s.modify t ({ · with timeoutSuspended := true })).resetTimeout t

def resumeTimeout (t : ι) : TaskRunner ι :=
  if (s.task t).timeoutSuspended then
    (s.modify t ({ · with timeoutSuspended := false })).resetTimeout t
  else s

/-- The loop of `PollTasks`, up to where it returns or the tasks are run. -/
def pollLoop (oldTimeoutTask : Option ι) : TaskRunner ι :=
  match s.nextTimeoutTask with
  | none => s
  | some n =>
    if oldTimeoutTask ≠ some n ∧ s.timedOut n then
      let s' := s.wake T n (.wake n)
      if s'.running then s' else s'.wakeTasks T (.poll n)
    else s

def call : TaskOp ι → TaskRunner ι
  | .start t => s.start T t
  | .wake t => s.wake T t .direct
  | .abort t nowake => s.abort T t nowake
  | .error t => s.error T t
  | .setTimeoutSeconds t timeoutSeconds => s.setTimeoutSeconds t timeoutSeconds
  | .suspendTimeout t => s.suspendTimeout t
  | .resumeTimeout t => s.resumeTimeout t
  | .pollTasks => s.pollLoop T none
  | .runTasks => s.runTasks .direct
  | .tick elapsed => { s with currentTime := s.currentTime + elapsed }

/-- `Step` after the task's code has returned. -/
def finishStep (t : ι) (newState : Int) : TaskRunner ι :=
  let s := s.modify t ({ · with busy := false })
  if (s.task t).aborted then s.abort T t true
  else if newState = stateBlocked then s.modify t ({ · with blocked := true })
  else
    let s := (s.modify t ({ · with state := newState, blocked := false })).resetTimeout t
    if newState = stateDone ∨ newState = stateError then
      ((s.modify t fun x =>
        { x with done := true, error := x.error || newState = stateError }).stop T t).modify t
          ({ · with blocked := true })
    else s

/-- `Step` up to where it returns or the task's code is called. -/
def stepTask (i : Nat) (t : ι) : TaskRunner ι :=
  let s := { s with activity := .scanning i true }
  if (s.task t).done then s.modify t ({ · with blocked := true })
  else if (s.task t).error then
    (s.modify t ({ · with done := true, state := stateError, blocked := true })).stop T t
  else
    let s := s.modify t ({ · with busy := true })
    if s.timedOut t then { s.clearTimeout t with activity := .processing i }
    else if (s.task t).state = stateInit then s.finishStep T t stateStart
    else if (s.task t).state = stateDone ∨ (s.task t).state = stateError then
      s.finishStep T t stateBlocked
    else { s with activity := .processing i }

def deleteDone : TaskRunner ι :=
  { s with
    task := fun t => if t ∈ s.tasks ∧ (s.task t).done then { s.task t with deleted := true }
      else s.task t
    tasks := s.tasks.filter fun t => !(s.task t).done }

/-- The finished tasks are deleted, the cached one among them. -/
def sweep : TaskRunner ι :=
  match s.nextTimeoutTask with
  | some n =>
    if n ∈ s.tasks ∧ (s.task n).done then s.deleteDone.recalcNextTimeout none else s.deleteDone
  | none => s.deleteDone

def endRun : TaskRunner ι :=
  { s.sweep.checkForTimeoutChange s.previousTimeoutTime with activity := .idle }

def finishRun : TaskRunner ι :=
  match s.caller with
  | .direct => s.endRun
  | .wake old => s.endRun.wakeTasks T (.poll old)
  | .poll old => s.endRun.pollLoop T (some old)

def go : TaskRunner ι :=
  match s.activity with
  | .scanning i didRun =>
    match s.tasks[i]? with
    | some t =>
      if (s.task t).blocked then { s with activity := .scanning (i + 1) didRun }
      else s.stepTask T i t
    | none => if didRun then { s with activity := .scanning 0 false } else s.finishRun T
  | _ => s

/-- An event that the runner does not expect changes nothing. -/
def step : TaskEvent ι → TaskRunner ι
  | .call op =>
    match s.activity with
    | .scanning _ _ => s
    | _ => s.call T op
  | .go => s.go T
  | .ret newState =>
    match s.activity with
    | .processing i =>
      match s.tasks[i]? with
      | some t => ({ s with activity := .scanning i true }).finishStep T t newState
      | none => s
    | _ => s

end TaskRunner

end Libjingle
