import Libjingle.Base.Task
import Libjingle.Lib.Runs
import Mathlib.Data.List.Induction
import Mathlib.Data.List.Nodup

/-! The task that times out next. The runner keeps it up to date with each change of a
timeout, as long as its own timeout is not moved behind that of another task. -/

namespace Libjingle

namespace TaskRunner

variable {ι : Type*}

section Check

variable (s : TaskRunner ι) (time : Int)

@[simp] theorem check_task : (s.checkForTimeoutChange time).task = s.task := by
  unfold checkForTimeoutChange
  split <;> rfl

@[simp] theorem check_tasks : (s.checkForTimeoutChange time).tasks = s.tasks := by
  unfold checkForTimeoutChange
  split <;> rfl

@[simp] theorem check_nextTimeoutTask :
    (s.checkForTimeoutChange time).nextTimeoutTask = s.nextTimeoutTask := by
  unfold checkForTimeoutChange
  split <;> rfl

end Check

/-- The cached task is closest to its timeout, but it may have finished. -/
structure Timeouts (task : ι → Task) (tasks : List ι) (next : Option ι) : Prop where
  nodup : tasks.Nodup
  alive : ∀ t ∈ tasks, (task t).deleted = false
  started : ∀ t, (task t).deleted = false → (task t).state ≠ stateInit → t ∈ tasks
  timed : ∀ t, (task t).deleted = false → (task t).timeoutTime ≠ 0 → t ∈ tasks
  seconds : ∀ t, (task t).timeoutTime ≠ 0 → (task t).timeoutSeconds ≠ 0
  nonneg : ∀ t ∈ tasks, 0 ≤ (task t).timeoutTime
  none_left : next = none → ∀ t ∈ tasks, (task t).done = false → (task t).timeoutTime = 0
  closest : ∀ n, next = some n → n ∈ tasks ∧ (task n).timeoutTime ≠ 0 ∧
    ∀ t ∈ tasks, (task t).done = false → (task t).timeoutTime ≠ 0 →
      (task n).timeoutTime ≤ (task t).timeoutTime

def Ok (s : TaskRunner ι) : Prop := Timeouts s.task s.tasks s.nextTimeoutTask

/-- A new timeout is not negative, and if it is the cached task's it stays the closest. -/
structure Fits (s : TaskRunner ι) (t : ι) (time : Int) : Prop where
  nonneg : 0 ≤ time
  closest : s.nextTimeoutTask = some t → time ≠ 0 → ∀ u ∈ s.tasks, u ≠ t →
    (s.task u).done = false → (s.task u).timeoutTime ≠ 0 → time ≤ (s.task u).timeoutTime

structure Flags (x y : Task) : Prop where
  timeoutTime : y.timeoutTime = x.timeoutTime
  timeoutSeconds : y.timeoutSeconds = x.timeoutSeconds
  deleted : y.deleted = x.deleted
  done : x.done = true → y.done = true

theorem Flags.refl (x : Task) : Flags x x := ⟨rfl, rfl, rfl, id⟩

theorem Flags.trans {x y z : Task} (h : Flags x y) (h' : Flags y z) : Flags x z where
  timeoutTime := h'.timeoutTime.trans h.timeoutTime
  timeoutSeconds := h'.timeoutSeconds.trans h.timeoutSeconds
  deleted := h'.deleted.trans h.deleted
  done := h'.done ∘ h.done

theorem Flags.undone {x y : Task} (h : Flags x y) (hy : y.done = false) : x.done = false := by
  cases hx : x.done with
  | false => rfl
  | true =>
    rw [h.done hx] at hy
    cases hy

/-- Only flags of tasks and states of listed tasks change. -/
def Calm (s s' : TaskRunner ι) : Prop := ∃ task, s' = { s with task } ∧
  ∀ t, Flags (s.task t) (task t) ∧ ((task t).state = (s.task t).state ∨ t ∈ s.tasks)

theorem Calm.refl (s : TaskRunner ι) : Calm s s := ⟨s.task, rfl, fun _ => ⟨Flags.refl _, .inl rfl⟩⟩

theorem Calm.trans {s s' s'' : TaskRunner ι} (h : Calm s s') (h' : Calm s' s'') : Calm s s'' := by
  obtain ⟨task, rfl, hflags⟩ := h
  obtain ⟨task', rfl, hflags'⟩ := h'
  refine ⟨task', rfl, fun t => ⟨(hflags t).1.trans (hflags' t).1, ?_⟩⟩
  rcases (hflags' t).2 with heq | hmem
  · exact (hflags t).2.imp_left heq.trans
  · exact .inr hmem

/-- Tasks may stop, and none that has not is blocked by it. -/
structure Halts (s s' : TaskRunner ι) : Prop where
  calm : Calm s s'
  blocked : ∀ t, (s'.task t).blocked = true →
    (s.task t).blocked = true ∨ (s'.task t).done = true

theorem Halts.refl (s : TaskRunner ι) : Halts s s := ⟨Calm.refl s, fun _ => .inl⟩

theorem Halts.trans {s s' s'' : TaskRunner ι} (h : Halts s s') (h' : Halts s' s'') :
    Halts s s'' := by
  refine ⟨h.calm.trans h'.calm, fun t ht => ?_⟩
  obtain ⟨task, rfl, hflags⟩ := h'.calm
  rcases h'.blocked t ht with hblocked | hdone
  · exact (h.blocked t hblocked).imp_right (hflags t).1.done
  · exact .inr hdone

theorem Ok.calm {s s' : TaskRunner ι} (h : s.Ok) (hcalm : Calm s s') : s'.Ok := by
  obtain ⟨task, rfl, hflags⟩ := hcalm
  refine {
    nodup := h.nodup
    alive := fun t ht => (hflags t).1.deleted.trans (h.alive t ht)
    started := fun t ht hne => ?_
    timed := fun t ht hne => ?_
    seconds := fun t hne => ?_
    nonneg := fun t ht => ?_
    none_left := fun hnone t ht hdone => ?_
    closest := fun n hn => ?_ }
  · rcases (hflags t).2 with heq | hmem
    · exact h.started t ((hflags t).1.deleted ▸ ht) (heq ▸ hne)
    · exact hmem
  · exact h.timed t ((hflags t).1.deleted ▸ ht) ((hflags t).1.timeoutTime ▸ hne)
  · rw [(hflags t).1.timeoutSeconds]
    exact h.seconds t ((hflags t).1.timeoutTime ▸ hne)
  · rw [(hflags t).1.timeoutTime]
    exact h.nonneg t ht
  · rw [(hflags t).1.timeoutTime]
    exact h.none_left hnone t ht ((hflags t).1.undone hdone)
  · obtain ⟨hmem, hne, hmin⟩ := h.closest n hn
    refine ⟨hmem, (hflags n).1.timeoutTime ▸ hne, fun t ht hdone hne' => ?_⟩
    rw [(hflags n).1.timeoutTime, (hflags t).1.timeoutTime]
    exact hmin t ht ((hflags t).1.undone hdone) ((hflags t).1.timeoutTime ▸ hne')

theorem Fits.calm {s s' : TaskRunner ι} {t : ι} {time : Int} (h : s.Fits t time)
    (hcalm : Calm s s') : s'.Fits t time := by
  obtain ⟨task, rfl, hflags⟩ := hcalm
  refine ⟨h.nonneg, fun hcached hne u hu hut hdone hune => ?_⟩
  rw [(hflags u).1.timeoutTime] at hune ⊢
  exact h.closest hcached hne u hu hut ((hflags u).1.undone hdone) hune

theorem Ok.runTasks {s : TaskRunner ι} (h : s.Ok) (caller : Caller ι) : (s.runTasks caller).Ok := by
  unfold TaskRunner.runTasks
  split_ifs <;> exact h

theorem Ok.wakeTasks {T : TaskSetup ι} {s : TaskRunner ι} (h : s.Ok) (caller : Caller ι) : (s.wakeTasks T caller).Ok := by
  unfold TaskRunner.wakeTasks
  split_ifs
  · exact h.runTasks caller
  · exact h

variable [DecidableEq ι]

section Modify

variable (s : TaskRunner ι) (t u : ι) (f : Task → Task)

@[simp] theorem modify_task_self : (s.modify t f).task t = f (s.task t) := Function.update_self ..

theorem modify_task_of_ne {t u : ι} (h : u ≠ t) : (s.modify t f).task u = s.task u :=
  Function.update_of_ne h ..

theorem modify_modify (g : Task → Task) :
    (s.modify t f).modify t g = s.modify t fun x => g (f x) := by
  simp [modify]

@[simp] theorem modify_tasks : (s.modify t f).tasks = s.tasks := rfl

@[simp] theorem modify_nextTimeoutTask : (s.modify t f).nextTimeoutTask = s.nextTimeoutTask := rfl

@[simp] theorem modify_currentTime : (s.modify t f).currentTime = s.currentTime := rfl

@[simp] theorem modify_activity : (s.modify t f).activity = s.activity := rfl

@[simp] theorem modify_running : (s.modify t f).running = s.running := rfl

@[simp] theorem modify_caller : (s.modify t f).caller = s.caller := rfl

@[simp] theorem modify_previousTimeoutTime :
    (s.modify t f).previousTimeoutTime = s.previousTimeoutTime := rfl

@[simp] theorem modify_timeoutChanges : (s.modify t f).timeoutChanges = s.timeoutChanges := rfl

end Modify

/-- A task that `RecalcNextTimeout` may choose. -/
def Eligible (s : TaskRunner ι) (excludeTask : Option ι) (t : ι) : Prop :=
  (s.task t).done = false ∧ 0 < (s.task t).timeoutTime ∧ excludeTask ≠ some t

def Closest (s : TaskRunner ι) (excludeTask : Option ι) (l : List ι) : Int × Option ι → Prop
  | (time, none) => time = 0 ∧ ∀ t ∈ l, ¬ s.Eligible excludeTask t
  | (time, some n) => n ∈ l ∧ s.Eligible excludeTask n ∧ time = (s.task n).timeoutTime ∧
    ∀ t ∈ l, s.Eligible excludeTask t → (s.task n).timeoutTime ≤ (s.task t).timeoutTime

theorem closest_foldl (s : TaskRunner ι) (excludeTask : Option ι) (l : List ι) :
    s.Closest excludeTask l (l.foldl (s.closer excludeTask) (0, none)) := by
  induction l using List.reverseRecOn with
  | nil => exact ⟨rfl, fun t ht => absurd ht List.not_mem_nil⟩
  | append_singleton l t ih =>
    rw [List.foldl_append, List.foldl_cons, List.foldl_nil]
    rcases hbest : l.foldl (s.closer excludeTask) (0, none) with ⟨time, next⟩
    rw [hbest] at ih
    by_cases ht : s.Eligible excludeTask t
    · by_cases hcloser : time = 0 ∨ (s.task t).timeoutTime ≤ time
      · have hturn : s.closer excludeTask (time, next) t = ((s.task t).timeoutTime, some t) := by
          obtain ⟨hdone, hpos, hne⟩ := ht
          simp [closer, hdone, hpos, hne, hcloser]
        rw [hturn]
        refine ⟨by simp, ht, rfl, fun u hu hel => ?_⟩
        rcases List.mem_append.mp hu with hu | hu
        · cases next with
          | none => exact absurd hel (ih.2 u hu)
          | some n =>
            obtain ⟨-, hn, htime, hmin⟩ := ih
            have hle := hmin u hu hel
            have hpos := hn.2.1
            omega
        · obtain rfl := List.mem_singleton.mp hu
          exact Int.le_refl _
      · have hturn : s.closer excludeTask (time, next) t = (time, next) := by
          simp [closer, hcloser]
        rw [hturn]
        cases next with
        | none => exact absurd (Or.inl ih.1) hcloser
        | some n =>
          obtain ⟨hmem, hn, htime, hmin⟩ := ih
          refine ⟨List.mem_append_left _ hmem, hn, htime, fun u hu hel => ?_⟩
          rcases List.mem_append.mp hu with hu | hu
          · exact hmin u hu hel
          · rw [List.mem_singleton.mp hu]
            omega
    · have hturn : s.closer excludeTask (time, next) t = (time, next) := by
        refine if_neg fun h => ht ⟨?_, h.2.1, h.2.2.1⟩
        simpa using h.1
      rw [hturn]
      have hlast : ∀ u ∈ l ++ [t], s.Eligible excludeTask u → u ∈ l := by
        intro u hu hel
        rcases List.mem_append.mp hu with hu | hu
        · exact hu
        · exact absurd (List.mem_singleton.mp hu ▸ hel) ht
      cases next with
      | none => exact ⟨ih.1, fun u hu hel => ih.2 u (hlast u hu hel) hel⟩
      | some n =>
        obtain ⟨hmem, hn, htime, hmin⟩ := ih
        exact ⟨List.mem_append_left _ hmem, hn, htime, fun u hu hel => hmin u (hlast u hu hel) hel⟩

theorem recalcNextTimeout_some {s : TaskRunner ι} {excludeTask : Option ι} {n : ι}
    (h : (s.recalcNextTimeout excludeTask).nextTimeoutTask = some n) :
    n ∈ s.tasks ∧ s.Eligible excludeTask n ∧ ∀ t ∈ s.tasks, s.Eligible excludeTask t →
      (s.task n).timeoutTime ≤ (s.task t).timeoutTime := by
  have hfold := closest_foldl s excludeTask s.tasks
  rcases hbest : s.tasks.foldl (s.closer excludeTask) (0, none) with ⟨time, next⟩
  rw [recalcNextTimeout, hbest] at h
  dsimp only at h
  rw [hbest, h] at hfold
  exact ⟨hfold.1, hfold.2.1, hfold.2.2.2⟩

theorem recalcNextTimeout_none {s : TaskRunner ι} {excludeTask : Option ι}
    (h : (s.recalcNextTimeout excludeTask).nextTimeoutTask = none) :
    ∀ t ∈ s.tasks, ¬ s.Eligible excludeTask t := by
  have hfold := closest_foldl s excludeTask s.tasks
  rcases hbest : s.tasks.foldl (s.closer excludeTask) (0, none) with ⟨time, next⟩
  rw [recalcNextTimeout, hbest] at h
  dsimp only at h
  rw [hbest, h] at hfold
  exact hfold.2

theorem update_next (s : TaskRunner ι) (t : ι) (time : Int) :
    (s.updateTaskTimeout t time).nextTimeoutTask =
      if (s.task t).timeoutTime ≠ 0 then
        if s.nextTimeoutTask = none ∨ (s.task t).timeoutTime ≤ s.nextTaskTimeout then some t
        else s.nextTimeoutTask
      else if s.nextTimeoutTask = some t then (s.recalcNextTimeout (some t)).nextTimeoutTask
      else s.nextTimeoutTask := by
  unfold updateTaskTimeout
  split_ifs <;> simp

theorem update_task (s : TaskRunner ι) (t : ι) (time : Int) :
    (s.updateTaskTimeout t time).task = s.task := by
  unfold updateTaskTimeout
  split_ifs <;> simp [recalcNextTimeout]

theorem update_tasks (s : TaskRunner ι) (t : ι) (time : Int) :
    (s.updateTaskTimeout t time).tasks = s.tasks := by
  unfold updateTaskTimeout
  split_ifs <;> simp [recalcNextTimeout]

/-- A change of a task that leaves all but its timeout, and that fits. -/
structure Retimes (s : TaskRunner ι) (t : ι) (f : Task → Task) : Prop where
  alive : (s.task t).deleted = false
  deleted : (f (s.task t)).deleted = (s.task t).deleted
  state : (f (s.task t)).state = (s.task t).state
  done : (f (s.task t)).done = (s.task t).done
  timed : (f (s.task t)).timeoutTime ≠ 0 → t ∈ s.tasks ∧ (f (s.task t)).timeoutSeconds ≠ 0
  fits : s.Fits t (f (s.task t)).timeoutTime

namespace Retimes

variable {s : TaskRunner ι} {t : ι} {f : Task → Task}

theorem timeouts (hr : s.Retimes t f) (h : s.Ok) {next : Option ι}
    (hnone : next = none → ∀ u ∈ s.tasks, ((s.modify t f).task u).done = false →
      ((s.modify t f).task u).timeoutTime = 0)
    (hsome : ∀ n, next = some n → n ∈ s.tasks ∧ ((s.modify t f).task n).timeoutTime ≠ 0 ∧
      ∀ u ∈ s.tasks, ((s.modify t f).task u).done = false →
        ((s.modify t f).task u).timeoutTime ≠ 0 →
        ((s.modify t f).task n).timeoutTime ≤ ((s.modify t f).task u).timeoutTime) :
    Timeouts (s.modify t f).task s.tasks next := by
  refine {
    nodup := h.nodup
    alive := ?_
    started := ?_
    timed := ?_
    seconds := ?_
    nonneg := ?_
    none_left := hnone
    closest := hsome }
  all_goals intro u
  all_goals by_cases hu : u = t
  all_goals first
    | subst hu
      rw [modify_task_self]
    | rw [modify_task_of_ne s f hu]
  · exact fun _ => hr.deleted.trans hr.alive
  · exact h.alive u
  · rw [hr.deleted, hr.state]
    exact h.started u
  · exact h.started u
  · exact fun _ hne => (hr.timed hne).1
  · exact h.timed u
  · exact fun hne => (hr.timed hne).2
  · exact h.seconds u
  · exact fun _ => hr.fits.nonneg
  · exact h.nonneg u

theorem recalc (hr : s.Retimes t f) (h : s.Ok) (hv : (f (s.task t)).timeoutTime = 0) :
    Timeouts (s.modify t f).task s.tasks
      ((s.modify t f).recalcNextTimeout (some t)).nextTimeoutTask := by
  refine hr.timeouts h (fun hnone u hu hu' => ?_) (fun n hn => ?_)
  · have hel := recalcNextTimeout_none hnone u hu
    by_cases hut : u = t
    · rw [hut, modify_task_self, hv]
    · have hnot : ¬ 0 < ((s.modify t f).task u).timeoutTime := fun hpos =>
        hel ⟨hu', hpos, fun heq => hut (Option.some.inj heq).symm⟩
      have hnonneg := h.nonneg u hu
      rw [modify_task_of_ne s f hut] at hnot ⊢
      omega
  · obtain ⟨hmem, ⟨-, hpos, -⟩, hmin⟩ := recalcNextTimeout_some hn
    refine ⟨hmem, Int.ne_of_gt hpos, fun u hu hu' hne => hmin u hu ⟨hu', ?_, ?_⟩⟩
    · by_cases hut : u = t
      · rw [hut, modify_task_self] at hne
        exact absurd hv hne
      · have hnonneg := h.nonneg u hu
        rw [modify_task_of_ne s f hut] at hne ⊢
        omega
    · intro heq
      rw [← Option.some.inj heq, modify_task_self] at hne
      exact hne hv

theorem cleared (hr : s.Retimes t f) (h : s.Ok) (hv : (f (s.task t)).timeoutTime = 0)
    (hcached : s.nextTimeoutTask ≠ some t) :
    Timeouts (s.modify t f).task s.tasks s.nextTimeoutTask := by
  refine hr.timeouts h (fun hnone u hu hu' => ?_) (fun n hn => ?_)
  · by_cases hut : u = t
    · rw [hut, modify_task_self, hv]
    · rw [modify_task_of_ne s f hut] at hu' ⊢
      exact h.none_left hnone u hu hu'
  · obtain ⟨hmem, hne, hmin⟩ := h.closest n hn
    have hnt : n ≠ t := fun heq => hcached (heq ▸ hn)
    rw [modify_task_of_ne s f hnt]
    refine ⟨hmem, hne, fun u hu hu' hune => ?_⟩
    by_cases hut : u = t
    · rw [hut, modify_task_self] at hune
      exact absurd hv hune
    · rw [modify_task_of_ne s f hut] at hu' hune ⊢
      exact hmin u hu hu' hune

theorem nextTaskTimeout_of_ne {n : ι} (hn : s.nextTimeoutTask = some n) (hnt : n ≠ t) :
    (s.modify t f).nextTaskTimeout = (s.task n).timeoutTime := by
  simp only [nextTaskTimeout, modify_nextTimeoutTask, hn, modify_task_of_ne s f hnt]

theorem first (hr : s.Retimes t f) (h : s.Ok) (hv : (f (s.task t)).timeoutTime ≠ 0)
    (hfirst : s.nextTimeoutTask = none ∨
      (f (s.task t)).timeoutTime ≤ (s.modify t f).nextTaskTimeout) :
    Timeouts (s.modify t f).task s.tasks (some t) := by
  refine hr.timeouts h (fun hnone => nomatch hnone) (fun n hn => ?_)
  obtain rfl := Option.some.inj hn
  rw [modify_task_self]
  refine ⟨(hr.timed hv).1, hv, fun u hu hu' hune => ?_⟩
  by_cases hut : u = t
  · have hsame : (s.modify t f).task u = f (s.task t) := by rw [hut, modify_task_self]
    exact Int.le_of_eq (congrArg Task.timeoutTime hsame.symm)
  · rw [modify_task_of_ne s f hut] at hu' hune ⊢
    cases hnext : s.nextTimeoutTask with
    | none => exact absurd (h.none_left hnext u hu hu') hune
    | some n =>
      by_cases hnt : n = t
      · exact hr.fits.closest (hnt ▸ hnext) hv u hu hut hu' hune
      · have hle := (h.closest n hnext).2.2 u hu hu' hune
        rw [hnext, nextTaskTimeout_of_ne hnext hnt] at hfirst
        rcases hfirst with hnone | hfirst
        · cases hnone
        · omega

theorem behind (hr : s.Retimes t f) (h : s.Ok)
    (hsome : s.nextTimeoutTask ≠ none)
    (hlater : (s.modify t f).nextTaskTimeout < (f (s.task t)).timeoutTime) :
    Timeouts (s.modify t f).task s.tasks s.nextTimeoutTask := by
  refine hr.timeouts h (fun hnone => absurd hnone hsome) (fun n hn => ?_)
  obtain ⟨hmem, hne, hmin⟩ := h.closest n hn
  have hnt : n ≠ t := by
    rintro rfl
    simp only [nextTaskTimeout, modify_nextTimeoutTask, hn, modify_task_self] at hlater
    omega
  rw [nextTaskTimeout_of_ne hn hnt] at hlater
  rw [modify_task_of_ne s f hnt]
  refine ⟨hmem, hne, fun u hu hu' hune => ?_⟩
  by_cases hut : u = t
  · rw [hut, modify_task_self]
    omega
  · rw [modify_task_of_ne s f hut] at hu' hune ⊢
    exact hmin u hu hu' hune

theorem update (hr : s.Retimes t f) (h : s.Ok) (time : Int) :
    ((s.modify t f).updateTaskTimeout t time).Ok := by
  simp only [Ok, update_task, update_tasks, update_next, modify_tasks, modify_task_self]
  split_ifs with hv hfirst hcached
  · exact hr.first h hv hfirst
  · obtain ⟨hsome, hlater⟩ := not_or.mp hfirst
    exact hr.behind h hsome (Int.not_le.mp hlater)
  · exact hr.recalc h (not_not.mp hv)
  · exact hr.cleared h (not_not.mp hv) hcached

end Retimes

theorem Calm.modify {s : TaskRunner ι} {t : ι} {f : Task → Task}
    (hflags : Flags (s.task t) (f (s.task t)))
    (hstate : (f (s.task t)).state = (s.task t).state ∨ t ∈ s.tasks) : Calm s (s.modify t f) := by
  refine ⟨_, rfl, fun u => ?_⟩
  by_cases hu : u = t
  · subst hu
    rw [Function.update_self]
    exact ⟨hflags, hstate⟩
  · rw [Function.update_of_ne hu]
    exact ⟨Flags.refl _, .inl rfl⟩

theorem flags_haltTask (x : Task) : Flags x (haltTask x) := by
  unfold haltTask
  split_ifs with hdone hbusy
  · exact Flags.refl x
  · exact ⟨rfl, rfl, rfl, id⟩
  · exact ⟨rfl, rfl, rfl, fun _ => rfl⟩

theorem state_haltTask (x : Task) : (haltTask x).state = x.state := by
  unfold haltTask
  split_ifs <;> rfl

theorem blocked_haltTask {x : Task} (h : (haltTask x).blocked = true) :
    x.blocked = true ∨ (haltTask x).done = true := by
  unfold haltTask at h ⊢
  split_ifs at h ⊢ with hdone hbusy
  · exact .inl h
  · exact .inl h
  · exact .inr rfl

section Calls

variable (T : TaskSetup ι) (s : TaskRunner ι)

theorem halts_halt (t : ι) : Halts s (s.modify t haltTask) := by
  refine ⟨Calm.modify (flags_haltTask _) (.inl (state_haltTask _)), fun u hu => ?_⟩
  by_cases hut : u = t
  · subst hut
    rw [modify_task_self] at hu ⊢
    exact blocked_haltTask hu
  · rw [modify_task_of_ne s _ hut] at hu
    exact .inl hu

theorem halts_abortAll (depth : Nat) (l : List ι) : Halts s (abortAll T depth l s) := by
  induction depth generalizing l s with
  | zero => exact Halts.refl s
  | succ depth ih =>
    rw [abortAll]
    induction l generalizing s with
    | nil => exact Halts.refl s
    | cons t rest ihl =>
      rw [List.foldl_cons]
      refine Halts.trans ?_ (ihl _)
      split_ifs with hstop
      · exact halts_halt s t
      · exact (halts_halt s t).trans (ih _ _)

theorem halts_stop (t : ι) : Halts s (s.stop T t) := halts_abortAll T s _ _

theorem calm_halt (t : ι) : Calm s (s.modify t haltTask) := (halts_halt s t).calm

theorem calm_stop (t : ι) : Calm s (s.stop T t) := (halts_stop T s t).calm

end Calls

end TaskRunner

end Libjingle
