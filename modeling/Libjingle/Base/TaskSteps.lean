import Libjingle.Base.TaskTimeouts

/-! Every step of a runner keeps the cached task closest to its timeout, unless the step
resets a timeout in a way that does not fit. -/

namespace Libjingle

namespace TaskRunner

variable {ι : Type*} [DecidableEq ι]

section Keeps

variable {T : TaskSetup ι} {s : TaskRunner ι} {t : ι}

theorem Ok.modify (h : s.Ok) {f : Task → Task} (hflags : Flags (s.task t) (f (s.task t)))
    (hstate : (f (s.task t)).state = (s.task t).state ∨ t ∈ s.tasks) : (s.modify t f).Ok :=
  h.calm (Calm.modify hflags hstate)

theorem Ok.abort (h : s.Ok) (t : ι) (nowake : Bool) : (s.abort T t nowake).Ok := by
  have hhalt : (s.modify t haltTask).Ok := h.calm (calm_halt s t)
  have hstop := hhalt.calm (calm_stop T _ t)
  unfold TaskRunner.abort
  split_ifs
  · exact hhalt
  · exact hstop
  · exact hstop.wakeTasks _

theorem Ok.wake (h : s.Ok) (t : ι) (caller : Caller ι) : (s.wake T t caller).Ok := by
  unfold TaskRunner.wake
  split_ifs
  · refine Ok.wakeTasks (h.modify ?_ ?_) caller
    · exact ⟨rfl, rfl, rfl, id⟩
    · exact .inl rfl
  · exact h

theorem Ok.error (h : s.Ok) (t : ι) : (s.error T t).Ok := by
  unfold TaskRunner.error
  split_ifs
  · exact h
  · refine Ok.wake (h.modify ?_ ?_) t .direct
    · exact ⟨rfl, rfl, rfl, id⟩
    · exact .inl rfl

theorem Ok.reset (h : s.Ok) {f : Task → Task} (halive : (s.task t).deleted = false)
    (hdeleted : (f (s.task t)).deleted = (s.task t).deleted)
    (hstate : (f (s.task t)).state = (s.task t).state)
    (hdone : (f (s.task t)).done = (s.task t).done)
    (hfits : s.Fits t (s.timeoutOf (f (s.task t)))) : ((s.modify t f).resetTimeout t).Ok := by
  unfold TaskRunner.resetTimeout
  rw [modify_modify]
  refine Retimes.update ?_ h _
  refine {
    alive := halive
    deleted := hdeleted
    state := hstate
    done := hdone
    timed := fun hne => ?_
    fits := hfits }
  have hreset : (f (s.task t)).timeoutSeconds ≠ 0 ∧ ((f (s.task t)).state ≠ stateInit ∧
      (f (s.task t)).state ≠ stateDone ∧ (f (s.task t)).state ≠ stateError) ∧
      !(f (s.task t)).timeoutSuspended := by
    by_contra hnot
    exact hne (if_neg hnot)
  exact ⟨h.started t halive (hstate ▸ hreset.2.1.1), hreset.1⟩

theorem Ok.clearTimeout (h : s.Ok) (halive : (s.task t).deleted = false) :
    (s.clearTimeout t).Ok := by
  refine Retimes.update ?_ h _
  exact {
    alive := halive
    deleted := rfl
    state := rfl
    done := rfl
    timed := fun hne => absurd rfl hne
    fits := ⟨Int.le_refl 0, fun _ hne => absurd rfl hne⟩ }

theorem Ok.push (h : s.Ok) (halive : (s.task t).deleted = false) (hnew : t ∉ s.tasks) :
    (({ s with tasks := s.tasks ++ [t] }).updateTaskTimeout t 0).Ok := by
  have hzero : (s.task t).timeoutTime = 0 := by
    by_contra hne
    exact hnew (h.timed t halive hne)
  have hcached : s.nextTimeoutTask ≠ some t := fun hn => hnew (h.closest t hn).1
  have hnone : ¬ (s.task t).timeoutTime ≠ 0 := not_not.mpr hzero
  simp only [Ok, update_task, update_tasks, update_next]
  rw [if_neg hnone, if_neg hcached]
  have hlisted : ∀ u ∈ s.tasks ++ [t], (s.task u).timeoutTime ≠ 0 → u ∈ s.tasks := by
    intro u hu hne
    rcases List.mem_append.mp hu with hu | hu
    · exact hu
    · exact absurd (List.mem_singleton.mp hu ▸ hzero) hne
  refine {
    nodup := List.nodup_append.mpr ⟨h.nodup, List.nodup_singleton t, ?_⟩
    alive := fun u hu => ?_
    started := fun u hu hne => List.mem_append_left _ (h.started u hu hne)
    timed := fun u hu hne => List.mem_append_left _ (h.timed u hu hne)
    seconds := h.seconds
    nonneg := fun u hu => ?_
    none_left := fun hnext u hu hdone => ?_
    closest := fun n hn => ?_ }
  · rintro u hu v hv rfl
    exact hnew (List.mem_singleton.mp hv ▸ hu)
  · rcases List.mem_append.mp hu with hu | hu
    · exact h.alive u hu
    · rw [List.mem_singleton.mp hu]
      exact halive
  · by_cases hne : (s.task u).timeoutTime = 0
    · exact Int.le_of_eq hne.symm
    · exact h.nonneg u (hlisted u hu hne)
  · by_contra hne
    exact hne (h.none_left hnext u (hlisted u hu hne) hdone)
  · obtain ⟨hmem, hne, hmin⟩ := h.closest n hn
    exact ⟨List.mem_append_left _ hmem, hne, fun u hu hdone hune =>
      hmin u (hlisted u hu hune) hdone hune⟩

theorem Ok.finishStep (h : s.Ok) (hmem : t ∈ s.tasks) {newState : Int}
    (hfits : (s.task t).aborted = false → newState ≠ stateBlocked →
      s.Fits t (s.timeoutOf { s.task t with state := newState })) :
    (s.finishStep T t newState).Ok := by
  have hbusy : Calm s (s.modify t ({ · with busy := false })) :=
    Calm.modify ⟨rfl, rfl, rfl, id⟩ (.inl rfl)
  have hfree := h.calm hbusy
  unfold TaskRunner.finishStep
  simp only [modify_task_self]
  by_cases haborted : (s.task t).aborted = true
  · rw [if_pos haborted]
    exact hfree.abort t true
  rw [if_neg haborted]
  by_cases hblocked : newState = stateBlocked
  · rw [if_pos hblocked]
    exact hfree.modify ⟨rfl, rfl, rfl, id⟩ (.inl rfl)
  rw [if_neg hblocked]
  have hset := Calm.modify (s := s.modify t ({ · with busy := false })) (t := t)
    (f := ({ · with state := newState, blocked := false })) ⟨rfl, rfl, rfl, id⟩ (.inr hmem)
  have hreset : (((s.modify t ({ · with busy := false })).modify t
      ({ · with state := newState, blocked := false })).resetTimeout t).Ok := by
    have hnew := ((hfits (Bool.eq_false_iff.mpr haborted) hblocked).calm hbusy).calm hset
    have hid := Ok.reset (t := t) (f := id) (hfree.calm hset) (by simpa using h.alive t hmem)
      rfl rfl rfl (by simpa [timeoutOf] using hnew)
    rwa [modify_modify] at hid
  by_cases hend : newState = stateDone ∨ newState = stateError
  · rw [if_pos hend]
    refine Ok.modify (Ok.calm (Ok.modify hreset ?_ ?_) (calm_stop T _ t)) ?_ ?_
    · exact ⟨rfl, rfl, rfl, fun _ => rfl⟩
    · exact .inl rfl
    · exact ⟨rfl, rfl, rfl, id⟩
    · exact .inl rfl
  · rw [if_neg hend]
    exact hreset

/-- The task whose timeout an event resets, and what it is set to. -/
def resets (s : TaskRunner ι) : TaskEvent ι → Option (ι × Int)
  | .call (.setTimeoutSeconds t timeoutSeconds) =>
    some (t, s.timeoutOf { s.task t with timeoutSeconds })
  | .call (.resumeTimeout t) =>
    if (s.task t).timeoutSuspended then
      some (t, s.timeoutOf { s.task t with timeoutSuspended := false })
    else none
  | .ret newState =>
    match s.activity with
    | .processing i =>
      match s.tasks[i]? with
      | some t =>
        if (s.task t).aborted ∨ newState = stateBlocked then none
        else some (t, s.timeoutOf { s.task t with state := newState })
      | none => none
    | _ => none
  | .go =>
    match s.activity with
    | .scanning i _ =>
      match s.tasks[i]? with
      | some t =>
        if !(s.task t).blocked ∧ !(s.task t).done ∧ !(s.task t).error ∧
            (s.task t).state = stateInit then
          some (t, s.timeoutOf { s.task t with state := stateStart })
        else none
      | none => none
    | _ => none
  | _ => none

/-- No task is used after it has been deleted or started a second time before its first
step, and a timeout that is reset fits. -/
structure Straight (s : TaskRunner ι) (e : TaskEvent ι) : Prop where
  alive : ∀ op, e = .call op → ∀ t, op.task = some t → (s.task t).deleted = false
  once : ∀ t, e = .call (.start t) → (s.task t).state = stateInit → t ∉ s.tasks
  fits : ∀ t time, s.resets e = some (t, time) → s.Fits t time

theorem deleteDone_task_of_undone (hdone : (s.task t).done = false) :
    s.deleteDone.task t = s.task t := by
  simp [deleteDone, hdone]

theorem mem_deleteDone_tasks : t ∈ s.deleteDone.tasks ↔ t ∈ s.tasks ∧ (s.task t).done = false := by
  simp [deleteDone]

theorem deleteDone_of_alive (halive : (s.deleteDone.task t).deleted = false) :
    s.deleteDone.task t = s.task t ∧ (t ∈ s.tasks → (s.task t).done = false) := by
  by_cases hgone : t ∈ s.tasks ∧ (s.task t).done = true
  · simp [deleteDone, hgone] at halive
  · refine ⟨if_neg hgone, fun hmem => ?_⟩
    exact Bool.eq_false_iff.mpr fun hdone => hgone ⟨hmem, hdone⟩

theorem Ok.deleteDone (h : s.Ok) {next : Option ι}
    (hnone : next = none → ∀ t ∈ s.deleteDone.tasks, (s.task t).timeoutTime = 0)
    (hsome : ∀ n, next = some n → n ∈ s.deleteDone.tasks ∧ (s.task n).timeoutTime ≠ 0 ∧
      ∀ t ∈ s.deleteDone.tasks, (s.task t).timeoutTime ≠ 0 →
        (s.task n).timeoutTime ≤ (s.task t).timeoutTime) :
    Timeouts s.deleteDone.task s.deleteDone.tasks next := by
  have hkept : ∀ t ∈ s.deleteDone.tasks, s.deleteDone.task t = s.task t := fun t ht =>
    deleteDone_task_of_undone (mem_deleteDone_tasks.mp ht).2
  refine {
    nodup := h.nodup.filter _
    alive := fun t ht => ?_
    started := fun t ht hne => ?_
    timed := fun t ht hne => ?_
    seconds := fun t hne => ?_
    nonneg := fun t ht => ?_
    none_left := fun hnext t ht _ => ?_
    closest := fun n hn => ?_ }
  · rw [hkept t ht]
    exact h.alive t (mem_deleteDone_tasks.mp ht).1
  · obtain ⟨heq, hdone⟩ := deleteDone_of_alive ht
    rw [heq] at ht hne
    have hmem := h.started t ht hne
    exact mem_deleteDone_tasks.mpr ⟨hmem, hdone hmem⟩
  · obtain ⟨heq, hdone⟩ := deleteDone_of_alive ht
    rw [heq] at ht hne
    have hmem := h.timed t ht hne
    exact mem_deleteDone_tasks.mpr ⟨hmem, hdone hmem⟩
  · have hseconds := h.seconds t
    simp only [TaskRunner.deleteDone] at hne ⊢
    split_ifs at hne ⊢ <;> exact hseconds hne
  · rw [hkept t ht]
    exact h.nonneg t (mem_deleteDone_tasks.mp ht).1
  · rw [hkept t ht]
    exact hnone hnext t ht
  · obtain ⟨hmem, hne, hmin⟩ := hsome n hn
    rw [hkept n hmem]
    refine ⟨hmem, hne, fun t ht _ hne' => ?_⟩
    rw [hkept t ht] at hne' ⊢
    exact hmin t ht hne'

theorem Ok.sweep (h : s.Ok) : s.sweep.Ok := by
  unfold TaskRunner.sweep
  cases hnext : s.nextTimeoutTask with
  | none =>
    have hzero := h.none_left hnext
    simp only
    refine h.deleteDone (fun _ t ht => ?_) fun n hn => ?_
    · obtain ⟨hmem, hdone⟩ := mem_deleteDone_tasks.mp ht
      exact hzero t hmem hdone
    · exact absurd (hnext.symm.trans hn) (by simp)
  | some n =>
    obtain ⟨hmem, hne, hmin⟩ := h.closest n hnext
    simp only
    by_cases hdone : (s.task n).done = true
    · rw [if_pos ⟨hmem, hdone⟩]
      have hel : ∀ t ∈ s.deleteDone.tasks, (s.task t).timeoutTime ≠ 0 →
          s.deleteDone.Eligible none t := by
        intro t ht hne'
        obtain ⟨hmem', hdone'⟩ := mem_deleteDone_tasks.mp ht
        have hnonneg := h.nonneg t hmem'
        rw [Eligible, deleteDone_task_of_undone hdone']
        exact ⟨hdone', by omega, by simp⟩
      refine h.deleteDone (fun hnone t ht => ?_) fun m hm => ?_
      · by_contra hne'
        exact recalcNextTimeout_none hnone t ht (hel t ht hne')
      · obtain ⟨hm, ⟨-, hpos, -⟩, hfirst⟩ := recalcNextTimeout_some hm
        have hkept : ∀ t ∈ s.deleteDone.tasks, s.deleteDone.task t = s.task t := fun t ht =>
          deleteDone_task_of_undone (mem_deleteDone_tasks.mp ht).2
        rw [hkept m hm] at hpos hfirst
        refine ⟨hm, by omega, fun t ht hne' => ?_⟩
        have hle := hfirst t ht (hel t ht hne')
        rwa [hkept t ht] at hle
    · rw [if_neg fun hgone => hdone hgone.2]
      have hundone := Bool.eq_false_iff.mpr hdone
      refine h.deleteDone (fun hnone => ?_) fun m hm => ?_
      · exact absurd (hnext.symm.trans hnone) (by simp)
      · obtain rfl := Option.some.inj (hnext.symm.trans hm)
        refine ⟨mem_deleteDone_tasks.mpr ⟨hmem, hundone⟩, hne, fun t ht hne' => ?_⟩
        obtain ⟨hmem', hdone'⟩ := mem_deleteDone_tasks.mp ht
        exact hmin t hmem' hdone' hne'

theorem Ok.pollLoop (h : s.Ok) (oldTimeoutTask : Option ι) : (s.pollLoop T oldTimeoutTask).Ok := by
  unfold TaskRunner.pollLoop
  cases s.nextTimeoutTask with
  | none => exact h
  | some n =>
    dsimp only
    split_ifs
    · exact h.wake n _
    · exact (h.wake n _).wakeTasks _
    · exact h

theorem Ok.endRun (h : s.Ok) : s.endRun.Ok := by
  simpa only [TaskRunner.endRun, Ok, check_task, check_tasks, check_nextTimeoutTask] using h.sweep

theorem Ok.finishRun (h : s.Ok) : (s.finishRun T).Ok := by
  unfold TaskRunner.finishRun
  cases s.caller with
  | direct => exact h.endRun
  | wake old => exact h.endRun.wakeTasks _
  | poll old => exact h.endRun.pollLoop _

theorem Ok.call (h : s.Ok) {op : TaskOp ι} (hop : s.Straight (.call op)) : (s.call T op).Ok := by
  cases op with
  | start t =>
    have halive := hop.alive _ rfl t rfl
    unfold TaskRunner.call TaskRunner.start
    dsimp only
    split_ifs with hstate
    · exact h
    · exact (h.push halive (hop.once t rfl (not_not.mp hstate))).wakeTasks _
  | wake t => exact h.wake t _
  | abort t nowake => exact h.abort t nowake
  | error t => exact h.error t
  | setTimeoutSeconds t timeoutSeconds =>
    exact h.reset (hop.alive _ rfl t rfl) rfl rfl rfl (hop.fits t _ rfl)
  | suspendTimeout t =>
    unfold TaskRunner.call TaskRunner.suspendTimeout
    dsimp only
    split_ifs with hsuspended
    · exact h
    · refine h.reset (hop.alive _ rfl t rfl) rfl rfl rfl ?_
      have hzero : s.timeoutOf { s.task t with timeoutSuspended := true } = 0 := if_neg (by simp)
      rw [hzero]
      exact ⟨Int.le_refl 0, fun _ hne => absurd rfl hne⟩
  | resumeTimeout t =>
    unfold TaskRunner.call TaskRunner.resumeTimeout
    dsimp only
    split_ifs with hsuspended
    · exact h.reset (hop.alive _ rfl t rfl) rfl rfl rfl (hop.fits t _ (if_pos hsuspended))
    · exact h
  | pollTasks => exact h.pollLoop none
  | runTasks => exact h.runTasks .direct
  | tick elapsed => exact h

theorem Ok.stepTask (h : s.Ok) {i : Nat} (hmem : t ∈ s.tasks)
    (hfits : (s.task t).done = false → (s.task t).error = false → (s.task t).state = stateInit →
      s.Fits t (s.timeoutOf { s.task t with state := stateStart })) : (s.stepTask T i t).Ok := by
  have hscan : ({ s with activity := .scanning i true } : TaskRunner ι).Ok := h
  unfold TaskRunner.stepTask
  dsimp only
  by_cases hdone : (s.task t).done = true
  · rw [if_pos hdone]
    exact hscan.modify ⟨rfl, rfl, rfl, id⟩ (.inl rfl)
  rw [if_neg hdone]
  by_cases herror : (s.task t).error = true
  · rw [if_pos herror]
    exact (hscan.modify ⟨rfl, rfl, rfl, fun _ => rfl⟩ (.inr hmem)).calm (calm_stop T _ t)
  rw [if_neg herror]
  have hbusy : Calm ({ s with activity := .scanning i true } : TaskRunner ι)
      (({ s with activity := .scanning i true } : TaskRunner ι).modify t ({ · with busy := true })) :=
    Calm.modify ⟨rfl, rfl, rfl, id⟩ (.inl rfl)
  simp only [modify_task_self]
  split_ifs with htimeout hinit hlast
  · exact (hscan.calm hbusy).clearTimeout (by simpa using h.alive t hmem)
  · refine (hscan.calm hbusy).finishStep hmem fun _ _ => ?_
    have hnew := (hfits (Bool.eq_false_iff.mpr hdone) (Bool.eq_false_iff.mpr herror) hinit)
    have hcalm := Fits.calm (s := { s with activity := .scanning i true }) ⟨hnew.1, hnew.2⟩ hbusy
    simpa [timeoutOf] using hcalm
  · exact (hscan.calm hbusy).finishStep hmem fun _ hne => absurd rfl hne
  · have hstep := hscan.calm hbusy
    exact hstep

theorem Ok.go (h : s.Ok) (hgo : s.Straight .go) : (s.go T).Ok := by
  unfold TaskRunner.go
  cases hactivity : s.activity with
  | idle => exact h
  | processing i => exact h
  | scanning i didRun =>
    cases htask : s.tasks[i]? with
    | none =>
      simp only [htask]
      split_ifs
      · exact h
      · exact h.finishRun
    | some t =>
      simp only [htask]
      split_ifs with hblocked
      · exact h
      · refine h.stepTask (List.mem_of_getElem? htask) fun hdone herror hinit => ?_
        refine hgo.fits t _ ?_
        simp [resets, hactivity, htask, hblocked, hdone, herror, hinit]

theorem Ok.step (h : s.Ok) {e : TaskEvent ι} (he : s.Straight e) : (s.step T e).Ok := by
  cases e with
  | call op =>
    unfold TaskRunner.step
    cases hactivity : s.activity with
    | idle => exact h.call he
    | scanning i didRun => exact h
    | processing i => exact h.call he
  | go => exact h.go he
  | ret newState =>
    unfold TaskRunner.step
    cases hactivity : s.activity with
    | idle => exact h
    | scanning i didRun => exact h
    | processing i =>
      cases htask : s.tasks[i]? with
      | none => simpa only [htask] using h
      | some t =>
        simp only [htask]
        have hscan : ({ s with activity := .scanning i true } : TaskRunner ι).Ok := h
        refine hscan.finishStep (List.mem_of_getElem? htask) fun haborted hblocked => ?_
        have haborted' : (s.task t).aborted = false := haborted
        have hfits := he.fits t (s.timeoutOf { s.task t with state := newState })
          (by simp [resets, hactivity, htask, haborted', hblocked])
        exact ⟨hfits.1, hfits.2⟩

end Keeps

section Runs

variable {T : TaskSetup ι}

omit [DecidableEq ι] in
theorem ok_start : ({} : TaskRunner ι).Ok where
  nodup := List.nodup_nil
  alive := fun _ h => absurd h List.not_mem_nil
  started := fun _ _ h => absurd rfl h
  timed := fun _ _ h => absurd rfl h
  seconds := fun _ h => absurd rfl h
  nonneg := fun _ h => absurd h List.not_mem_nil
  none_left := fun _ _ h => absurd h List.not_mem_nil
  closest := fun _ h => by cases h

theorem Ok.run {s : TaskRunner ι} (h : s.Ok) {events : List (TaskEvent ι)}
    (hstraight : Runs.Along (TaskRunner.step T) Straight s events) :
    (events.foldl (TaskRunner.step T) s).Ok := by
  induction events generalizing s with
  | nil => exact h
  | cons e rest ih => exact ih (h.step hstraight.1) hstraight.2

end Runs

end TaskRunner

end Libjingle
