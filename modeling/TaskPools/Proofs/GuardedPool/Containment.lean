/-
# Panics are contained

A guarded pool counts a task that panics, reports the panic once and goes on.  Two runs that differ
only in how tasks end, and in what a handler throws when it is told, are `Alike` at every moment:
they pass through the same pools and answer the same (`Alike.views_eq`).  What a run does write down
of its endings is `Recorded`: one of the two counters grows by one for each task that ends, and each
panic goes to the handler, or to the error channel if there is none.
-/
import Mathlib.Data.Option.Basic
import TaskPools.Proofs.GuardedPool.Release
import TaskPools.Proofs.Pool.Escapes

namespace TaskPools

variable {τ : Type}

/-- The guard reports a panic. -/
def GuardReport.isOfPanic : GuardReport → Bool
  | .handled _ | .printed _ => true
  | .repaired _ | .releaseInline => false

namespace GuardedPool

/-! ## Endings -/

/-- The event in which a task returns normally in place of one in which it panics. -/
def Event.calm : Event τ → Event τ
  | .move (.conclude w _ _) => .move (.conclude w none none)
  | e => e

/-- How a task ends, if this is the end of one. -/
def Event.outcome? : Event τ → Option (Option Panic)
  | .move (.conclude _ panic _) => some panic
  | _ => none

/-- The task that runs on worker `w`. -/
def runningAt? (g : GuardedPool τ) (w : Nat) : Option τ :=
  match g.pool.workers[w]? with
  | some (.running task) => some task
  | _ => none

/-- The task that ends in a step, and how it ends. -/
def ending? (g : GuardedPool τ) : Event τ → Option (τ × Option Panic)
  | .move (.conclude w panic _) => (g.runningAt? w).map fun task => (task, panic)
  | _ => none

/-- The tasks that end in the course of a run, each with how it ends. -/
def endings : GuardedPool τ → List (Event τ) → List (τ × Option Panic)
  | _, [] => []
  | g, e :: es => (g.ending? e).toList ++ (g.step e).elim [] fun g' => g'.endings es

/-- What the guard reports of a panic, if it has a handler and if it has none. -/
def reportOf (watched : Bool) (panic : Panic) : GuardReport :=
  if watched then .handled panic else .printed panic

/-- The reports of panics in the journal of the guard. -/
def panicReports (g : GuardedPool τ) : List GuardReport :=
  g.journal.filter GuardReport.isOfPanic

/-- What the guard wrote of panics. -/
def panicOutputs (g : GuardedPool τ) (handler : Option PanicHandler) : List Output :=
  g.panicReports.flatMap (GuardReport.outputs g.config.name handler)

/-! ## What is seen of a guarded pool -/

/-- What is seen of a guarded pool by those who do not look at how its tasks ended. -/
structure View (τ : Type) where
  /-- The queue, the slots, the workers and all else that the pool keeps. -/
  pool : Pool τ
  /-- The answers to the submissions. -/
  replies : List Reply
  /-- Where the releases stand, and what those that have returned say. -/
  releases : List TimedRelease

/-- The present view of a guarded pool. -/
def view (g : GuardedPool τ) : View τ :=
  { pool := g.pool.calm, replies := g.replies, releases := g.releases }

/-- The views of a guarded pool in the course of a run, up to the first event that cannot happen. -/
def views : GuardedPool τ → List (Event τ) → List (View τ)
  | g, [] => [g.view]
  | g, e :: es => g.view :: (g.step e).elim [] fun g' => g'.views es

/-- Two guarded pools that differ in how their tasks ended and in nothing else. -/
structure Alike (g h : GuardedPool τ) : Prop where
  config : h.config = g.config
  view : h.view = g.view
  /-- The statistics are equally far, though they may have read different figures. -/
  figures : h.samples.map List.length = g.samples.map List.length

section

variable {g g' h : GuardedPool τ} {e : Event τ} {es : List (Event τ)}
  {ends : List (τ × Option Panic)}

/-- The pools inside differ in what escaped from their tasks at most. -/
theorem Alike.pool (alike : Alike g h) : h.pool.calm = g.pool.calm :=
  congrArg View.pool alike.view

/-- The guards have answered alike. -/
theorem Alike.replies (alike : Alike g h) : h.replies = g.replies :=
  congrArg View.replies alike.view

/-- The guards have released alike. -/
theorem Alike.releases (alike : Alike g h) : h.releases = g.releases :=
  congrArg View.releases alike.view

/-- The workers stand at the same places. -/
theorem Alike.workers (alike : Alike g h) : h.pool.workers = g.pool.workers :=
  (congrArg Pool.workers alike.pool :)

/-- The submissions stand at the same places. -/
theorem Alike.submissions (alike : Alike g h) : h.pool.submissions = g.pool.submissions :=
  (congrArg Pool.submissions alike.pool :)

/-- The releases of the pools inside stand at the same places. -/
theorem Alike.poolReleases (alike : Alike g h) : h.pool.releases = g.pool.releases :=
  (congrArg Pool.releases alike.pool :)

theorem Alike.setRelease (alike : Alike g h) (t : Nat) (place : TimedRelease) :
    Alike (g.setRelease t place) (h.setRelease t place) := by
  refine ⟨alike.config, ?_, alike.figures⟩
  simp only [GuardedPool.view, GuardedPool.setRelease, alike.pool, alike.replies, alike.releases]

/-! ## Every step keeps two guarded pools alike -/

/-- The pools of two guards take a step that differs in what escapes. -/
theorem Alike.onPool (alike : Alike g h) {e e' : Pool.Event τ} (same : e'.calm = e.calm) :
    Option.Rel Alike (g.onPool e) (h.onPool e') := by
  have hstep : (h.pool.step e').map Pool.calm = (g.pool.step e).map Pool.calm := by
    rw [← Pool.step_calm, ← Pool.step_calm, alike.pool, same]
  rw [GuardedPool.onPool, GuardedPool.onPool]
  cases hg : g.pool.step e with
  | none =>
    rw [hg, Option.map_none, Option.map_eq_none_iff] at hstep
    rw [hstep]
    exact Option.Rel.none
  | some p =>
    rw [hg, Option.map_some] at hstep
    obtain ⟨q, hq, hpool⟩ := Option.map_eq_some_iff.mp hstep
    rw [hq]
    refine Option.Rel.some ⟨alike.config, ?_, alike.figures⟩
    rw [GuardedPool.view, GuardedPool.view, hpool, alike.replies, alike.releases]

/-- Both guards take a task in, and stay alike. -/
theorem Alike.submit (alike : Alike g h) (task : Option τ) :
    Option.Rel Alike (g.step (.submit task)) (h.step (.submit task)) := by
  have asked : Alike { g with replies := g.replies ++ [.pending] }
      { h with replies := h.replies ++ [.pending] } := by
    refine ⟨alike.config, ?_, alike.figures⟩
    simp only [GuardedPool.view, alike.pool, alike.replies, alike.releases]
  exact asked.onPool rfl

/-- Both guards read the next figure, which may differ only where it counts how tasks ended. -/
theorem Alike.gauge (alike : Alike g h) (k : Nat) :
    Option.Rel Alike (g.gauge k) (h.gauge k) := by
  have length_eq : (h.samples[k]?).map List.length = (g.samples[k]?).map List.length := by
    rw [← List.getElem?_map, ← List.getElem?_map, alike.figures]
  rw [GuardedPool.gauge, GuardedPool.gauge]
  cases hg : g.samples[k]? with
  | none =>
    rw [hg, Option.map_none, Option.map_eq_none_iff] at length_eq
    rw [length_eq]
    exact Option.Rel.none
  | some figures =>
    rw [hg, Option.map_some] at length_eq
    obtain ⟨figures', hh, length_eq⟩ := Option.map_eq_some_iff.mp length_eq
    simp only [hh, Option.bind_eq_bind, Option.bind_some, length_eq]
    cases Gauge.order[figures.length]? with
    | none => exact Option.Rel.none
    | some next =>
      refine Option.Rel.some ⟨alike.config, alike.view, ?_⟩
      simp only [List.map_set, List.length_append, List.length_singleton, alike.figures, length_eq]

/-- Counting an answer leaves two guards alike. -/
theorem Alike.count (alike : Alike g h) (fault : Option Fault) :
    Alike (g.count fault) (h.count fault) := by
  rcases fault with _ | fault
  · exact ⟨alike.config, alike.view, alike.figures⟩
  · cases fault <;> exact ⟨alike.config, alike.view, alike.figures⟩

/-- Both guards answer a submission alike, or neither can. -/
theorem Alike.answer (alike : Alike g h) (s : Nat) :
    Option.Rel Alike (g.answer s) (h.answer s) := by
  rw [GuardedPool.answer, GuardedPool.answer, alike.submissions, alike.replies]
  split
  · rename_i fault settled open_s
    have counted := alike.count fault
    refine Option.Rel.some ⟨counted.config, ?_, counted.figures⟩
    simp only [GuardedPool.view, counted.pool, counted.releases]
  · exact Option.Rel.none

/-- However the task of a worker ends, it ends at the same time and frees the worker. -/
theorem Alike.conclude (alike : Alike g h) (w : Nat) (panic escape : Option Panic) :
    Option.Rel Alike (g.conclude w panic escape) (h.conclude w none none) := by
  -- what is counted and reported before the worker hears of the end is seen by nobody
  have noted {k : GuardedPool τ} (hk : k.config = g.config ∧ k.view = g.view ∧
      k.samples = g.samples) : Alike k { h with completed := h.completed + 1 } := by
    obtain ⟨config, view, samples⟩ := hk
    exact ⟨alike.config.trans config.symm, alike.view.trans view.symm, samples ▸ alike.figures⟩
  cases panic with
  | none =>
    have counted := noted (k := { g with completed := g.completed + 1 }) ⟨rfl, rfl, rfl⟩
    exact counted.onPool rfl
  | some panic =>
    have reported (r : GuardReport) :=
      noted (k := report { g with panicked := g.panicked + 1 } r) ⟨rfl, rfl, rfl⟩
    simp only [GuardedPool.conclude]
    split
    · exact (reported (.handled panic)).onPool rfl
    · exact (reported (.printed panic)).onPool rfl

/-- Both guards launch a release alike, or neither can. -/
theorem Alike.launch (alike : Alike g h) (t : Nat) (start : Bool) :
    Option.Rel Alike (g.launch t start) (h.launch t start) := by
  rw [GuardedPool.launch, GuardedPool.launch, alike.releases, alike.poolReleases]
  split
  · rename_i own bound at_t
    cases start with
    | true => exact (alike.setRelease t (.waiting g.pool.releases.length bound)).onPool rfl
    | false =>
      have inline := alike.setRelease t (.inline g.pool.releases.length)
      have reported : Alike
          (report (g.setRelease t (.inline g.pool.releases.length)) .releaseInline)
          (report (h.setRelease t (.inline g.pool.releases.length)) .releaseInline) :=
        ⟨inline.config, inline.view, inline.figures⟩
      exact reported.onPool rfl
  · exact Option.Rel.none

/-- Both guards see a release complete, or neither does. -/
theorem Alike.complete (alike : Alike g h) (t : Nat) :
    Option.Rel Alike (g.complete t) (h.complete t) := by
  rw [GuardedPool.complete, GuardedPool.complete, alike.releases, alike.poolReleases]
  split
  · split
    · exact Option.Rel.some (alike.setRelease t _)
    · exact Option.Rel.none
  · split
    · exact Option.Rel.some (alike.setRelease t _)
    · exact Option.Rel.none
  · exact Option.Rel.none

/-- Both guards see the time of a release run out, or neither does. -/
theorem Alike.elapse (alike : Alike g h) (t : Nat) :
    Option.Rel Alike (g.elapse t) (h.elapse t) := by
  rw [GuardedPool.elapse, GuardedPool.elapse, alike.releases, alike.config]
  split
  · exact Option.Rel.some (alike.setRelease t _)
  · exact Option.Rel.none

/-- A step that one of them can take the other can take, and then they are alike again. -/
theorem Alike.step (alike : Alike g h) (e : Event τ) :
    Option.Rel Alike (g.step e) (h.step e.calm) := by
  cases e with
  | submit task => exact alike.submit task
  | release own bound =>
    refine Option.Rel.some ⟨alike.config, ?_, alike.figures⟩
    simp only [GuardedPool.view, alike.pool, alike.replies, alike.releases]
  | sample =>
    refine Option.Rel.some ⟨alike.config, alike.view, ?_⟩
    simp only [List.map_append, alike.figures]
  | gauge k => exact alike.gauge k
  | move m =>
    cases m with
    | pool m => exact alike.onPool rfl
    | answer s => exact alike.answer s
    | conclude w panic escape => exact alike.conclude w panic escape
    | launch t start => exact alike.launch t start
    | complete t => exact alike.complete t
    | elapse t => exact alike.elapse t

/-! ## Two runs -/

/-- Two guards that are alike are seen alike in the course of a run. -/
theorem Alike.views_eq (alike : Alike g h) (es : List (Event τ)) :
    h.views (es.map Event.calm) = g.views es := by
  induction es generalizing g h with
  | nil =>
    rw [List.map_nil, views, views, alike.view]
  | cons e es ih =>
    have hstep := alike.step e
    rw [List.map_cons, views, views, alike.view]
    generalize g.step e = next, h.step e.calm = next' at hstep
    cases hstep with
    | some alike' => exact congrArg (g.view :: ·) (ih alike')
    | none => rfl

/-- The same task ends in both, in the one perhaps with a panic and in the other without. -/
theorem Alike.ending?_eq (alike : Alike g h) (e : Event τ) :
    h.ending? e.calm = (g.ending? e).map fun x => (x.1, none) := by
  cases e with
  | move m =>
    cases m with
    | conclude w panic escape =>
      simp only [Event.calm, ending?, runningAt?, alike.workers, Option.map_map]
      rfl
    | pool | answer | launch | complete | elapse => rfl
  | submit | release | sample | gauge => rfl

/-- The same tasks end in the course of a run, in the one perhaps with panics. -/
theorem Alike.endings_eq (alike : Alike g h) (es : List (Event τ)) :
    h.endings (es.map Event.calm) = (g.endings es).map fun x => (x.1, none) := by
  induction es generalizing g h with
  | nil => rfl
  | cons e es ih =>
    have hstep := alike.step e
    rw [List.map_cons, endings, endings, List.map_append, alike.ending?_eq, Option.toList_map]
    generalize g.step e = next, h.step e.calm = next' at hstep
    cases hstep with
    | some alike' => exact congrArg (_ ++ ·) (ih alike')
    | none => rfl

/-- Two pools of one configuration are alike when they are new, with or without a handler. -/
theorem alike_of_create {config : PoolConfig} {watched watched' : Bool}
    (hg : create config watched = .ok g) (hh : create config watched' = .ok h) : Alike g h := by
  obtain ⟨-, pool, hpool, rfl⟩ := eq_of_create hg
  obtain ⟨-, pool', hpool', rfl⟩ := eq_of_create hh
  cases hpool.symm.trans hpool'
  exact ⟨rfl, rfl, rfl⟩

/-! ## What is written down of endings -/

/-- The counters and the reports of the guard tell of these endings and of no others. -/
structure Recorded (g : GuardedPool τ) (ends : List (τ × Option Panic)) : Prop where
  completed : g.completed = ends.countP fun x => x.2.isNone
  panicked : g.panicked = ends.countP fun x => x.2.isSome
  reported : g.panicReports = (ends.filterMap Prod.snd).map (reportOf g.watched)

/-- Only a worker that runs a task can end one. -/
theorem runningAt?_of_finish {w : Nat} {escape : Option Panic} {p : Pool τ}
    (finishes : g.pool.finish w escape = some p) : ∃ task, g.runningAt? w = some task := by
  rw [Pool.finish] at finishes
  split at finishes
  · rename_i task at_w
    refine ⟨task, ?_⟩
    rw [runningAt?, at_w]
  · cases finishes

/-- The record stays complete in a step that ends no task and counts none. -/
theorem Recorded.same (h : g.Recorded ends) (silent : g.ending? e = none)
    (hcompleted : g'.completed = g.completed) (hpanicked : g'.panicked = g.panicked)
    (hreports : g'.panicReports = g.panicReports) (hwatched : g'.watched = g.watched) :
    g'.Recorded (ends ++ (g.ending? e).toList) := by
  rw [silent, Option.toList_none, List.append_nil]
  refine ⟨?_, ?_, ?_⟩
  · rw [hcompleted, h.completed]
  · rw [hpanicked, h.panicked]
  · rw [hreports, hwatched, h.reported]

/-- A step in which a task ends is recorded by one counter and at most one report, and no other step
is recorded. -/
theorem Recorded.change (h : g.Recorded ends) (hc : Change g e g') :
    g'.Recorded (ends ++ (g.ending? e).toList) := by
  cases hc with
  | returns w escape p finishes =>
    obtain ⟨task, running⟩ := runningAt?_of_finish finishes
    rw [ending?, running]
    refine ⟨?_, ?_, ?_⟩
    · simpa using h.completed
    · simpa using h.panicked
    · simpa [panicReports] using h.reported
  | panics w panic escape p finishes =>
    obtain ⟨task, running⟩ := runningAt?_of_finish finishes
    have is_panic : (reportOf g.watched panic).isOfPanic = true := by
      rw [reportOf]
      split <;> rfl
    rw [ending?, running]
    refine ⟨?_, ?_, ?_⟩
    · simpa using h.completed
    · simpa using h.panicked
    · have reported := h.reported
      rw [panicReports] at reported
      show (g.journal ++ [reportOf g.watched panic]).filter GuardReport.isOfPanic = _
      rw [List.filter_append, reported, List.filter_cons_of_pos is_panic]
      simp
  | launchInline t own bound at_t =>
    refine h.same rfl rfl rfl ?_ rfl
    simp [panicReports, GuardReport.isOfPanic]
  | answer s fault =>
    rcases fault with _ | fault
    · exact h.same rfl rfl rfl rfl rfl
    · cases fault <;> exact h.same rfl rfl rfl rfl rfl
  | submit | release | sample | gauge | pool | launch | complete | elapse =>
    exact h.same rfl rfl rfl rfl rfl

/-- The record stays complete in the course of a run. -/
theorem Recorded.run (h : g.Recorded ends) (hrun : g.run es = some g') :
    g'.Recorded (ends ++ g.endings es) := by
  induction es generalizing g ends with
  | nil =>
    rw [run_nil hrun, endings, List.append_nil]
    exact h
  | cons e es ih =>
    obtain ⟨m, hm, hrun⟩ := run_cons hrun
    rw [endings, hm, Option.elim_some, ← List.append_assoc]
    exact ih (h.change (change_of_step hm)) hrun

/-- The configuration and the handler of a guard never change. -/
theorem settings_of_run (hrun : g.run es = some g') :
    g'.config = g.config ∧ g'.watched = g.watched := by
  induction es generalizing g with
  | nil =>
    rw [run_nil hrun]
    exact ⟨rfl, rfl⟩
  | cons e es ih =>
    obtain ⟨m, hm, hrun⟩ := run_cons hrun
    obtain ⟨config, watched⟩ := (change_of_step hm).settings_eq
    rw [← config, ← watched]
    exact ih hrun

/-- Every end of a task in a run is the end of a task that some worker runs. -/
theorem outcomes_of_run (hrun : g.run es = some g') :
    (g.endings es).map Prod.snd = es.filterMap Event.outcome? := by
  induction es generalizing g with
  | nil => rfl
  | cons e es ih =>
    obtain ⟨m, hm, hrun⟩ := run_cons hrun
    have first : (g.ending? e).map Prod.snd = e.outcome? := by
      cases change_of_step hm with
      | returns w escape p finishes | panics w panic escape p finishes =>
        obtain ⟨task, running⟩ := runningAt?_of_finish finishes
        rw [ending?, running]
        rfl
      | _ => rfl
    rw [endings, hm, Option.elim_some, List.map_append, ← Option.toList_map, first, ih hrun,
      List.filterMap_cons]
    cases e.outcome? <;> rfl

/-- A new guard has recorded nothing. -/
theorem recorded_of_create {config : PoolConfig} {watched : Bool}
    (hcreate : create config watched = .ok g) :
    g.config.name = config.name ∧ g.watched = watched ∧ g.Recorded [] := by
  obtain ⟨-, pool, -, rfl⟩ := eq_of_create hcreate
  refine ⟨rfl, rfl, rfl, rfl, ?_⟩
  rw [panicReports, List.filter_map]
  simp [Function.comp_def, GuardReport.isOfPanic]

/-- What is written when a task of the pool of this name panics. -/
def panicOutput (pool : String) (handler : Option PanicHandler) (panic : Panic) : List Output :=
  match handler with
  | some h => h.outputs pool (some panic)
  | none =>
    [.text .err ("[EXECUTOR PANIC] pool=" ++ pool ++ " panic=" ++ Panic.describe (some panic) ++
      "\n")]

/-- What is written for a report of a panic is what the handler writes, or the line that stands in
for it. -/
theorem outputs_reportOf (pool : String) (handler : Option PanicHandler) (panic : Panic) :
    (reportOf handler.isSome panic).outputs pool handler = panicOutput pool handler panic := by
  cases handler <;> rfl

/-- **Containment of panics.**  However tasks end, and whatever a handler throws when it is told, a
guarded pool passes through the same views as in the run in which the same tasks return: the same
queue, slots, idle and live workers, blocked submitters, answers and releases.  Each task that
panics is counted once as such and each that returns once as completed, and each panic is reported
once, in this order: to the handler, with the name of the pool, or on the error channel if there is
no handler. -/
theorem panics_contained {config : PoolConfig} {handler handler' : Option PanicHandler}
    {h : GuardedPool τ} (hcreate : create config handler.isSome = .ok g)
    (hcreate' : create config handler'.isSome = .ok h) (es : List (Event τ)) :
    h.views (es.map Event.calm) = g.views es ∧
    h.endings (es.map Event.calm) = (g.endings es).map (fun x => (x.1, none)) ∧
    ∀ g', g.run es = some g' →
      (g.endings es).map Prod.snd = es.filterMap Event.outcome? ∧
      g'.completed = (g.endings es).countP (fun x => x.2.isNone) ∧
      g'.panicked = (g.endings es).countP (fun x => x.2.isSome) ∧
      g'.panicReports = ((g.endings es).filterMap Prod.snd).map (reportOf handler.isSome) ∧
      g'.panicOutputs handler
        = ((g.endings es).filterMap Prod.snd).flatMap (panicOutput config.name handler) := by
  have alike : Alike g h := alike_of_create hcreate hcreate'
  refine ⟨alike.views_eq es, alike.endings_eq es, fun g' hrun => ?_⟩
  obtain ⟨name, watched, recorded⟩ := recorded_of_create hcreate
  obtain ⟨config', watched'⟩ := settings_of_run hrun
  have recorded' := recorded.run hrun
  rw [List.nil_append] at recorded'
  have reported := recorded'.reported
  rw [watched', watched] at reported
  refine ⟨outcomes_of_run hrun, recorded'.completed, recorded'.panicked, reported, ?_⟩
  rw [panicOutputs, reported, config', name, List.flatMap_map]
  exact List.flatMap_congr fun panic _ => outputs_reportOf config.name handler panic

end

/-- A handler that writes a line and throws. -/
def throwingHandler : PanicHandler where
  outputs pool panic := [.text .err (pool ++ ": " ++ Panic.describe panic)]
  escape _ _ := some .unknown

/-- A pool with one worker runs task 7, which panics, and then task 8, which returns. -/
def panicThenReturn : List (Event Nat) :=
  [.submit (some 7), .move (.pool (.enter 0 true none)), .move (.pool (.announce 0 none)),
    .move (.answer 0), .move (.pool (.look 0 false)),
    .move (.conclude 0 (some (.error "boom")) (some .unknown)),
    .move (.pool (.giveBack 0 none)), .submit (some 8), .move (.pool (.enter 1 true none)),
    .move (.pool (.announce 1 (some 0))), .move (.answer 1), .move (.pool (.look 0 false)),
    .move (.conclude 0 none none), .move (.pool (.giveBack 0 none))]

/-- The worker of the task that panicked runs the next task, as it does after a task that
returned. -/
theorem panic_contained_then_return :
    ∃ g h g' : GuardedPool Nat,
      create { name := "io", size := 1 } (some throwingHandler).isSome = .ok g ∧
      create { name := "io", size := 1 } (none : Option PanicHandler).isSome = .ok h ∧
      g.run panicThenReturn = some g' ∧
      h.views (panicThenReturn.map Event.calm) = g.views panicThenReturn ∧
      (g.views panicThenReturn).length = panicThenReturn.length + 1 ∧
      g'.completed = 1 ∧ g'.panicked = 1 ∧
      g'.panicOutputs (some throwingHandler) = [.text .err "io: boom"] := by
  obtain ⟨g, h, g', hg, hh, hrun, hlength, hends⟩ : ∃ g h g' : GuardedPool Nat,
      create { name := "io", size := 1 } (some throwingHandler).isSome = .ok g ∧
      create { name := "io", size := 1 } (none : Option PanicHandler).isSome = .ok h ∧
      g.run panicThenReturn = some g' ∧
      (g.views panicThenReturn).length = panicThenReturn.length + 1 ∧
      g.endings panicThenReturn = [(7, some (.error "boom")), (8, none)] :=
    ⟨_, _, _, rfl, rfl, rfl, rfl, rfl⟩
  obtain ⟨hviews, -, hfigures⟩ := panics_contained hg hh panicThenReturn
  obtain ⟨-, hcompleted, hpanicked, -, houtputs⟩ := hfigures g' hrun
  rw [hends] at hcompleted hpanicked houtputs
  exact ⟨g, h, g', hg, hh, hrun, hviews, hlength, hcompleted, hpanicked, houtputs⟩

end GuardedPool

end TaskPools
