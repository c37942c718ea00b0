/-
# A pool does not look at what it carries

A pool moves tasks from place to place and writes down what escapes from them, and no step asks
what a task is or what escaped.  So a pool takes the same steps with other tasks in their places and
with other escapes in its journal (`step_map`).
-/
import TaskPools.Pool.Step

namespace TaskPools

variable {α β γ : Type}

/-- The worker with another task. -/
def Worker.map (f : α → β) : Worker α → Worker β
  | .starting => .starting
  | .parked => .parked
  | .woken => .woken
  | .running task => .running (f task)
  | .ended task => .ended (f task)
  | .exited => .exited
  | .unstarted => .unstarted

/-- The submission with another task. -/
def Submission.map (f : α → β) : Submission α → Submission β
  | .reaping task handles => .reaping (f task) handles
  | .entering task => .entering (f task)
  | .parked task => .parked (f task)
  | .woken task told => .woken (f task) told
  | .announcing => .announcing
  | .returned fault => .returned fault

/-- The report with another task, and with another escape. -/
def Report.map (f : α → β) (h : Option Panic → Option Panic) : Report α → Report β
  | .opened => .opened
  | .accepted task => .accepted (f task)
  | .startFailed => .startFailed
  | .taken worker task => .taken worker (f task)
  | .ended worker task escape => .ended worker (f task) (h escape)
  | .expired worker => .expired worker
  | .released => .released

theorem Worker.map_id (x : Worker α) : x.map id = x := by cases x <;> rfl

theorem Submission.map_id (x : Submission α) : x.map id = x := by cases x <;> rfl

/-- Two renamings of the task of a worker are one. -/
theorem Worker.map_map (f : α → β) (f' : β → γ) (x : Worker α) :
    (x.map f).map f' = x.map (f' ∘ f) := by cases x <;> rfl

/-- Two renamings of the task of a submission are one. -/
theorem Submission.map_map (f : α → β) (f' : β → γ) (x : Submission α) :
    (x.map f).map f' = x.map (f' ∘ f) := by cases x <;> rfl

/-- Two renamings of what a report says are one. -/
theorem Report.map_map (f : α → β) (f' : β → γ) (h h' : Option Panic → Option Panic)
    (x : Report α) : (x.map f h).map f' h' = x.map (f' ∘ f) (h' ∘ h) := by cases x <;> rfl

namespace Pool

/-- The event with another task, and with another escape. -/
def Event.map (f : α → β) (h : Option Panic → Option Panic) : Event α → Event β
  | .submit task => .submit (task.map f)
  | .finish w escape => .finish w (h escape)
  | .release own => .release own
  | .move m => .move m

/-- The pool with other tasks in their places, and with other escapes in its journal. -/
def map (f : α → β) (h : Option Panic → Option Panic) (p : Pool α) : Pool β where
  name := p.name
  capacity := p.capacity
  expiry := p.expiry
  nonBlocking := p.nonBlocking
  queue := p.queue.map f
  inFlight := p.inFlight
  idle := p.idle
  waiting := p.waiting
  closed := p.closed
  workers := p.workers.map (Worker.map f)
  listed := p.listed
  retired := p.retired
  joined := p.joined
  submissions := p.submissions.map (Submission.map f)
  releases := p.releases
  journal := p.journal.map (Report.map f h)

section

variable (f : α → β) (h : Option Panic → Option Panic) (p : Pool α)

/-- Two renamings of what a pool carries are one. -/
theorem map_map (f' : β → γ) (h' : Option Panic → Option Panic) :
    (p.map f h).map f' h' = p.map (f' ∘ f) (h' ∘ h) := by
  have workers : Worker.map f' ∘ Worker.map f = Worker.map (f' ∘ f) :=
    funext (Worker.map_map f f')
  have submissions : Submission.map f' ∘ Submission.map f = Submission.map (f' ∘ f) :=
    funext (Submission.map_map f f')
  have reports : Report.map f' h' ∘ Report.map f h = Report.map (f' ∘ f) (h' ∘ h) :=
    funext (Report.map_map f f' h h')
  simp only [map, List.map_map, workers, submissions, reports]

/-! ## Small changes -/

/-- The submissions keep their numbers. -/
theorem getElem?_submissions_map (s : Nat) :
    (p.map f h).submissions[s]? = (p.submissions[s]?).map (Submission.map f) :=
  List.getElem?_map

/-- The workers keep their numbers. -/
theorem getElem?_workers_map (w : Nat) :
    (p.map f h).workers[w]? = (p.workers[w]?).map (Worker.map f) :=
  List.getElem?_map

/-- Putting a submission to another place and renaming may be exchanged. -/
theorem setSubmission_map (s : Nat) (place : Submission α) :
    (p.map f h).setSubmission s (place.map f) = (p.setSubmission s place).map f h := by
  simp only [setSubmission, map, List.map_set]

/-- Putting a worker to another place and renaming may be exchanged. -/
theorem setWorker_map (w : Nat) (place : Worker α) :
    (p.map f h).setWorker w (place.map f) = (p.setWorker w place).map f h := by
  simp only [setWorker, map, List.map_set]

/-- What is renamed and then reported has the renamed report. -/
theorem report_map (r : Report α) :
    (p.map f h).report (r.map f h) = (p.report r).map f h := by
  simp only [report, map, List.map_append, List.map_cons, List.map_nil]

/-- Whether a worker has left does not depend on its task. -/
theorem hasExited_map (w : Nat) : (p.map f h).hasExited w = p.hasExited w := by
  rw [hasExited, hasExited, getElem?_workers_map]
  rcases p.workers[w]? with _ | place
  · rfl
  · cases place <;> rfl

/-! ## Notifications -/

/-- The same submitter is notified, whatever the tasks are. -/
theorem alertSubmitter_map (alert : Option Nat) :
    (p.map f h).alertSubmitter alert = (p.alertSubmitter alert).map (map f h) := by
  cases alert with
  | none =>
    have asleep : (p.map f h).submissions.any Submission.isParked
        = p.submissions.any Submission.isParked := by
      rw [map, List.any_map]
      congr 1
      funext x
      cases x <;> rfl
    rw [alertSubmitter, alertSubmitter, asleep, apply_ite (Option.map (map f h))]
    rfl
  | some s =>
    rw [alertSubmitter, alertSubmitter, getElem?_submissions_map]
    rcases p.submissions[s]? with _ | place
    · rfl
    · cases place with
      | parked task => exact congrArg some (setSubmission_map f h p s (.woken task true))
      | reaping | entering | woken | announcing | returned => rfl

/-- The same worker is notified, whatever the tasks are. -/
theorem alertWorker_map (alert : Option Nat) :
    (p.map f h).alertWorker alert = (p.alertWorker alert).map (map f h) := by
  cases alert with
  | none =>
    have asleep : (p.map f h).workers.any Worker.isParked = p.workers.any Worker.isParked := by
      rw [map, List.any_map]
      congr 1
      funext x
      cases x <;> rfl
    rw [alertWorker, alertWorker, asleep, apply_ite (Option.map (map f h))]
    rfl
  | some w =>
    rw [alertWorker, alertWorker, getElem?_workers_map]
    rcases p.workers[w]? with _ | place
    · rfl
    · cases place with
      | parked => exact congrArg some (setWorker_map f h p w .woken)
      | starting | woken | running | ended | exited | unstarted => rfl

/-! ## Submissions -/

/-- An empty task stays empty, and any other is submitted under its other name. -/
theorem submit_map (task : Option α) :
    (p.map f h).submit (task.map f) = (p.submit task).map f h := by
  cases task with
  | none => simp only [submit, map, Option.map_none, List.map_append, List.map_cons, List.map_nil,
      Submission.map]
  | some task =>
    obtain ⟨⟩ := p
    rename_i retired _ _ _ _
    cases retired <;>
      simp only [submit, map, Option.map_some, List.map_append, List.map_cons, List.map_nil,
        Submission.map]

/-- Which handles a submission joins first does not depend on the tasks. -/
theorem reap_map (s : Nat) : (p.map f h).reap s = (p.reap s).map (map f h) := by
  rw [reap, reap, getElem?_submissions_map]
  rcases p.submissions[s]? with _ | place
  · rfl
  · cases place with
    | reaping task handles =>
      cases handles with
      | nil => exact congrArg some (setSubmission_map f h p s (.entering task))
      | cons w rest =>
        let place : Submission α := if rest = [] then .entering task else .reaping task rest
        have moved := setSubmission_map f h p s place
        have asked : place.map f
            = if rest = [] then .entering (f task) else .reaping (f task) rest :=
          apply_ite (Submission.map f) _ _ _
        simp only [Option.map_some, Submission.map, hasExited_map]
        rw [apply_ite (Option.map (map f h)), ← asked, moved]
        rfl
    | entering | parked | woken | announcing | returned => rfl

theorem enqueue_map (task : α) : (p.map f h).enqueue (f task) = (p.enqueue task).map f h := by
  simp only [enqueue, map, List.map_append, List.map_cons, List.map_nil]

theorem hire_map : (p.map f h).hire = p.hire.map f h := by
  simp only [hire, map, List.map_append, List.map_cons, List.map_nil, List.length_map, Worker.map]

theorem rollBack_map (w : Nat) : (p.map f h).rollBack w = (p.rollBack w).map f h := by
  simp only [rollBack, map, List.map_set, List.map_dropLast, Worker.map]

theorem accept_map (s : Nat) (task : α) :
    (p.map f h).accept s (f task) = (p.accept s task).map f h := by
  rw [accept, accept, ← report_map, ← setSubmission_map]
  rfl

/-- A slot is granted, and a worker started or not, whatever the tasks are. -/
theorem grantSlot_map (s : Nat) (task : α) (start : Bool) (alert : Option Nat) :
    (p.map f h).grantSlot s (f task) start alert
      = (p.grantSlot s task start alert).map (map f h) := by
  let rolledBack := (p.enqueue task).hire.rollBack (p.enqueue task).workers.length
  have rolled : ((p.enqueue task).map f h).hire.rollBack
      ((p.enqueue task).map f h).workers.length = rolledBack.map f h := by
    have length : ((p.enqueue task).map f h).workers.length = (p.enqueue task).workers.length :=
      List.length_map _
    rw [hire_map, rollBack_map, length]
  have queued : ((p.enqueue task).map f h).queue.length = (p.enqueue task).queue.length :=
    List.length_map _
  simp only [grantSlot, enqueue_map]
  rw [rolled, alertSubmitter_map f h rolledBack alert, queued, accept_map, hire_map, accept_map,
    apply_ite (Option.map (map f h)), apply_ite (Option.map (map f h))]
  congr 1
  congr 1
  show Option.bind _ _ = Option.map (map f h) (Option.bind (rolledBack.alertSubmitter alert) _)
  cases rolledBack.alertSubmitter alert with
  | none => rfl
  | some q =>
    have undone := setSubmission_map f h q s (.returned (some (.startFailed q.name)))
    have reported := report_map f h (q.setSubmission s (.returned (some (.startFailed q.name))))
      .startFailed
    rw [← undone] at reported
    exact congrArg some reported

theorem refuse_map (s : Nat) (fault : Fault) :
    (p.map f h).refuse s fault = (p.refuse s fault).map f h :=
  setSubmission_map f h p s (.returned (some fault))

/-- A submission finds the pool full, closed or free, whatever the tasks are. -/
theorem enter_map (s : Nat) (start : Bool) (alert : Option Nat) :
    (p.map f h).enter s start alert = (p.enter s start alert).map (map f h) := by
  rw [enter, enter, getElem?_submissions_map]
  rcases p.submissions[s]? with _ | place
  · rfl
  · cases place with
    | entering task =>
      have parked := setSubmission_map f h p s (.parked task)
      simp only [Option.map_some, Submission.map]
      rw [grantSlot_map, apply_ite (Option.map (map f h)), apply_ite (Option.map (map f h)),
        apply_ite (Option.map (map f h)), Option.map_some, ← refuse_map, Option.map_some,
        ← refuse_map]
      congr 2
      congr 1
      exact congrArg (fun q => some { q with waiting := p.waiting + 1 }) parked
    | reaping | parked | woken | announcing | returned => rfl

/-- A submission that was asleep finds the same when it wakes up. -/
theorem resume_map (s : Nat) (start : Bool) (alert : Option Nat) :
    (p.map f h).resume s start alert = (p.resume s start alert).map (map f h) := by
  rw [resume, resume, getElem?_submissions_map]
  rcases p.submissions[s]? with _ | place
  · rfl
  · cases place with
    | woken task told =>
      let counted : Pool α := { p with waiting := p.waiting - 1 }
      have refused := refuse_map f h counted s (.poolClosed p.name)
      have granted := grantSlot_map f h counted s task start alert
      have parked := setSubmission_map f h p s (.parked task)
      simp only [Option.map_some, Submission.map]
      rw [apply_ite (Option.map (map f h)), apply_ite (Option.map (map f h)), Option.map_some,
        ← refused, ← granted, Option.map_some, ← parked]
      rfl
    | reaping | entering | parked | announcing | returned => rfl

theorem stirSubmitter_map (s : Nat) :
    (p.map f h).stirSubmitter s = (p.stirSubmitter s).map (map f h) := by
  rw [stirSubmitter, stirSubmitter, getElem?_submissions_map]
  rcases p.submissions[s]? with _ | place
  · rfl
  · cases place with
    | parked task => exact congrArg some (setSubmission_map f h p s (.woken task false))
    | reaping | entering | woken | announcing | returned => rfl

/-- An accepted task is announced to the same worker. -/
theorem announce_map (s : Nat) (alert : Option Nat) :
    (p.map f h).announce s alert = (p.announce s alert).map (map f h) := by
  rw [announce, announce, getElem?_submissions_map]
  rcases p.submissions[s]? with _ | place
  · rfl
  · cases place with
    | announcing =>
      have told := alertWorker_map f h (p.setSubmission s (.returned none)) alert
      rw [← setSubmission_map] at told
      exact told
    | reaping | entering | parked | woken | returned => rfl

/-! ## Workers -/

/-- A worker that looks at the queue takes the first task, leaves or goes to sleep, whatever the
tasks are. -/
theorem examine_map (w : Nat) (late : Bool) :
    (p.map f h).examine w late = (p.examine w late).map f h := by
  have queue_map : (p.map f h).queue = p.queue.map f := rfl
  rw [examine, examine, queue_map]
  cases p.queue with
  | nil =>
    simp only [List.map_nil]
    rw [apply_ite (map f h), apply_ite (map f h), ← report_map, apply_ite (map f h)]
    simp only [setWorker, map, List.map_set]
    rfl
  | cons task rest =>
    simp only [List.map_cons]
    rw [← report_map]
    simp only [setWorker, map, List.map_set]
    rfl

/-- A worker looks at the queue at the same moments. -/
theorem look_map (w : Nat) (late : Bool) :
    (p.map f h).look w late = (p.look w late).map (map f h) := by
  simp only [look, getElem?_workers_map, examine_map]
  rcases p.workers[w]? with _ | place
  · rfl
  · cases place with
    | starting => cases late <;> rfl
    | parked | woken | running | ended | exited | unstarted => rfl

theorem stirWorker_map (w : Nat) :
    (p.map f h).stirWorker w = (p.stirWorker w).map (map f h) := by
  rw [stirWorker, stirWorker, getElem?_workers_map]
  rcases p.workers[w]? with _ | place
  · rfl
  · cases place with
    | parked => exact congrArg some (setWorker_map f h p w .woken)
    | starting | woken | running | ended | exited | unstarted => rfl

/-- A task ends, with whatever escapes from it, in the same way. -/
theorem finish_map (w : Nat) (escape : Option Panic) :
    (p.map f h).finish w (h escape) = (p.finish w escape).map (map f h) := by
  rw [finish, finish, getElem?_workers_map]
  rcases p.workers[w]? with _ | place
  · rfl
  · cases place with
    | running task =>
      have reported := report_map f h (p.setWorker w (.ended task)) (.ended w task escape)
      rw [← setWorker_map] at reported
      exact congrArg some reported
    | starting | parked | woken | ended | exited | unstarted => rfl

/-- A worker gives its slot back and notifies the same submitter. -/
theorem giveBack_map (w : Nat) (alert : Option Nat) :
    (p.map f h).giveBack w alert = (p.giveBack w alert).map (map f h) := by
  let freed : Pool α := { p with inFlight := p.inFlight - 1, idle := p.idle + 1 }
  have told := alertSubmitter_map f h freed alert
  rw [giveBack, giveBack, getElem?_workers_map]
  rcases p.workers[w]? with _ | place
  · rfl
  · cases place with
    | ended task =>
      show Option.bind ((freed.map f h).alertSubmitter alert) _
        = Option.map (map f h) (Option.bind (freed.alertSubmitter alert) _)
      rw [told]
      cases freed.alertSubmitter alert with
      | none => rfl
      | some q => exact congrArg some (examine_map f h q w false)
    | starting | parked | woken | running | exited | unstarted => rfl

/-! ## Releases -/

/-- A pool is closed, and gives the same handles up. -/
theorem close_map (r : Nat) : (p.map f h).close r = (p.close r).map (map f h) := by
  have same : (p.map f h).releases = p.releases := rfl
  rw [close, close, same]
  rcases p.releases[r]? with _ | place
  · rfl
  · cases place <;> rfl

/-- Waking the workers and renaming may be exchanged. -/
theorem wake_map : ((p.map f h).workers.map wake) = (p.workers.map wake).map (Worker.map f) := by
  rw [map, List.map_map, List.map_map]
  congr 1
  funext x
  cases x <;> rfl

/-- Waking the submitters and renaming may be exchanged. -/
theorem wakeSubmitter_map : ((p.map f h).submissions.map wakeSubmitter)
    = (p.submissions.map wakeSubmitter).map (Submission.map f) := by
  rw [map, List.map_map, List.map_map]
  congr 1
  funext x
  cases x <;> rfl

/-- A release wakes the same workers. -/
theorem alertWorkers_map (r : Nat) :
    (p.map f h).alertWorkers r = (p.alertWorkers r).map (map f h) := by
  have same : (p.map f h).releases = p.releases := rfl
  rw [alertWorkers, alertWorkers, same, wake_map]
  rcases p.releases[r]? with _ | place
  · rfl
  · cases place <;> rfl

/-- A release wakes the same submitters. -/
theorem alertSubmitters_map (r : Nat) :
    (p.map f h).alertSubmitters r = (p.alertSubmitters r).map (map f h) := by
  have same : (p.map f h).releases = p.releases := rfl
  rw [alertSubmitters, alertSubmitters, same, wakeSubmitter_map]
  rcases p.releases[r]? with _ | place
  · rfl
  · cases place <;> rfl

/-- A release joins the same handles, and lets go of the same one of its own. -/
theorem join_map (r : Nat) : (p.map f h).join r = (p.join r).map (map f h) := by
  have same : (p.map f h).releases = p.releases := rfl
  rw [join, join, same]
  rcases p.releases[r]? with _ | place
  · rfl
  · cases place with
    | joining own handles =>
      cases handles with
      | nil => rfl
      | cons w rest =>
        let gone : Pool α := { p with joined := p.joined ++ [w] }
        have last := report_map f h (gone.setRelease r .returned) .released
        simp only [hasExited_map]
        rw [apply_ite (Option.map (map f h)), apply_ite (Option.map (map f h))]
        congr 1
        congr 1
        exact congrArg some last
    | called | closed | alerting | returned => rfl

/-! ## All steps -/

/-- Whatever a pool does of itself, it does with other tasks as well. -/
theorem move_map (m : Move) : (p.map f h).move m = (p.move m).map (map f h) := by
  cases m with
  | reap s => exact reap_map f h p s
  | enter s start alert => exact enter_map f h p s start alert
  | resume s start alert => exact resume_map f h p s start alert
  | stirSubmitter s => exact stirSubmitter_map f h p s
  | announce s alert => exact announce_map f h p s alert
  | stirWorker w => exact stirWorker_map f h p w
  | look w late => exact look_map f h p w late
  | giveBack w alert => exact giveBack_map f h p w alert
  | close r => exact close_map f h p r
  | alertWorkers r => exact alertWorkers_map f h p r
  | alertSubmitters r => exact alertSubmitters_map f h p r
  | join r => exact join_map f h p r

/-- A pool takes the same steps whatever tasks it carries and whatever escapes into it. -/
theorem step_map (e : Event α) : (p.map f h).step (e.map f h) = (p.step e).map (map f h) := by
  cases e with
  | submit task => exact congrArg some (submit_map f h p task)
  | finish w escape => exact finish_map f h p w escape
  | release own => rfl
  | move m => exact move_map f h p m

end

end Pool

end TaskPools
