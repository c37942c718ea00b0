/-
# What the journal of a pool tells

The journal says which tasks were accepted, which were taken by a worker and which have ended.  It
agrees with the queue: the accepted tasks are those taken, in the order in which they were taken,
followed by those in the queue.  And it agrees with the workers: a task was taken as often as it has
ended and is running now.  A task ends when its worker is done with it, and by no other step
(`ended_of_finish`, `ended_of_move`).
-/
import TaskPools.Proofs.Pool.Accounting

namespace TaskPools

variable {τ : Type}

namespace Report

/-- The task that a report says was accepted. -/
def accepted? : Report τ → Option τ
  | accepted task => some task
  | _ => none

/-- The task that a report says was taken. -/
def taken? : Report τ → Option τ
  | taken _ task => some task
  | _ => none

/-- The task that a report says has ended. -/
def ended? : Report τ → Option τ
  | ended _ task _ => some task
  | _ => none

end Report

/-- Runs a task of the kind `f`. -/
def Worker.runs (f : τ → Bool) : Worker τ → Bool
  | running task => f task
  | _ => false

namespace Pool

/-- The tasks that the pool accepted, in this order. -/
def accepted (p : Pool τ) : List τ := p.journal.filterMap Report.accepted?

/-- The tasks that workers took from the queue, in this order. -/
def taken (p : Pool τ) : List τ := p.journal.filterMap Report.taken?

/-- The tasks that have ended, in this order. -/
def ended (p : Pool τ) : List τ := p.journal.filterMap Report.ended?

/-- The number of workers that run a task of the kind `f`. -/
def runningCount (p : Pool τ) (f : τ → Bool) : Nat := p.workers.countP (Worker.runs f)

section

variable {p q : Pool τ} {c d : Cause} {e : Event τ} {r : Report τ} {w : Nat}

/-- One report more adds the acceptance of which it tells, if it tells of one. -/
theorem accepted_append (hq : q.journal = p.journal ++ [r]) :
    q.accepted = p.accepted ++ r.accepted?.toList := by
  rw [accepted, hq, List.filterMap_append]
  cases r <;> rfl

/-- One report more adds the start of which it tells, if it tells of one. -/
theorem taken_append (hq : q.journal = p.journal ++ [r]) :
    q.taken = p.taken ++ r.taken?.toList := by
  rw [taken, hq, List.filterMap_append]
  cases r <;> rfl

/-- One report more adds the end of which it tells, if it tells of one. -/
theorem ended_append (hq : q.journal = p.journal ++ [r]) :
    q.ended = p.ended ++ r.ended?.toList := by
  rw [ended, hq, List.filterMap_append]
  cases r <;> rfl

/-! ## Growth -/

/-- No change takes a report back. -/
theorem Change.journal_prefix (hc : Change p c q) : p.journal <+: q.journal := by
  cases hc with
  | accept | acceptStarting | failStart | take | expire | finish => exact List.prefix_append _ _
  | join r own w rest =>
    show p.journal <+: if rest = [] then p.journal ++ [.released] else p.journal
    split
    · exact List.prefix_append _ _
    · exact List.prefix_rfl
  | _ => exact List.prefix_rfl

/-- No step takes a report back. -/
theorem journal_prefix_of_step (hstep : p.step e = some q) : p.journal <+: q.journal := by
  rcases change_of_step hstep with ⟨c, hc⟩ | ⟨m, hm, hc⟩
  · exact hc.journal_prefix
  · exact hm.journal_prefix.trans hc.journal_prefix

/-! ## First in, first out -/

/-- The accepted tasks are the taken ones, followed by the queue. -/
def InOrder (p : Pool τ) : Prop :=
  p.accepted = p.taken ++ p.queue

/-- A report that is neither of an acceptance nor of a worker that takes a task. -/
theorem InOrder.report (h : p.InOrder) (hq : q.journal = p.journal ++ [r])
    (hqueue : q.queue = p.queue) (haccepted : r.accepted? = none) (htaken : r.taken? = none) :
    q.InOrder := by
  rw [InOrder] at h
  rw [InOrder, accepted_append hq, taken_append hq, haccepted, htaken, hqueue, h]
  simp

/-- A task that is accepted goes to the end of the queue and of the accepted tasks. -/
theorem InOrder.accept (h : p.InOrder) {task : τ}
    (hq : q.journal = p.journal ++ [.accepted task]) (hqueue : q.queue = p.queue ++ [task]) :
    q.InOrder := by
  rw [InOrder] at h
  rw [InOrder, accepted_append hq, taken_append hq, hqueue, h]
  simp [Report.accepted?, Report.taken?]

/-- A task that is taken leaves the front of the queue for the end of the taken tasks. -/
theorem InOrder.take (h : p.InOrder) {w : Nat} {task : τ} {rest : List τ}
    (queue_eq : p.queue = task :: rest) (hq : q.journal = p.journal ++ [.taken w task])
    (hqueue : q.queue = rest) : q.InOrder := by
  rw [InOrder, queue_eq] at h
  rw [InOrder, accepted_append hq, taken_append hq, hqueue, h]
  simp [Report.accepted?, Report.taken?]

/-- In every step the tasks keep their order. -/
theorem InOrder.change (h : p.InOrder) {c : Cause} (hc : Change p c q) : q.InOrder := by
  cases hc with
  | accept | acceptStarting => exact h.accept rfl rfl
  | take w x task rest at_w awake queue_eq => exact h.take queue_eq rfl rfl
  | failStart | expire | finish => exact h.report rfl rfl rfl rfl
  | join r own w rest =>
    by_cases last : rest = []
    · exact h.report (if_pos last) rfl rfl rfl
    · simp only [if_neg last]
      exact h
  | refuseEmpty | arrive | arriveReaping | reapNone | reap | refuseClosed | refuseFull | block
  | sleepOn | stirSubmitter | announce | stirWorker | leave | park | giveBack | callRelease
  | close | alertWorkers | alertSubmitters => exact h

/-- The accepted tasks of a pool are the taken ones, followed by the queue. -/
theorem Arises.inOrder (h : p.Arises) : p.InOrder := by
  induction h with
  | create hc =>
    obtain ⟨-, -, rfl⟩ := eq_of_create hc
    rfl
  | change _ hc ih => exact ih.change hc

/-! ## Tasks under way -/

/-- Whatever kind of tasks one looks at, as many were taken as have ended and are running. -/
def Traced (p : Pool τ) : Prop :=
  ∀ f : τ → Bool, p.taken.countP f = p.ended.countP f + p.runningCount f

/-- Neither a task nor a worker that runs one is concerned. -/
theorem Traced.report (h : p.Traced) (hq : q.journal = p.journal ++ [r])
    (hrunning : ∀ f, q.runningCount f = p.runningCount f) (htaken : r.taken? = none)
    (hended : r.ended? = none) : q.Traced := by
  intro f
  rw [taken_append hq, ended_append hq, htaken, hended, hrunning]
  simpa using h f

/-- The trace stays where nothing is reported and the same tasks run. -/
theorem Traced.same (h : p.Traced) (hq : q.journal = p.journal)
    (hrunning : ∀ f, q.runningCount f = p.runningCount f) : q.Traced := by
  intro f
  rw [taken, ended, hq, hrunning]
  exact h f

/-- A worker that goes to another place changes the count by its own task. -/
theorem runningCount_of_set {w : Nat} {x y : Worker τ} (f : τ → Bool)
    (at_w : p.workers[w]? = some x) (hq : q.workers = p.workers.set w y) :
    q.runningCount f + (x.runs f).toNat = p.runningCount f + (y.runs f).toNat := by
  rw [runningCount, hq]
  exact countP_set_add _ at_w y

/-- A worker that is awake runs no task. -/
theorem runs_of_isAwake {x : Worker τ} (h : x.isAwake = true) (f : τ → Bool) :
    x.runs f = false := by
  cases x <;> first | rfl | cases h

/-- A new worker runs no task yet. -/
theorem runningCount_append (f : τ → Bool) (x : Worker τ) (hx : x.runs f = false)
    (hq : q.workers = p.workers ++ [x]) : q.runningCount f = p.runningCount f := by
  rw [runningCount, hq, List.countP_append, List.countP_singleton, hx]
  rfl

/-- A worker that runs nothing changes its place and still runs nothing. -/
theorem runningCount_shift {w : Nat} {x y : Worker τ} (f : τ → Bool)
    (at_w : p.workers[w]? = some x) (hq : q.workers = p.workers.set w y)
    (hx : x.runs f = false) (hy : y.runs f = false) : q.runningCount f = p.runningCount f := by
  have hset := runningCount_of_set f at_w hq
  rw [hx, hy] at hset
  exact hset

/-- A task that is taken runs. -/
theorem Traced.take (h : p.Traced) {w : Nat} {x : Worker τ} {task : τ}
    (at_w : p.workers[w]? = some x) (awake : x.isAwake = true)
    (hq : q.journal = p.journal ++ [.taken w task])
    (hworkers : q.workers = p.workers.set w (.running task)) : q.Traced := by
  intro f
  have hset := runningCount_of_set f at_w hworkers
  rw [runs_of_isAwake awake] at hset
  have hp := h f
  have htask : (Worker.running task).runs f = f task := rfl
  rw [htask] at hset
  rw [taken_append hq, ended_append hq, List.countP_append, List.countP_append]
  cases hf : f task <;> simp [Report.taken?, Report.ended?, hf] at hset ⊢ <;> omega

/-- A task that ends runs no longer. -/
theorem Traced.finish (h : p.Traced) {w : Nat} {task : τ} {escape : Option Panic}
    (at_w : p.workers[w]? = some (.running task))
    (hq : q.journal = p.journal ++ [.ended w task escape])
    (hworkers : q.workers = p.workers.set w (.ended task)) : q.Traced := by
  intro f
  have hset := runningCount_of_set f at_w hworkers
  have hp := h f
  have htask : (Worker.running task).runs f = f task := rfl
  have hended : (Worker.ended task).runs f = false := rfl
  rw [htask, hended] at hset
  rw [taken_append hq, ended_append hq, List.countP_append, List.countP_append]
  cases hf : f task <;> simp [Report.taken?, Report.ended?, hf] at hset ⊢ <;> omega

/-- In every step as many tasks are taken as end and run. -/
theorem Traced.change (h : p.Traced) {c : Cause} (hc : Change p c q) : q.Traced := by
  cases hc with
  | accept => exact h.report rfl (fun _ => rfl) rfl rfl
  | acceptStarting =>
    exact h.report rfl (fun f => runningCount_append f .starting rfl rfl) rfl rfl
  | failStart =>
    exact h.report rfl (fun f => runningCount_append f .unstarted rfl rfl) rfl rfl
  | take w x task rest at_w awake => exact h.take at_w awake rfl rfl
  | finish w task escape at_w => exact h.finish at_w rfl rfl
  | expire w at_w =>
    exact h.report rfl (fun f => runningCount_shift f at_w rfl rfl rfl) rfl rfl
  | leave w x at_w awake | park w x at_w awake =>
    exact h.same rfl fun f => runningCount_shift f at_w rfl (runs_of_isAwake awake f) rfl
  | stirWorker w at_w | giveBack w task submissions at_w =>
    exact h.same rfl fun f => runningCount_shift f at_w rfl rfl rfl
  | announce s workers at_s roused => exact h.same rfl fun f => roused.countP_eq rfl
  | alertWorkers => exact h.same rfl fun f => countP_map_wake _ rfl
  | join r own w rest =>
    by_cases last : rest = []
    · exact h.report (if_pos last) (fun _ => rfl) rfl rfl
    · simp only [if_neg last]
      exact h
  | refuseEmpty | arrive | arriveReaping | reapNone | reap | refuseClosed | refuseFull | block
  | sleepOn | stirSubmitter | callRelease | close | alertSubmitters => exact h

/-- As many tasks of each kind were taken in a pool as have ended and are running. -/
theorem Arises.traced (h : p.Arises) : p.Traced := by
  induction h with
  | create hc =>
    obtain ⟨-, -, rfl⟩ := eq_of_create hc
    exact fun _ => rfl
  | change _ hc ih => exact ih.change hc

/-! ## When nobody is left -/

/-- A worker that runs a task executes it. -/
theorem runningCount_le_executing (p : Pool τ) (f : τ → Bool) : p.runningCount f ≤ p.executing :=
  List.countP_mono_left fun x _ hx => by cases x <;> first | rfl | cases hx

/-- An accepted task has ended, is running or is in the queue. -/
theorem Arises.accepted_count (h : p.Arises) (f : τ → Bool) :
    p.accepted.countP f = p.ended.countP f + p.runningCount f + p.queue.countP f := by
  rw [h.inOrder, List.countP_append, h.traced f]

/-- Once no worker is left, every accepted task was taken and has ended. -/
theorem Arises.drained (h : p.Arises) (nobody : p.live = 0) (f : τ → Bool) :
    p.taken.countP f = p.accepted.countP f ∧ p.ended.countP f = p.accepted.countP f := by
  obtain ⟨hin, hid, hle, hcap⟩ := h.staffed
  have hexecuting := executing_le_live p
  have hrunning := runningCount_le_executing p f
  -- without live workers no worker is idle, and the queue is no longer than their number
  have empty : p.queue = [] := List.length_eq_zero_iff.mp (by omega)
  have hqueue := h.inOrder
  rw [InOrder, empty, List.append_nil] at hqueue
  have htraced := h.traced f
  rw [hqueue]
  exact ⟨rfl, by omega⟩

/-- A task that was never accepted was never taken. -/
theorem Arises.taken_le_accepted (h : p.Arises) (f : τ → Bool) :
    p.taken.countP f ≤ p.accepted.countP f := by
  rw [h.inOrder, List.countP_append]
  exact Nat.le_add_right _ _

/-! ## Endings -/

theorem ended_of_other {r : Report τ} (hq : q.journal = p.journal ++ [r])
    (other : r.ended? = none) : q.ended = p.ended := by
  rw [ended_append hq, other]
  exact List.append_nil _

theorem ended_of_alertSubmitter {alert : Option Nat} (h : p.alertSubmitter alert = some q) :
    q.ended = p.ended := by
  obtain ⟨submissions, -, rfl⟩ := told_of_alertSubmitter h
  rfl

/-- Granting a slot ends no task. -/
theorem ended_of_grantSlot {task : τ} {start : Bool} {alert : Option Nat}
    (h : p.grantSlot s task start alert = some q) : q.ended = p.ended := by
  rw [grantSlot] at h
  split at h
  · cases h
    exact ended_of_other (r := .accepted task) rfl rfl
  · split at h
    · cases h
      exact ended_of_other (r := .accepted task) rfl rfl
    · obtain ⟨m, hm, h⟩ := Option.bind_eq_some_iff.mp h
      cases h
      have told : m.ended = p.ended := (ended_of_alertSubmitter hm).trans rfl
      exact (ended_of_other (r := .startFailed) rfl rfl).trans told

/-- Looking at the queue ends no task. -/
theorem ended_examine (p : Pool τ) (w : Nat) (late : Bool) :
    (p.examine w late).ended = p.ended := by
  unfold examine
  split
  · rename_i task rest queue_eq
    exact ended_of_other (r := .taken w task) rfl rfl
  · split
    · rfl
    · split
      · refine ended_of_other (r := .expired w) ?_ rfl
        simp only
        split <;> rfl
      · rfl

/-- No task ends but when its worker is done with it. -/
theorem ended_of_move {m : Move} (h : p.move m = some q) : q.ended = p.ended := by
  cases m with
  | reap s =>
    rw [move, reap] at h
    split at h
    · cases h
      rfl
    · obtain ⟨-, h⟩ := Option.ite_none_right_eq_some.mp h
      cases h
      rfl
    · cases h
  | enter s start alert =>
    rw [move, enter] at h
    split at h
    · split at h
      · cases h
        rfl
      · split at h
        · split at h <;> cases h <;> rfl
        · exact ended_of_grantSlot h
    · cases h
  | resume s start alert =>
    rw [move, resume] at h
    split at h
    · split at h
      · cases h
        rfl
      · split at h
        · exact (ended_of_grantSlot h).trans rfl
        · cases h
          rfl
    · cases h
  | announce s alert =>
    rw [move, announce] at h
    split at h
    · obtain ⟨workers, -, rfl⟩ := roused_of_alertWorker h
      rfl
    · cases h
  | look w late =>
    rw [move, look] at h
    split at h
    · obtain ⟨-, h⟩ := Option.ite_none_left_eq_some.mp h
      cases h
      exact ended_examine p w false
    · cases h
      exact ended_examine p w late
    · cases h
  | giveBack w alert =>
    obtain ⟨task, submissions, -, -, rfl⟩ := eq_of_giveBack h
    exact ended_examine _ w false
  | stirSubmitter s =>
    rw [move, stirSubmitter] at h
    split at h <;> cases h
    rfl
  | stirWorker w =>
    rw [move, stirWorker] at h
    split at h <;> cases h
    rfl
  | close r =>
    rw [move, close] at h
    split at h <;> cases h
    rfl
  | alertWorkers r =>
    rw [move, alertWorkers] at h
    split at h <;> cases h
    rfl
  | alertSubmitters r =>
    rw [move, alertSubmitters] at h
    split at h <;> cases h
    rfl
  | join r =>
    rw [move, join] at h
    split at h
    · obtain ⟨-, h⟩ := Option.ite_none_right_eq_some.mp h
      split at h <;> cases h
      · exact ended_of_other (r := .released) rfl rfl
      · rfl
    · cases h

theorem ended_submit (p : Pool τ) (task : Option τ) : (p.submit task).ended = p.ended := by
  cases task with
  | none => rfl
  | some task =>
    rw [submit]
    split <;> rfl

/-- One task has ended when a worker is done with its task. -/
theorem ended_of_finish {escape : Option Panic} (h : p.finish w escape = some q) :
    q.ended.length = p.ended.length + 1 := by
  rw [finish] at h
  split at h
  · cases h
    rw [ended_append rfl]
    exact List.length_append
  · cases h

/-- Of two changes that together end no task, the first ends none. -/
theorem Change.ended_eq {m : Pool τ} (first : Change p c m) (second : Change m d q)
    (unended : q.ended = p.ended) : m.ended = p.ended := by
  have some_later : p.ended <+: m.ended := first.journal_prefix.filterMap _
  have others_later : m.ended <+: q.ended := second.journal_prefix.filterMap _
  rw [unended] at others_later
  exact (some_later.eq_of_length_le others_later.length_le).symm

end

end Pool

end TaskPools
