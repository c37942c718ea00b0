/-
# Schedules of a pool that is left alone

A pool that is left alone goes on by itself: a free worker looks at the queue, a task comes to its
end unless it waits at a gate, a slot is given back, somebody is told of a slot or of a task, and a
submitter that was told asks again.  Nobody calls, no gate opens, nobody wakes without a reason and
no worker expires.  A `Schedule` is a sequence of such steps, and in a `Quiet` pool none can be
taken.

Each of these steps makes one or two of few changes (`Inner`): in particular no thread is started
for a submitter that was blocked, since all threads that the capacity allows are there (`Crowded`).
Each of the changes spends some of the work that is left in the pool (`Inner.workLeft_lt`), so that
every schedule is finite (`Schedule.length_le`).
-/
import TaskPools.Proofs.Pool.ClosingWakeup
import TaskPools.Proofs.Pool.Answers

namespace TaskPools

variable {τ : Type}

namespace Pool

/-! ## Steps without a call -/

/-- The step is one that the pool takes by itself while only the gates of the tasks in `opened` are
open.  A submission that has not asked for a slot yet and a release that has not closed the pool yet
are calls still to be made. -/
def isInternal (opened : τ → Bool) (p : Pool τ) : Event τ → Bool
  | .finish w _ =>
    match p.workers[w]? with
    | some (.running task) => opened task
    | _ => false
  | .move (.look _ late) => !late
  | .move (.giveBack _ _) | .move (.announce _ _) | .move (.resume _ _ _)
  | .move (.alertWorkers _) | .move (.alertSubmitters _) => true
  | _ => false

/-- One step after the other that the pool takes by itself. -/
inductive Schedule (opened : τ → Bool) : Pool τ → List (Event τ) → Pool τ → Prop where
  | nil (p : Pool τ) : Schedule opened p [] p
  | cons {p m q : Pool τ} {e : Event τ} {es : List (Event τ)}
      (internal : p.isInternal opened e = true) (steps : p.step e = some m)
      (rest : Schedule opened m es q) : Schedule opened p (e :: es) q

/-- The pool after these steps, where it can take all of them by itself. -/
def runAlone (opened : τ → Bool) (p : Pool τ) (es : List (Event τ)) : Option (Pool τ) :=
  es.foldlM (fun p e => if p.isInternal opened e then p.step e else none) p

/-- A run of a pool that is left alone is a schedule of it. -/
theorem schedule_of_runAlone {opened : τ → Bool} {p q : Pool τ} {es : List (Event τ)}
    (hrun : p.runAlone opened es = some q) : Schedule opened p es q := by
  induction es generalizing p with
  | nil =>
    obtain rfl : p = q := Option.some.inj hrun
    exact Schedule.nil p
  | cons e es ih =>
    rw [runAlone, List.foldlM_cons] at hrun
    obtain ⟨m, hstep, hrest⟩ := Option.bind_eq_some_iff.mp hrun
    split at hstep
    · rename_i internal
      exact Schedule.cons internal hstep (ih hrest)
    · cases hstep

/-- The pool can take no step by itself. -/
def Quiet (opened : τ → Bool) (p : Pool τ) : Prop :=
  ∀ e, p.isInternal opened e = true → p.step e = none

/-- No worker of the pool has expired. -/
def Unexpired (p : Pool τ) : Prop :=
  ∀ w, Report.expired w ∉ p.journal

/-- While no worker expires and a submitter is blocked in an open pool, there are as many live
workers as the capacity allows. -/
def Crowded (p : Pool τ) : Prop :=
  p.Unexpired → p.closed = false → 0 < p.waiting → p.live = p.capacity

/-! ## A crowded pool stays crowded -/

section

variable {p q : Pool τ} {s w : Nat} {x : Submission τ} {v z : Worker τ}

/-- Where no worker has expired in the end, none had before. -/
theorem unexpired_before {rest : List (Report τ)} (hq : q.journal = p.journal ++ rest)
    (h : q.Unexpired) : p.Unexpired := by
  intro w hw
  apply h w
  rw [hq]
  exact List.mem_append_left _ hw

/-- No worker comes or goes, and no submitter is blocked anew. -/
theorem Crowded.same (h : p.Crowded) {rest : List (Report τ)}
    (hjournal : q.journal = p.journal ++ rest) (hclosed : q.closed = p.closed)
    (hcapacity : q.capacity = p.capacity) (hwaiting : q.waiting ≤ p.waiting)
    (hlive : q.live = p.live) : q.Crowded := by
  intro unexpired is_open some_waiting
  rw [hlive, hcapacity]
  rw [hclosed] at is_open
  exact h (unexpired_before hjournal unexpired) is_open (by omega)

theorem waitingWithout_le (p : Pool τ) (x : Submission τ) : p.waitingWithout x ≤ p.waiting := by
  unfold waitingWithout
  omega

/-- A worker changes its place and stays live. -/
theorem live_shift (at_w : p.workers[w]? = some v) (hworkers : q.workers = p.workers.set w z)
    (hv : v.isLive = true) (hz : z.isLive = true) : q.live = p.live := by
  have hcount := live_of_set at_w hworkers
  rw [hv, hz] at hcount
  omega

/-- In every step in which no worker expires, an open pool where somebody is blocked keeps all its
workers. -/
theorem Crowded.change (h : p.Crowded) (staffed : p.Staffed) {c : Cause} (hc : Change p c q) :
    q.Crowded := by
  cases hc with
  | refuseEmpty | arrive | arriveReaping | reapNone | reap | refuseFull | sleepOn | stirSubmitter
  | callRelease | alertSubmitters =>
    exact h.same (List.append_nil _).symm rfl rfl (Int.le_refl _) rfl
  | block s task at_s is_open full =>
    -- all slots are in use, so there is a live worker for each
    intro _ _ _
    obtain ⟨hin, hid, hle, hcap⟩ := staffed
    show p.live = p.capacity
    omega
  | refuseClosed s x task at_s asks is_closed | leave w x at_w awake queue_eq is_closed =>
    intro _ is_open
    rw [is_closed] at is_open
    cases is_open
  | close => exact fun _ => nofun
  | accept s x => exact h.same rfl rfl rfl (p.waitingWithout_le x) rfl
  | acceptStarting s x task at_s asks is_open free short =>
    -- no worker can be missing: the pool would not have been crowded before
    intro unexpired is_open some_waiting
    have hwaiting := p.waitingWithout_le x
    have hp := h (unexpired_before rfl unexpired) is_open (Int.lt_of_lt_of_le some_waiting hwaiting)
    obtain ⟨hin, hid, hle, hcap⟩ := staffed
    omega
  | failStart s x =>
    exact h.same rfl rfl rfl (p.waitingWithout_le x) (live_append p _ .unstarted rfl)
  | announce s workers at_s roused =>
    exact h.same (List.append_nil _).symm rfl rfl (Int.le_refl _) (roused.countP_eq rfl)
  | stirWorker w at_w =>
    exact h.same (List.append_nil _).symm rfl rfl (Int.le_refl _) (live_shift at_w rfl rfl rfl)
  | take w x task rest at_w awake =>
    exact h.same rfl rfl rfl (Int.le_refl _)
      (live_shift at_w rfl (isLive_of_isAwake awake).1 rfl)
  | park w x at_w awake =>
    exact h.same (List.append_nil _).symm rfl rfl (Int.le_refl _)
      (live_shift at_w rfl (isLive_of_isAwake awake).1 rfl)
  | expire w =>
    intro unexpired
    exact absurd (List.mem_append_right _ (List.mem_singleton.mpr rfl)) (unexpired w)
  | finish w task escape at_w =>
    exact h.same rfl rfl rfl (Int.le_refl _) (live_shift at_w rfl rfl rfl)
  | giveBack w task submissions at_w =>
    exact h.same (List.append_nil _).symm rfl rfl (Int.le_refl _) (live_shift at_w rfl rfl rfl)
  | alertWorkers =>
    exact h.same (List.append_nil _).symm rfl rfl (Int.le_refl _) (countP_map_wake _ rfl)
  | join r own w rest =>
    by_cases last : rest = []
    · exact h.same (if_pos last) rfl rfl (Int.le_refl _) rfl
    · exact h.same ((if_neg last).trans (List.append_nil _).symm) rfl rfl (Int.le_refl _) rfl

/-- While no worker has expired, an open pool where somebody is blocked has all its workers. -/
theorem Arises.crowded (h : p.Arises) : p.Crowded := by
  induction h with
  | create hc =>
    obtain ⟨-, -, rfl⟩ := eq_of_create hc
    exact fun _ _ => nofun
  | change hp hc ih => exact ih.change hp.staffed hc

end

/-! ## The changes that the pool makes by itself -/

/-- The changes of which the steps that a pool takes by itself are made. -/
inductive Inner (opened : τ → Bool) (p : Pool τ) : Pool τ → Prop where
  | refuseClosed (s : Nat) (task : τ) (told : Bool)
      (at_s : p.submissions[s]? = some (.woken task told)) (is_closed : p.closed = true) :
      Inner opened p { p with
        waiting := p.waiting - 1
        submissions := p.submissions.set s (.returned (some (.poolClosed p.name))) }
  | sleepOn (s : Nat) (task : τ) (told : Bool)
      (at_s : p.submissions[s]? = some (.woken task told)) (is_open : p.closed = false)
      (full : (p.capacity : Int) ≤ p.inFlight) :
      Inner opened p { p with submissions := p.submissions.set s (.parked task) }
  | accept (s : Nat) (task : τ) (told : Bool)
      (at_s : p.submissions[s]? = some (.woken task told)) (is_open : p.closed = false)
      (free : p.inFlight < p.capacity) (enough : (p.queue.length : Int) < p.idle) :
      Inner opened p { p with
        waiting := p.waiting - 1
        inFlight := p.inFlight + 1
        queue := p.queue ++ [task]
        submissions := p.submissions.set s .announcing
        journal := p.journal ++ [.accepted task] }
  | announce (s : Nat) (workers : List (Worker τ)) (at_s : p.submissions[s]? = some .announcing)
      (roused : Roused p.workers workers) :
      Inner opened p { p with
        workers
        submissions := p.submissions.set s (.returned none) }
  | take (w : Nat) (x : Worker τ) (task : τ) (rest : List τ) (at_w : p.workers[w]? = some x)
      (awake : x.isAwake = true) (queue_eq : p.queue = task :: rest) :
      Inner opened p { p with
        idle := p.idle - 1
        queue := rest
        workers := p.workers.set w (.running task)
        journal := p.journal ++ [.taken w task] }
  | leave (w : Nat) (x : Worker τ) (at_w : p.workers[w]? = some x) (awake : x.isAwake = true)
      (queue_eq : p.queue = []) (is_closed : p.closed = true) :
      Inner opened p { p with
        idle := p.idle - 1
        workers := p.workers.set w .exited }
  | park (w : Nat) (x : Worker τ) (at_w : p.workers[w]? = some x) (awake : x.isAwake = true)
      (queue_eq : p.queue = []) (is_open : p.closed = false) :
      Inner opened p { p with workers := p.workers.set w .parked }
  | finish (w : Nat) (task : τ) (escape : Option Panic)
      (at_w : p.workers[w]? = some (.running task)) (is_opened : opened task = true) :
      Inner opened p { p with
        workers := p.workers.set w (.ended task)
        journal := p.journal ++ [.ended w task escape] }
  | giveBack (w : Nat) (task : τ) (submissions : List (Submission τ))
      (at_w : p.workers[w]? = some (.ended task)) (told : Told p.submissions submissions) :
      Inner opened p { p with
        inFlight := p.inFlight - 1
        idle := p.idle + 1
        workers := p.workers.set w .woken
        submissions }
  | alertWorkers (r : Nat) (own : Option Nat) (handles : List Nat)
      (at_r : p.releases[r]? = some (.closed own handles)) :
      Inner opened p { p with
        workers := p.workers.map wake
        releases := p.releases.set r (.alerting own handles) }
  | alertSubmitters (r : Nat) (own : Option Nat) (handles : List Nat)
      (at_r : p.releases[r]? = some (.alerting own handles)) :
      Inner opened p { p with
        submissions := p.submissions.map wakeSubmitter
        releases := p.releases.set r (if handles = [] then .returned else .joining own handles) }

section

variable {opened : τ → Bool} {p q : Pool τ} {s w : Nat} {x : Worker τ}

/-- A step that a pool takes by itself is a move. -/
theorem Inner.change (h : Inner opened p q) : Change p .move q := by
  cases h with
  | refuseClosed s task told at_s is_closed =>
    exact Change.refuseClosed s _ task at_s rfl is_closed
  | sleepOn s task told at_s is_open full => exact Change.sleepOn s task told at_s is_open full
  | accept s task told at_s is_open free enough =>
    exact Change.accept s _ task at_s rfl is_open free enough
  | announce s workers at_s roused => exact Change.announce s workers at_s roused
  | take w x task rest at_w awake queue_eq => exact Change.take w x task rest at_w awake queue_eq
  | leave w x at_w awake queue_eq is_closed =>
    exact Change.leave w x at_w awake queue_eq is_closed
  | park w x at_w awake queue_eq is_open => exact Change.park w x at_w awake queue_eq is_open
  | finish w task escape at_w => exact Change.finish w task escape at_w
  | giveBack w task submissions at_w told => exact Change.giveBack w task submissions at_w told
  | alertWorkers r own handles at_r => exact Change.alertWorkers r own handles at_r
  | alertSubmitters r own handles at_r => exact Change.alertSubmitters r own handles at_r

/-- None of them is the end of a worker that was idle for too long. -/
theorem Inner.unexpired (h : Inner opened p q) (unexpired : p.Unexpired) : q.Unexpired := by
  have more {r : Report τ} (other : ∀ w, Report.expired w ≠ r) (w : Nat) :
      Report.expired w ∉ p.journal ++ [r] := by
    intro hw
    rcases List.mem_append.mp hw with before | new
    · exact unexpired w before
    · exact other w (List.mem_singleton.mp new)
  cases h with
  | accept | take | finish => exact more nofun
  | refuseClosed | sleepOn | announce | leave | park | giveBack | alertWorkers
  | alertSubmitters => exact unexpired

/-- Looking at the queue is a step that a pool takes by itself. -/
theorem inner_of_examine (at_w : p.workers[w]? = some x) (awake : x.isAwake = true) :
    Inner opened p (p.examine w false) := by
  rw [examine]
  split
  · rename_i task rest queue_eq
    exact Inner.take w x task rest at_w awake queue_eq
  · rename_i queue_eq
    split
    · rename_i is_closed
      exact Inner.leave w x at_w awake queue_eq is_closed
    · rename_i is_open
      rw [if_neg Bool.false_ne_true]
      exact Inner.park w x at_w awake queue_eq (by simpa using is_open)

/-- A submitter that was blocked and finds a free slot finds a worker for its task, too: all workers
that the capacity allows are there, and one of them must be idle. -/
theorem inner_of_resume (h : p.Arises) (unexpired : p.Unexpired) {start : Bool}
    {alert : Option Nat} (hstep : p.resume s start alert = some q) : Inner opened p q := by
  rw [resume] at hstep
  split at hstep
  · rename_i task told at_s
    split at hstep
    · rename_i is_closed
      cases hstep
      exact Inner.refuseClosed s task told at_s is_closed
    · rename_i is_open
      have is_open : p.closed = false := by simpa using is_open
      split at hstep
      · rename_i free
        obtain ⟨hin, hid, hle, hcap⟩ := h.staffed
        have counted := h.waitersCounted
        rw [WaitersCounted] at counted
        have some_waiting : 0 < p.submissions.countP Submission.isWaiting :=
          countP_pos_of_getElem? at_s rfl
        have crowded := h.crowded unexpired is_open (by omega)
        have enough : (p.queue.length : Int) < p.idle := by omega
        have enough' : ((p.queue ++ [task]).length : Int) ≤ p.idle := by
          rw [List.length_append, List.length_singleton]
          omega
        rw [grantSlot, if_pos (by exact enough')] at hstep
        cases hstep
        exact Inner.accept s task told at_s is_open free enough
      · rename_i full
        cases hstep
        exact Inner.sleepOn s task told at_s is_open (by omega)
  · cases hstep

/-- A step that a pool takes by itself is one of these changes or two. -/
theorem inner_of_internal (h : p.Arises) (unexpired : p.Unexpired) {e : Event τ}
    (internal : p.isInternal opened e = true) (hstep : p.step e = some q) :
    Inner opened p q ∨ ∃ m, Inner opened p m ∧ Inner opened m q := by
  cases e with
  | submit | release => cases internal
  | finish w escape =>
    refine Or.inl ?_
    rw [step, finish] at hstep
    rw [isInternal] at internal
    split at hstep
    · rename_i task at_w
      rw [at_w] at internal
      cases hstep
      exact Inner.finish w task escape at_w internal
    · cases hstep
  | move m =>
    cases m with
    | reap | enter | stirSubmitter | stirWorker | close | join => cases internal
    | resume s start alert => exact Or.inl (inner_of_resume h unexpired hstep)
    | announce s alert =>
      refine Or.inl ?_
      rw [step, move, announce] at hstep
      split at hstep
      · rename_i at_s
        obtain ⟨workers, roused, rfl⟩ := roused_of_alertWorker hstep
        exact Inner.announce s workers at_s roused
      · cases hstep
    | look w late =>
      refine Or.inl ?_
      have in_time : late = false := by simpa [isInternal] using internal
      rw [step, move, look, in_time] at hstep
      split at hstep
      · rename_i at_w
        cases hstep
        exact inner_of_examine at_w rfl
      · rename_i at_w
        cases hstep
        exact inner_of_examine at_w rfl
      · cases hstep
    | giveBack w alert =>
      obtain ⟨task, submissions, at_w, told, rfl⟩ := eq_of_giveBack hstep
      refine Or.inr ⟨_, Inner.giveBack w task submissions at_w told, ?_⟩
      have in_range : w < p.workers.length := (List.getElem?_eq_some_iff.mp at_w).1
      exact inner_of_examine (List.getElem?_set_self in_range) rfl
    | alertWorkers r =>
      refine Or.inl ?_
      rw [step, move, alertWorkers] at hstep
      split at hstep
      · rename_i own handles at_r
        cases hstep
        exact Inner.alertWorkers r own handles at_r
      · cases hstep
    | alertSubmitters r =>
      refine Or.inl ?_
      rw [step, move, alertSubmitters] at hstep
      split at hstep
      · rename_i own handles at_r
        cases hstep
        exact Inner.alertSubmitters r own handles at_r
      · cases hstep

/-- What all these changes keep, a whole schedule keeps. -/
theorem Schedule.keeps {P : Pool τ → Prop}
    (hchange : ∀ {p q : Pool τ}, P p → Inner opened p q → P q) {es : List (Event τ)}
    (hschedule : Schedule opened p es q) (h : p.Arises) (unexpired : p.Unexpired) (hp : P p) :
    q.Arises ∧ q.Unexpired ∧ P q := by
  induction hschedule with
  | nil p => exact ⟨h, unexpired, hp⟩
  | cons internal steps rest ih =>
    rcases inner_of_internal h unexpired internal steps with hinner | ⟨m, hfirst, hsecond⟩
    · exact ih (h.change hinner.change) (hinner.unexpired unexpired) (hchange hp hinner)
    · have harises := (h.change hfirst.change).change hsecond.change
      exact ih harises (hsecond.unexpired (hfirst.unexpired unexpired))
        (hchange (hchange hp hfirst) hsecond)

end

end Pool

/-! ## Schedules are finite -/

/-- How many changes a worker may yet bring about, and those that its task allows. -/
def Worker.workLeft : Worker τ → Nat
  | starting | woken => 1
  | running _ => 4
  | ended _ => 3
  | parked | exited | unstarted => 0

/-- How many changes a submission may yet bring about, those of its task included. -/
def Submission.workLeft : Submission τ → Nat
  | parked _ => 6
  | woken _ _ => 7
  | announcing => 2
  | reaping _ _ | entering _ | returned _ => 0

/-- How many changes a release may yet bring about in a pool with so many workers and submissions,
all of which it may wake. -/
def Release.workLeft (workers submissions : Nat) : Release → Nat
  | closed _ _ => workers + submissions + 2
  | alerting _ _ => submissions + 1
  | called _ | joining _ _ | returned => 0

/-- Telling a submitter makes one step more to take. -/
theorem Told.workLeft_le {l m : List (Submission τ)} (h : Told l m) :
    (m.map Submission.workLeft).sum ≤ (l.map Submission.workLeft).sum + 1 := by
  cases h with
  | nobody => omega
  | one s task at_s =>
    have hsum := sum_map_set_add Submission.workLeft at_s (.woken task true)
    simp only [Submission.workLeft] at hsum ⊢
    omega

/-- Waking a worker makes one step more to take. -/
theorem Roused.workLeft_le {l m : List (Worker τ)} (h : Roused l m) :
    (m.map Worker.workLeft).sum ≤ (l.map Worker.workLeft).sum + 1 := by
  cases h with
  | nobody => omega
  | one w at_w =>
    have hsum := sum_map_set_add Worker.workLeft at_w .woken
    simp only [Worker.workLeft] at hsum ⊢
    omega

theorem Roused.length_eq {l m : List (Worker τ)} (h : Roused l m) : m.length = l.length := by
  cases h with
  | nobody => rfl
  | one => exact List.length_set

namespace Pool

/-- How many changes a pool that is left alone can yet make, at most. -/
def workLeft (p : Pool τ) : Nat :=
  (p.submissions.map Submission.workLeft).sum + 4 * p.queue.length +
    (p.workers.map Worker.workLeft).sum +
      (p.releases.map (Release.workLeft p.workers.length p.submissions.length)).sum

section

variable {opened : τ → Bool} {p q : Pool τ}

theorem workLeft_of_isAwake {x : Worker τ} (h : x.isAwake = true) : x.workLeft = 1 := by
  cases x <;> first | rfl | cases h

/-- To wake a worker leaves one thing more to do. -/
theorem workLeft_wake_le (l : List (Worker τ)) :
    ((l.map wake).map Worker.workLeft).sum ≤ (l.map Worker.workLeft).sum + l.length := by
  induction l with
  | nil => exact Nat.le_refl _
  | cons x l ih =>
    simp only [List.map_cons, List.sum_cons, List.length_cons]
    have : (wake x).workLeft ≤ x.workLeft + 1 := by
      cases x <;> simp only [wake, Worker.workLeft] <;> omega
    omega

/-- To wake a submitter leaves one thing more to do. -/
theorem workLeft_wakeSubmitter_le (l : List (Submission τ)) :
    ((l.map wakeSubmitter).map Submission.workLeft).sum
      ≤ (l.map Submission.workLeft).sum + l.length := by
  induction l with
  | nil => exact Nat.le_refl _
  | cons x l ih =>
    simp only [List.map_cons, List.sum_cons, List.length_cons]
    have : (wakeSubmitter x).workLeft ≤ x.workLeft + 1 := by
      cases x <;> simp only [wakeSubmitter, Submission.workLeft] <;> omega
    omega

/-- Every change of a pool that is left alone leaves less to do. -/
theorem Inner.workLeft_lt (h : Inner opened p q) : q.workLeft < p.workLeft := by
  unfold workLeft
  cases h with
  | refuseClosed s task told at_s =>
    have hsum := sum_map_set_add Submission.workLeft at_s (.returned (some (.poolClosed p.name)))
    simp only [Submission.workLeft, List.length_set] at hsum ⊢
    omega
  | sleepOn s task told at_s =>
    have hsum := sum_map_set_add Submission.workLeft at_s (.parked task)
    simp only [Submission.workLeft, List.length_set] at hsum ⊢
    omega
  | accept s task told at_s =>
    have hsum := sum_map_set_add Submission.workLeft at_s .announcing
    simp only [Submission.workLeft, List.length_set, List.length_append,
      List.length_singleton] at hsum ⊢
    omega
  | announce s workers at_s roused =>
    have hsum := sum_map_set_add Submission.workLeft at_s (.returned none)
    have hroused := roused.workLeft_le
    simp only [Submission.workLeft, List.length_set, roused.length_eq] at hsum ⊢
    omega
  | take w x task rest at_w awake queue_eq =>
    have hsum := sum_map_set_add Worker.workLeft at_w (.running task)
    rw [workLeft_of_isAwake awake] at hsum
    simp only [Worker.workLeft, List.length_set, queue_eq, List.length_cons] at hsum ⊢
    omega
  | leave w x at_w awake =>
    have hsum := sum_map_set_add Worker.workLeft at_w .exited
    rw [workLeft_of_isAwake awake] at hsum
    simp only [Worker.workLeft, List.length_set] at hsum ⊢
    omega
  | park w x at_w awake =>
    have hsum := sum_map_set_add Worker.workLeft at_w .parked
    rw [workLeft_of_isAwake awake] at hsum
    simp only [Worker.workLeft, List.length_set] at hsum ⊢
    omega
  | finish w task escape at_w =>
    have hsum := sum_map_set_add Worker.workLeft at_w (.ended task)
    simp only [Worker.workLeft, List.length_set] at hsum ⊢
    omega
  | giveBack w task submissions at_w told =>
    have hsum := sum_map_set_add Worker.workLeft at_w .woken
    have htold := told.workLeft_le
    simp only [Worker.workLeft, List.length_set, told.length_eq] at hsum ⊢
    omega
  | alertWorkers r own handles at_r =>
    have hsum := sum_map_set_add (Release.workLeft p.workers.length p.submissions.length) at_r
      (.alerting own handles)
    have hwake := workLeft_wake_le p.workers
    simp only [Release.workLeft, List.length_map] at hsum ⊢
    omega
  | alertSubmitters r own handles at_r =>
    have hsum := sum_map_set_add (Release.workLeft p.workers.length p.submissions.length) at_r
      (if handles = [] then .returned else .joining own handles)
    have hwake := workLeft_wakeSubmitter_le p.submissions
    have spent : (if handles = [] then Release.returned else .joining own handles).workLeft
        p.workers.length p.submissions.length = 0 := by
      split <;> rfl
    rw [spent] at hsum
    simp only [Release.workLeft, List.length_map] at hsum ⊢
    omega

/-- A schedule spends at least as much as it is long. -/
theorem Schedule.length_le {es : List (Event τ)} (hschedule : Schedule opened p es q)
    (h : p.Arises) (unexpired : p.Unexpired) : es.length + q.workLeft ≤ p.workLeft := by
  induction hschedule with
  | nil p => exact Nat.le_of_eq (Nat.zero_add _)
  | cons internal steps rest ih =>
    rw [List.length_cons]
    rcases inner_of_internal h unexpired internal steps with hinner | ⟨m, hfirst, hsecond⟩
    · have hrest := ih (h.change hinner.change) (hinner.unexpired unexpired)
      have hlt := hinner.workLeft_lt
      omega
    · have hrest := ih ((h.change hfirst.change).change hsecond.change)
        (hsecond.unexpired (hfirst.unexpired unexpired))
      have hlt := hfirst.workLeft_lt
      have hlt' := hsecond.workLeft_lt
      omega

/-- Every pool comes to rest. -/
theorem exists_quiet (h : p.Arises) (unexpired : p.Unexpired) :
    ∃ es q, Schedule opened p es q ∧ q.Quiet opened := by
  induction hwork : p.workLeft using Nat.strongRecOn generalizing p with
  | ind n ih =>
    by_cases quiet : p.Quiet opened
    · exact ⟨[], p, Schedule.nil p, quiet⟩
    · unfold Quiet at quiet
      push Not at quiet
      obtain ⟨e, internal, moves⟩ := quiet
      obtain ⟨m, steps⟩ := Option.ne_none_iff_exists'.mp moves
      have first := Schedule.cons internal steps (Schedule.nil m)
      have hlt := first.length_le h unexpired
      obtain ⟨arises, unexpired', -⟩ :=
        first.keeps (P := fun _ => True) (fun _ _ => trivial) h unexpired trivial
      rw [List.length_singleton] at hlt
      obtain ⟨es, q, rest, quiet⟩ := ih m.workLeft (by omega) arises unexpired' rfl
      exact ⟨e :: es, q, Schedule.cons internal steps rest, quiet⟩

end

end Pool

end TaskPools
