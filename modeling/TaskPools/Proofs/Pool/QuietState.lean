/-
# Quiet states do not depend on the schedule

Tasks that end, submitters that were told of a slot and workers that look for a task compete with
each other, and a schedule decides who comes first.  Where all blocked submitters hold the same
task, it decides nothing that can be seen once the pool is quiet.

`Progress` says what a pool that is left alone can have become: it has accepted tasks of blocked
submitters, each at a moment when a slot was free although every task that waits at a closed gate
held one.  A quiet pool (`Still`) has an empty queue, and a slot is free in it only if nobody is
blocked.  So two schedules that end in quiet pools have accepted equally many tasks
(`Outcome.accepted_unique`), and all else is determined by that (`quiet_states_agree`).
-/
import TaskPools.Proofs.Pool.Schedule

namespace TaskPools

variable {τ : Type}

namespace Submission

/-- The answer to a submission that is over. -/
def answer? : Submission τ → Option (Option Fault)
  | returned fault => some fault
  | _ => none

/-- What a submission can have become in a pool of this name that is left alone.  A submitter stays
blocked with its task until the pool, if it is open, accepts the task or, if it is closed, refuses
it; and no submitter is blocked anew. -/
inductive Becomes (name : String) (closed : Bool) : Submission τ → Submission τ → Prop where
  | waits {x y : Submission τ} (hx : x.isWaiting = true) (hy : y.isWaiting = true)
      (same : y.task? = x.task?) : Becomes name closed x y
  | accepted {x y : Submission τ} (hx : x.isWaiting = true) (is_open : closed = false)
      (hy : y.isAccepted = true) : Becomes name closed x y
  | refused {x : Submission τ} (hx : x.isWaiting = true) (is_closed : closed = true) :
      Becomes name closed x (.returned (some (.poolClosed name)))
  | other {x y : Submission τ} (hx : x.isWaiting = false) (hy : y.isWaiting = false) :
      Becomes name closed x y

section

variable {name : String} {closed : Bool} {x y z : Submission τ}

/-- Who is accepted waits no longer. -/
theorem isWaiting_of_isAccepted (h : x.isAccepted = true) : x.isWaiting = false := by
  cases x <;> first | rfl | cases h

/-- A submission may stay what it is. -/
theorem becomes_self (x : Submission τ) : Becomes name closed x x := by
  cases hx : x.isWaiting with
  | true => exact Becomes.waits hx hx rfl
  | false => exact Becomes.other hx hx

/-- A submitter that is blocked has been so all the time. -/
theorem Becomes.blocked (h : Becomes name closed x y) (hy : y.isWaiting = true) :
    x.isWaiting = true ∧ y.task? = x.task? := by
  cases h with
  | waits hx _ same => exact ⟨hx, same⟩
  | accepted _ _ accepts =>
    rw [isWaiting_of_isAccepted accepts] at hy
    cases hy
  | refused => cases hy
  | other _ hy' =>
    rw [hy'] at hy
    cases hy

/-- A submitter that waits may go on waiting, at another place, with the same task. -/
theorem Becomes.wait (h : Becomes name closed x y) (hy : y.isWaiting = true)
    (hz : z.isWaiting = true) (same : z.task? = y.task?) : Becomes name closed x z := by
  obtain ⟨hx, before⟩ := h.blocked hy
  exact Becomes.waits hx hz (same.trans before)

/-- A submitter that has announced its task returns with success. -/
theorem Becomes.announce (h : Becomes name closed x .announcing) :
    Becomes name closed x (.returned none) := by
  cases h with
  | waits _ hy => cases hy
  | accepted hx is_open => exact Becomes.accepted hx is_open rfl
  | other hx => exact Becomes.other hx rfl

end

end Submission

open Submission (Becomes)

namespace Pool

/-- The answers in pool `q` to the submissions that are blocked in pool `p`. -/
def answersToBlocked (p q : Pool τ) : List (Option Fault) :=
  (p.submissions.zip q.submissions).filterMap fun (x, y) =>
    if x.isWaiting then y.answer? else none

/-- All blocked submitters hold the same task. -/
def BlockedAlike (p : Pool τ) : Prop :=
  ∀ x ∈ p.submissions, ∀ y ∈ p.submissions, x.isWaiting = true → y.isWaiting = true →
    x.task? = y.task?

instance [DecidableEq τ] (p : Pool τ) : Decidable p.BlockedAlike :=
  inferInstanceAs (Decidable (∀ x ∈ p.submissions, ∀ y ∈ p.submissions,
    x.isWaiting = true → y.isWaiting = true → x.task? = y.task?))

/-! ## What a pool that is left alone becomes -/

/-- What pool `p` can have become when it was left alone and accepted these tasks meanwhile. -/
structure Progress (opened : τ → Bool) (p q : Pool τ) (accepted : List τ) : Prop where
  name_eq : q.name = p.name
  capacity_eq : q.capacity = p.capacity
  closed_eq : q.closed = p.closed
  live_eq : p.closed = false → q.live = p.live
  submissions : List.Forall₂ (Becomes p.name p.closed) p.submissions q.submissions
  accepted_eq : q.accepted = p.accepted ++ accepted
  waiting_eq : p.closed = false → q.waiting + accepted.length = p.waiting
  none_of_closed : p.closed = true → accepted = []
  of_blocked : ∀ task ∈ accepted, ∃ x ∈ p.submissions, x.isWaiting = true ∧ x.task? = some task
  /-- A task at a closed gate does not end. -/
  ended_eq : ∀ f : τ → Bool, (∀ task, f task = true → opened task = false) →
    q.ended.countP f = p.ended.countP f
  /-- When the last of these tasks was accepted, those at closed gates left a slot free. -/
  room : ∀ before task, accepted = before ++ [task] →
    (p.accepted ++ before).countP (fun task => !opened task)
      < p.capacity + p.ended.countP fun task => !opened task

section

variable {opened : τ → Bool} {p q q' : Pool τ} {l : List τ} {s : Nat}

/-- A pool that was left alone for no time accepts nothing. -/
theorem Progress.refl (p : Pool τ) : Progress opened p p [] where
  name_eq := rfl
  capacity_eq := rfl
  closed_eq := rfl
  live_eq := fun _ => rfl
  submissions := List.forall₂_same.mpr fun x _ => Submission.becomes_self x
  accepted_eq := (List.append_nil _).symm
  waiting_eq := fun _ => Int.add_zero _
  none_of_closed := fun _ => rfl
  of_blocked := nofun
  ended_eq := fun _ _ => rfl
  room := fun _ _ h => absurd h.symm (List.append_ne_nil_of_right_ne_nil _ nofun)

/-- Nothing is accepted. -/
theorem Progress.next (h : Progress opened p q l) (hname : q'.name = q.name)
    (hcapacity : q'.capacity = q.capacity) (hclosed : q'.closed = q.closed)
    (hlive : q.closed = false → q'.live = q.live)
    (hsubmissions : List.Forall₂ (Becomes p.name p.closed) p.submissions q'.submissions)
    (haccepted : q'.accepted = q.accepted) (hwaiting : q.closed = false → q'.waiting = q.waiting)
    (hended : ∀ f : τ → Bool, (∀ task, f task = true → opened task = false) →
      q'.ended.countP f = q.ended.countP f) : Progress opened p q' l where
  name_eq := hname.trans h.name_eq
  capacity_eq := hcapacity.trans h.capacity_eq
  closed_eq := hclosed.trans h.closed_eq
  live_eq := fun is_open => (hlive (h.closed_eq.trans is_open)).trans (h.live_eq is_open)
  submissions := hsubmissions
  accepted_eq := haccepted.trans h.accepted_eq
  waiting_eq := fun is_open => by
    rw [hwaiting (h.closed_eq.trans is_open)]
    exact h.waiting_eq is_open
  none_of_closed := h.none_of_closed
  of_blocked := h.of_blocked
  ended_eq := fun f shut => (hended f shut).trans (h.ended_eq f shut)
  room := h.room

/-- The tasks at closed gates that were accepted hold slots. -/
theorem Arises.held_le_inFlight (h : q.Arises) (f : τ → Bool) :
    (q.accepted.countP f : Int) ≤ q.ended.countP f + q.inFlight := by
  have hcount := h.accepted_count f
  have hin := h.staffed.inFlight_eq
  have hrunning := runningCount_le_executing q f
  have hqueue : q.queue.countP f ≤ q.queue.length := List.countP_le_length
  omega

/-- A blocked submitter is told of a slot or of the end of the pool, and stays what it was. -/
theorem becomes_of_told {l m n : List (Submission τ)} {name : String} {closed : Bool}
    (h : List.Forall₂ (Becomes name closed) l m) (told : Told m n) :
    List.Forall₂ (Becomes name closed) l n := by
  cases told with
  | nobody => exact h
  | one s task at_s => exact forall₂_set h at_s fun x hx => hx.wait rfl rfl rfl

/-- Waking the submitters changes nothing about what may become of them. -/
theorem becomes_of_wake {l m : List (Submission τ)} {name : String} {closed : Bool}
    (h : List.Forall₂ (Becomes name closed) l m) :
    List.Forall₂ (Becomes name closed) l (m.map wakeSubmitter) := by
  rw [List.forall₂_map_right_iff]
  refine h.imp fun x y hxy => ?_
  cases y with
  | parked task => exact hxy.wait rfl rfl rfl
  | reaping | entering | woken | announcing | returned => exact hxy

/-- The task of a blocked submitter is accepted. -/
theorem Progress.accept (h : Progress opened p q l) (arises : q.Arises) {task : τ} {told : Bool}
    (at_s : q.submissions[s]? = some (.woken task told)) (is_open : q.closed = false)
    (free : q.inFlight < q.capacity) (hname : q'.name = q.name)
    (hcapacity : q'.capacity = q.capacity) (hclosed : q'.closed = q.closed)
    (hlive : q'.live = q.live) (hsubmissions : q'.submissions = q.submissions.set s .announcing)
    (hjournal : q'.journal = q.journal ++ [.accepted task])
    (hwaiting : q'.waiting = q.waiting - 1) : Progress opened p q' (l ++ [task]) := by
  have was_open : p.closed = false := h.closed_eq.symm.trans is_open
  refine ⟨hname.trans h.name_eq, hcapacity.trans h.capacity_eq, hclosed.trans h.closed_eq,
    fun _ => hlive.trans (h.live_eq was_open), ?_, ?_, fun _ => ?_, fun is_closed => ?_, ?_, ?_, ?_⟩
  · rw [hsubmissions]
    exact forall₂_set h.submissions at_s fun x hx =>
      Submission.Becomes.accepted (hx.blocked rfl).1 was_open rfl
  · rw [accepted_append hjournal, h.accepted_eq, List.append_assoc]
    rfl
  · have before := h.waiting_eq was_open
    rw [hwaiting, List.length_append, List.length_singleton]
    omega
  · rw [was_open] at is_closed
    cases is_closed
  · intro task' hmem
    rcases List.mem_append.mp hmem with before | new
    · exact h.of_blocked task' before
    · obtain ⟨x, hx, becomes⟩ := exists_of_forall₂ h.submissions (List.mem_of_getElem? at_s)
      obtain ⟨waiting, same⟩ := becomes.blocked rfl
      rw [List.mem_singleton.mp new]
      exact ⟨x, hx, waiting, same.symm⟩
  · intro f shut
    rw [ended_append hjournal]
    exact (congrArg _ (List.append_nil _)).trans (h.ended_eq f shut)
  · intro before task' hlast
    obtain ⟨rfl, -⟩ := List.append_inj' hlast rfl
    have held := arises.held_le_inFlight fun task => !opened task
    rw [h.accepted_eq, h.ended_eq _ fun task shut => by simpa using shut] at held
    have hcap := h.capacity_eq
    omega

/-- Each step that a pool takes by itself keeps the account of what it has become. -/
theorem Progress.inner (h : Progress opened p q l) (arises : q.Arises)
    (hi : Inner opened q q') : ∃ l, Progress opened p q' l := by
  cases hi with
  | refuseClosed s task told at_s is_closed =>
    have was_closed : p.closed = true := h.closed_eq.symm.trans is_closed
    have shut {P : Prop} (is_open : q.closed = false) : P := by
      rw [is_closed] at is_open
      cases is_open
    refine ⟨l, h.next rfl rfl rfl shut ?_ rfl shut fun _ _ => rfl⟩
    refine forall₂_set h.submissions at_s fun x hx => ?_
    rw [h.name_eq]
    exact Submission.Becomes.refused (hx.blocked rfl).1 was_closed
  | sleepOn s task told at_s =>
    refine ⟨l, h.next rfl rfl rfl (fun _ => rfl) ?_ rfl (fun _ => rfl) fun _ _ => rfl⟩
    exact forall₂_set h.submissions at_s fun x hx => hx.wait rfl rfl rfl
  | accept s task told at_s is_open free =>
    exact ⟨l ++ [task], h.accept arises at_s is_open free rfl rfl rfl rfl rfl rfl rfl⟩
  | announce s workers at_s roused =>
    refine ⟨l, h.next rfl rfl rfl (fun _ => roused.countP_eq rfl) ?_ rfl (fun _ => rfl)
      fun _ _ => rfl⟩
    exact forall₂_set h.submissions at_s fun x hx => hx.announce
  | take w x task rest at_w awake =>
    refine ⟨l, h.next rfl rfl rfl (fun _ => ?_) h.submissions ?_ (fun _ => rfl) fun f _ => ?_⟩
    · exact live_shift at_w rfl (isLive_of_isAwake awake).1 rfl
    · exact (accepted_append rfl).trans (List.append_nil _)
    · exact congrArg _ ((ended_append rfl).trans (List.append_nil _))
  | leave w x at_w awake queue_eq is_closed =>
    have shut {P : Prop} (is_open : q.closed = false) : P := by
      rw [is_closed] at is_open
      cases is_open
    exact ⟨l, h.next rfl rfl rfl shut h.submissions rfl shut fun _ _ => rfl⟩
  | park w x at_w awake =>
    refine ⟨l, h.next rfl rfl rfl (fun _ => ?_) h.submissions rfl (fun _ => rfl) fun _ _ => rfl⟩
    exact live_shift at_w rfl (isLive_of_isAwake awake).1 rfl
  | finish w task escape at_w is_opened =>
    refine ⟨l, h.next rfl rfl rfl (fun _ => ?_) h.submissions ?_ (fun _ => rfl) fun f shut => ?_⟩
    · exact live_shift at_w rfl rfl rfl
    · exact (accepted_append rfl).trans (List.append_nil _)
    · have other : f task = false := by
        by_contra hf
        rw [shut task (by simpa using hf)] at is_opened
        cases is_opened
      rw [ended_append rfl, List.countP_append]
      show q.ended.countP f + [task].countP f = q.ended.countP f
      rw [List.countP_singleton, other]
      rfl
  | giveBack w task submissions at_w told =>
    refine ⟨l, h.next rfl rfl rfl (fun _ => ?_) ?_ rfl (fun _ => rfl) fun _ _ => rfl⟩
    · exact live_shift at_w rfl rfl rfl
    · exact becomes_of_told h.submissions told
  | alertWorkers r own handles at_r =>
    exact ⟨l, h.next rfl rfl rfl (fun _ => countP_map_wake _ rfl) h.submissions rfl (fun _ => rfl)
      fun _ _ => rfl⟩
  | alertSubmitters r own handles at_r =>
    exact ⟨l, h.next rfl rfl rfl (fun _ => rfl) (becomes_of_wake h.submissions) rfl (fun _ => rfl)
      fun _ _ => rfl⟩

/-- What a pool has become by itself is accounted for, however long it was left alone. -/
theorem exists_progress (h : p.Arises) (unexpired : p.Unexpired) {es : List (Event τ)}
    (hschedule : Schedule opened p es q) : q.Arises ∧ ∃ l, Progress opened p q l := by
  have hkeeps := hschedule.keeps (P := fun q => q.Arises ∧ ∃ l, Progress opened p q l)
    (fun ⟨arises, l, hl⟩ hi => ⟨arises.change hi.change, hl.inner arises hi⟩) h unexpired
    ⟨h, [], Progress.refl p⟩
  exact hkeeps.2.2

end

/-! ## Quiet pools -/

/-- Nobody is about to do anything, and whoever executes a task waits at its gate. -/
structure Still (opened : τ → Bool) (p : Pool τ) : Prop where
  awake : p.awake = 0
  announcing : p.announcing = 0
  blocked : ∀ x ∈ p.submissions, x.isWaiting = true → x.isParked = true
  stuck : ∀ x ∈ p.workers, x.isExecuting = true → x.runs (fun task => !opened task) = true
  waking : p.releases.countP Release.wakesSubmitters = 0

section

variable {opened : τ → Bool} {p q : Pool τ} {l : List τ} {s w : Nat}

/-- A notification of a submitter can always be sent, to whichever one sleeps or to none. -/
theorem exists_alertSubmitter (p : Pool τ) : ∃ alert q, p.alertSubmitter alert = some q := by
  by_cases some_parked : p.submissions.any Submission.isParked = true
  · obtain ⟨x, hx, parked⟩ := List.any_eq_true.mp some_parked
    obtain ⟨s, at_s⟩ := List.getElem?_of_mem hx
    cases x with
    | parked task =>
      refine ⟨some s, p.setSubmission s (.woken task true), ?_⟩
      rw [alertSubmitter, at_s]
    | reaping | entering | woken | announcing | returned => cases parked
  · exact ⟨none, p, if_neg some_parked⟩

/-- A notification of a worker can always be sent, to whichever one sleeps or to none. -/
theorem exists_alertWorker (p : Pool τ) : ∃ alert q, p.alertWorker alert = some q := by
  by_cases some_parked : p.workers.any Worker.isParked = true
  · obtain ⟨x, hx, parked⟩ := List.any_eq_true.mp some_parked
    obtain ⟨w, at_w⟩ := List.getElem?_of_mem hx
    cases x with
    | parked =>
      refine ⟨some w, p.setWorker w .woken, ?_⟩
      rw [alertWorker, at_w]
    | starting | woken | running | ended | exited | unstarted => cases parked
  · exact ⟨none, p, if_neg some_parked⟩

/-- A submitter whose sleep is over can always ask again. -/
theorem exists_resume {task : τ} {told : Bool}
    (at_s : p.submissions[s]? = some (.woken task told)) :
    ∃ q, p.resume s true none = some q := by
  simp only [resume, at_s]
  split
  · exact ⟨_, rfl⟩
  · split
    · simp only [grantSlot]
      split
      · exact ⟨_, rfl⟩
      · exact ⟨_, rfl⟩
    · exact ⟨_, rfl⟩

/-- A step that can be taken is none of those that a quiet pool takes by itself. -/
theorem Quiet.absurd (h : p.Quiet opened) {e : Event τ} (internal : p.isInternal opened e = true)
    (steps : p.step e = some q) : False := by
  rw [h e internal] at steps
  cases steps

theorem Quiet.still (h : p.Quiet opened) : p.Still opened := by
  constructor
  · unfold awake
    rw [List.countP_eq_zero]
    intro x hx is_awake
    obtain ⟨w, at_w⟩ := List.getElem?_of_mem hx
    apply h.absurd (q := p.examine w false) (e := .move (.look w false)) rfl
    rw [step, move, look, at_w]
    cases x <;> first | rfl | cases is_awake
  · unfold announcing
    rw [List.countP_eq_zero]
    intro x hx is_announcing
    obtain ⟨s, at_s⟩ := List.getElem?_of_mem hx
    obtain ⟨alert, q, hq⟩ := (p.setSubmission s (.returned none)).exists_alertWorker
    apply h.absurd (q := q) (e := .move (.announce s alert)) rfl
    rw [step, move, Pool.announce, at_s]
    cases x <;> first | exact hq | cases is_announcing
  · intro x hx waiting
    obtain ⟨s, at_s⟩ := List.getElem?_of_mem hx
    cases x with
    | parked task => rfl
    | woken task told =>
      obtain ⟨q, hq⟩ := exists_resume at_s
      exact (h.absurd (e := .move (.resume s true none)) rfl hq).elim
    | reaping | entering | announcing | returned => cases waiting
  · intro x hx executing
    obtain ⟨w, at_w⟩ := List.getElem?_of_mem hx
    cases x with
    | running task =>
      by_contra is_opened
      have is_opened : opened task = true := by simpa [Worker.runs] using is_opened
      apply h.absurd (e := .finish w none)
      · rw [isInternal, at_w]
        exact is_opened
      · rw [step, finish, at_w]
    | ended task =>
      obtain ⟨alert, q, hq⟩ :=
        exists_alertSubmitter { p with inFlight := p.inFlight - 1, idle := p.idle + 1 }
      refine (h.absurd (q := q.examine w false) (e := .move (.giveBack w alert)) rfl ?_).elim
      rw [step, move, giveBack, at_w]
      exact Option.bind_eq_some_iff.mpr ⟨q, hq, rfl⟩
    | starting | parked | woken | exited | unstarted => cases executing
  · rw [List.countP_eq_zero]
    intro place hplace wakes
    obtain ⟨r, at_r⟩ := List.getElem?_of_mem hplace
    cases place with
    | closed own handles =>
      apply h.absurd (e := .move (.alertWorkers r)) rfl
      rw [step, move, alertWorkers, at_r]
    | alerting own handles =>
      apply h.absurd (e := .move (.alertSubmitters r)) rfl
      rw [step, move, alertSubmitters, at_r]
    | called | joining | returned => cases wakes

/-- Where nobody is about to do anything, no step can be taken. -/
theorem Still.quiet (h : p.Still opened) : p.Quiet opened := by
  have not_awake {w : Nat} {x : Worker τ} (at_w : p.workers[w]? = some x) : x.isAwake = false := by
    simpa using List.countP_eq_zero.mp h.awake x (List.mem_of_getElem? at_w)
  have not_waking {r : Nat} {place : Release} (at_r : p.releases[r]? = some place) :
      place.wakesSubmitters = false := by
    simpa using List.countP_eq_zero.mp h.waking place (List.mem_of_getElem? at_r)
  intro e internal
  by_contra moves
  obtain ⟨q, steps⟩ := Option.ne_none_iff_exists'.mp moves
  cases e with
  | submit | release => cases internal
  | finish w escape =>
    rw [step, finish] at steps
    rw [isInternal] at internal
    split at steps
    · rename_i task at_w
      rw [at_w] at internal
      have shut := h.stuck _ (List.mem_of_getElem? at_w) rfl
      have is_opened : opened task = true := internal
      simp [Worker.runs, is_opened] at shut
    · cases steps
  | move m =>
    cases m with
    | reap | enter | stirSubmitter | stirWorker | close | join => cases internal
    | resume s start alert =>
      rw [step, move, resume] at steps
      split at steps
      · rename_i task told at_s
        have asleep := h.blocked _ (List.mem_of_getElem? at_s) rfl
        cases asleep
      · cases steps
    | announce s alert =>
      rw [step, move, Pool.announce] at steps
      split at steps
      · rename_i at_s
        have announces := List.countP_eq_zero.mp h.announcing _ (List.mem_of_getElem? at_s)
        exact announces rfl
      · cases steps
    | look w late =>
      rw [step, move, look] at steps
      split at steps
      · rename_i at_w
        cases not_awake at_w
      · rename_i at_w
        cases not_awake at_w
      · cases steps
    | giveBack w alert =>
      obtain ⟨task, submissions, at_w, -⟩ := eq_of_giveBack steps
      have runs := h.stuck _ (List.mem_of_getElem? at_w) rfl
      cases runs
    | alertWorkers r =>
      rw [step, move, alertWorkers] at steps
      split at steps
      · rename_i own handles at_r
        cases not_waking at_r
      · cases steps
    | alertSubmitters r =>
      rw [step, move, alertSubmitters] at steps
      split at steps
      · rename_i own handles at_r
        cases not_waking at_r
      · cases steps

/-! ### What a quiet pool looks like -/

/-- Where nobody is about to do anything, all tasks under way wait at closed gates. -/
theorem Still.executing_eq (h : p.Still opened) :
    p.executing = p.runningCount fun task => !opened task := by
  unfold executing runningCount
  apply List.countP_congr
  intro x hx
  constructor
  · exact h.stuck x hx
  · intro runs
    cases x <;> first | rfl | cases runs

/-- Nobody runs a task whose gates are open. -/
theorem Still.runningCount_eq_zero (h : p.Still opened) {f : τ → Bool}
    (hf : ∀ task, f task = true → opened task = true) : p.runningCount f = 0 := by
  unfold runningCount
  rw [List.countP_eq_zero]
  intro x hx runs
  cases x with
  | running task =>
    have shut := h.stuck _ hx rfl
    have is_opened := hf task runs
    simp [Worker.runs, is_opened] at shut
  | starting | parked | woken | ended | exited | unstarted => cases runs

/-- Where nobody is about to do anything, each slot that is taken has a running task. -/
theorem Still.inFlight_eq (h : p.Still opened) (arises : p.Arises) :
    p.inFlight = p.executing := by
  have hin := arises.staffed.inFlight_eq
  rw [arises.queue_eq_nil h.awake h.announcing, List.length_nil] at hin
  omega

/-- In a quiet pool, whoever is blocked sleeps. -/
theorem Still.waiting_eq (h : p.Still opened) (arises : p.Arises) : p.waiting = p.asleep := by
  have counted := arises.waitersCounted
  rw [WaitersCounted] at counted
  rw [counted, asleep]
  congr 1
  apply List.countP_congr
  intro x hx
  constructor
  · exact h.blocked x hx
  · intro sleeps
    cases x <;> first | rfl | cases sleeps

/-- Nobody is blocked in a quiet pool that is closed, and its workers are those that wait at gates.
-/
theorem Still.of_closed (h : p.Still opened) (arises : p.Arises) (is_closed : p.closed = true) :
    p.waiting = 0 ∧ p.live = p.executing := by
  have awaited := arises.sleepersAwaited
  have none_waking : p.releases.countP Release.wakesWorkers = 0 := by
    apply Nat.le_zero.mp
    rw [← h.waking]
    apply List.countP_mono_left
    intro place _ wakes
    cases place <;> first | rfl | cases wakes
  constructor
  · rw [h.waiting_eq arises]
    have := awaited.submitters is_closed
    have := h.waking
    omega
  · have := awaited.workers is_closed
    have := p.live_eq
    have := h.awake
    omega

/-- Somebody is blocked in a quiet pool that is open only while no slot is free. -/
theorem Still.full (h : p.Still opened) (arises : p.Arises) (is_open : p.closed = false)
    (some_waiting : 0 < p.waiting) : (p.capacity : Int) ≤ p.inFlight := by
  have hslots : p.closed = false → 0 < p.asleep → p.capacity - p.inFlight ≤ p.told :=
    arises.slotsAnnounced
  have none_told : p.told = 0 := by
    unfold told
    rw [List.countP_eq_zero]
    intro x hx is_told
    cases x with
    | woken task told => cases h.blocked _ hx rfl
    | reaping | entering | parked | announcing | returned => cases is_told
  have := h.waiting_eq arises
  have := hslots is_open (by omega)
  omega

/-! ## All schedules agree -/

/-- Pool `p` was left alone, accepted these tasks meanwhile and came to rest as pool `q`. -/
structure Outcome (opened : τ → Bool) (p q : Pool τ) (accepted : List τ) : Prop
    extends Progress opened p q accepted where
  arises : q.Arises
  still : q.Still opened

/-- A pool that was left alone until it is quiet has come to an outcome. -/
theorem exists_outcome (h : p.Arises) (unexpired : p.Unexpired) {es : List (Event τ)}
    (hschedule : Schedule opened p es q) (quiet : q.Quiet opened) :
    ∃ l, Outcome opened p q l := by
  obtain ⟨arises, l, progress⟩ := exists_progress h unexpired hschedule
  exact ⟨l, progress, arises, quiet.still⟩

theorem Outcome.queue_eq_nil (h : Outcome opened p q l) : q.queue = [] :=
  h.arises.queue_eq_nil h.still.awake h.still.announcing

/-- The slots of a quiet pool are held by the tasks at closed gates. -/
theorem Outcome.inFlight_eq (h : Outcome opened p q l) :
    q.inFlight + p.ended.countP (fun task => !opened task)
      = ((p.accepted ++ l).countP fun task => !opened task : Nat) := by
  have hcount := h.arises.accepted_count fun task => !opened task
  have hended := h.ended_eq (fun task => !opened task) fun task shut => by simpa using shut
  rw [h.accepted_eq, hended, h.queue_eq_nil, List.countP_nil, ← h.still.executing_eq] at hcount
  have := h.still.inFlight_eq h.arises
  omega

/-- In a quiet pool a task that was accepted has ended, unless it waits at a closed gate. -/
theorem Outcome.ended_count (h : Outcome opened p q l) (f : τ → Bool) :
    q.ended.countP f = (p.accepted ++ l).countP (fun task => f task && opened task) +
      p.ended.countP fun task => f task && !opened task := by
  have hcount := h.arises.accepted_count fun task => f task && opened task
  have hended := h.ended_eq (fun task => f task && !opened task) fun task shut => by
    simp only [Bool.and_eq_true, Bool.not_eq_true'] at shut
    exact shut.2
  have nobody := h.still.runningCount_eq_zero (f := fun task => f task && opened task)
    fun task both => (Bool.and_eq_true _ _ ▸ both).2
  rw [h.accepted_eq, nobody, h.queue_eq_nil, List.countP_nil] at hcount
  rw [List.countP_eq_countP_filter_add q.ended f opened, List.countP_filter, List.countP_filter,
    hended, hcount]
  omega

/-- Tasks that are all the same count no more if there are no more of them. -/
theorem countP_le_of_alike {l m : List τ} (f : τ → Bool) (alike : ∀ x ∈ l, ∀ y ∈ m, x = y)
    (hlength : l.length ≤ m.length) : l.countP f ≤ m.countP f := by
  cases m with
  | nil =>
    obtain rfl : l = [] := List.length_eq_zero_iff.mp (Nat.le_zero.mp hlength)
    exact Nat.le_refl _
  | cons y m =>
    have hl : l = List.replicate l.length y :=
      List.eq_replicate_of_mem fun x hx => alike x hx y List.mem_cons_self
    cases l with
    | nil => exact Nat.zero_le _
    | cons x l =>
      have hx : x = y := alike x List.mem_cons_self y List.mem_cons_self
      have hm : y :: m = List.replicate (y :: m).length y :=
        List.eq_replicate_of_mem fun z hz => (alike x List.mem_cons_self z hz).symm.trans hx
      rw [hl, hm, List.countP_replicate, List.countP_replicate]
      split
      · exact hlength
      · exact Nat.le_refl _

section

variable {q₁ q₂ : Pool τ} {l₁ l₂ : List τ}

/-- Among blocked submitters with one task it makes no difference which one is accepted. -/
theorem Progress.alike (alike : p.BlockedAlike) (h₁ : Progress opened p q₁ l₁)
    (h₂ : Progress opened p q₂ l₂) : ∀ x ∈ l₁, ∀ y ∈ l₂, x = y := by
  intro task₁ hmem₁ task₂ hmem₂
  obtain ⟨x, hx, waiting, hx'⟩ := h₁.of_blocked task₁ hmem₁
  obtain ⟨y, hy, waiting', hy'⟩ := h₂.of_blocked task₂ hmem₂
  have same := alike x hx y hy waiting waiting'
  rw [hx', hy'] at same
  exact Option.some.inj same

/-- A pool that is quiet has not accepted fewer tasks than it could have.  If it had, a submitter
would be blocked in it while every slot is held by a task at a closed gate; but when the other
schedule accepted its last task, as many tasks at closed gates left a slot free. -/
theorem Outcome.length_le (alike : p.BlockedAlike) (h₁ : Outcome opened p q₁ l₁)
    (h₂ : Outcome opened p q₂ l₂) : l₂.length ≤ l₁.length := by
  by_contra fewer
  have fewer : l₁.length < l₂.length := by omega
  rcases List.eq_nil_or_concat l₂ with rfl | ⟨before, task, rfl⟩
  · exact Nat.not_lt_zero _ fewer
  rw [List.concat_eq_append] at *
  have was_open : p.closed = false := by
    by_contra is_closed
    have nothing := h₂.none_of_closed (by simpa using is_closed)
    exact List.append_ne_nil_of_right_ne_nil before (List.cons_ne_nil task []) nothing
  rw [List.length_append, List.length_singleton] at fewer
  -- somebody is blocked at the end of the first schedule
  have hwaiting₁ := h₁.waiting_eq was_open
  have hwaiting₂ := h₂.waiting_eq was_open
  have counted := h₂.arises.waitersCounted
  rw [WaitersCounted] at counted
  rw [List.length_append, List.length_singleton] at hwaiting₂
  have full := h₁.still.full h₁.arises (h₁.closed_eq.trans was_open) (by omega)
  -- so every slot is held, by no more tasks than those before the last of the second schedule
  have held := h₁.inFlight_eq
  have room := h₂.room before task rfl
  have hle : l₁.countP (fun task => !opened task) ≤ before.countP fun task => !opened task := by
    apply countP_le_of_alike
    · intro x hx y hy
      exact Progress.alike alike h₁.toProgress h₂.toProgress x hx y (List.mem_append_left _ hy)
    · omega
  rw [List.countP_append] at held room
  rw [h₁.capacity_eq] at full
  omega

/-- Two schedules accept the same tasks. -/
theorem Outcome.accepted_unique (alike : p.BlockedAlike) (h₁ : Outcome opened p q₁ l₁)
    (h₂ : Outcome opened p q₂ l₂) : l₁ = l₂ := by
  have hlength : l₁.length = l₂.length :=
    Nat.le_antisymm (h₂.length_le alike h₁) (h₁.length_le alike h₂)
  apply List.ext_getElem hlength
  intro i h₁i h₂i
  exact Progress.alike alike h₁.toProgress h₂.toProgress _ (List.getElem_mem h₁i) _
    (List.getElem_mem h₂i)

/-! ### What the accepted tasks determine -/

/-- Two schedules leave the same number of submitters blocked. -/
theorem Outcome.waiting_unique (h₁ : Outcome opened p q₁ l) (h₂ : Outcome opened p q₂ l) :
    q₁.waiting = q₂.waiting := by
  cases closed : p.closed with
  | true =>
    rw [(h₁.still.of_closed h₁.arises (h₁.closed_eq.trans closed)).1,
      (h₂.still.of_closed h₂.arises (h₂.closed_eq.trans closed)).1]
  | false =>
    have := h₁.waiting_eq closed
    have := h₂.waiting_eq closed
    omega

/-- Two schedules leave the same number of slots taken. -/
theorem Outcome.inFlight_unique (h₁ : Outcome opened p q₁ l) (h₂ : Outcome opened p q₂ l) :
    q₁.inFlight = q₂.inFlight := by
  have := h₁.inFlight_eq
  have := h₂.inFlight_eq
  omega

/-- The workers of an open pool stay, and those of a closed one are as many as there are slots in
use. -/
theorem Outcome.live_unique (h₁ : Outcome opened p q₁ l) (h₂ : Outcome opened p q₂ l) :
    q₁.live = q₂.live := by
  cases closed : p.closed with
  | true =>
    have := (h₁.still.of_closed h₁.arises (h₁.closed_eq.trans closed)).2
    have := (h₂.still.of_closed h₂.arises (h₂.closed_eq.trans closed)).2
    have := h₁.still.inFlight_eq h₁.arises
    have := h₂.still.inFlight_eq h₂.arises
    have := h₁.inFlight_unique h₂
    omega
  | false => rw [h₁.live_eq closed, h₂.live_eq closed]

/-- The same tasks have ended after two schedules, perhaps in another order. -/
theorem Outcome.ended_perm (h₁ : Outcome opened p q₁ l) (h₂ : Outcome opened p q₂ l) :
    q₁.ended.Perm q₂.ended := by
  classical
  rw [List.perm_iff_count]
  intro task
  rw [List.count_eq_countP, List.count_eq_countP, h₁.ended_count, h₂.ended_count]

end

/-- All who were blocked and are answered get the same answer, and the others are still blocked. -/
theorem answers_of_becomes {name : String} {closed : Bool} {l m : List (Submission τ)}
    (h : List.Forall₂ (Becomes name closed) l m)
    (announced : ∀ y ∈ m, y.isAnnouncing = false) :
    ∃ n, (l.zip m).filterMap (fun (x, y) => if x.isWaiting then y.answer? else none)
        = List.replicate n (if closed then some (.poolClosed name) else none) ∧
      n + m.countP Submission.isWaiting = l.countP Submission.isWaiting := by
  induction h with
  | nil => exact ⟨0, rfl, rfl⟩
  | cons hxy rest ih =>
    rename_i x y l m
    obtain ⟨n, hanswers, hcount⟩ := ih fun y hy => announced y (List.mem_cons_of_mem _ hy)
    rw [List.zip_cons_cons, List.filterMap_cons, List.countP_cons, List.countP_cons, hanswers]
    cases hxy with
    | waits hx hy =>
      have unanswered : y.answer? = none := by cases y <;> first | rfl | cases hy
      refine ⟨n, ?_, ?_⟩
      · simp only [hx, unanswered, if_true]
      · simp only [hx, hy, if_true]
        omega
    | accepted hx is_open hy =>
      have answered : y.answer? = some none := by
        have told := announced y List.mem_cons_self
        cases y with
        | announcing => cases told
        | returned fault =>
          cases fault with
          | none => rfl
          | some fault => cases hy
        | reaping | entering | parked | woken => cases hy
      refine ⟨n + 1, ?_, ?_⟩
      · simp only [hx, answered, if_true, is_open, List.replicate_succ]
        rfl
      · simp only [hx, Submission.isWaiting_of_isAccepted hy, if_true, Bool.false_eq_true, if_false]
        omega
    | refused hx is_closed =>
      have hy : (Submission.returned (some (Fault.poolClosed name)) : Submission τ).isWaiting
          = false := rfl
      refine ⟨n + 1, ?_, ?_⟩
      · simp only [hx, Submission.answer?, if_true, is_closed, List.replicate_succ]
      · simp only [hx, hy, if_true, Bool.false_eq_true, if_false]
        omega
    | other hx hy =>
      refine ⟨n, ?_, ?_⟩
      · simp only [hx]
        rfl
      · simp only [hx, hy]
        exact hcount

/-- Two schedules give the same answers to those who were blocked. -/
theorem Outcome.answers_unique {q₁ q₂ : Pool τ} (h₁ : Outcome opened p q₁ l)
    (h₂ : Outcome opened p q₂ l) : p.answersToBlocked q₁ = p.answersToBlocked q₂ := by
  have announced {q : Pool τ} (still : q.Still opened) :
      ∀ y ∈ q.submissions, y.isAnnouncing = false := by
    intro y hy
    simpa using List.countP_eq_zero.mp still.announcing y hy
  obtain ⟨n₁, hanswers₁, hcount₁⟩ := answers_of_becomes h₁.submissions (announced h₁.still)
  obtain ⟨n₂, hanswers₂, hcount₂⟩ := answers_of_becomes h₂.submissions (announced h₂.still)
  have counted₁ := h₁.arises.waitersCounted
  have counted₂ := h₂.arises.waitersCounted
  rw [WaitersCounted] at counted₁ counted₂
  have hwaiting := h₁.waiting_unique h₂
  have hn : n₁ = n₂ := by omega
  unfold answersToBlocked
  rw [hanswers₁, hanswers₂, hn]

/-- **Quiet states do not depend on the schedule.**  Leave a pool alone in which no worker expired
and all blocked submitters hold the same task.  Its schedules are finite, with one bound for all of
them, and one of them ends in a quiet pool.  All that do have finished the same tasks, given the
same answers to the submitters that were blocked, emptied the queue, and left the same number of
slots in use, blocked submitters and live workers, in a pool that is closed in all cases or in none.
-/
theorem quiet_states_agree (h : p.Reachable) (unexpired : p.Unexpired) (alike : p.BlockedAlike)
    (opened : τ → Bool) :
    (∃ n, ∀ es q, Schedule opened p es q → es.length ≤ n) ∧
    (∃ es q, Schedule opened p es q ∧ q.Quiet opened) ∧
    ∀ es₁ q₁ es₂ q₂, Schedule opened p es₁ q₁ → q₁.Quiet opened →
      Schedule opened p es₂ q₂ → q₂.Quiet opened →
      q₁.ended.Perm q₂.ended ∧ (p.answersToBlocked q₁).Perm (p.answersToBlocked q₂) ∧
      q₁.queue = [] ∧ q₂.queue = [] ∧ q₁.inFlight = q₂.inFlight ∧ q₁.waiting = q₂.waiting ∧
      q₁.live = q₂.live ∧ q₁.closed = q₂.closed := by
  refine ⟨⟨p.workLeft, ?_⟩, exists_quiet h.arises unexpired, ?_⟩
  · intro es q hschedule
    have := hschedule.length_le h.arises unexpired
    omega
  · intro es₁ q₁ es₂ q₂ hschedule₁ quiet₁ hschedule₂ quiet₂
    obtain ⟨l₁, h₁⟩ := exists_outcome h.arises unexpired hschedule₁ quiet₁
    obtain ⟨l₂, h₂⟩ := exists_outcome h.arises unexpired hschedule₂ quiet₂
    obtain rfl := h₁.accepted_unique alike h₂
    refine ⟨h₁.ended_perm h₂, ?_, h₁.queue_eq_nil, h₂.queue_eq_nil, h₁.inFlight_unique h₂,
      h₁.waiting_unique h₂, h₁.live_unique h₂, h₁.closed_eq.trans h₂.closed_eq.symm⟩
    rw [h₁.answers_unique h₂]

end

/-- Two tasks run in a pool of two slots, and two submitters are blocked with the same task. -/
def crowdedRun : List (Event Nat) :=
  [.submit (some 1), .move (.enter 0 true none), .move (.look 0 false), .submit (some 2),
    .move (.enter 1 true none), .move (.look 1 false), .submit (some 5), .move (.enter 2 true none),
    .submit (some 5), .move (.enter 3 true none)]

/-- One task after the other ends, and each lets a submitter in. -/
def oneByOne : List (Event Nat) :=
  [.move (.announce 0 none), .move (.announce 1 none), .finish 0 none, .move (.giveBack 0 (some 2)),
    .move (.resume 2 true none), .move (.announce 2 (some 0)), .move (.look 0 false),
    .finish 1 none, .move (.giveBack 1 (some 3)), .move (.resume 3 true none),
    .move (.announce 3 (some 1)), .move (.look 1 false)]

/-- Both tasks end before anybody is let in. -/
def bothAtOnce : List (Event Nat) :=
  [.finish 1 none, .finish 0 none, .move (.giveBack 1 (some 3)), .move (.giveBack 0 (some 2)),
    .move (.resume 2 true none), .move (.resume 3 true none), .move (.announce 3 (some 0)),
    .move (.announce 0 (some 1)), .move (.look 1 false), .move (.look 0 false),
    .move (.announce 2 none), .move (.announce 1 none)]

/-- The two schedules end in quiet pools, which differ in the order of the tasks that ended and
agree in the rest, while both submitters hold the slots with tasks that wait at a closed gate. -/
theorem quiet_states_agree_after_two_schedules :
    ∃ p₀ p q₁ q₂ : Pool Nat, create "io" 2 1000 false = .ok p₀ ∧ p₀.run crowdedRun = some p ∧
      p.runAlone (· != 5) oneByOne = some q₁ ∧ p.runAlone (· != 5) bothAtOnce = some q₂ ∧
      p.waiting = 2 ∧ q₁.ended = [1, 2] ∧ q₂.ended = [2, 1] ∧ q₁.inFlight = 2 ∧
      q₁.ended.Perm q₂.ended ∧ (p.answersToBlocked q₁).Perm (p.answersToBlocked q₂) ∧
      q₁.inFlight = q₂.inFlight ∧ q₁.waiting = q₂.waiting ∧ q₁.live = q₂.live := by
  obtain ⟨p₀, p, q₁, q₂, hp₀, hp, hq₁, hq₂, hjournal, alike, hwaiting, hended₁, hended₂, hin,
      still₁, still₂⟩ : ∃ p₀ p q₁ q₂ : Pool Nat,
      create "io" 2 1000 false = .ok p₀ ∧ p₀.run crowdedRun = some p ∧
      p.runAlone (· != 5) oneByOne = some q₁ ∧ p.runAlone (· != 5) bothAtOnce = some q₂ ∧
      p.journal = [.opened, .accepted 1, .taken 0 1, .accepted 2, .taken 1 2] ∧
      p.BlockedAlike ∧ p.waiting = 2 ∧ q₁.ended = [1, 2] ∧ q₂.ended = [2, 1] ∧
      q₁.inFlight = 2 ∧ q₁.Still (· != 5) ∧ q₂.Still (· != 5) :=
    ⟨_, _, _, _, rfl, rfl, rfl, rfl, rfl, by decide, rfl, rfl, rfl, rfl,
      ⟨rfl, rfl, by decide, by decide, rfl⟩, ⟨rfl, rfl, by decide, by decide, rfl⟩⟩
  have unexpired : p.Unexpired := by
    intro w
    rw [hjournal]
    simp
  obtain ⟨-, -, agree⟩ :=
    quiet_states_agree ((Reachable.create hp₀).run hp) unexpired alike (· != 5)
  obtain ⟨hended, hanswers, -, -, hinFlight, hwaiting', hlive, -⟩ :=
    agree oneByOne q₁ bothAtOnce q₂ (schedule_of_runAlone hq₁) still₁.quiet
      (schedule_of_runAlone hq₂) still₂.quiet
  exact ⟨p₀, p, q₁, q₂, hp₀, hp, hq₁, hq₂, hwaiting, hended₁, hended₂, hin, hended, hanswers,
    hinFlight, hwaiting', hlive⟩

end Pool

end TaskPools
