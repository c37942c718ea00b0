/-
# What a step can change in a pool

`Pool.Reachable` holds of the pools that arise from a new one by steps.  A step is one critical
section, and some sections do two things one after the other: a worker that gives its slot back
looks at the queue before it lets go of the mutex.  `Pool.Change` lists the single things, each with
the condition under which it happens and with the pool that it leaves.  Every step is one change or
two (`change_of_step`), so what all changes keep holds of every reachable pool.
-/
import TaskPools.Pool.Step
import TaskPools.Proofs.Tally

namespace TaskPools

variable {τ : Type}

/-! ## Runs -/

namespace Pool

/-- Let events happen one after the other. -/
def run (p : Pool τ) (es : List (Event τ)) : Option (Pool τ) :=
  es.foldlM step p

/-- A new pool, or what becomes of one by steps in any order. -/
inductive Reachable : Pool τ → Prop where
  | create {name : String} {capacity : Nat} {expiry : Int64} {nonBlocking : Bool} {p : Pool τ} :
      create name capacity expiry nonBlocking = .ok p → Reachable p
  | step {p q : Pool τ} {e : Event τ} : Reachable p → p.step e = some q → Reachable q

theorem run_nil {p q : Pool τ} (hrun : p.run [] = some q) : q = p :=
  (Option.some.inj hrun).symm

/-- A run begins with its first step. -/
theorem run_cons {p q : Pool τ} {e : Event τ} {es : List (Event τ)}
    (hrun : p.run (e :: es) = some q) : ∃ m, p.step e = some m ∧ m.run es = some q := by
  rw [run, List.foldlM_cons] at hrun
  exact Option.bind_eq_some_iff.mp hrun

/-- A run of two parts passes through the pool between them. -/
theorem run_append {p q : Pool τ} {es es' : List (Event τ)}
    (hrun : p.run (es ++ es') = some q) : ∃ m, p.run es = some m ∧ m.run es' = some q := by
  rw [run, List.foldlM_append] at hrun
  exact Option.bind_eq_some_iff.mp hrun

/-- What every step preserves, a whole run preserves. -/
theorem run_preserves {P : Pool τ → Prop}
    (hstep : ∀ {p q : Pool τ} {e : Event τ}, P p → p.step e = some q → P q) {p q : Pool τ}
    {es : List (Event τ)} (h : P p) (hrun : p.run es = some q) : P q := by
  induction es generalizing p with
  | nil =>
    rw [run_nil hrun]
    exact h
  | cons e es ih =>
    obtain ⟨m, hm, hrun⟩ := run_cons hrun
    exact ih (hstep h hm) hrun

/-- Runs lead from reachable pools to reachable ones. -/
theorem Reachable.run {p q : Pool τ} {es : List (Event τ)} (h : p.Reachable)
    (hrun : p.run es = some q) : q.Reachable :=
  run_preserves Reachable.step h hrun

end Pool

/-! ## Places of submissions and workers -/

namespace Submission

/-- The task of a submission that asks for a slot, for the first time or after a sleep. -/
def asking? : Submission τ → Option τ
  | entering task | woken task _ => some task
  | _ => none

/-- Counted among the blocked submitters: asleep, or about to ask again. -/
def isWaiting : Submission τ → Bool
  | parked _ | woken _ _ => true
  | _ => false

/-- The task of a submission that is not settled yet. -/
def task? : Submission τ → Option τ
  | reaping task _ | entering task | parked task | woken task _ => some task
  | announcing | returned _ => none

/-- Settled with success: the task is, or was, in the queue. -/
def isAccepted : Submission τ → Bool
  | announcing | returned none => true
  | _ => false

end Submission

/-- Idle and awake, so that it is about to look at the queue. -/
def Worker.isAwake : Worker τ → Bool
  | starting | woken => true
  | _ => false

/-! ## Changes -/

/-- One blocked submitter is told that a slot is free; it is nobody only if nobody sleeps. -/
inductive Told : List (Submission τ) → List (Submission τ) → Prop where
  | nobody {l : List (Submission τ)} (asleep : ∀ x ∈ l, x.isParked = false) : Told l l
  | one {l : List (Submission τ)} (s : Nat) (task : τ) (at_s : l[s]? = some (.parked task)) :
      Told l (l.set s (.woken task true))

/-- One sleeping worker is told that there is a task; it is nobody only if nobody sleeps. -/
inductive Roused : List (Worker τ) → List (Worker τ) → Prop where
  | nobody {l : List (Worker τ)} (asleep : ∀ x ∈ l, x.isParked = false) : Roused l l
  | one {l : List (Worker τ)} (w : Nat) (at_w : l[w]? = some .parked) :
      Roused l (l.set w .woken)

namespace Pool

/-- The number of blocked submitters once submission `x` no longer sleeps. -/
def waitingWithout (p : Pool τ) (x : Submission τ) : Int :=
  p.waiting - x.isWaiting.toNat

/-- Why a pool changes. -/
inductive Cause where
  /-- Somebody submits a task or releases the pool. -/
  | call
  /-- The pool goes on by itself. -/
  | move

/-- The single things that can happen to a pool. -/
inductive Change (p : Pool τ) : Cause → Pool τ → Prop where
  /-- A submission without a task is over at once. -/
  | refuseEmpty :
      Change p .call { p with submissions := p.submissions ++ [.returned (some .emptyTask)] }
  | arrive (task : τ) (none_expired : p.retired = []) :
      Change p .call { p with submissions := p.submissions ++ [.entering task] }
  | arriveReaping (task : τ) :
      Change p .call { p with
        retired := []
        submissions := p.submissions ++ [.reaping task p.retired] }
  | reapNone (s : Nat) (task : τ) (at_s : p.submissions[s]? = some (.reaping task [])) :
      Change p .move { p with submissions := p.submissions.set s (.entering task) }
  | reap (s : Nat) (task : τ) (w : Nat) (rest : List Nat)
      (at_s : p.submissions[s]? = some (.reaping task (w :: rest)))
      (at_w : p.workers[w]? = some .exited) :
      Change p .move { p with
        submissions := p.submissions.set s
          (if rest = [] then .entering task else .reaping task rest)
        joined := p.joined ++ [w] }
  | refuseClosed (s : Nat) (x : Submission τ) (task : τ) (at_s : p.submissions[s]? = some x)
      (asks : x.asking? = some task) (is_closed : p.closed = true) :
      Change p .move { p with
        waiting := p.waitingWithout x
        submissions := p.submissions.set s (.returned (some (.poolClosed p.name))) }
  | refuseFull (s : Nat) (task : τ) (at_s : p.submissions[s]? = some (.entering task))
      (is_open : p.closed = false) (full : (p.capacity : Int) ≤ p.inFlight)
      (refuses : p.nonBlocking = true) :
      Change p .move { p with
        submissions := p.submissions.set s (.returned (some (.poolFull p.name p.capacity))) }
  | block (s : Nat) (task : τ) (at_s : p.submissions[s]? = some (.entering task))
      (is_open : p.closed = false) (full : (p.capacity : Int) ≤ p.inFlight)
      (blocks : p.nonBlocking = false) :
      Change p .move { p with
        waiting := p.waiting + 1
        submissions := p.submissions.set s (.parked task) }
  | sleepOn (s : Nat) (task : τ) (told : Bool) (at_s : p.submissions[s]? = some (.woken task told))
      (is_open : p.closed = false) (full : (p.capacity : Int) ≤ p.inFlight) :
      Change p .move { p with submissions := p.submissions.set s (.parked task) }
  /-- A task is accepted for which there is an idle worker. -/
  | accept (s : Nat) (x : Submission τ) (task : τ) (at_s : p.submissions[s]? = some x)
      (asks : x.asking? = some task) (is_open : p.closed = false)
      (free : p.inFlight < p.capacity) (enough : (p.queue.length : Int) < p.idle) :
      Change p .move { p with
        waiting := p.waitingWithout x
        inFlight := p.inFlight + 1
        queue := p.queue ++ [task]
        submissions := p.submissions.set s .announcing
        journal := p.journal ++ [.accepted task] }
  /-- A task is accepted, and a worker is started for it. -/
  | acceptStarting (s : Nat) (x : Submission τ) (task : τ) (at_s : p.submissions[s]? = some x)
      (asks : x.asking? = some task) (is_open : p.closed = false)
      (free : p.inFlight < p.capacity) (short : p.idle ≤ p.queue.length) :
      Change p .move { p with
        waiting := p.waitingWithout x
        inFlight := p.inFlight + 1
        idle := p.idle + 1
        queue := p.queue ++ [task]
        workers := p.workers ++ [.starting]
        listed := p.listed ++ [p.workers.length]
        submissions := p.submissions.set s .announcing
        journal := p.journal ++ [.accepted task] }
  /-- The worker that a task needs cannot be started. -/
  | failStart (s : Nat) (x : Submission τ) (task : τ) (submissions : List (Submission τ))
      (at_s : p.submissions[s]? = some x) (asks : x.asking? = some task)
      (is_open : p.closed = false) (free : p.inFlight < p.capacity)
      (short : p.idle ≤ p.queue.length) (told : Told p.submissions submissions) :
      Change p .move { p with
        waiting := p.waitingWithout x
        workers := p.workers ++ [.unstarted]
        listed := (p.listed ++ [p.workers.length]).erase p.workers.length
        submissions := submissions.set s (.returned (some (.startFailed p.name)))
        journal := p.journal ++ [.startFailed] }
  | stirSubmitter (s : Nat) (task : τ) (at_s : p.submissions[s]? = some (.parked task)) :
      Change p .move { p with submissions := p.submissions.set s (.woken task false) }
  | announce (s : Nat) (workers : List (Worker τ)) (at_s : p.submissions[s]? = some .announcing)
      (roused : Roused p.workers workers) :
      Change p .move { p with
        workers
        submissions := p.submissions.set s (.returned none) }
  | stirWorker (w : Nat) (at_w : p.workers[w]? = some .parked) :
      Change p .move { p with workers := p.workers.set w .woken }
  | take (w : Nat) (x : Worker τ) (task : τ) (rest : List τ) (at_w : p.workers[w]? = some x)
      (awake : x.isAwake = true) (queue_eq : p.queue = task :: rest) :
      Change p .move { p with
        idle := p.idle - 1
        queue := rest
        workers := p.workers.set w (.running task)
        journal := p.journal ++ [.taken w task] }
  | leave (w : Nat) (x : Worker τ) (at_w : p.workers[w]? = some x) (awake : x.isAwake = true)
      (queue_eq : p.queue = []) (is_closed : p.closed = true) :
      Change p .move { p with
        idle := p.idle - 1
        workers := p.workers.set w .exited }
  | expire (w : Nat) (at_w : p.workers[w]? = some .woken) (queue_eq : p.queue = [])
      (is_open : p.closed = false) :
      Change p .move { p with
        idle := p.idle - 1
        workers := p.workers.set w .exited
        listed := p.listed.erase w
        retired := if p.listed.contains w then p.retired ++ [w] else p.retired
        journal := p.journal ++ [.expired w] }
  | park (w : Nat) (x : Worker τ) (at_w : p.workers[w]? = some x) (awake : x.isAwake = true)
      (queue_eq : p.queue = []) (is_open : p.closed = false) :
      Change p .move { p with workers := p.workers.set w .parked }
  | finish (w : Nat) (task : τ) (escape : Option Panic)
      (at_w : p.workers[w]? = some (.running task)) :
      Change p .move { p with
        workers := p.workers.set w (.ended task)
        journal := p.journal ++ [.ended w task escape] }
  /-- A slot is given back; the worker is about to look at the queue. -/
  | giveBack (w : Nat) (task : τ) (submissions : List (Submission τ))
      (at_w : p.workers[w]? = some (.ended task)) (told : Told p.submissions submissions) :
      Change p .move { p with
        inFlight := p.inFlight - 1
        idle := p.idle + 1
        workers := p.workers.set w .woken
        submissions }
  | callRelease (own : Option Nat) :
      Change p .call { p with releases := p.releases ++ [.called own] }
  | close (r : Nat) (own : Option Nat) (at_r : p.releases[r]? = some (.called own)) :
      Change p .move { p with
        closed := true
        listed := []
        retired := []
        releases := p.releases.set r (.closed own (p.listed ++ p.retired)) }
  | alertWorkers (r : Nat) (own : Option Nat) (handles : List Nat)
      (at_r : p.releases[r]? = some (.closed own handles)) :
      Change p .move { p with
        workers := p.workers.map wake
        releases := p.releases.set r (.alerting own handles) }
  | alertSubmitters (r : Nat) (own : Option Nat) (handles : List Nat)
      (at_r : p.releases[r]? = some (.alerting own handles)) :
      Change p .move { p with
        submissions := p.submissions.map wakeSubmitter
        releases := p.releases.set r (if handles = [] then .returned else .joining own handles) }
  | join (r : Nat) (own : Option Nat) (w : Nat) (rest : List Nat)
      (at_r : p.releases[r]? = some (.joining own (w :: rest)))
      (is_over : own = some w ∨ p.workers[w]? = some .exited) :
      Change p .move { p with
        joined := p.joined ++ [w]
        releases := p.releases.set r (if rest = [] then .returned else .joining own rest)
        journal := if rest = [] then p.journal ++ [.released] else p.journal }

/-! ## Every step is one change or two -/

/-- One change after another. -/
def TwoChanges (p q : Pool τ) : Prop :=
  ∃ m, Change p .move m ∧ Change m .move q

/-- A notification tells one submitter, or nobody if nobody sleeps, and changes nothing else. -/
theorem told_of_alertSubmitter {p q : Pool τ} {alert : Option Nat}
    (h : p.alertSubmitter alert = some q) :
    ∃ submissions, Told p.submissions submissions ∧ q = { p with submissions } := by
  cases alert with
  | none =>
    rw [alertSubmitter, Option.ite_none_left_eq_some] at h
    obtain ⟨hnone, h⟩ := h
    cases h
    refine ⟨p.submissions, Told.nobody fun x hx => ?_, rfl⟩
    by_contra hx'
    exact hnone (List.any_eq_true.mpr ⟨x, hx, by simpa using hx'⟩)
  | some s =>
    rw [alertSubmitter] at h
    split at h
    · rename_i task at_s
      cases h
      exact ⟨_, Told.one s task at_s, rfl⟩
    · cases h

/-- A notification wakes one worker, or nobody if nobody sleeps, and changes nothing else. -/
theorem roused_of_alertWorker {p q : Pool τ} {alert : Option Nat}
    (h : p.alertWorker alert = some q) :
    ∃ workers, Roused p.workers workers ∧ q = { p with workers } := by
  cases alert with
  | none =>
    rw [alertWorker, Option.ite_none_left_eq_some] at h
    obtain ⟨hnone, h⟩ := h
    cases h
    refine ⟨p.workers, Roused.nobody fun x hx => ?_, rfl⟩
    by_contra hx'
    exact hnone (List.any_eq_true.mpr ⟨x, hx, by simpa using hx'⟩)
  | some w =>
    rw [alertWorker] at h
    split at h
    · rename_i at_w
      cases h
      exact ⟨_, Roused.one w at_w, rfl⟩
    · cases h

theorem hasExited_iff {p : Pool τ} {w : Nat} :
    p.hasExited w = true ↔ p.workers[w]? = some .exited := by
  rw [hasExited]
  split
  · rename_i at_w
    simp [at_w]
  · rename_i at_w
    simpa using at_w

/-- What becomes of a submission that finds a free slot. -/
theorem change_of_grantSlot {p q : Pool τ} {s : Nat} {x : Submission τ} {task : τ} {start : Bool}
    {alert : Option Nat} (at_s : p.submissions[s]? = some x) (asks : x.asking? = some task)
    (is_open : p.closed = false) (free : p.inFlight < p.capacity)
    (h : { p with waiting := p.waitingWithout x }.grantSlot s task start alert = some q) :
    Change p .move q := by
  rw [grantSlot] at h
  split at h
  · rename_i enough
    cases h
    refine Change.accept s x task at_s asks is_open free ?_
    simp only [enqueue, List.length_append, List.length_singleton] at enough
    omega
  · rename_i short
    simp only [enqueue, List.length_append, List.length_singleton] at short
    have short : p.idle ≤ p.queue.length := by omega
    -- a worker is needed: it starts, or all is rolled back and a sleeper is told of the slot
    split at h
    · cases h
      exact Change.acceptStarting s x task at_s asks is_open free short
    · obtain ⟨m, hm, hq⟩ := Option.bind_eq_some_iff.mp h
      obtain ⟨submissions, told, rfl⟩ := told_of_alertSubmitter hm
      cases hq
      have hchange := Change.failStart s x task submissions at_s asks is_open free short told
      simpa [rollBack, hire, enqueue, setSubmission, report] using hchange

/-- What becomes of a free worker that looks at the queue. -/
theorem change_of_examine {p : Pool τ} {w : Nat} {x : Worker τ} {late : Bool}
    (at_w : p.workers[w]? = some x) (awake : x.isAwake = true)
    (rested : late = true → x = .woken) : Change p .move (p.examine w late) := by
  rw [examine]
  split
  · rename_i task rest queue_eq
    exact Change.take w x task rest at_w awake queue_eq
  · rename_i queue_eq
    split
    · rename_i is_closed
      exact Change.leave w x at_w awake queue_eq is_closed
    · rename_i is_open
      have is_open : p.closed = false := by simpa using is_open
      split
      · rename_i is_late
        rw [rested is_late] at at_w
        have hchange := Change.expire w at_w queue_eq is_open
        -- a handle that is not listed cannot be erased, so one formula covers both branches
        let left : Pool τ := { p with idle := p.idle - 1, workers := p.workers.set w .exited }
        show Change p .move (report (if p.listed.contains w then
          { left with listed := p.listed.erase w, retired := p.retired ++ [w] } else left)
          (.expired w))
        by_cases listed : p.listed.contains w = true
        · rw [if_pos listed] at hchange ⊢
          exact hchange
        · have erased : p.listed.erase w = p.listed :=
            List.erase_of_not_mem (by simpa using listed)
          rw [if_neg listed, erased] at hchange
          rw [if_neg listed]
          exact hchange
      · exact Change.park w x at_w awake queue_eq is_open

/-- A worker that is told to look at the queue forgets where it stood. -/
theorem examine_setWorker (p : Pool τ) (w : Nat) (x : Worker τ) (late : Bool) :
    (p.setWorker w x).examine w late = p.examine w late := by
  simp only [examine, setWorker, List.set_set]
  rfl

/-- A submission that joins the handles of expired workers does so as `Change` says. -/
theorem change_of_reap {p q : Pool τ} {s : Nat} (h : p.reap s = some q) : Change p .move q := by
  rw [reap] at h
  split at h
  · rename_i task at_s
    cases h
    exact Change.reapNone s task at_s
  · rename_i task w rest at_s
    split at h
    · rename_i exited
      cases h
      exact Change.reap s task w rest at_s (hasExited_iff.mp exited)
    · cases h
  · cases h

/-- A submission that looks at the pool for the first time does so as `Change` says. -/
theorem change_of_enter {p q : Pool τ} {s : Nat} {start : Bool} {alert : Option Nat}
    (h : p.enter s start alert = some q) : Change p .move q := by
  rw [enter] at h
  split at h
  · rename_i task at_s
    have same : p.waitingWithout (.entering task) = p.waiting := by
      simp [waitingWithout, Submission.isWaiting]
    split at h
    · rename_i is_closed
      cases h
      have hchange := Change.refuseClosed s _ task at_s rfl is_closed
      rw [same] at hchange
      exact hchange
    · rename_i is_open
      have is_open : p.closed = false := by simpa using is_open
      split at h
      · rename_i full
        split at h
        · rename_i refuses
          cases h
          exact Change.refuseFull s task at_s is_open full refuses
        · rename_i blocks
          cases h
          exact Change.block s task at_s is_open full (by simpa using blocks)
      · rename_i free
        have granted : { p with waiting := p.waitingWithout (.entering task) }.grantSlot
            s task start alert = some q := by
          rw [same]
          exact h
        exact change_of_grantSlot at_s rfl is_open (by omega) granted
  · cases h

/-- A submission that looks at the pool after a sleep does so as `Change` says. -/
theorem change_of_resume {p q : Pool τ} {s : Nat} {start : Bool} {alert : Option Nat}
    (h : p.resume s start alert = some q) : Change p .move q := by
  rw [resume] at h
  split at h
  · rename_i task told at_s
    split at h
    · rename_i is_closed
      cases h
      exact Change.refuseClosed s _ task at_s rfl is_closed
    · rename_i is_open
      have is_open : p.closed = false := by simpa using is_open
      split at h
      · rename_i free
        exact change_of_grantSlot at_s rfl is_open free h
      · rename_i full
        cases h
        exact Change.sleepOn s task told at_s is_open (by omega)
  · cases h

/-- A worker looks at the queue as `Change` says. -/
theorem change_of_look {p q : Pool τ} {w : Nat} {late : Bool} (h : p.look w late = some q) :
    Change p .move q := by
  rw [look] at h
  split at h
  · rename_i at_w
    cases late with
    | true => cases h
    | false =>
      cases h
      exact change_of_examine at_w rfl nofun
  · rename_i at_w
    cases h
    exact change_of_examine at_w rfl fun _ => rfl
  · cases h

/-- An accepted task is announced as `Change` says. -/
theorem change_of_announce {p q : Pool τ} {s : Nat} {alert : Option Nat}
    (h : p.announce s alert = some q) : Change p .move q := by
  rw [announce] at h
  split at h
  · rename_i at_s
    obtain ⟨workers, roused, rfl⟩ := roused_of_alertWorker h
    exact Change.announce s workers at_s roused
  · cases h

/-- A worker gives its slot back and stands where a woken one does, and then it looks at the
queue. -/
theorem eq_of_giveBack {p q : Pool τ} {w : Nat} {alert : Option Nat}
    (h : p.giveBack w alert = some q) :
    ∃ task submissions, p.workers[w]? = some (.ended task) ∧ Told p.submissions submissions ∧
      q = examine { p with
        inFlight := p.inFlight - 1
        idle := p.idle + 1
        workers := p.workers.set w .woken
        submissions } w false := by
  rw [giveBack] at h
  split at h
  · rename_i task at_w
    obtain ⟨m, hm, hq⟩ := Option.bind_eq_some_iff.mp h
    obtain ⟨submissions, told, rfl⟩ := told_of_alertSubmitter hm
    cases hq
    exact ⟨task, submissions, at_w, told, (examine_setWorker _ w .woken false).symm⟩
  · cases h

/-- To give a slot back is one thing, and to look at the queue after that is another. -/
theorem twoChanges_of_giveBack {p q : Pool τ} {w : Nat} {alert : Option Nat}
    (h : p.giveBack w alert = some q) : TwoChanges p q := by
  obtain ⟨task, submissions, at_w, told, rfl⟩ := eq_of_giveBack h
  refine ⟨_, Change.giveBack w task submissions at_w told, ?_⟩
  have in_range : w < p.workers.length := (List.getElem?_eq_some_iff.mp at_w).1
  exact change_of_examine (List.getElem?_set_self in_range) rfl nofun

/-- A release joins a handle as `Change` says. -/
theorem change_of_join {p q : Pool τ} {r : Nat} (h : p.join r = some q) : Change p .move q := by
  rw [join] at h
  split at h
  · rename_i own w rest at_r
    split at h
    · rename_i is_over
      have hchange := Change.join r own w rest at_r (is_over.imp_right hasExited_iff.mp)
      split at h
      · rename_i last
        cases h
        simp only [if_pos last] at hchange
        exact hchange
      · rename_i more
        cases h
        simp only [if_neg more] at hchange
        exact hchange
    · cases h
  · cases h

/-- A move is one change, unless a worker gives its slot back. -/
theorem change_of_single {p q : Pool τ} {m : Move} (h : p.move m = some q)
    (single : ∀ w alert, m ≠ .giveBack w alert) : Change p .move q := by
  cases m with
  | reap s => exact change_of_reap h
  | enter s start alert => exact change_of_enter h
  | resume s start alert => exact change_of_resume h
  | stirSubmitter s =>
    rw [move, stirSubmitter] at h
    split at h
    · rename_i task at_s
      cases h
      exact Change.stirSubmitter s task at_s
    · cases h
  | announce s alert => exact change_of_announce h
  | stirWorker w =>
    rw [move, stirWorker] at h
    split at h
    · rename_i at_w
      cases h
      exact Change.stirWorker w at_w
    · cases h
  | look w late => exact change_of_look h
  | giveBack w alert => exact absurd rfl (single w alert)
  | close r =>
    rw [move, close] at h
    split at h
    · rename_i own at_r
      cases h
      exact Change.close r own at_r
    · cases h
  | alertWorkers r =>
    rw [move, alertWorkers] at h
    split at h
    · rename_i own handles at_r
      cases h
      exact Change.alertWorkers r own handles at_r
    · cases h
  | alertSubmitters r =>
    rw [move, alertSubmitters] at h
    split at h
    · rename_i own handles at_r
      cases h
      exact Change.alertSubmitters r own handles at_r
    · cases h
  | join r => exact change_of_join h

/-- A move is one change or two. -/
theorem change_of_move {p q : Pool τ} {m : Move} (h : p.move m = some q) :
    Change p .move q ∨ TwoChanges p q := by
  by_cases gives : ∃ w alert, m = .giveBack w alert
  · obtain ⟨w, alert, rfl⟩ := gives
    exact Or.inr (twoChanges_of_giveBack h)
  · exact Or.inl (change_of_single h fun w alert hm => gives ⟨w, alert, hm⟩)

/-- A submission begins as `Change` says. -/
theorem change_of_submit (p : Pool τ) (task : Option τ) : Change p .call (p.submit task) := by
  cases task with
  | none => exact Change.refuseEmpty
  | some task =>
    rw [submit]
    split
    · rename_i none_expired
      exact Change.arrive task none_expired
    · exact Change.arriveReaping task

/-- A task ends as `Change` says. -/
theorem change_of_finish {p q : Pool τ} {w : Nat} {escape : Option Panic}
    (h : p.finish w escape = some q) : Change p .move q := by
  rw [finish] at h
  split at h
  · rename_i task at_w
    cases h
    exact Change.finish w task escape at_w
  · cases h

/-- A step is one change or two. -/
theorem change_of_step {p q : Pool τ} {e : Event τ} (h : p.step e = some q) :
    (∃ c, Change p c q) ∨ TwoChanges p q := by
  cases e with
  | submit task =>
    cases h
    exact Or.inl ⟨.call, change_of_submit p task⟩
  | finish w escape => exact Or.inl ⟨.move, change_of_finish h⟩
  | release own =>
    cases h
    exact Or.inl ⟨.call, Change.callRelease own⟩
  | move m => exact (change_of_move h).imp_left fun hc => ⟨.move, hc⟩

/-! ## What all changes keep -/

/-- A new pool, or what becomes of one by changes. -/
inductive Arises : Pool τ → Prop where
  | create {name : String} {capacity : Nat} {expiry : Int64} {nonBlocking : Bool} {p : Pool τ} :
      create name capacity expiry nonBlocking = .ok p → Arises p
  | change {p q : Pool τ} {c : Cause} : Arises p → Change p c q → Arises q

/-- A step of a pool is a change, so what arises by changes includes what it leads to. -/
theorem Arises.step {p q : Pool τ} {e : Event τ} (h : p.Arises) (hstep : p.step e = some q) :
    q.Arises := by
  rcases change_of_step hstep with ⟨c, hc⟩ | ⟨m, hm, hq⟩
  · exact h.change hc
  · exact (h.change hm).change hq

/-- Every reachable pool arises by changes. -/
theorem Reachable.arises {p : Pool τ} (h : p.Reachable) : p.Arises := by
  induction h with
  | create hc => exact Arises.create hc
  | step _ hs ih => exact ih.step hs

/-- What a new pool looks like. -/
theorem eq_of_create {name : String} {capacity : Nat} {expiry : Int64} {nonBlocking : Bool}
    {p : Pool τ} (h : create name capacity expiry nonBlocking = .ok p) :
    0 < capacity ∧ 0 < expiry ∧
      p = { name, capacity, expiry, nonBlocking, journal := [.opened] } := by
  rw [create] at h
  split at h
  · cases h
  · split at h
    · cases h
    · rename_i hcapacity hexpiry
      cases h
      exact ⟨Nat.pos_of_ne_zero hcapacity, by simpa using hexpiry, rfl⟩

end Pool

end TaskPools
