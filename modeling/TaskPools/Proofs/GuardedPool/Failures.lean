/-
# Failed submissions leave no trace

A guarded pool changes nothing of its own when its pool refuses a submission, and when it passes the
refusal on it counts no more than an overload.  Together with what a failing submission does to the
pool itself, this says that a submission that fails leaves the guarded pool as it was
(`failed_submissions_leave_pool`).
-/
import TaskPools.Proofs.GuardedPool.Release
import TaskPools.Proofs.Pool.Failures

namespace TaskPools

variable {τ : Type}

namespace GuardedPool

section

variable {g g' : GuardedPool τ} {e : Event τ} {s : Nat} {fault : Fault}

/-- A task that ends is no answer to a submission. -/
theorem not_fails_of_finish {w : Nat} {escape : Option Panic} {p : Pool τ}
    (finishes : g.pool.finish w escape = some p) : ¬ g.pool.FailsWith s fault p := by
  intro fails
  rw [Pool.finish] at finishes
  split at finishes
  · cases finishes
    exact fails.unsettled fails.failed
  · cases finishes

/-- Where the pool refuses a submission, the guard changes nothing of its own. -/
theorem Change.eq_of_fails (hc : Change g e g') (fails : g.pool.FailsWith s fault g'.pool) :
    g' = { g with pool := g'.pool, replies := g'.replies } := by
  cases hc with
  | submit | pool => rfl
  | returns w escape p finishes | panics w panic escape p finishes =>
    exact absurd fails (not_fails_of_finish finishes)
  | answer s' fault' =>
    have failed := fails.failed
    rw [show (GuardedPool.count g fault').pool = g.pool from pool_count g fault'] at failed
    exact absurd failed fails.unsettled
  | release | sample | gauge | launch | launchInline | complete | elapse =>
    exact absurd fails.failed fails.unsettled

/-- Where the guard passes a refusal on, it counts an overload and nothing else. -/
theorem Change.eq_of_refusal (hc : Change g e g') (unanswered : g.replies[s]? = some .pending)
    (refused : g'.replies[s]? = some (.given (some fault))) :
    g' = { g with rejected := g'.rejected, replies := g'.replies } := by
  cases hc with
  | submit task =>
    have there := (List.getElem?_eq_some_iff.mp unanswered).1
    rw [List.getElem?_append_left there, unanswered] at refused
    cases refused
  | answer s' fault' settled open_s =>
    have answered := getElem?_set_at open_s (.given (fault'.map translate)) s
    have given := answered.symm.trans refused
    split at given
    · cases fault' with
      | none => cases given
      | some fault' => cases fault' <;> rfl
    · cases unanswered.symm.trans given
  | release | sample | gauge | pool | returns | panics | launch | launchInline | complete
  | elapse => cases unanswered.symm.trans refused

/-- **Failed submissions leave the pool as it was.**  A submission to a pool fails with one of four
faults, and the step by which it fails leaves the queue, the slots in use, the idle, the listed and
the live workers and every other submission as they were, but for the number of a worker that did
not start and a sleeper that hears of the slot; the submission is no longer counted as blocked.  The
same holds of every earlier step that the submission took of itself.  A guard counts nothing when
its pool refuses a submission, and when it passes the refusal on it leaves its pool and its counters
of submitted, completed and panicked tasks alone. -/
theorem failed_submissions_leave_pool :
    (∀ {p q : Pool τ} {e : Pool.Event τ} {s : Nat} {fault : Fault}, p.Reachable →
      p.step e = some q → p.FailsWith s fault q →
        fault ∈ p.faults ∧ p.Spares s q ∧ q.live = p.live ∧
          q.waiting = p.waiting - (p.waits s).toNat ∧ q.waits s = false) ∧
    (∀ {p q : Pool τ} {e : Pool.Event τ} {s : Nat}, p.Reachable → p.step e = some q →
      p.Acts s q → q.hasAccepted s = false → p.Spares s q) ∧
    (∀ {g g' : GuardedPool τ} {e : Event τ} {s : Nat} {fault : Fault}, g.Reachable →
      g.step e = some g' →
        (g.pool.FailsWith s fault g'.pool →
          g' = { g with pool := g'.pool, replies := g'.replies }) ∧
        (g.replies[s]? = some .pending → g'.replies[s]? = some (.given (some fault)) →
          g' = { g with rejected := g'.rejected, replies := g'.replies })) := by
  refine ⟨fun h hstep fails => ?_, fun h hstep acts unaccepted => ?_, fun h hstep => ⟨?_, ?_⟩⟩
  · obtain ⟨known, spares, waiting⟩ := h.spares_of_fails hstep fails
    have waits_not := congrArg (Option.any Submission.isWaiting) fails.failed
    exact ⟨known, spares, spares.live_eq.1, waiting, waits_not⟩
  · exact h.spares hstep acts unaccepted
  · exact (change_of_step hstep).eq_of_fails
  · exact (change_of_step hstep).eq_of_refusal

end

/-- Three tasks run in a pool of three slots and three more submitters are blocked; two of the tasks
end, their workers expire, and one of the two submitters who were told asks again: a worker is
started for its task. -/
def twoToldOfSlots : List (Event Nat) :=
  [.submit (some 1), .move (.pool (.enter 0 true none)), .move (.pool (.announce 0 none)),
    .move (.pool (.look 0 false)), .submit (some 2), .move (.pool (.enter 1 true none)),
    .move (.pool (.announce 1 none)), .move (.pool (.look 1 false)), .submit (some 3),
    .move (.pool (.enter 2 true none)), .move (.pool (.announce 2 none)),
    .move (.pool (.look 2 false)), .submit (some 4), .move (.pool (.enter 3 true none)),
    .submit (some 5), .move (.pool (.enter 4 true none)), .submit (some 6),
    .move (.pool (.enter 5 true none)), .move (.conclude 0 none none),
    .move (.pool (.giveBack 0 (some 3))), .move (.pool (.stirWorker 0)),
    .move (.pool (.look 0 true)), .move (.conclude 1 none none),
    .move (.pool (.giveBack 1 (some 4))), .move (.pool (.stirWorker 1)),
    .move (.pool (.look 1 true)), .move (.pool (.resume 4 true none))]

/-- The other submitter asks again, and no worker starts for it: the queued task, the slots, the
worker that is starting and the counters stay, the third submitter hears of the slot, and only the
one that failed is no longer counted.  Nor does its answer change anything else. -/
theorem failed_start_leaves_pool :
    ∃ g₀ g g' g'' : GuardedPool Nat,
      create { name := "io", size := 3, nonBlocking := false } true = .ok g₀ ∧
      g₀.run twoToldOfSlots = some g ∧
      g.step (.move (.pool (.resume 3 false (some 5)))) = some g' ∧
      g'.step (.move (.answer 3)) = some g'' ∧
      g''.replies[3]? = some (.given (some (.startFailed "io"))) ∧
      (g.pool.queue, g.pool.inFlight, g.pool.idle, g.pool.live, g.pool.waiting)
        = ([5], 2, 1, 2, 2) ∧
      (g'.pool.queue, g'.pool.inFlight, g'.pool.idle, g'.pool.live, g'.pool.waiting)
        = ([5], 2, 1, 2, 1) ∧
      g'.pool.submissions[5]? = some (.woken 6 true) ∧
      g''.pool = g'.pool ∧ (g''.submitted, g''.completed, g''.panicked) = (0, 2, 0) := by
  obtain ⟨g₀, g, g', g'', hcreate, hrun, hfail, hpool, hanswer, at_s, failed, asleep, told, pending,
      given, figures, counters⟩ :
      ∃ g₀ g g' g'' : GuardedPool Nat,
        create { name := "io", size := 3, nonBlocking := false } true = .ok g₀ ∧
        g₀.run twoToldOfSlots = some g ∧
        g.step (.move (.pool (.resume 3 false (some 5)))) = some g' ∧
        g.pool.step (.move (.resume 3 false (some 5))) = some g'.pool ∧
        g'.step (.move (.answer 3)) = some g'' ∧
        g.pool.submissions[3]? = some (.woken 4 true) ∧
        g'.pool.submissions[3]? = some (.returned (some (.startFailed "io"))) ∧
        g.pool.submissions[5]? = some (.parked 6) ∧
        g'.pool.submissions[5]? ≠ some (.parked 6) ∧
        g'.replies[3]? = some .pending ∧
        g''.replies[3]? = some (.given (some (.startFailed "io"))) ∧
        (g.pool.queue, g.pool.inFlight, g.pool.idle, g.pool.live, g.pool.waiting)
          = ([5], 2, 1, 2, 2) ∧
        (g.submitted, g.completed, g.panicked) = (0, 2, 0) :=
    ⟨_, _, _, _, rfl, rfl, rfl, rfl, rfl, rfl, rfl, rfl, by decide, rfl, rfl, rfl, rfl⟩
  have reachable : g.Reachable := (Reachable.create hcreate).run hrun
  have fails : g.pool.FailsWith 3 (.startFailed "io") g'.pool := ⟨by rw [at_s]; nofun, failed⟩
  obtain ⟨of_pool, -, of_guard⟩ := @failed_submissions_leave_pool Nat
  obtain ⟨-, spares, live_eq, waiting_eq, -⟩ := of_pool reachable.pool hpool fails
  have refused := (of_guard reachable hfail).1 fails
  have answered := (of_guard (reachable.step hfail) hanswer).2 pending given
  simp only [Prod.mk.injEq] at figures counters
  obtain ⟨queue, inFlight, idle, live, waiting⟩ := figures
  have waits : g.pool.waits 3 = true := by rw [Pool.waits, at_s]; rfl
  rw [waits, waiting] at waiting_eq
  refine ⟨g₀, g, g', g'', hcreate, hrun, hfail, hanswer, given, ?_, ?_, ?_, by rw [answered], ?_⟩
  · rw [queue, inFlight, idle, live, waiting]
  · rw [spares.queue_eq, spares.inFlight_eq, spares.idle_eq, live_eq, waiting_eq, queue, inFlight,
      idle, live]
    rfl
  · obtain still | ⟨task, hx, woken⟩ := spares.others (by decide) asleep
    · exact absurd still told
    · cases hx
      exact woken
  · rw [answered, refused]
    simp only [Prod.mk.injEq]
    exact counters

end GuardedPool

end TaskPools
