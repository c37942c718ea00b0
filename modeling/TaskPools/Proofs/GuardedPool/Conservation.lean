/-
# The counters of a guarded pool balance

Submissions are counted when they are answered, by the thread that submits, and tasks when they end,
by the worker that runs them.  At every moment the accepted tasks are those counted as submitted and
those whose submission is not yet answered (`Reachable.submitted_add_uncounted`), and the tasks
counted as completed or panicked are those that have ended (`Reachable.over_eq_ended`).  So the
counters balance but for what is under way, and in a guarded pool at rest (`AtRest`) that is only
what its workers execute (`counters_conserved`).
-/
import TaskPools.Proofs.GuardedPool.Statistics
import TaskPools.Proofs.Pool.Admission

namespace TaskPools

variable {τ : Type}

namespace GuardedPool

/-- The pool is at rest, and every submission that it has settled is answered. -/
structure AtRest (g : GuardedPool τ) : Prop where
  pool : g.pool.AtRest
  answered : ∀ x ∈ g.pool.submissions.zip g.replies, x.1.isReturned = true → x.2 ≠ .pending

instance (g : GuardedPool τ) : Decidable g.AtRest :=
  decidable_of_iff (g.pool.AtRest ∧
      ∀ x ∈ g.pool.submissions.zip g.replies, x.1.isReturned = true → x.2 ≠ .pending)
    ⟨fun ⟨pool, answered⟩ => ⟨pool, answered⟩, fun rest => ⟨rest.pool, rest.answered⟩⟩

section

variable {g g' : GuardedPool τ} {e : Event τ} {es : List (Event τ)}

/-! ## Refusals -/

/-- Only a full pool makes the guard say that it is overloaded. -/
theorem poolFull_of_translate {fault : Fault} (explained : g.pool.Explains fault)
    (translated : translate fault = .overloaded) :
    ∃ name capacity, fault = .poolFull name capacity := by
  cases fault with
  | poolFull name capacity => exact ⟨name, capacity, rfl⟩
  | emptyTask | startFailed | poolClosed => cases translated
  | _ => exact explained.elim

/-- The answers of an overloaded pool are counted as rejected. -/
theorem Change.rejected_eq (hc : Change g e g') (explained : g.pool.FaultsExplained)
    (h : g.rejected = g.replies.countP (· == .given (some .overloaded))) :
    g'.rejected = g'.replies.countP (· == .given (some .overloaded)) := by
  cases hc with
  | submit =>
    rw [List.countP_append]
    exact h
  | answer s fault settled open_s =>
    have hset := countP_set_add (· == .given (some .overloaded)) open_s
      (.given (fault.map translate))
    rcases fault with _ | fault
    · exact h.trans hset.symm
    · by_cases full : ∃ name capacity, fault = .poolFull name capacity
      · obtain ⟨name, capacity, rfl⟩ := full
        exact (congrArg (· + 1) h).trans hset.symm
      · have other : translate fault ≠ .overloaded := fun translated =>
          full (poolFull_of_translate (explained s fault settled) translated)
        have uncounted : (Reply.given (some (translate fault)) == .given (some .overloaded))
            = false := by simpa using other
        have same : (g.count (some fault)).rejected = g.rejected := by
          cases fault with
          | poolFull name capacity => exact absurd ⟨name, capacity, rfl⟩ full
          | _ => rfl
        rw [Option.map_some, uncounted] at hset
        exact same.trans (h.trans hset.symm)
  | release | sample | gauge | pool | returns | panics | launch | launchInline | complete
  | elapse => exact h

theorem Reachable.rejected_eq (h : g.Reachable) :
    g.rejected = g.replies.countP (· == .given (some .overloaded)) := by
  induction h with
  | create hcreate =>
    obtain ⟨-, pool, -, rfl⟩ := eq_of_create hcreate
    rfl
  | step before hstep ih =>
    exact (change_of_step hstep).rejected_eq before.pool.arises.faultsExplained ih

/-! ## The balance -/

/-- What is counted as submitted and what is not yet counted is over or not finished. -/
theorem Reachable.balance (h : g.Reachable) :
    g.submitted + g.uncounted = g.completed + g.panicked + g.pool.unfinished := by
  have ended := h.over_eq_ended
  have accepted := h.submitted_add_uncounted
  have ended_le := h.pool.arises.ended_le_accepted
  rw [Pool.unfinished]
  omega

theorem Reachable.unfinished_of_nobody (h : g.Reachable) (nobody : g.pool.live = 0) :
    g.pool.unfinished = 0 := by
  have ended := (h.pool.arises.ended_perm nobody).2.length_eq
  rw [Pool.unfinished, ended, Nat.sub_self]

/-- At rest every accepted task is counted. -/
theorem AtRest.uncounted_eq (rest : g.AtRest) : g.uncounted = 0 := by
  rw [uncounted, List.countP_eq_zero]
  rintro ⟨x, reply⟩ among pending
  obtain ⟨accepted, unanswered⟩ := Bool.and_eq_true_iff.mp pending
  have returned : x.isReturned = true := by
    rcases rest.pool.settled x (List.of_mem_zip among).1 with returned | asleep
    · exact returned
    · cases x <;> first | exact accepted | cases asleep
  exact rest.answered _ among returned (eq_of_beq unanswered)

/-- **The counters balance.**  At every moment of every run the submitted tasks are the submissions
that were answered with success, the rejected ones those that were answered with an overload, and
each task that ended is counted once, as completed or as panicked; so the submitted tasks, together
with those accepted but not yet answered, are the completed, the panicked and the unfinished ones.
At rest nothing is unanswered, and the unfinished tasks are those that the workers execute; once no
worker is left, there are none.  No counter ever decreases. -/
theorem counters_conserved {g₀ : GuardedPool τ} {config : PoolConfig} {watched : Bool}
    (hcreate : create config watched = .ok g₀) (hrun : g₀.run es = some g) :
    g.submitted = g.replies.countP (· == .given none) ∧
    g.rejected = g.replies.countP (· == .given (some .overloaded)) ∧
    g.completed + g.panicked = g.pool.ended.length ∧
    g.submitted + g.uncounted = g.completed + g.panicked + g.pool.unfinished ∧
    (g.AtRest → g.submitted = g.completed + g.panicked + g.pool.unfinished ∧
      g.pool.unfinished = g.pool.executing ∧
      (g.pool.live = 0 → g.submitted = g.completed + g.panicked)) ∧
    ∀ fs g', g.run fs = some g' → g.CountsUp g' := by
  have h : g.Reachable := (Reachable.create hcreate).run hrun
  refine ⟨h.submitted_eq, h.rejected_eq, h.over_eq_ended, h.balance, fun rest => ?_,
    fun fs g' later => LeadsTo.countsUp ⟨fs, later⟩⟩
  have balance := h.balance
  rw [rest.uncounted_eq, Nat.add_zero] at balance
  refine ⟨balance, rest.pool.unfinished_eq h.pool.arises, fun nobody => ?_⟩
  rw [h.unfinished_of_nobody nobody, Nat.add_zero] at balance
  exact balance

end

/-- In a pool of one slot whose handler throws, a submission is empty, one is accepted, one is
rejected and one fails because no thread starts for it; between the last two the task panics and its
worker expires. -/
def mixedAnswers : List (Event Nat) :=
  [.submit none, .move (.answer 0), .submit (some 7), .move (.pool (.enter 1 true none)),
    .move (.pool (.announce 1 none)), .move (.answer 1), .move (.pool (.look 0 false)),
    .submit (some 8), .move (.pool (.enter 2 true none)), .move (.answer 2),
    .move (.conclude 0 (some (.error "late")) (some .unknown)), .move (.pool (.giveBack 0 none)),
    .move (.pool (.stirWorker 0)), .move (.pool (.look 0 true)), .submit (some 9),
    .move (.pool (.reap 3)), .move (.pool (.enter 3 false none)), .move (.answer 3)]

/-- Another task is accepted and runs when a release gives the pool up. -/
def abandonedTask : List (Event Nat) :=
  [.submit (some 10), .move (.pool (.enter 4 true none)), .move (.pool (.announce 4 none)),
    .move (.answer 4), .move (.pool (.look 2 false)), .release none 50, .move (.launch 0 true),
    .move (.pool (.close 0)), .move (.pool (.alertWorkers 0)), .move (.pool (.alertSubmitters 0)),
    .move (.elapse 0)]

/-- The task ends at last, and the pool drains. -/
def lateDrain : List (Event Nat) :=
  [.move (.conclude 2 none none), .move (.pool (.giveBack 2 none)), .move (.pool (.join 0))]

/-- While the task runs after the release has given up, it makes up for the balance; once the pool
has drained, the counters balance by themselves, and none of them has decreased. -/
theorem counters_after_mixed_answers :
    ∃ g₀ g g' : GuardedPool Nat, create { name := "io", size := 1 } true = .ok g₀ ∧
      g₀.run (mixedAnswers ++ abandonedTask) = some g ∧ g.run lateDrain = some g' ∧
      g.releases = [.returned (some (.shutdownTimeout "io"))] ∧
      (g.submitted, g.completed, g.panicked, g.rejected) = (2, 0, 1, 1) ∧
      g.pool.unfinished = 1 ∧ g.submitted = g.completed + g.panicked + g.pool.unfinished ∧
      (g'.submitted, g'.completed, g'.panicked, g'.rejected) = (2, 1, 1, 1) ∧
      g'.submitted = g'.completed + g'.panicked ∧ g.CountsUp g' := by
  obtain ⟨g₀, g, g', hcreate, hrun, later, releases, counters, unfinished, rest, counters', rest',
      nobody, all⟩ :
      ∃ g₀ g g' : GuardedPool Nat, create { name := "io", size := 1 } true = .ok g₀ ∧
        g₀.run (mixedAnswers ++ abandonedTask) = some g ∧ g.run lateDrain = some g' ∧
        g.releases = [.returned (some (.shutdownTimeout "io"))] ∧
        (g.submitted, g.completed, g.panicked, g.rejected) = (2, 0, 1, 1) ∧
        g.pool.unfinished = 1 ∧ g.AtRest ∧
        (g'.submitted, g'.completed, g'.panicked, g'.rejected) = (2, 1, 1, 1) ∧ g'.AtRest ∧
        g'.pool.live = 0 ∧ g₀.run (mixedAnswers ++ abandonedTask ++ lateDrain) = some g' :=
    ⟨_, _, _, rfl, rfl, rfl, rfl, rfl, rfl, by decide, rfl, by decide, rfl, rfl⟩
  obtain ⟨-, -, -, -, at_rest, counts_up⟩ := counters_conserved hcreate hrun
  obtain ⟨-, -, -, -, at_rest', -⟩ := counters_conserved hcreate all
  exact ⟨g₀, g, g', hcreate, hrun, later, releases, counters, unfinished, (at_rest rest).1,
    counters', (at_rest' rest').2.2 nobody, counts_up _ _ later⟩

end GuardedPool

end TaskPools
