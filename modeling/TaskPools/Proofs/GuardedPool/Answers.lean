/-
# What a guarded pool answers

The guard answers a submission once its pool has settled it, with success if and only if the task
was accepted.  It says that the manager is closed only where its pool is closed, and its pool is
closed only if somebody asked the guard for a release.
-/
import TaskPools.Proofs.GuardedPool.Change

namespace TaskPools

variable {τ : Type}

/-- The release has returned to its caller. -/
def TimedRelease.hasReturned : TimedRelease → Bool
  | .returned _ => true
  | _ => false

namespace GuardedPool

section

variable {g g' : GuardedPool τ} {e : Event τ}

/-! ## The pool inside -/

/-- What a new guarded pool looks like. -/
theorem eq_of_create {config : PoolConfig} {watched : Bool} (h : create config watched = .ok g) :
    config.name ≠ "" ∧ ∃ pool, Pool.create config.name config.repaired.capacity
      config.repaired.expiry config.nonBlocking = .ok pool ∧
      g = { config := config.repaired, watched, pool,
            journal := config.repairs.map .repaired } := by
  rw [create, PoolConfig.validate] at h
  split at h
  · cases h
  · rename_i named
    refine ⟨named, ?_⟩
    simp only [bind, Except.bind] at h
    split at h
    · rename_i pool hpool
      cases h
      exact ⟨pool, hpool, rfl⟩
    · cases h

/-- To count an answer touches nothing but the counters. -/
theorem pool_count (g : GuardedPool τ) (fault : Option Fault) :
    (g.count fault).pool = g.pool := by
  rcases fault with _ | fault
  · rfl
  · cases fault <;> rfl

theorem releases_count (g : GuardedPool τ) (fault : Option Fault) :
    (g.count fault).releases = g.releases := by
  rcases fault with _ | fault
  · rfl
  · cases fault <;> rfl

/-- No step changes the settings of a guarded pool. -/
theorem Change.settings_eq (hc : Change g e g') :
    g'.config = g.config ∧ g'.watched = g.watched := by
  cases hc with
  | answer s fault =>
    rcases fault with _ | fault
    · exact ⟨rfl, rfl⟩
    · cases fault <;> exact ⟨rfl, rfl⟩
  | _ => exact ⟨rfl, rfl⟩

/-- The pool stays as it is or takes a step. -/
theorem Change.pool_step (hc : Change g e g') :
    g'.pool = g.pool ∨ ∃ e', g.pool.step e' = some g'.pool := by
  cases hc with
  | submit task => exact Or.inr ⟨.submit task, rfl⟩
  | pool m p moves => exact Or.inr ⟨.move m, moves⟩
  | returns w escape p finishes => exact Or.inr ⟨.finish w none, finishes⟩
  | panics w panic escape p finishes => exact Or.inr ⟨.finish w _, finishes⟩
  | launch t own bound => exact Or.inr ⟨.release none, rfl⟩
  | launchInline t own bound => exact Or.inr ⟨.release own, rfl⟩
  | answer s fault => exact Or.inl (pool_count g fault)
  | release | sample | gauge | complete | elapse => exact Or.inl rfl

theorem Reachable.pool (h : g.Reachable) : g.pool.Reachable := by
  induction h with
  | create hcreate =>
    obtain ⟨-, pool, hpool, rfl⟩ := eq_of_create hcreate
    exact Pool.Reachable.create hpool
  | step _ hstep ih =>
    rcases (change_of_step hstep).pool_step with hsame | ⟨e', hpool⟩
    · rw [hsame]
      exact ih
    · exact ih.step hpool

/-- By itself a guarded pool does to its submissions what any pool does. -/
theorem Change.settlesOn {m : Move} (hc : Change g (.move m) g') :
    Pool.SettlesOn g.pool g'.pool := by
  cases hc with
  | pool m p moves =>
    rcases Pool.change_of_move moves with hc | ⟨p', hc, hc'⟩
    · exact Relation.ReflTransGen.single hc.settles
    · exact (Relation.ReflTransGen.single hc.settles).tail hc'.settles
  | returns w escape p finishes | panics w panic escape p finishes =>
    exact Relation.ReflTransGen.single (Pool.change_of_finish finishes).settles
  | launch | launchInline =>
    exact Relation.ReflTransGen.single (Or.inl (Pool.Steady.same rfl rfl))
  | answer s fault => exact (pool_count g fault).symm ▸ Relation.ReflTransGen.refl
  | complete | elapse => exact Relation.ReflTransGen.refl

/-! ## Answers -/

/-- Each submission has an answer or awaits one, and an answer is what the pool settled. -/
structure Answered (g : GuardedPool τ) : Prop where
  length_eq : g.replies.length = g.pool.submissions.length
  settled : ∀ (s : Nat) (answer : Option Fault), g.replies[s]? = some (.given answer) →
    ∃ fault, g.pool.submissions[s]? = some (.returned fault) ∧ answer = fault.map translate

/-- No answer is given, and the pool goes on by itself. -/
theorem Answered.step (h : g.Answered) (hreplies : g'.replies = g.replies)
    (hlength : g'.pool.submissions.length = g.pool.submissions.length) {e' : Pool.Event τ}
    (hpool : g.pool.step e' = some g'.pool) : g'.Answered := by
  refine ⟨?_, fun s answer hs => ?_⟩
  · rw [hreplies, hlength]
    exact h.length_eq
  · rw [hreplies] at hs
    obtain ⟨fault, hfault, rfl⟩ := h.settled s answer hs
    exact ⟨fault, Pool.step_returned hpool hfault, rfl⟩

theorem Answered.same (h : g.Answered) (hreplies : g'.replies = g.replies)
    (hsubmissions : g'.pool.submissions = g.pool.submissions) : g'.Answered := by
  refine ⟨?_, fun s answer hs => ?_⟩
  · rw [hreplies, hsubmissions]
    exact h.length_eq
  · rw [hreplies] at hs
    rw [hsubmissions]
    exact h.settled s answer hs

theorem Answered.submit (h : g.Answered) (task : Option τ)
    (hreplies : g'.replies = g.replies ++ [.pending]) (hpool : g'.pool = g.pool.submit task) :
    g'.Answered := by
  refine ⟨?_, fun s answer hs => ?_⟩
  · rw [hreplies, hpool, Pool.length_submissions_submit, List.length_append, h.length_eq]
    rfl
  · rw [hreplies, getElem?_append_one] at hs
    split at hs
    · cases hs
    · obtain ⟨fault, hfault, rfl⟩ := h.settled s answer hs
      rw [hpool]
      exact ⟨fault, (Pool.change_of_submit g.pool task).returned hfault, rfl⟩

theorem Answered.answer (h : g.Answered) {s : Nat} {fault : Option Fault}
    (settled : g.pool.submissions[s]? = some (.returned fault))
    (hreplies : g'.replies = g.replies.set s (.given (fault.map translate)))
    (hsubmissions : g'.pool.submissions = g.pool.submissions) : g'.Answered := by
  refine ⟨?_, fun s' answer hs => ?_⟩
  · rw [hreplies, hsubmissions, List.length_set]
    exact h.length_eq
  · rw [hsubmissions]
    rw [hreplies, List.getElem?_set] at hs
    by_cases hne : s = s'
    · rw [if_pos hne] at hs
      split at hs
      · cases hs
        rw [← hne]
        exact ⟨fault, settled, rfl⟩
      · cases hs
    · rw [if_neg hne] at hs
      exact h.settled s' answer hs

theorem Answered.change (h : g.Answered) (hc : Change g e g') : g'.Answered := by
  cases hc with
  | submit task => exact h.submit task rfl rfl
  | answer s fault settled open_s =>
    exact h.answer settled rfl (congrArg Pool.submissions (pool_count g fault))
  | pool m p moves =>
    have hstep : g.pool.step (.move m) = some p := moves
    refine h.step rfl ?_ hstep
    rcases Pool.change_of_move moves with hc | ⟨p', hc, hc'⟩
    · exact hc.length_submissions
    · exact hc'.length_submissions.trans hc.length_submissions
  | returns w escape p finishes | panics w panic escape p finishes =>
    have hstep : g.pool.step (.finish w _) = some p := finishes
    exact h.step rfl (Pool.change_of_finish finishes).length_submissions hstep
  | release | sample | gauge | launch | launchInline | complete | elapse => exact h.same rfl rfl

theorem Reachable.answered (h : g.Reachable) : g.Answered := by
  induction h with
  | create hcreate =>
    obtain ⟨-, pool, hpool, rfl⟩ := eq_of_create hcreate
    obtain ⟨-, -, rfl⟩ := Pool.eq_of_create hpool
    exact ⟨rfl, nofun⟩
  | step _ hstep ih => exact ih.change (change_of_step hstep)

/-- A submission answered with success was accepted, and one answered with a fault was not. -/
theorem Reachable.hasAccepted_iff (h : g.Reachable) {s : Nat} {answer : Option Fault}
    (hs : g.replies[s]? = some (.given answer)) :
    g.pool.hasAccepted s = answer.isNone ∧ g.pool.pending? s = none := by
  obtain ⟨fault, hfault, rfl⟩ := h.answered.settled s answer hs
  rw [Pool.hasAccepted, Pool.pending?, hfault]
  cases fault <;> exact ⟨rfl, rfl⟩

/-- The guard says that the manager is closed only where its pool is closed. -/
theorem Reachable.closed_of_answer (h : g.Reachable) {s : Nat}
    (hs : g.replies[s]? = some (.given (some .managerClosed))) : g.pool.closed = true := by
  obtain ⟨fault, hfault, htranslate⟩ := h.answered.settled s _ hs
  obtain ⟨fault, rfl, htranslate⟩ := Option.map_eq_some_iff.mp htranslate.symm
  have explained := h.pool.arises.faultsExplained s fault hfault
  cases fault <;> first | exact explained | exact explained.elim | cases htranslate

/-! ## Releases -/

/-- By itself a guarded pool asks for no release. -/
theorem Change.length_releases {m : Move} (hc : Change g (.move m) g') :
    g'.releases.length = g.releases.length := by
  cases hc with
  | answer s fault => exact congrArg List.length (releases_count g fault)
  | launch | launchInline | complete | elapse => exact List.length_set
  | pool | returns | panics => rfl

/-- Nothing that a guarded pool does but a new release leaves a release that was not there
before. -/
theorem Change.open_before (hc : Change g e g') (asks : ∀ own bound, e ≠ .release own bound)
    {t : Nat} {place : TimedRelease} (at_t : g'.releases[t]? = some place)
    (is_open : place.hasReturned = false) :
    ∃ place, g.releases[t]? = some place ∧ place.hasReturned = false := by
  have moved {s : Nat} {old new : TimedRelease} (at_s : g.releases[s]? = some old)
      (was_open : old.hasReturned = false) (h : (g.releases.set s new)[t]? = some place) :
      ∃ place, g.releases[t]? = some place ∧ place.hasReturned = false := by
    rw [getElem?_set_at at_s] at h
    split at h
    · rename_i same
      exact ⟨old, same ▸ at_s, was_open⟩
    · exact ⟨place, h, is_open⟩
  cases hc with
  | release own bound => exact absurd rfl (asks own bound)
  | submit | sample | gauge | pool | returns | panics => exact ⟨place, at_t, is_open⟩
  | answer s fault =>
    have same := releases_count g fault
    exact ⟨place, same ▸ at_t, is_open⟩
  | launch s own bound at_s | launchInline s own bound at_s => exact moved at_s rfl at_t
  | complete s r at_s =>
    rcases at_s with ⟨bound, at_s⟩ | at_s
    · exact moved at_s rfl at_t
    · exact moved at_s rfl at_t
  | elapse s r bound at_s => exact moved at_s rfl at_t

/-- The pool is released only where somebody asked the guard for it. -/
def ReleasedOnDemand (g : GuardedPool τ) : Prop :=
  0 < g.pool.releases.length → 0 < g.releases.length

theorem ReleasedOnDemand.change (h : g.ReleasedOnDemand) (hc : Change g e g') :
    g'.ReleasedOnDemand := by
  cases hc with
  | submit task =>
    have hlength : (g.pool.submit task).releases.length = g.pool.releases.length := by
      cases task with
      | none => rfl
      | some task =>
        rw [Pool.submit]
        split <;> rfl
    rw [ReleasedOnDemand, hlength]
    exact h
  | release =>
    rw [ReleasedOnDemand, List.length_append]
    exact fun _ => Nat.succ_pos _
  | pool m p moves =>
    have hlength : p.releases.length = g.pool.releases.length := by
      rcases Pool.change_of_move moves with hc | ⟨p', hc, hc'⟩
      · exact hc.length_releases
      · exact hc'.length_releases.trans hc.length_releases
    rw [ReleasedOnDemand, hlength]
    exact h
  | returns w escape p finishes | panics w panic escape p finishes =>
    rw [ReleasedOnDemand, (Pool.change_of_finish finishes).length_releases]
    exact h
  | answer s fault =>
    show 0 < (g.count fault).pool.releases.length → 0 < (g.count fault).releases.length
    rw [pool_count, releases_count]
    exact h
  | launch t own bound at_t | launchInline t own bound at_t =>
    have in_range : t < g.releases.length := (List.getElem?_eq_some_iff.mp at_t).1
    rw [ReleasedOnDemand, List.length_set]
    exact fun _ => Nat.zero_lt_of_lt in_range
  | complete | elapse =>
    rw [ReleasedOnDemand, List.length_set]
    exact h
  | sample | gauge => exact h

theorem Reachable.releasedOnDemand (h : g.Reachable) : g.ReleasedOnDemand := by
  induction h with
  | create hcreate =>
    obtain ⟨-, pool, hpool, rfl⟩ := eq_of_create hcreate
    obtain ⟨-, -, rfl⟩ := Pool.eq_of_create hpool
    exact id
  | step _ hstep ih => exact ih.change (change_of_step hstep)

/-- A pool that nobody asked to release is open. -/
theorem Reachable.open_of_unreleased (h : g.Reachable) (unreleased : g.releases = []) :
    g.pool.closed = false := by
  by_contra hclosed
  have hpool := h.pool.arises.closedByRelease (by simpa using hclosed)
  have hguard := h.releasedOnDemand hpool
  rw [unreleased] at hguard
  exact Nat.lt_irrefl 0 hguard

end

end GuardedPool

end TaskPools
