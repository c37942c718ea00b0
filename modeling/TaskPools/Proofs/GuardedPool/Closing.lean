/-
# Pools that accept nothing more

A pool takes tasks out of the hands of its submitters only while it is open, so a closed pool never
accepts anything again, and a pool without submissions has nothing to accept (`accepted_of_step`).
A release that returned success has closed its pool (`Reachable.closed_of_success`).  One that
returned a fault gave its pool up after its time (`Reachable.failsByTimeout`), and that says nothing
about the flag of the pool: the thread that is to close it may not have run yet.
-/
import TaskPools.Proofs.GuardedPool.Release

namespace TaskPools

variable {τ : Type}

namespace Pool

section

variable {p q : Pool τ} {c : Cause}

/-- A pool that is closed, or to which nobody submits, accepts nothing. -/
theorem Change.accepted_eq (hc : Change p c q)
    (refuses : p.closed = true ∨ p.submissions = []) : q.accepted = p.accepted := by
  cases hc with
  | accept s x task at_s asks is_open | acceptStarting s x task at_s asks is_open =>
    rcases refuses with is_closed | unused
    · rw [is_open] at is_closed
      cases is_closed
    · rw [unused] at at_s
      cases at_s
  | take | failStart | expire | finish => exact accepted_of_other rfl rfl
  | join r own w rest =>
    by_cases last : rest = []
    · exact accepted_of_other (if_pos last) rfl
    · simp only [accepted, if_neg last]
  | refuseEmpty | arrive | arriveReaping | reapNone | reap | refuseClosed | refuseFull | block
  | sleepOn | stirSubmitter | announce | stirWorker | leave | park | giveBack | callRelease
  | close | alertWorkers | alertSubmitters => rfl

theorem accepted_of_step {e : Event τ} (hstep : p.step e = some q)
    (refuses : p.closed = true ∨ p.submissions = []) : q.accepted = p.accepted := by
  rcases change_of_step hstep with ⟨c, hc⟩ | ⟨m, hm, hc⟩
  · exact hc.accepted_eq refuses
  · have between : m.closed = true ∨ m.submissions = [] := by
      refine refuses.imp hm.closed_mono fun unused => List.length_eq_zero_iff.mp ?_
      rw [hm.length_submissions, unused]
      rfl
    exact (hc.accepted_eq between).trans (hm.accepted_eq refuses)

end

end Pool

namespace GuardedPool

/-- A release that failed was given up after its time. -/
def FailsByTimeout (g : GuardedPool τ) : Prop :=
  ∀ fault, TimedRelease.returned (some fault) ∈ g.releases →
    fault = .shutdownTimeout g.config.name

section

variable {g g' : GuardedPool τ} {e : Event τ}

theorem Change.closed_mono (hc : Change g e g') (is_closed : g.pool.closed = true) :
    g'.pool.closed = true := by
  rcases hc.pool_step with same | ⟨e', steps⟩
  · rw [same]
    exact is_closed
  · exact Pool.closed_of_step steps is_closed

theorem Change.accepted_eq (hc : Change g e g')
    (refuses : g.pool.closed = true ∨ g.pool.submissions = []) :
    g'.pool.accepted = g.pool.accepted := by
  rcases hc.pool_step with same | ⟨e', steps⟩
  · rw [same]
  · exact Pool.accepted_of_step steps refuses

/-- What a new guarded pool accepted is nothing. -/
theorem accepted_of_create {config : PoolConfig} {watched : Bool}
    (created : create config watched = .ok g) : g.pool.accepted = [] := by
  obtain ⟨-, pool, hpool, rfl⟩ := eq_of_create created
  obtain ⟨-, -, rfl⟩ := Pool.eq_of_create hpool
  rfl

/-- A release that returned success has closed the pool. -/
theorem Reachable.closed_of_success (h : g.Reachable) (success : .returned none ∈ g.releases) :
    g.pool.closed = true :=
  h.pool.arises.sealed.closed_of _ (h.succeedsOnRelease success) rfl

theorem FailsByTimeout.change (h : g.FailsByTimeout) (hc : Change g e g') :
    g'.FailsByTimeout := by
  intro fault hmem
  rw [hc.settings_eq.1]
  have before {t : Nat} {place : TimedRelease}
      (hmem : .returned (some fault) ∈ g.releases.set t place)
      (other : place ≠ .returned (some fault)) : fault = .shutdownTimeout g.config.name := by
    rcases List.mem_or_eq_of_mem_set hmem with hmem | same
    · exact h fault hmem
    · exact absurd same.symm other
  cases hc with
  | release own bound =>
    rcases List.mem_append.mp hmem with hmem | new
    · exact h fault hmem
    · cases List.mem_singleton.mp new
  | answer s answer => exact h fault (releases_count g answer ▸ hmem)
  | launch | launchInline | complete => exact before hmem nofun
  | elapse t r bound at_t =>
    rcases List.mem_or_eq_of_mem_set hmem with hmem | same
    · exact h fault hmem
    · cases same
      rfl
  | submit | sample | gauge | pool | returns | panics => exact h fault hmem

/-- A release that returned a fault gave its pool up after its time. -/
theorem Reachable.failsByTimeout (h : g.Reachable) : g.FailsByTimeout := by
  induction h with
  | create hcreate =>
    obtain ⟨-, pool, hpool, rfl⟩ := eq_of_create hcreate
    exact nofun
  | step _ hstep ih => exact ih.change (change_of_step hstep)

end

end GuardedPool

end TaskPools
