/-
# A release that waits for a task

A release that has come to a worker with a running task waits there until the task has ended, for
whatever else the pool does leaves both where they are (`Detained.move`): no move ends a task.
-/
import TaskPools.Proofs.Pool.Journal

namespace TaskPools

namespace Pool

variable {τ : Type}

/-- Release `r` waits for worker `w`, on whose thread it does not run and which runs `task`. -/
structure Detained (p : Pool τ) (r w : Nat) (task : τ) : Prop where
  running : p.workers[w]? = some (.running task)
  joining : ∃ own rest, p.releases[r]? = some (.joining own (w :: rest)) ∧ own ≠ some w

section

variable {p q : Pool τ} {c : Cause} {r s v w : Nat} {task : τ} {x y : Worker τ}

theorem Detained.same (h : p.Detained r w task) (hworkers : q.workers = p.workers)
    (hreleases : q.releases = p.releases) : q.Detained r w task := by
  constructor
  · rw [hworkers]
    exact h.running
  · rw [hreleases]
    exact h.joining

theorem Detained.hire (h : p.Detained r w task) (hworkers : q.workers = p.workers ++ [x])
    (hreleases : q.releases = p.releases) : q.Detained r w task := by
  have in_range : w < p.workers.length := (List.getElem?_eq_some_iff.mp h.running).1
  constructor
  · rw [hworkers, List.getElem?_append_left in_range]
    exact h.running
  · rw [hreleases]
    exact h.joining

/-- Another worker goes on. -/
theorem Detained.setWorker (h : p.Detained r w task) (at_v : p.workers[v]? = some x)
    (free : ∀ task, x ≠ .running task) (hworkers : q.workers = p.workers.set v y)
    (hreleases : q.releases = p.releases) : q.Detained r w task := by
  constructor
  · rw [hworkers, getElem?_set_at at_v, if_neg]
    · exact h.running
    · rintro rfl
      exact free task (Option.some.inj (at_v.symm.trans h.running))
  · rw [hreleases]
    exact h.joining

/-- Another release goes on. -/
theorem Detained.setRelease (h : p.Detained r w task) {place : Release} (other : s ≠ r)
    (running : q.workers[w]? = some (.running task))
    (hreleases : q.releases = p.releases.set s place) : q.Detained r w task := by
  refine ⟨running, ?_⟩
  rw [hreleases, List.getElem?_set_ne other]
  exact h.joining

/-- The release does not stand at any other place. -/
theorem Detained.ne_of_place (h : p.Detained r w task) {place : Release}
    (at_s : p.releases[s]? = some place) (other : ∀ own handles, place ≠ .joining own handles) :
    s ≠ r := by
  rintro rfl
  obtain ⟨own, rest, at_r, -⟩ := h.joining
  exact other own (w :: rest) (Option.some.inj (at_s.symm.trans at_r))

/-- The wait is not over. -/
theorem Detained.not_returned (h : p.Detained r w task) : p.releases[r]? ≠ some .returned := by
  obtain ⟨own, rest, at_r, -⟩ := h.joining
  rw [at_r]
  nofun

theorem not_running_of_isAwake (awake : x.isAwake = true) : ∀ task, x ≠ .running task := by
  rintro task rfl
  cases awake

theorem running_wake (h : p.workers[w]? = some (.running task)) :
    (p.workers.map wake)[w]? = some (.running task) := by
  rw [List.getElem?_map, h]
  rfl

/-- A change that ends no task leaves the release where it waits. -/
theorem Detained.change (h : p.Detained r w task) (hc : Change p c q)
    (unended : q.ended = p.ended) : q.Detained r w task := by
  cases hc with
  | refuseEmpty | arrive | arriveReaping | reapNone | reap | refuseClosed | refuseFull | block
  | sleepOn | accept | stirSubmitter => exact h.same rfl rfl
  | acceptStarting | failStart => exact h.hire rfl rfl
  | announce s workers at_s roused =>
    cases roused with
    | nobody => exact h.same rfl rfl
    | one v at_v => exact h.setWorker at_v (by rintro _ ⟨⟩) rfl rfl
  | stirWorker v at_v | expire v at_v | giveBack v ended submissions at_v =>
    exact h.setWorker at_v (by rintro _ ⟨⟩) rfl rfl
  | take v x ended rest at_v awake | leave v x at_v awake | park v x at_v awake =>
    exact h.setWorker at_v (not_running_of_isAwake awake) rfl rfl
  | finish v a escape =>
    have one_more := (ended_append (r := .ended v a escape) rfl).symm.trans unended
    exact absurd (congrArg List.length one_more) (by simp [Report.ended?])
  | callRelease own =>
    obtain ⟨own', rest, at_r, not_own⟩ := h.joining
    refine ⟨h.running, own', rest, ?_, not_own⟩
    rw [List.getElem?_append_left (List.getElem?_eq_some_iff.mp at_r).1]
    exact at_r
  | close s own at_s | alertSubmitters s own handles at_s =>
    exact h.setRelease (h.ne_of_place at_s (by rintro _ _ ⟨⟩)) h.running rfl
  | alertWorkers s own handles at_s =>
    exact h.setRelease (h.ne_of_place at_s (by rintro _ _ ⟨⟩)) (running_wake h.running) rfl
  | join s own v rest at_s is_over =>
    -- the release that is detained cannot be the one that goes on to its next worker
    have other : s ≠ r := by
      rintro rfl
      obtain ⟨own', rest', at_r, not_own⟩ := h.joining
      cases at_s.symm.trans at_r
      rcases is_over with its_own | exited
      · exact not_own its_own
      · cases h.running.symm.trans exited
    exact h.setRelease other h.running rfl

/-- No move of the pool ends the task or the wait for it. -/
theorem Detained.move (h : p.Detained r w task) {m : Move} (hmove : p.move m = some q) :
    q.Detained r w task := by
  have unended := ended_of_move hmove
  rcases change_of_move hmove with hc | ⟨n, first, second⟩
  · exact h.change hc unended
  · have unended' := first.ended_eq second unended
    exact (h.change first unended').change second (unended.trans unended'.symm)

/-- Another task may end meanwhile. -/
theorem Detained.finish (h : p.Detained r w task) (other : v ≠ w) {escape : Option Panic}
    (hfinish : p.finish v escape = some q) : q.Detained r w task := by
  rw [Pool.finish] at hfinish
  split at hfinish
  · cases hfinish
    refine ⟨?_, h.joining⟩
    show (p.workers.set v _)[w]? = _
    rw [List.getElem?_set_ne other]
    exact h.running
  · cases hfinish

theorem Detained.submit (h : p.Detained r w task) (a : Option τ) :
    (p.submit a).Detained r w task :=
  h.change (change_of_submit p a) (ended_submit p a)

theorem Detained.callRelease (h : p.Detained r w task) (own : Option Nat) :
    { p with releases := p.releases ++ [Release.called own] }.Detained r w task :=
  h.change (.callRelease own) rfl

end

end Pool

end TaskPools
