/-
# A guarded pool does not look at its tasks

The guard counts tasks and answers submissions, and it never asks which tasks these are.  So a
guarded pool takes the same steps with other tasks in their places (`step_map`), and gives the same
answers and the same statistics.
-/
import TaskPools.Proofs.GuardedPool.Change
import TaskPools.Proofs.Pool.Journal
import TaskPools.Proofs.Pool.Relabelling

namespace TaskPools

variable {α β γ : Type}

/-! ## Pools -/

namespace Pool

theorem taken_map (f : α → β) (p : Pool α) : (p.map f id).taken = p.taken.map f := by
  rw [taken, taken, map, List.filterMap_map, List.map_filterMap]
  congr 1
  funext r
  cases r <;> rfl

theorem ended_map (f : α → β) (p : Pool α) : (p.map f id).ended = p.ended.map f := by
  rw [ended, ended, map, List.filterMap_map, List.map_filterMap]
  congr 1
  funext r
  cases r <;> rfl

end Pool

/-! ## Guarded pools -/

namespace GuardedPool

/-- The event with another task. -/
def Event.map (f : α → β) : Event α → Event β
  | .submit task => .submit (task.map f)
  | .release own bound => .release own bound
  | .sample => .sample
  | .gauge k => .gauge k
  | .move m => .move m

/-- The guarded pool with other tasks in their places. -/
def map (f : α → β) (g : GuardedPool α) : GuardedPool β where
  config := g.config
  watched := g.watched
  pool := g.pool.map f id
  submitted := g.submitted
  completed := g.completed
  panicked := g.panicked
  rejected := g.rejected
  replies := g.replies
  releases := g.releases
  samples := g.samples
  journal := g.journal

section

variable (f : α → β) (g : GuardedPool α)

/-- Two renamings of what a guarded pool carries are one. -/
theorem map_map (f' : β → γ) : (g.map f).map f' = g.map (f' ∘ f) := by
  simp only [map, Pool.map_map]
  rfl

/-- The pool inside takes the same steps. -/
theorem onPool_map (e : Pool.Event α) :
    (g.map f).onPool (e.map f id) = (g.onPool e).map (map f) := by
  have steps : (g.map f).pool.step (e.map f id) = (g.pool.step e).map (Pool.map f id) :=
    Pool.step_map f id g.pool e
  rw [onPool, onPool, steps, Option.map_map, Option.map_map]
  rfl

/-- The same answers are counted. -/
theorem count_map (fault : Option Fault) : (g.map f).count fault = (g.count fault).map f := by
  rcases fault with _ | fault
  · rfl
  · cases fault <;> rfl

/-- The same answers are given. -/
theorem answer_map (s : Nat) : (g.map f).answer s = (g.answer s).map (map f) := by
  have settled : (g.map f).pool.submissions[s]? = (g.pool.submissions[s]?).map (Submission.map f) :=
    Pool.getElem?_submissions_map f id g.pool s
  have replies : (g.map f).replies = g.replies := rfl
  rw [answer, answer, settled, replies]
  rcases g.pool.submissions[s]? with _ | place
  · rfl
  · cases place with
    | returned fault =>
      rcases g.replies[s]? with _ | reply
      · rfl
      · cases reply with
        | pending =>
          simp only [Option.map_some, Submission.map, count_map]
          rfl
        | given => rfl
    | reaping | entering | parked | woken | announcing => rfl

/-- Tasks end in the same way, and the same panics are reported. -/
theorem conclude_map (w : Nat) (panic escape : Option Panic) :
    (g.map f).conclude w panic escape = (g.conclude w panic escape).map (map f) := by
  cases panic with
  | none => exact onPool_map f { g with completed := g.completed + 1 } (.finish w none)
  | some panic =>
    let counted : GuardedPool α := { g with panicked := g.panicked + 1 }
    rw [conclude, conclude, apply_ite (Option.map (map f))]
    congr 1
    · exact onPool_map f (counted.report (.handled panic)) (.finish w escape)
    · exact onPool_map f (counted.report (.printed panic)) (.finish w none)

/-- A release is launched in the same way. -/
theorem launch_map (t : Nat) (start : Bool) :
    (g.map f).launch t start = (g.launch t start).map (map f) := by
  have releases : (g.map f).releases = g.releases := rfl
  rw [launch, launch, releases]
  rcases g.releases[t]? with _ | place
  · rfl
  · cases place with
    | begun own bound => cases start <;> rfl
    | waiting | inline | returned => rfl

/-- A release completes in the same way. -/
theorem complete_map (t : Nat) : (g.map f).complete t = (g.complete t).map (map f) := by
  have releases : (g.map f).releases = g.releases := rfl
  rw [complete, complete, releases]
  rcases g.releases[t]? with _ | place
  · rfl
  · cases place with
    | waiting r bound | inline r =>
      simp only
      rw [apply_ite (Option.map (map f))]
      rfl
    | begun | returned => rfl

/-- The time of a release runs out in the same way. -/
theorem elapse_map (t : Nat) : (g.map f).elapse t = (g.elapse t).map (map f) := by
  have releases : (g.map f).releases = g.releases := rfl
  rw [elapse, elapse, releases]
  rcases g.releases[t]? with _ | place
  · rfl
  · cases place <;> rfl

/-- Every figure reads the same. -/
theorem read_map (gauge : Gauge) : (g.map f).read gauge = g.read gauge := by
  cases gauge <;> rfl

/-- The statistics are the same. -/
theorem stats_map : (g.map f).stats = g.stats := by
  have read : (g.map f).read = g.read := funext (read_map f g)
  rw [stats, stats, read]
  rfl

/-- The figures of a sample are read in the same way. -/
theorem gauge_map (k : Nat) : (g.map f).gauge k = (g.gauge k).map (map f) := by
  have samples : (g.map f).samples = g.samples := rfl
  simp only [gauge, samples, read_map]
  rcases g.samples[k]? with _ | figures
  · rfl
  · simp only [Option.bind_eq_bind, Option.bind_some]
    rcases Gauge.order[figures.length]? with _ | next
    · rfl
    · rfl

/-- A guarded pool takes the same steps whatever its tasks are. -/
theorem step_map (e : Event α) : (g.map f).step (e.map f) = (g.step e).map (map f) := by
  cases e with
  | submit task =>
    exact onPool_map f { g with replies := g.replies ++ [.pending] } (.submit task)
  | release | sample => rfl
  | gauge k => exact gauge_map f g k
  | move m =>
    cases m with
    | pool m => exact onPool_map f g (.move m)
    | answer s => exact answer_map f g s
    | conclude w panic escape => exact conclude_map f g w panic escape
    | launch t start => exact launch_map f g t start
    | complete t => exact complete_map f g t
    | elapse t => exact elapse_map f g t

/-- Pools that are the same but for their tasks have taken and ended the same, but for the tasks,
and give the same statistics. -/
theorem seen_of_map_eq {x y : Option (GuardedPool α)} (same : x.map (map f) = y.map (map f)) :
    x.map (fun g => g.pool.taken.map f) = y.map (fun g => g.pool.taken.map f) ∧
      x.map (fun g => g.pool.ended.map f) = y.map (fun g => g.pool.ended.map f) ∧
      x.map stats = y.map stats := by
  have seen {δ : Type} (see : GuardedPool α → δ) (see' : GuardedPool β → δ)
      (unlabelled : see' ∘ map f = see) : x.map see = y.map see := by
    rw [← unlabelled, ← Option.map_map, ← Option.map_map, same]
  refine ⟨?_, ?_, ?_⟩
  · exact seen _ (fun g => g.pool.taken) (funext fun g => Pool.taken_map f g.pool)
  · exact seen _ (fun g => g.pool.ended) (funext fun g => Pool.ended_map f g.pool)
  · exact seen _ stats (funext fun g => stats_map f g)

end

end GuardedPool

end TaskPools
