/-
# What escapes into a pool

A task may let something escape to the worker that runs it.  The worker writes it down and goes on
as after any other task: no step of a pool reads the journal, so the pool takes the same steps
whatever escaped (`step_calm`).
-/
import TaskPools.Proofs.Pool.Relabelling

namespace TaskPools

variable {τ : Type}

/-- The report of the same thing, where nothing escaped. -/
def Report.calm : Report τ → Report τ
  | .ended worker task _ => .ended worker task none
  | r => r

namespace Pool

/-- The same event, where nothing escapes. -/
def Event.calm : Event τ → Event τ
  | .finish w _ => .finish w none
  | e => e

/-- The pool as it is, but for what its journal says of escapes. -/
def calm (p : Pool τ) : Pool τ :=
  { p with journal := p.journal.map Report.calm }

theorem Event.calm_eq_map (e : Event τ) : e.calm = e.map id fun _ => none := by
  cases e with
  | submit task => exact congrArg Event.submit Option.map_id_apply.symm
  | finish | release | move => rfl

theorem calm_eq_map (p : Pool τ) : p.calm = p.map id fun _ => none := by
  have workers : p.workers.map (Worker.map id) = p.workers :=
    (List.map_congr_left fun x _ => x.map_id).trans (List.map_id _)
  have submissions : p.submissions.map (Submission.map id) = p.submissions :=
    (List.map_congr_left fun x _ => x.map_id).trans (List.map_id _)
  have journal : p.journal.map (Report.map id fun _ => none) = p.journal.map Report.calm :=
    List.map_congr_left fun r _ => by cases r <;> rfl
  simp only [calm, map, workers, submissions, journal, List.map_id_fun, id_eq]

/-- A pool takes the same steps whatever escapes into it. -/
theorem step_calm (p : Pool τ) (e : Event τ) : p.calm.step e.calm = (p.step e).map calm := by
  rw [calm_eq_map, Event.calm_eq_map, step_map, ← funext calm_eq_map]

end Pool

end TaskPools
