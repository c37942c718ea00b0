/- # Moves that are due

The moves that a pool makes of itself, when it is left alone, in one fixed order: a notification
goes to the first sleeper, nobody wakes without a reason and no worker is late.  A move that is due
need not be possible yet: a release may still have to wait for a worker.
-/
import TaskPools.Pool.Step

namespace TaskPools

namespace Pool

variable {τ : Type}

/-- The first blocked submitter. -/
def firstBlocked? (p : Pool τ) : Option Nat := p.submissions.findIdx? Submission.isParked

/-- The first sleeping worker. -/
def firstAsleep? (p : Pool τ) : Option Nat := p.workers.findIdx? Worker.isParked

/-- The move of submission `s`; `start` says whether a thread can be started. -/
def submissionMove? (p : Pool τ) (start : Bool) : Submission τ × Nat → Option Move
  | (.reaping _ _, s) => some (.reap s)
  | (.entering _, s) => some (.enter s start p.firstBlocked?)
  | (.woken _ _, s) => some (.resume s start p.firstBlocked?)
  | (.announcing, s) => some (.announce s p.firstAsleep?)
  | (.parked _, _) | (.returned _, _) => none

/-- The move of worker `w`. -/
def workerMove? (p : Pool τ) : Worker τ × Nat → Option Move
  | (.starting, w) | (.woken, w) => some (.look w false)
  | (.ended _, w) => some (.giveBack w p.firstBlocked?)
  | (.parked, _) | (.running _, _) | (.exited, _) | (.unstarted, _) => none

/-- The move of release `r`. -/
def releaseMove? : Release × Nat → Option Move
  | (.called _, r) => some (.close r)
  | (.closed _ _, r) => some (.alertWorkers r)
  | (.alerting _ _, r) => some (.alertSubmitters r)
  | (.joining _ _, r) => some (.join r)
  | (.returned, _) => none

/-- The moves of a pool that are due. -/
def dueMoves (p : Pool τ) (start : Bool) : List Move :=
  p.submissions.zipIdx.filterMap (p.submissionMove? start) ++
    p.workers.zipIdx.filterMap p.workerMove? ++ p.releases.zipIdx.filterMap releaseMove?

end Pool

end TaskPools
