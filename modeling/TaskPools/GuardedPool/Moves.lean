/- # Moves of a guarded pool that are due

The moves that a guarded pool makes of itself: those of its pool, and those of the guard except
that no task ends.  A wait whose bound is not positive is over before anything else can happen; any
other wait lasts as long as something else can.
-/
import TaskPools.GuardedPool.Step
import TaskPools.Pool.Moves

namespace TaskPools

namespace GuardedPool

variable {τ : Type}

/-- The answer to submission `s`, if it is still to be given. -/
def replyMove? : Reply × Nat → Option Move
  | (.pending, s) => some (.answer s)
  | (.given _, _) => none

/-- The move of release `t`. -/
def releaseMove? (start : Bool) : TimedRelease × Nat → Option Move
  | (.begun _ _, t) => some (.launch t start)
  | (.waiting _ bound, t) => some (if bound ≤ 0 then .elapse t else .complete t)
  | (.inline _, t) => some (.complete t)
  | (.returned _, _) => none

/-- The moves of a guarded pool that are due. -/
def dueMoves (g : GuardedPool τ) (start : Bool) : List Move :=
  g.releases.zipIdx.filterMap (releaseMove? start) ++ (g.pool.dueMoves start).map .pool ++
    g.replies.zipIdx.filterMap replyMove?

/-- Release `t` waits, so that its time may run out. -/
def isWaiting : TimedRelease → Bool
  | .waiting _ _ => true
  | _ => false

/-- The first release whose time may run out. -/
def firstWaiting? (g : GuardedPool τ) : Option Nat := g.releases.findIdx? isWaiting

end GuardedPool

end TaskPools
