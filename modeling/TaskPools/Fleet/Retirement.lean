/- # Retirements

A retirement releases all pools of a batch side by side, each with a bounded wait, and is over when
every one of these releases has returned.  They begin in any order.  A release that fails is
recorded and nothing more.  Where no thread can be started for a release, the thread that carries
out the retirement sees to it itself before it turns to the next pool.
-/
import TaskPools.Fleet.State

namespace TaskPools

/-- Where a retirement stands.  Releases under way are pairs of a pool and a release of that
pool. -/
structure Retirement where
  /-- The pools whose release has not begun. -/
  todo : List Nat
  /-- The releases that run on threads of their own. -/
  active : List (Nat × Nat) := []
  /-- The release that runs on the thread of the retirement. -/
  inline : Option (Nat × Nat) := none
  deriving DecidableEq, Repr

namespace Retirement

variable {τ : Type}

/-- The retirement of all pools of a batch. -/
def ofBatch (b : Batch) : Retirement := { todo := b.pools }

/-- Every release has returned. -/
def isOver (r : Retirement) : Bool :=
  r.todo.isEmpty && r.active.isEmpty && r.inline.isNone

/-- The worker of pool `i` on whose thread a call runs. -/
def ownWorker (caller : Option (Nat × Nat)) (i : Nat) : Option Nat :=
  match caller with
  | some (j, w) => if j = i then some w else none
  | none => none

/-- Begin the release of pool `i`, on a new thread if one can be started.  `caller` is the pool and
the worker on whose thread the retirement runs, if it is a worker's. -/
def launch (r : Retirement) (f : Fleet τ) (i : Nat) (caller : Option (Nat × Nat)) (start : Bool) :
    Option (Fleet τ × Retirement) :=
  if r.todo.contains i && r.inline.isNone then do
    let g ← f.pools[i]?
    let t := g.releases.length
    let todo := r.todo.erase i
    if start then
      let f ← f.onPool i (.release none f.options.timeout)
      pure (f, { r with todo, active := r.active ++ [(i, t)] })
    else
      let f ← (f.note (.releaseInline g.config.name)).onPool i
        (.release (ownWorker caller i) f.options.timeout)
      pure (f, { r with todo, inline := some (i, t) })
  else none

/-- Take note of how release `t` of pool `i` returned, if it has. -/
def takeNote (f : Fleet τ) (i t : Nat) : Option (Fleet τ) := do
  let g ← f.pools[i]?
  match g.releases[t]? with
  | some (.returned none) => pure f
  | some (.returned (some fault)) => pure (f.note (.notDrained g.config.name fault))
  | _ => none

/-- Finish with a release that has returned: the one at place `k` of those on threads of their own,
or the one on the thread of the retirement. -/
def collect (r : Retirement) (f : Fleet τ) : Option Nat → Option (Fleet τ × Retirement)
  | some k => do
    let (i, t) ← r.active[k]?
    let f ← takeNote f i t
    pure (f, { r with active := r.active.eraseIdx k })
  | none => do
    let (i, t) ← r.inline
    let f ← takeNote f i t
    pure (f, { r with inline := none })

end Retirement

end TaskPools
