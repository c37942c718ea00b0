/- # Fleets of pools

A fleet holds every guarded pool that was ever built, by number; a pool is never forgotten, so its
number names it for ever.  A `Batch` gives names to some of the pools of a fleet.
-/
import TaskPools.GuardedPool.Step

namespace TaskPools

/-- Names for pools of a fleet: each name with the number of its pool, in the order in which the
pools were built. -/
abbrev Batch := List (String × Nat)

namespace Batch

/-- The numbers of the pools of a batch. -/
def pools (b : Batch) : List Nat := b.map Prod.snd

/-- The names of a batch in ascending order. -/
def names (b : Batch) : List String :=
  (b.map Prod.fst).mergeSort fun x y => decide (x ≤ y)

end Batch

/-- What happens to a fleet or to its manager and is worth a record. -/
inductive Notice where
  /-- A manager was created with so many pools. -/
  | initialized (pools : Nat)
  /-- No thread could be started to look after the release of this pool. -/
  | releaseInline (pool : String)
  /-- The release of a pool failed. -/
  | notDrained (pool : String) (fault : Fault)
  /-- A reload failed. -/
  | reloadRejected (fault : Fault)
  /-- A reload put so many pools into service and retired so many. -/
  | reloaded (installed retired : Nat)
  /-- A shutdown retires so many pools. -/
  | shuttingDown (pools : Nat)
  | shutdownComplete
  deriving DecidableEq, Repr

/-- The record of a notice. -/
def Notice.output : Notice → Output
  | .initialized n =>
    .record .info ("Executor manager initialized with " ++ toString n ++ " pools")
  | .releaseInline pool =>
    .record .warning ("Releasing pool '" ++ pool ++ "' inline: " ++ Fault.threadShortage)
  | .notDrained pool fault =>
    .record .warning ("Pool '" ++ pool ++ "' did not drain in time, " ++
      "it keeps draining in the background: " ++ fault.message)
  | .reloadRejected fault =>
    .record .error ("Executor reload rejected, keeping current pools: " ++ fault.message)
  | .reloaded installed retired =>
    .record .info ("Executor reloaded with " ++ toString installed ++ " pools, draining " ++
      toString retired ++ " retired pools")
  | .shuttingDown n =>
    .record .info ("Shutting down executor, draining " ++ toString n ++ " pools")
  | .shutdownComplete => .record .info "Executor shutdown complete"

/-- What holds for all pools of a fleet. -/
structure FleetOptions where
  /-- The pools get a handler for panics. -/
  watched : Bool := false
  /-- How many milliseconds the release of a pool is waited for. -/
  timeout : Int64 := 5000
  deriving DecidableEq, Repr

/-- All guarded pools ever built, for tasks of type `τ`. -/
structure Fleet (τ : Type) where
  options : FleetOptions := {}
  pools : List (GuardedPool τ) := []
  notices : List Notice := []
  deriving DecidableEq, Repr

namespace Fleet

variable {τ : Type}

/-- Let pool `i` take a step. -/
def onPool (f : Fleet τ) (i : Nat) (e : GuardedPool.Event τ) : Option (Fleet τ) := do
  let g ← f.pools[i]?
  let g ← g.step e
  pure { f with pools := f.pools.set i g }

/-- Add a notice. -/
def note (f : Fleet τ) (n : Notice) : Fleet τ :=
  { f with notices := f.notices ++ [n] }

/-- The name of pool `i`. -/
def nameOf (f : Fleet τ) (i : Nat) : String :=
  match f.pools[i]? with
  | some g => g.config.name
  | none => ""

/-- Build a pool and add it to a batch.  A batch takes no name twice. -/
def build (f : Fleet τ) (b : Batch) (config : PoolConfig) : Except Fault (Fleet τ × Batch) :=
  if (b.lookup config.name).isSome then .error (.duplicateName config.name)
  else do
    let g ← GuardedPool.create config f.options.watched
    pure ({ f with pools := f.pools ++ [g] }, b ++ [(config.name, f.pools.length)])

/-- Build a pool for each configuration of a list, up to the first fault. -/
def buildAll (f : Fleet τ) (b : Batch) : List PoolConfig → Except Fault (Fleet τ × Batch)
  | [] => .ok (f, b)
  | config :: rest =>
    match f.build b config with
    | .ok (f, b) => f.buildAll b rest
    | .error fault => .error fault

/-- What was written, journal by journal: first that of the fleet, then for each pool that of its
guard and its own. -/
def journals (f : Fleet τ) (handler : Option PanicHandler) : List (List Output) :=
  f.notices.map Notice.output ::
    f.pools.flatMap fun g => [g.outputs handler, g.pool.outputs]

end Fleet

end TaskPools
