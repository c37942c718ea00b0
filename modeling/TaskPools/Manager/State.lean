/- # The state of a manager

A manager routes tasks by name to the pools of the batch that is installed, replaces that batch as
a whole, and shuts down for good.  Its state is the fleet of all pools ever built, the installed
batch, the batches that were installed before it, the flag that closes it, and where each call on
it stands.  Calls are numbered in the order in which they begin; a call may be made by a task, and
then carries the pool and the worker that run the task.
-/
import TaskPools.Fleet.Assembly

namespace TaskPools

/-- A task together with the number of the call that hands it in. -/
structure Job (τ : Type) where
  call : Nat
  task : τ
  deriving DecidableEq, Repr

/-- Where the call of an execution stands. -/
inductive ExecutePhase where
  | begun
  /-- Found the manager open. -/
  | open
  /-- Found the pool in the installed batch, when `generation` batches had been replaced. -/
  | found (generation pool : Nat)
  /-- The task is handed to the pool as submission `s`. -/
  | submitted (generation pool s : Nat)
  /-- The pool was closed. -/
  | refused (generation : Nat)
  /-- The pool was closed and the manager is not. -/
  | rerouting (generation : Nat)
  /-- Found the pool in a batch that was installed since. -/
  | refound (pool : Nat)
  /-- The task is handed to the second pool as submission `s`. -/
  | resubmitted (pool s : Nat)
  | returned (fault : Option Fault)
  deriving DecidableEq, Repr

/-- Where the call of a reload stands. -/
inductive ReloadPhase where
  | begun
  | assembling (assembly : Assembly)
  /-- The new batch is built, and the reload is about to take the lock. -/
  | built (batch : Batch)
  /-- Found the manager open once more, has the lock, and is about to install the new batch. -/
  | checked (batch : Batch)
  /-- The manager was closed meanwhile, and the new batch is retired. -/
  | rejecting (retirement : Retirement)
  /-- The new batch is installed, and the one before it is retired. -/
  | retiring (retirement : Retirement)
  | returned (fault : Option Fault)

/-- Where the call of a shutdown stands. -/
inductive ShutdownPhase where
  | begun
  /-- Closed the manager. -/
  | closed
  /-- Nothing is installed any more, and the batch that was is retired. -/
  | retiring (retirement : Retirement)
  | returned
  deriving DecidableEq, Repr

/-- Where the call for the statistics of a pool stands. -/
inductive StatsPhase where
  | begun
  /-- Found the manager open. -/
  | open
  /-- Found the pool. -/
  | found (pool : Nat)
  /-- Statistics `k` of the pool are read. -/
  | sampling (pool k : Nat)
  | returned (answer : Except Fault PoolStats)

/-- Where the call for the names of the installed pools stands. -/
inductive ListPhase where
  | begun
  | returned (names : List String)
  deriving DecidableEq, Repr

/-- What a call asks of a manager, and where it stands. -/
inductive Work (τ : Type) where
  | execute (pool : String) (task : Option τ) (phase : ExecutePhase)
  | reload (configs : List PoolConfig) (phase : ReloadPhase)
  | shutdown (phase : ShutdownPhase)
  | stats (pool : String) (phase : StatsPhase)
  | list (phase : ListPhase)

/-- A call on a manager. -/
structure Call (τ : Type) where
  /-- The pool and the worker that run the task which makes the call, if a task does. -/
  caller : Option (Nat × Nat)
  work : Work τ

/-- The call has returned. -/
def Work.isOver {τ : Type} : Work τ → Bool
  | .execute _ _ (.returned _) | .reload _ (.returned _) | .shutdown .returned
  | .stats _ (.returned _) | .list (.returned _) => true
  | _ => false

/-- A manager of pools for tasks of type `τ`. -/
structure Manager (τ : Type) where
  fleet : Fleet (Job τ)
  /-- The batch to which tasks are routed. -/
  installed : Batch
  /-- The batches that were installed before, the latest first. -/
  past : List Batch := []
  closed : Bool := false
  /-- The calls, by number. -/
  calls : List (Call τ) := []

/-- A reload has the lock from its second look at the flag to the swap that follows it. -/
def Work.holdsLock {τ : Type} : Work τ → Bool
  | .reload _ (.checked _) => true
  | _ => false

namespace Manager

variable {τ : Type}

/-- Some call has the lock that guards the installed batch, and keeps it beyond a single step. -/
def isLocked (m : Manager τ) : Bool := m.calls.any fun call => call.work.holdsLock

/-- The number of batches that were replaced.  It grows with every replacement, so two batches
installed at different times never share it. -/
def generation (m : Manager τ) : Nat := m.past.length

/-- The pool of this name in the installed batch. -/
def find? (m : Manager τ) (pool : String) : Option Nat := m.installed.lookup pool

/-- A manager of the pools of a batch, and no call yet. -/
def ofBatch (fleet : Fleet (Job τ)) (batch : Batch) : Manager τ :=
  { fleet := fleet.note (.initialized batch.length), installed := batch }

/-- A manager that has one pool for each configuration. -/
def ofConfigs (configs : List PoolConfig) (options : FleetOptions) : Except Fault (Manager τ) := do
  let (fleet, batch) ← ({ options } : Fleet (Job τ)).buildAll [] configs
  pure (ofBatch fleet batch)

/-- A manager that has one pool for each configuration of a list that is not empty. -/
def create (configs : List PoolConfig) (options : FleetOptions) : Except Fault (Manager τ) :=
  if configs = [] then .error .noConfigs else ofConfigs configs options

end Manager

end TaskPools
