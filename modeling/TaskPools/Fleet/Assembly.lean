/- # Assemblies

An assembly builds one pool for each configuration of a list.  It is all or nothing: at the first
configuration that cannot be used, the pools built so far are retired, and only then is the fault
the result.
-/
import TaskPools.Fleet.Retirement

namespace TaskPools

/-- Where an assembly stands. -/
inductive Assembly where
  /-- Pools of `batch` are built, those for `todo` are not. -/
  | building (todo : List PoolConfig) (batch : Batch)
  /-- A configuration could not be used, and the pools built before it are retired. -/
  | discarding (fault : Fault) (retirement : Retirement)
  | done (result : Except Fault Batch)

namespace Assembly

variable {τ : Type}

/-- An assembly that has built nothing yet. -/
def ofConfigs (configs : List PoolConfig) : Assembly := .building configs []

/-- Build the next pool, or turn to what follows the last one. -/
def advance (a : Assembly) (f : Fleet τ) : Option (Fleet τ × Assembly) :=
  match a with
  | .building [] batch => some (f, .done (.ok batch))
  | .building (config :: rest) batch =>
    match f.build batch config with
    | .ok (f, batch) => some (f, .building rest batch)
    | .error fault => some (f, .discarding fault (.ofBatch batch))
  | .discarding fault retirement =>
    if retirement.isOver then some (f, .done (.error fault)) else none
  | .done _ => none

end Assembly

end TaskPools
