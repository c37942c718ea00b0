/- # Setting a rehearsal up

The beginnings of rehearsals: creating the plant, with what is written meanwhile, and building
batches of pools outside any manager.
-/
import TaskPools.Rehearsal.Run

namespace TaskPools

namespace Rehearsal

/-- A handler is installed. -/
def isWatched (handler : Option Handler) : Bool := handler.isSome

/-- A rehearsal of a pool on its own. -/
def ofPool (name : String) (capacity : Nat) (expiry : Int64) (nonBlocking : Bool) :
    Except Fault State :=
  (Pool.create name capacity expiry nonBlocking).map fun p => { plant := .pool p, handler := none }

/-- A rehearsal of a guarded pool. -/
def ofGuarded (config : PoolConfig) (handler : Option Handler) : Except Fault State :=
  (GuardedPool.create config (isWatched handler)).map fun g => { plant := .guarded g, handler }

/-- A rehearsal of a manager that waits `timeout` milliseconds for the release of a pool, and what
is written while it is created, also if that fails.  Only if `nonEmpty` is set must there be a
pool. -/
def ofManager (configs : List PoolConfig) (handler : Option Handler) (timeout : Int64)
    (nonEmpty : Bool) : Except Fault State × List Output :=
  if nonEmpty && configs.isEmpty then (.error .noConfigs, [])
  else
    let fleet : Fleet (Job Script) := { options := { watched := isWatched handler, timeout } }
    match Construction.build fleet configs with
    | (fleet, .ok batch) =>
      let m := Manager.ofBatch fleet batch
      (.ok { plant := .managed m, handler },
       (m.journals (handler.map Handler.panicHandler)).flatten)
    | (fleet, .error fault) =>
      (.error fault, (fleet.journals (handler.map Handler.panicHandler)).flatten)

/-- What was written while a plant was created. -/
def State.creationOutputs (s : State) : List Output := (s.plant.journals s.handler).flatten

/-! ## Batches -/

/-- A pool of a batch as it is seen from outside. -/
structure BuiltPool where
  name : String
  config : PoolConfig
  capacity : Nat
  free : Nat

/-- What there is to see after a batch was built. -/
structure BatchReport where
  fault : Option Fault
  /-- The pools of the batch that is in hand, by name. -/
  pools : List BuiltPool
  /-- The batch that was in hand is still the same. -/
  kept : Bool
  outputs : List Output

/-- The pools of a batch by name. -/
def builtPools (fleet : Fleet Script) (batch : Batch) : List BuiltPool :=
  let sorted := batch.mergeSort fun x y => decide (x.1 ≤ y.1)
  sorted.filterMap fun (name, i) =>
    (fleet.pools[i]?).map fun g =>
      { name, config := g.config, capacity := g.pool.capacity, free := g.pool.free }

/-- Build one batch after the other; the batch in hand is replaced by each that succeeds. -/
def buildBatches (fleet : Fleet Script) (hand : Batch) :
    List (List PoolConfig) → Fleet Script × Batch × List BatchReport
  | [] => (fleet, hand, [])
  | configs :: rest =>
    let c := Construction.carryOut fleet configs hand
    let report :=
      { fault := c.fault?
        pools := builtPools c.fleet c.hand
        kept := c.hand == hand
        outputs := (journalGains (fleet.journals none) (c.fleet.journals none)).flatten }
    let (final, last, reports) := buildBatches c.fleet c.hand rest
    (final, last, report :: reports)

/-- Release a pool that nobody uses, and then submit a task to it. -/
def submitAfterRelease (g : GuardedPool Script) : Option Fault :=
  let s : State := { plant := .guarded g, handler := none }
  let (s, _) := s.perform (.releaseTimed 5000) none
  match (s.perform (.submit (some (.mk "" []))) none).2.answer with
  | .status fault => fault
  | _ => none

/-- Release all pools of a batch, submit a task to each, and list the answers by name. -/
def submitAllAfterRelease (fleet : Fleet Script) (batch : Batch) :
    List (String × Option Fault) :=
  let sorted := batch.mergeSort fun x y => decide (x.1 ≤ y.1)
  sorted.filterMap fun (name, i) =>
    (fleet.pools[i]?).map fun g => (name, submitAfterRelease g)

end Rehearsal

end TaskPools
