/- # The state of a guarded pool

A guarded pool owns one worker pool.  It contains what its tasks throw, counts how tasks end and
how submissions are answered, bounds the time for which a release is waited for, and gives
statistics.  The submissions made to it are those of its pool, number for number; `replies` says
which of them it has already answered.
-/
import TaskPools.Pool.Config
import TaskPools.Pool.State

namespace TaskPools

/-- The answer to a submission.  Without a fault the task was accepted. -/
inductive Reply where
  /-- The guard has not answered yet. -/
  | pending
  | given (fault : Option Fault)
  deriving DecidableEq, Repr

/-- Where a release with a bounded wait stands. -/
inductive TimedRelease where
  /-- About to start a thread on which the pool is released, to wait for it for `bound`
  milliseconds.  The call may run on the thread of the worker `own` of the pool. -/
  | begun (own : Option Nat) (bound : Int64)
  /-- Release `release` of the pool runs on a thread of its own, and the caller waits for it for no
  more than `bound` milliseconds. -/
  | waiting (release : Nat) (bound : Int64)
  /-- No thread could be started, and release `release` runs on the thread of the caller. -/
  | inline (release : Nat)
  | returned (fault : Option Fault)
  deriving DecidableEq, Repr

/-- A figure that statistics show. -/
inductive Gauge where
  | running
  | free
  | waiting
  | submitted
  | completed
  | panicked
  | rejected
  deriving DecidableEq, Repr

/-- The figures in the order in which statistics read them, one at a time. -/
def Gauge.order : List Gauge :=
  [running, free, waiting, submitted, completed, panicked, rejected]

/-- Statistics of a pool. -/
structure PoolStats where
  name : String := ""
  capacity : Nat := 0
  running : Nat := 0
  free : Nat := 0
  waiting : Nat := 0
  nonBlocking : Bool := false
  expiry : Int64 := 0
  submitted : Nat := 0
  completed : Nat := 0
  panicked : Nat := 0
  rejected : Nat := 0
  deriving DecidableEq, Repr

/-- What a guard lets an observer know. -/
inductive GuardReport where
  /-- A setting was repaired when the pool was created. -/
  | repaired (repair : Repair)
  /-- The handler was told of a panic. -/
  | handled (panic : Panic)
  /-- A panic was printed, because there is no handler. -/
  | printed (panic : Panic)
  /-- No thread could be started for a release. -/
  | releaseInline
  deriving DecidableEq, Repr

/-- A guarded pool for tasks of type `τ`. -/
structure GuardedPool (τ : Type) where
  /-- The settings after their repair. -/
  config : PoolConfig
  /-- There is a handler for panics. -/
  watched : Bool
  pool : Pool τ
  /-- How many submissions were answered without a fault. -/
  submitted : Nat := 0
  /-- How many tasks ended without a panic. -/
  completed : Nat := 0
  /-- How many tasks ended with a panic. -/
  panicked : Nat := 0
  /-- How many submissions were refused because the pool was full. -/
  rejected : Nat := 0
  /-- The answers to the submissions, by number. -/
  replies : List Reply := []
  /-- The releases with a bounded wait, by number. -/
  releases : List TimedRelease := []
  /-- The statistics under way and those completed, by number, each with the figures read so
  far. -/
  samples : List (List Nat) := []
  journal : List GuardReport := []
  deriving DecidableEq, Repr

namespace GuardedPool

variable {τ : Type}

/-- A new guarded pool with valid settings. -/
def create (config : PoolConfig) (watched : Bool) : Except Fault (GuardedPool τ) := do
  let (config, repairs) ← config.validate
  match Pool.create config.name config.capacity config.expiry config.nonBlocking with
  | .ok pool => pure { config, watched, pool, journal := repairs.map .repaired }
  | .error fault => throw (.creationFailed config.name fault)

/-! ## Statistics -/

/-- The present value of a figure. -/
def read (g : GuardedPool τ) : Gauge → Nat
  | .running => g.pool.running
  | .free => g.pool.free
  | .waiting => g.pool.waiting.toNat
  | .submitted => g.submitted
  | .completed => g.completed
  | .panicked => g.panicked
  | .rejected => g.rejected

/-- The statistics that a complete list of figures makes up. -/
def statsOfFigures (g : GuardedPool τ) : List Nat → Option PoolStats
  | [running, free, waiting, submitted, completed, panicked, rejected] =>
    some { name := g.config.name, capacity := g.pool.capacity, running, free, waiting,
           nonBlocking := g.config.nonBlocking, expiry := g.config.expiry,
           submitted, completed, panicked, rejected }
  | _ => none

/-- The statistics read while nothing moves. -/
def stats (g : GuardedPool τ) : Option PoolStats :=
  g.statsOfFigures (Gauge.order.map g.read)

end GuardedPool

/-! ## Output -/

/-- What is written for a report of the guard of the pool of this name. -/
def GuardReport.outputs (pool : String) (handler : Option PanicHandler) :
    GuardReport → List Output
  | .repaired repair => [repair.output pool]
  | .handled panic =>
    match handler with
    | some h => h.outputs pool (some panic)
    | none => []
  | .printed panic =>
    [.text .err ("[EXECUTOR PANIC] pool=" ++ pool ++ " panic=" ++ Panic.describe (some panic) ++
      "\n")]
  | .releaseInline =>
    [.record .warning ("Cannot start background release for pool '" ++ pool ++ "' (" ++
      Fault.threadShortage ++ "), releasing inline")]

/-- What the guard wrote, without what its pool wrote. -/
def GuardedPool.outputs {τ : Type} (g : GuardedPool τ) (handler : Option PanicHandler) :
    List Output :=
  g.journal.flatMap (GuardReport.outputs g.config.name handler)

end TaskPools
