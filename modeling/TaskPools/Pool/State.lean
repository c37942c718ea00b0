/- # The state of a worker pool

A pool runs tasks on worker threads that it starts when they are needed, at most `capacity` at a
time.  Its state is everything that the mutex of the pool protects, together with where each
thread that deals with the pool stands: its workers, the submissions made to it and the calls that
release it.  Workers, submissions and releases are numbered in the order in which they began and
are never forgotten, so a number names the same one for ever.

The pool keeps its own books (`inFlight`, `idle`, `waiting`, `listed`, `retired`) beside the
places of the threads.  That the books tell the truth about the threads is a theorem and not part
of the type.

What an observer of the pool can hear, in the order in which it happened, is its `journal`.
-/
import TaskPools.Fault
import TaskPools.Panic

namespace TaskPools

/-- Where a worker thread of a pool stands. -/
inductive Worker (τ : Type) where
  /-- Started, and about to look at the queue for the first time. -/
  | starting
  /-- Asleep until there is work. -/
  | parked
  /-- Its sleep is over and it is about to look at the queue again. -/
  | woken
  /-- Runs a task. -/
  | running (task : τ)
  /-- Its task is over, but the slot of the task is not yet given back. -/
  | ended (task : τ)
  /-- Has left its loop. -/
  | exited
  /-- Its thread could not be started. -/
  | unstarted
  deriving DecidableEq, Repr

namespace Worker

variable {τ : Type}

/-- Started, and not yet out of its loop. -/
def isLive : Worker τ → Bool
  | starting | parked | woken | running _ | ended _ => true
  | exited | unstarted => false

/-- Occupied with a task. -/
def isExecuting : Worker τ → Bool
  | running _ | ended _ => true
  | _ => false

/-- Asleep, so that only a notification, a spurious wakeup or the end of its expiry moves it. -/
def isParked : Worker τ → Bool
  | parked => true
  | _ => false

end Worker

/-- Where a submission stands. -/
inductive Submission (τ : Type) where
  /-- Waits for the threads of expired workers, whose handles it took, to come to their end. -/
  | reaping (task : τ) (handles : List Nat)
  /-- About to ask for a slot. -/
  | entering (task : τ)
  /-- Blocked on a full pool. -/
  | parked (task : τ)
  /-- Its sleep is over and it is about to ask again; `told` says that it was told of a slot or of
  the end of the pool, and did not wake for no reason. -/
  | woken (task : τ) (told : Bool)
  /-- Its task is in the queue, and no worker has been told of it yet. -/
  | announcing
  /-- Over: without a fault the task was accepted. -/
  | returned (fault : Option Fault)
  deriving DecidableEq, Repr

namespace Submission

variable {τ : Type}

/-- Blocked, so that only a notification or a spurious wakeup moves it. -/
def isParked : Submission τ → Bool
  | parked _ => true
  | _ => false

/-- Told of a slot or of the end of the pool, and about to ask again. -/
def isTold : Submission τ → Bool
  | woken _ told => told
  | _ => false

end Submission

/-- Where a call that releases a pool stands.  A call made on the thread of one of the pool's own
workers carries that worker as `own`; it lets go of the handle of its own thread instead of
waiting for it. -/
inductive Release where
  /-- About to close the pool. -/
  | called (own : Option Nat)
  /-- Closed the pool and took the handles of its workers. -/
  | closed (own : Option Nat) (handles : List Nat)
  /-- Woke the workers, and is about to wake the blocked submitters. -/
  | alerting (own : Option Nat) (handles : List Nat)
  /-- Waits for the workers whose handles it took. -/
  | joining (own : Option Nat) (handles : List Nat)
  | returned
  deriving DecidableEq, Repr

/-- What a pool lets an observer know. -/
inductive Report (τ : Type) where
  /-- The pool was created. -/
  | opened
  /-- A task was accepted. -/
  | accepted (task : τ)
  /-- A worker that a task needed could not be started. -/
  | startFailed
  /-- A worker took a task from the queue. -/
  | taken (worker : Nat) (task : τ)
  /-- A task ended, and this is what it let escape into the pool. -/
  | ended (worker : Nat) (task : τ) (escape : Option Panic)
  /-- A worker was idle for so long that it left. -/
  | expired (worker : Nat)
  /-- A release waited for all the workers whose handles it took. -/
  | released
  deriving DecidableEq, Repr

/-- A worker pool for tasks of type `τ`. -/
structure Pool (τ : Type) where
  name : String
  capacity : Nat
  /-- How many milliseconds an idle worker is kept. -/
  expiry : Int64
  /-- A full pool refuses a task if this is set, and makes its submitter wait if not. -/
  nonBlocking : Bool
  /-- Accepted tasks that no worker has taken, oldest first. -/
  queue : List τ := []
  /-- The number of accepted tasks whose slot is not yet given back. -/
  inFlight : Int := 0
  /-- The number of workers that are free to take a task. -/
  idle : Int := 0
  /-- The number of blocked submitters. -/
  waiting : Int := 0
  closed : Bool := false
  /-- The workers, by number. -/
  workers : List (Worker τ) := []
  /-- The handles of the workers in service. -/
  listed : List Nat := []
  /-- The handles of expired workers. -/
  retired : List Nat := []
  /-- The handles that were waited for, or let go of, to the end. -/
  joined : List Nat := []
  /-- The submissions, by number. -/
  submissions : List (Submission τ) := []
  /-- The releases, by number. -/
  releases : List Release := []
  /-- What there was to report, oldest first. -/
  journal : List (Report τ) := []
  deriving DecidableEq, Repr

namespace Pool

variable {τ : Type}

/-- A new pool, which has no worker yet. -/
def create (name : String) (capacity : Nat) (expiry : Int64) (nonBlocking : Bool) :
    Except Fault (Pool τ) :=
  if capacity = 0 then .error (.capacityNotPositive name)
  else if expiry ≤ 0 then .error (.expiryNotPositive name)
  else .ok { name, capacity, expiry, nonBlocking, journal := [.opened] }

/-! ## What a pool says of itself -/

/-- The number of workers in service. -/
def running (p : Pool τ) : Nat := p.listed.length

/-- The number of workers that the pool has room for beside those in service. -/
def free (p : Pool τ) : Nat := p.capacity - p.running

/-- The number of worker threads that have been started and have not left their loop. -/
def live (p : Pool τ) : Nat := p.workers.countP Worker.isLive

/-- The number of workers that are occupied with a task. -/
def executing (p : Pool τ) : Nat := p.workers.countP Worker.isExecuting

end Pool

/-! ## Output -/

/-- What the log of a pool shows of a report. -/
def Report.output {τ : Type} (pool : Pool τ) : Report τ → Option Output
  | .opened =>
    some (.record .debug ("Initializing worker pool '" ++ pool.name ++ "' with capacity " ++
      toString pool.capacity ++ if pool.nonBlocking then " (non-blocking)" else " (blocking)"))
  | .startFailed =>
    some (.record .error ("Failed to start worker in pool '" ++ pool.name ++ "': " ++
      Fault.threadShortage))
  | .ended _ _ (some (.error m)) =>
    some (.record .error ("Task escaped containment in pool '" ++ pool.name ++ "': " ++
      textBeforeNul m))
  | .ended _ _ (some _) =>
    some (.record .error ("Task escaped containment in pool '" ++ pool.name ++
      "' with unknown error"))
  | .expired worker =>
    some (.record .debug ("Worker " ++ toString worker ++ " in pool '" ++ pool.name ++
      "' expired"))
  | .released => some (.record .debug ("Worker pool '" ++ pool.name ++ "' released"))
  | .accepted _ | .taken .. | .ended _ _ none => none

/-- What a pool wrote to the log. -/
def Pool.outputs {τ : Type} (p : Pool τ) : List Output :=
  p.journal.filterMap (Report.output p)

end TaskPools
