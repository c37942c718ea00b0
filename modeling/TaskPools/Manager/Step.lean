/- # The steps of a manager

Each step of a call is one access to the flag, to the installed batch or to a pool.  Between two
steps of a call anything else may happen: other calls, and moves of the pools.

* An execution reads the flag, looks the pool up and submits the task.  If that pool was closed
  and the manager is open, the batch was replaced meanwhile, and the task is routed once more.
* A reload reads the flag, builds a batch, takes the lock, reads the flag again, and installs the
  batch unless the flag is set by then; the batch that loses its place, the old one or the new one,
  is retired.
* A shutdown sets the flag, installs the empty batch and retires what was installed.

Whoever looks at the installed batch or replaces it has the lock meanwhile, which for all but the
reload is no longer than one step.  The flag is read and set without it, so a shutdown can set the
flag after the second look of a reload, but cannot empty the manager before that reload is done.
-/
import TaskPools.Manager.State

namespace TaskPools

/-- What is asked of a manager. -/
inductive Request (τ : Type) where
  | execute (pool : String) (task : Option τ)
  | reload (configs : List PoolConfig)
  | shutdown
  | stats (pool : String)
  | list

/-- The work of a call that begins. -/
def Request.work {τ : Type} : Request τ → Work τ
  | .execute pool task => .execute pool task .begun
  | .reload configs => .reload configs .begun
  | .shutdown => .shutdown .begun
  | .stats pool => .stats pool .begun
  | .list => .list .begun

namespace Manager

/-- What may happen to a manager. -/
inductive Event (τ : Type) where
  /-- Somebody makes a call, perhaps a task on the worker `caller` of a pool. -/
  | call (caller : Option (Nat × Nat)) (request : Request τ)
  /-- Call `c` goes on. -/
  | advance (c : Nat)
  /-- Call `c` begins the release of pool `i`, which it retires. -/
  | launch (c i : Nat) (start : Bool)
  /-- Call `c` finishes with a release that has returned. -/
  | collect (c : Nat) (k : Option Nat)
  /-- Pool `i` moves. -/
  | pool (i : Nat) (m : GuardedPool.Move)

variable {τ : Type}

/-- Let pool `i` take a step. -/
def onPool (m : Manager τ) (i : Nat) (e : GuardedPool.Event (Job τ)) : Option (Manager τ) :=
  (m.fleet.onPool i e).map fun f => { m with fleet := f }

/-- Install a batch in the place of another. -/
def install (m : Manager τ) (b : Batch) : Manager τ :=
  { m with installed := b, past := m.installed :: m.past }

/-- Hand a task to pool `i`, and say which submission of that pool it is. -/
def submit (m : Manager τ) (i : Nat) (job : Option (Job τ)) : Option (Manager τ × Nat) := do
  let g ← m.fleet.pools[i]?
  let m ← m.onPool i (.submit job)
  pure (m, g.replies.length)

/-- The answer of pool `i` to its submission `s`, once it is given. -/
def reply? (m : Manager τ) (i s : Nat) : Option (Option Fault) := do
  let g ← m.fleet.pools[i]?
  match g.replies[s]? with
  | some (.given fault) => some fault
  | _ => none

/-- The answer of an execution to the answer of a pool: an overload names the pool. -/
def nameOverload (pool : String) : Option Fault → Option Fault
  | some .overloaded => some (.poolOverloaded pool)
  | fault => fault

/-! ## The next step of a call -/

/-- An execution, which is call `c`, goes on. -/
def advanceExecute (m : Manager τ) (c : Nat) (pool : String) (task : Option τ) :
    ExecutePhase → Option (Manager τ × ExecutePhase)
  | .begun => some (m, if m.closed then .returned (some .managerClosed) else .open)
  | .open =>
    match m.find? pool with
    | some i => some (m, .found m.generation i)
    | none => some (m, .returned (some (.poolNotFound pool)))
  | .found generation i => do
    let (m, s) ← m.submit i (task.map (Job.mk c))
    pure (m, .submitted generation i s)
  | .submitted generation i s => do
    match ← m.reply? i s with
    | some .managerClosed => pure (m, .refused generation)
    | fault => pure (m, .returned (nameOverload pool fault))
  | .refused generation =>
    some (m, if m.closed then .returned (some .managerClosed) else .rerouting generation)
  | .rerouting generation =>
    if m.generation = generation then some (m, .returned (some .managerClosed))
    else
      match m.find? pool with
      | some i => some (m, .refound i)
      | none => some (m, .returned (some (.poolNotFound pool)))
  | .refound i => do
    let (m, s) ← m.submit i (task.map (Job.mk c))
    pure (m, .resubmitted i s)
  | .resubmitted i s => do
    let fault ← m.reply? i s
    pure (m, .returned (nameOverload pool fault))
  | .returned _ => none

/-- A reload goes on.  If it finds the flag set while it has the lock it gives the lock back in the
same step, and otherwise with the swap. -/
def advanceReload (m : Manager τ) (configs : List PoolConfig) :
    ReloadPhase → Option (Manager τ × ReloadPhase)
  | .begun =>
    some (m, if m.closed then .returned (some .managerClosed)
             else .assembling (.ofConfigs configs))
  | .assembling (.done (.ok batch)) => some (m, .built batch)
  | .assembling (.done (.error fault)) =>
    some ({ m with fleet := m.fleet.note (.reloadRejected fault) },
      .returned (some (.reloadFailed fault)))
  | .assembling assembly => do
    let (fleet, assembly) ← assembly.advance m.fleet
    pure ({ m with fleet }, .assembling assembly)
  | .built batch => some (m, if m.closed then .rejecting (.ofBatch batch) else .checked batch)
  | .checked batch =>
    let old := m.installed
    let m := m.install batch
    some ({ m with fleet := m.fleet.note (.reloaded batch.length old.length) },
      .retiring (.ofBatch old))
  | .rejecting retirement =>
    if retirement.isOver then some (m, .returned (some .managerClosed)) else none
  | .retiring retirement => if retirement.isOver then some (m, .returned none) else none
  | .returned _ => none

/-- A shutdown goes on. -/
def advanceShutdown (m : Manager τ) : ShutdownPhase → Option (Manager τ × ShutdownPhase)
  | .begun => some ({ m with closed := true }, .closed)
  | .closed =>
    let old := m.installed
    let m := m.install []
    if old.isEmpty then some (m, .returned)
    else
      some ({ m with fleet := m.fleet.note (.shuttingDown old.length) }, .retiring (.ofBatch old))
  | .retiring retirement =>
    if retirement.isOver then
      some ({ m with fleet := m.fleet.note .shutdownComplete }, .returned)
    else none
  | .returned => none

/-- A call for statistics goes on. -/
def advanceStats (m : Manager τ) (pool : String) : StatsPhase → Option (Manager τ × StatsPhase)
  | .begun => some (m, if m.closed then .returned (.error .managerClosed) else .open)
  | .open =>
    match m.find? pool with
    | some i => some (m, .found i)
    | none => some (m, .returned (.error (.poolNotFound pool)))
  | .found i => do
    let g ← m.fleet.pools[i]?
    let m ← m.onPool i .sample
    pure (m, .sampling i g.samples.length)
  | .sampling i k => do
    let g ← m.fleet.pools[i]?
    let figures ← g.samples[k]?
    match g.statsOfFigures figures with
    | some stats => pure (m, .returned (.ok stats))
    | none =>
      let m ← m.onPool i (.gauge k)
      pure (m, .sampling i k)
  | .returned _ => none

/-- A call for the installed names goes on. -/
def advanceList (m : Manager τ) : ListPhase → Option (Manager τ × ListPhase)
  | .begun => some (m, .returned m.installed.names)
  | .returned _ => none

/-- Call `c` goes on with its work. -/
def advanceWork (m : Manager τ) (c : Nat) : Work τ → Option (Manager τ × Work τ)
  | .execute pool task phase =>
    (m.advanceExecute c pool task phase).map fun (m, phase) => (m, .execute pool task phase)
  | .reload configs phase =>
    (m.advanceReload configs phase).map fun (m, phase) => (m, .reload configs phase)
  | .shutdown phase => (m.advanceShutdown phase).map fun (m, phase) => (m, .shutdown phase)
  | .stats pool phase => (m.advanceStats pool phase).map fun (m, phase) => (m, .stats pool phase)
  | .list phase => (m.advanceList phase).map fun (m, phase) => (m, .list phase)

end Manager

namespace Work

variable {τ : Type}

/-- The next step of the call takes the lock: it looks a pool up, tells the names, begins a section
in which a reload looks at the flag again, or empties the manager. -/
def takesLock : Work τ → Bool
  | .execute _ _ .open | .execute _ _ (.rerouting _) | .reload _ (.built _) | .shutdown .closed
  | .stats _ .open | .list .begun => true
  | _ => false

/-! ## Retirements under way -/

/-- The retirement that a piece of work is carrying out. -/
def retirement? : Work τ → Option Retirement
  | .reload _ (.assembling (.discarding _ r)) | .reload _ (.rejecting r)
  | .reload _ (.retiring r) | .shutdown (.retiring r) => some r
  | _ => none

/-- A piece of work with its retirement in another state. -/
def withRetirement (r : Retirement) : Work τ → Work τ
  | .reload configs (.assembling (.discarding fault _)) =>
    .reload configs (.assembling (.discarding fault r))
  | .reload configs (.rejecting _) => .reload configs (.rejecting r)
  | .reload configs (.retiring _) => .reload configs (.retiring r)
  | .shutdown (.retiring _) => .shutdown (.retiring r)
  | work => work

end Work

namespace Manager

variable {τ : Type}

/-- Put call `c` to another place. -/
def setWork (m : Manager τ) (c : Nat) (work : Work τ) : Manager τ :=
  { m with calls := m.calls.modify c fun call => { call with work } }

/-- Call `c` takes its next step.  It cannot take the lock while another call has it. -/
def advance (m : Manager τ) (c : Nat) : Option (Manager τ) := do
  let call ← m.calls[c]?
  if call.work.takesLock && m.isLocked then none
  else
    let (m, work) ← m.advanceWork c call.work
    pure (m.setWork c work)

/-- Call `c` begins the release of pool `i`, which it retires. -/
def launch (m : Manager τ) (c i : Nat) (start : Bool) : Option (Manager τ) := do
  let call ← m.calls[c]?
  let retirement ← call.work.retirement?
  let (fleet, retirement) ← retirement.launch m.fleet i call.caller start
  pure ({ m with fleet }.setWork c (call.work.withRetirement retirement))

/-- Call `c` finishes with a release that has returned. -/
def collect (m : Manager τ) (c : Nat) (k : Option Nat) : Option (Manager τ) := do
  let call ← m.calls[c]?
  let retirement ← call.work.retirement?
  let (fleet, retirement) ← retirement.collect m.fleet k
  pure ({ m with fleet }.setWork c (call.work.withRetirement retirement))

/-! ## Calls made by tasks -/

/-- Worker `w` of pool `i` runs a task. -/
def isRunning (m : Manager τ) (i w : Nat) : Bool :=
  match m.fleet.pools[i]? with
  | some g =>
    match g.pool.workers[w]? with
    | some (.running _) => true
    | _ => false
  | none => false

/-- The task on worker `w` of pool `i` waits for a call to return. -/
def isCalling (m : Manager τ) (i w : Nat) : Bool :=
  m.calls.any fun call => call.caller == some (i, w) && !call.work.isOver

/-- A call begins.  Only a running task that does not wait for a call can make one. -/
def call (m : Manager τ) (caller : Option (Nat × Nat)) (request : Request τ) :
    Option (Manager τ) :=
  let m' := { m with calls := m.calls ++ [{ caller, work := request.work }] }
  match caller with
  | none => some m'
  | some (i, w) => if m.isRunning i w && !m.isCalling i w then some m' else none

/-- Pool `i` moves.  A task does not end while it waits for a call. -/
def movePool (m : Manager τ) (i : Nat) (move : GuardedPool.Move) : Option (Manager τ) :=
  match move with
  | .conclude w _ _ => if m.isCalling i w then none else m.onPool i (.move move)
  | _ => m.onPool i (.move move)

/-! ## All steps -/

/-- A step of a manager, where it can be taken. -/
def step (m : Manager τ) : Event τ → Option (Manager τ)
  | .call caller request => m.call caller request
  | .advance c => m.advance c
  | .launch c i start => m.launch c i start
  | .collect c k => m.collect c k
  | .pool i move => m.movePool i move

end Manager

end TaskPools
