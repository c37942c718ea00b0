/- # Plants

What is rehearsed: a pool on its own, a guarded pool, or a manager.  A plant shows its due moves,
makes them, and shows which scripted tasks run on it, whatever it is.
-/
import TaskPools.Manager.Moves
import TaskPools.Rehearsal.Script

namespace TaskPools

namespace Rehearsal

/-- Something that runs scripted tasks. -/
inductive Plant where
  | pool (p : Pool Script)
  | guarded (g : GuardedPool Script)
  | managed (m : Manager Script)

/-- Something that may happen to a plant. -/
inductive PlantMove where
  | pool (m : Pool.Move)
  | guarded (m : GuardedPool.Move)
  | managed (e : Manager.Event Script)

/-- A matter that somebody waits for: a submission, a release, a release with a bounded wait, or a
call. -/
inductive Ticket where
  | submission (s : Nat)
  | release (r : Nat)
  | timedRelease (i t : Nat)
  | call (c : Nat)

/-- How a matter was settled. -/
inductive Outcome where
  | status (fault : Option Fault)
  | released
  | stats (answer : Except Fault PoolStats)
  | names (names : List String)
  /-- The call returned nothing. -/
  | silence

namespace Plant

/-- The moves of a plant that are due. -/
def dueMoves (start : Bool) : Plant → List PlantMove
  | .pool p => (p.dueMoves start).map .pool
  | .guarded g => (g.dueMoves start).map .guarded
  | .managed m => (m.dueEvents start).map .managed

/-- Make a move. -/
def make : Plant → PlantMove → Option Plant
  | .pool p, .pool m => (p.move m).map .pool
  | .guarded g, .guarded m => (g.move m).map .guarded
  | .managed m, .managed e => (m.step e).map .managed
  | _, _ => none

/-- The number of workers that the pools of a plant tried to start. -/
def workers : Plant → Nat
  | .pool p => p.workers.length
  | .guarded g => g.pool.workers.length
  | .managed m => (m.fleet.pools.flatMap fun g => g.pool.workers).length

/-- A move that starts a thread for a release, or tries to. -/
def isLaunch : PlantMove → Bool
  | .guarded (.launch _ _) | .managed (.launch _ _ _) | .managed (.pool _ (.launch _ _)) => true
  | _ => false

/-- The tasks that run on the workers of one pool. -/
def runningOn {τ : Type} (i : Nat) (script : τ → Script) (p : Pool τ) :
    List ((Nat × Nat) × Script) :=
  p.workers.zipIdx.filterMap fun (worker, w) =>
    match worker with
    | .running task => some ((i, w), script task)
    | _ => none

/-- The tasks that run, each with its pool and its worker. -/
def running : Plant → List ((Nat × Nat) × Script)
  | .pool p => runningOn 0 id p
  | .guarded g => runningOn 0 id g.pool
  | .managed m =>
    m.fleet.pools.zipIdx.flatMap fun (g, i) => runningOn i Job.task g.pool

/-- What the handler throws when it is told of a panic in this pool. -/
def escape (handler : Option Handler) (pool : String) (panic : Option Panic) : Option Panic :=
  match handler, panic with
  | some h, some p => h.panicHandler.escape pool (some p)
  | _, _ => none

/-- End the task on worker `w` of pool `i`. -/
def conclude (handler : Option Handler) (i w : Nat) (panic : Option Panic) :
    Plant → Option Plant
  | .pool p => (p.finish w panic).map .pool
  | .guarded g =>
    (g.move (.conclude w panic (escape handler g.config.name panic))).map .guarded
  | .managed m =>
    (m.step (.pool i (.conclude w panic (escape handler (m.fleet.nameOf i) panic)))).map .managed

/-- Let the time of the first release that waits run out. -/
def elapse : Plant → Option Plant
  | .pool _ => none
  | .guarded g => do
    let t ← g.firstWaiting?
    (g.move (.elapse t)).map .guarded
  | .managed m =>
    m.fleet.pools.zipIdx.findSome? fun (g, i) => do
      let t ← g.firstWaiting?
      (m.step (.pool i (.elapse t))).map .managed

/-- The number of the pool of this name, which must be installed; a plant that has but one pool
takes any name for it. -/
def find? (name : String) : Plant → Option Nat
  | .pool _ | .guarded _ => some 0
  | .managed m => m.find? name

/-- The number of workers in service in pool `i`. -/
def workersOf (i : Nat) : Plant → Nat
  | .pool p => p.running
  | .guarded g => g.pool.running
  | .managed m =>
    match m.fleet.pools[i]? with
    | some g => g.pool.running
    | none => 0

/-- The first sleeping worker of pool `i` has been idle for its whole expiry and leaves. -/
def expire (i : Nat) : Plant → Option Plant
  | .pool p => do
    let w ← p.firstAsleep?
    let p ← p.stirWorker w
    (p.look w true).map .pool
  | .guarded g => do
    let w ← g.pool.firstAsleep?
    let g ← g.move (.pool (.stirWorker w))
    (g.move (.pool (.look w true))).map .guarded
  | .managed m => do
    let g ← m.fleet.pools[i]?
    let w ← g.pool.firstAsleep?
    let m ← m.step (.pool i (.pool (.stirWorker w)))
    (m.step (.pool i (.pool (.look w true)))).map .managed

/-! ## Matters that somebody waits for -/

/-- How a matter was settled, once it is. -/
def outcome? : Plant → Ticket → Option Outcome
  | .pool p, .submission s =>
    match p.submissions[s]? with
    | some (.returned fault) => some (.status fault)
    | _ => none
  | .pool p, .release r =>
    match p.releases[r]? with
    | some .returned => some .released
    | _ => none
  | .guarded g, .submission s =>
    match g.replies[s]? with
    | some (.given fault) => some (.status fault)
    | _ => none
  | .guarded g, .timedRelease _ t => timed g t
  | .managed m, .timedRelease i t => (m.fleet.pools[i]?).bind fun g => timed g t
  | .managed m, .call c =>
    match m.work? c with
    | some (.execute _ _ (.returned fault)) | some (.reload _ (.returned fault)) =>
      some (.status fault)
    | some (.stats _ (.returned answer)) => some (.stats answer)
    | some (.list (.returned ns)) => some (.names ns)
    | some (.shutdown .returned) => some .silence
    | _ => none
  | _, _ => none
where
  /-- How release `t` of a guarded pool returned. -/
  timed {τ : Type} (g : GuardedPool τ) (t : Nat) : Option Outcome :=
    match g.releases[t]? with
    | some (.returned fault) => some (.status fault)
    | _ => none

/-! ## What a plant writes and observes -/

/-- What was written, journal by journal. -/
def journals (handler : Option Handler) : Plant → List (List Output)
  | .pool p => [p.outputs]
  | .guarded g => [g.outputs (handler.map Handler.panicHandler), g.pool.outputs]
  | .managed m => m.journals (handler.map Handler.panicHandler)

/-- The panics that a guard told its handler of, each with the name of the pool. -/
def panicsOf {τ : Type} (g : GuardedPool τ) : List (String × String) :=
  g.journal.filterMap fun report =>
    match report with
    | .handled panic => some (g.config.name, Panic.describe (some panic))
    | _ => none

/-- The panics that the handler was told of, pool by pool. -/
def panics : Plant → List (List (String × String))
  | .pool _ => []
  | .guarded g => [panicsOf g]
  | .managed m => m.fleet.pools.map panicsOf

end Plant

end Rehearsal

end TaskPools
