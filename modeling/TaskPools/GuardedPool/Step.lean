/- # The steps of a guarded pool

A step of a guarded pool is a step of its pool, or something that the guard does around it: answer
a submission that the pool has settled, take note of how a task ended, start the thread of a
release, give a release up when its time is over, or read one figure of the statistics.  The guard
changes its pool only by steps of the pool.
-/
import TaskPools.GuardedPool.State
import TaskPools.Pool.Step

namespace TaskPools

namespace GuardedPool

/-- What may happen to a guarded pool without a new call. -/
inductive Move where
  /-- The pool moves. -/
  | pool (m : Pool.Move)
  /-- Submission `s` is answered. -/
  | answer (s : Nat)
  /-- The task of worker `w` ends, perhaps with a panic; `escape` is what the handler throws when
  it is told. -/
  | conclude (w : Nat) (panic : Option Panic) (escape : Option Panic)
  /-- Release `t` starts its thread, if it can. -/
  | launch (t : Nat) (start : Bool)
  /-- Release `t` finds that the pool is released. -/
  | complete (t : Nat)
  /-- The time of release `t` is over. -/
  | elapse (t : Nat)
  deriving DecidableEq, Repr

/-- What may happen to a guarded pool. -/
inductive Event (τ : Type) where
  /-- Somebody submits a task, or nothing. -/
  | submit (task : Option τ)
  /-- Somebody releases the pool and waits for it for no more than `bound` milliseconds, perhaps on
  the thread of its worker `own`. -/
  | release (own : Option Nat) (bound : Int64)
  /-- Somebody asks for statistics. -/
  | sample
  /-- The next figure of statistics `k` is read. -/
  | gauge (k : Nat)
  | move (m : Move)
  deriving DecidableEq, Repr

variable {τ : Type}

/-- Let the pool take a step. -/
def onPool (g : GuardedPool τ) (e : Pool.Event τ) : Option (GuardedPool τ) :=
  (g.pool.step e).map fun p => { g with pool := p }

/-- Add a report to the journal. -/
def report (g : GuardedPool τ) (r : GuardReport) : GuardedPool τ :=
  { g with journal := g.journal ++ [r] }

/-! ## Submissions -/

/-- What a guard says of a fault of its pool: a full pool is overloaded and a closed pool belongs to
a closed manager. -/
def translate : Fault → Fault
  | .poolFull _ _ => .overloaded
  | .poolClosed _ => .managerClosed
  | fault => fault

/-- Count an answer of the pool. -/
def count (g : GuardedPool τ) : Option Fault → GuardedPool τ
  | none => { g with submitted := g.submitted + 1 }
  | some (.poolFull _ _) => { g with rejected := g.rejected + 1 }
  | some _ => g

/-- Submission `s`, which the pool has settled, is counted and answered. -/
def answer (g : GuardedPool τ) (s : Nat) : Option (GuardedPool τ) :=
  match g.pool.submissions[s]?, g.replies[s]? with
  | some (.returned fault), some .pending =>
    some { g.count fault with replies := g.replies.set s (.given (fault.map translate)) }
  | _, _ => none

/-! ## Endings -/

/-- The task of worker `w` ends.  The ending is counted; a panic goes to the handler, or is printed
if there is none, and only what the handler itself throws reaches the pool. -/
def conclude (g : GuardedPool τ) (w : Nat) (panic escape : Option Panic) :
    Option (GuardedPool τ) :=
  match panic with
  | none => { g with completed := g.completed + 1 }.onPool (.finish w none)
  | some panic =>
    let g := { g with panicked := g.panicked + 1 }
    if g.watched then (g.report (.handled panic)).onPool (.finish w escape)
    else (g.report (.printed panic)).onPool (.finish w none)

/-! ## Releases -/

/-- Put release `t` to another place. -/
def setRelease (g : GuardedPool τ) (t : Nat) (place : TimedRelease) : GuardedPool τ :=
  { g with releases := g.releases.set t place }

/-- Release `t` hands the pool to a thread of its own.  If none can be started, it releases the
pool itself, however long that takes. -/
def launch (g : GuardedPool τ) (t : Nat) (start : Bool) : Option (GuardedPool τ) :=
  match g.releases[t]? with
  | some (.begun own bound) =>
    let r := g.pool.releases.length
    if start then (g.setRelease t (.waiting r bound)).onPool (.release none)
    else ((g.setRelease t (.inline r)).report .releaseInline).onPool (.release own)
  | _ => none

/-- Release `t` is over because the pool is released. -/
def complete (g : GuardedPool τ) (t : Nat) : Option (GuardedPool τ) :=
  match g.releases[t]? with
  | some (.waiting r _) | some (.inline r) =>
    if g.pool.releases[r]? = some .returned then some (g.setRelease t (.returned none)) else none
  | _ => none

/-- Release `t` is over because its time is; the pool keeps draining. -/
def elapse (g : GuardedPool τ) (t : Nat) : Option (GuardedPool τ) :=
  match g.releases[t]? with
  | some (.waiting _ _) =>
    some (g.setRelease t (.returned (some (.shutdownTimeout g.config.name))))
  | _ => none

/-! ## Statistics -/

/-- Statistics `k` read their next figure. -/
def gauge (g : GuardedPool τ) (k : Nat) : Option (GuardedPool τ) := do
  let figures ← g.samples[k]?
  let next ← Gauge.order[figures.length]?
  pure { g with samples := g.samples.set k (figures ++ [g.read next]) }

/-! ## All steps -/

/-- A move of a guarded pool, where it can be made. -/
def move (g : GuardedPool τ) : Move → Option (GuardedPool τ)
  | .pool m => g.onPool (.move m)
  | .answer s => g.answer s
  | .conclude w panic escape => g.conclude w panic escape
  | .launch t start => g.launch t start
  | .complete t => g.complete t
  | .elapse t => g.elapse t

/-- A step of a guarded pool, where it can be taken. -/
def step (g : GuardedPool τ) : Event τ → Option (GuardedPool τ)
  | .submit task => { g with replies := g.replies ++ [Reply.pending] }.onPool (.submit task)
  | .release own bound => some { g with releases := g.releases ++ [.begun own bound] }
  | .sample => some { g with samples := g.samples ++ [[]] }
  | .gauge k => g.gauge k
  | .move m => g.move m

end GuardedPool

end TaskPools
