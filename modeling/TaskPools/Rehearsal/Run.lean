/- # Rehearsals

A rehearsal runs scripted tasks on a plant, one operation after the other.  After each operation
everything that can move moves, until every task has ended or waits at a gate, every submission has
returned or is blocked, and every release has returned or waits for a task at a gate.  Time passes
only when nothing else can happen: then the waits that have a bound run out.  What is seen in such
a quiet state does not depend on the order of the moves.
-/
import TaskPools.Daemon.Text
import TaskPools.Rehearsal.Plant

namespace TaskPools

namespace Rehearsal

/-- The state of a rehearsal. -/
structure State where
  plant : Plant
  handler : Option Handler
  /-- The gates that are open. -/
  gates : List String := []
  /-- So many of the next attempts to start a thread fail. -/
  shortage : Nat := 0
  /-- The tasks that are being carried out. -/
  bodies : List Body := []
  /-- The tasks that ended since the operation began. -/
  endings : List Ending := []
  /-- The matters that are not settled, each with a label. -/
  pending : List (Ticket × String) := []
  /-- The plant was destroyed. -/
  destroyed : Bool := false

/-- One operation of a rehearsal. -/
inductive Operation where
  | openGate (name : String)
  /-- Let the next attempts to start a thread fail. -/
  | failThreads (attempts : Nat)
  /-- Submit a task to the only pool. -/
  | submit (task : Option Script)
  /-- Release the only pool and wait for it without a bound. -/
  | release
  /-- Release the only pool and wait for it for no more than `bound` milliseconds. -/
  | releaseTimed (bound : Int64)
  /-- Ask the only pool what it says of itself. -/
  | gauges
  /-- Ask the guard of the only pool for statistics. -/
  | stats
  | execute (pool : String) (task : Option Script)
  | statsOf (pool : String)
  | reload (configs : List PoolConfig)
  | shutdown
  | list
  | isClosed
  /-- Log the statistics of all pools. -/
  | logStats
  /-- Release an installed pool without the knowledge of its manager. -/
  | releasePool (pool : String) (bound : Int64)
  | destroy

/-- The operation may still be going on in a quiet state: it submits a task, or it releases a pool
without a bound. -/
def Operation.mayWait : Operation → Bool
  | .submit _ | .execute _ _ | .release => true
  | _ => false

/-- The answer to an operation. -/
inductive Answer where
  | nothing
  /-- The operation is still going on. -/
  | blocked
  | status (fault : Option Fault)
  | released
  /-- The pool on its own, which says all of itself. -/
  | gauges (p : Pool Script)
  | stats (s : PoolStats)
  | statsOf (answer : Except Fault PoolStats)
  | names (names : List String)
  | flag (b : Bool)
  | noSuchPool
  | destroyed

/-- What there is to see once an operation has led to a quiet state. -/
structure Report where
  answer : Answer
  endings : List Ending
  /-- The panics that the handler was told of, each with the name of the pool. -/
  panics : List (String × String)
  /-- The earlier matters that were settled, each with its label. -/
  resolved : List (String × Outcome)
  outputs : List Output
  /-- The operation leads to no quiet state: it never returns though it must, or a task never
  does. -/
  hangs : Bool

namespace State

/-! ## Moving on -/

/-- Make a move of the plant that is due.  An attempt to start a thread uses up one of those that
fail. -/
def movePlant (s : State) : Option State :=
  (s.plant.dueMoves (s.shortage == 0)).findSome? fun move => do
    let plant ← s.plant.make move
    let attempted := Plant.isLaunch move || plant.workers != s.plant.workers
    pure { s with plant, shortage := if attempted then s.shortage - 1 else s.shortage }

/-- The task on a worker, as far as it is carried out. -/
def bodyOn (s : State) (worker : Nat × Nat) (script : Script) : Body :=
  match s.bodies.find? fun body => body.worker == worker with
  | some body => body
  | none => { worker, label := script.label, actions := script.actions }

/-- Keep note of how far a task is carried out. -/
def keep (s : State) (body : Body) : State :=
  { s with bodies := body :: s.bodies.filter fun b => b.worker != body.worker }

/-- End a task. -/
def conclude (s : State) (body : Body) (panic : Option Panic) : Option State := do
  let plant ← s.plant.conclude s.handler body.worker.1 body.worker.2 panic
  let ending := { label := body.label, threw := panic.isSome, echoes := body.echoes }
  pure
    { s with
      plant
      bodies := s.bodies.filter fun b => b.worker != body.worker
      endings := s.endings ++ [ending] }

/-- Carry a task one action further. -/
def carryOn (s : State) (body : Body) : Option State :=
  match body.call, body.actions, s.plant with
  | some c, _, .managed m => do
    let echo ← Echo.ofWork? (← m.work? c)
    pure (s.keep { body with call := none, echoes := body.echoes ++ [echo] })
  | some _, _, _ => none
  | none, [], _ => s.conclude body none
  | none, .throw panic :: _, _ => s.conclude body (some panic)
  | none, .gate name :: rest, _ =>
    if s.gates.contains name then some (s.keep { body with actions := rest }) else none
  | none, action :: rest, .managed m =>
    match action.request? with
    | some request => do
      let m' ← m.call (some body.worker) request
      pure ({ s with plant := .managed m' }.keep
        { body with actions := rest, call := some m.calls.length })
    | none => some (s.keep { body with actions := rest })
  | none, _ :: rest, _ => some (s.keep { body with actions := rest })

/-- Carry one of the tasks on. -/
def moveBody (s : State) : Option State :=
  s.plant.running.findSome? fun (worker, script) => s.carryOn (s.bodyOn worker script)

/-- Let time pass, so that a wait with a bound runs out. -/
def passTime (s : State) : Option State :=
  s.plant.elapse.map fun plant => { s with plant }

/-- Something happens; time passes only if nothing else can happen. -/
def tick (s : State) : Option State :=
  s.movePlant <|> s.moveBody <|> s.passTime

/-- Let things happen until the state is quiet, at most `fuel` of them. -/
def settle (s : State) : Nat → State
  | 0 => s
  | fuel + 1 =>
    match s.tick with
    | some s => s.settle fuel
    | none => s

/-- More things than happen between two quiet states. -/
def enoughTicks : Nat := 1000000

/-- The state after everything that can happen. -/
def quiet (s : State) : State := s.settle enoughTicks

/-- Let idle workers of pool `i` leave, as many as are too many. -/
def shed (s : State) (i : Nat) : Nat → State
  | 0 => s
  | surplus + 1 =>
    match s.plant.expire i with
    | some plant => { s with plant }.shed i surplus
    | none => s

/-- Wait until pool `i` has no more than `n` workers. -/
def awaitWorkers (s : State) (i n : Nat) : State :=
  (s.shed i (s.plant.workersOf i - n)).quiet

/-! ## Operations -/

/-- How an operation goes on once it has begun. -/
inductive Progress where
  | answered (answer : Answer)
  /-- Its answer is how this matter, which has a label, is settled. -/
  | waiting (ticket : Ticket) (label : String)

/-- The label of a submission. -/
def labelOf : Option Script → String
  | some script => script.label
  | none => "null"

/-- The answer that settles a matter. -/
def answerOf : Outcome → Answer
  | .status fault => .status fault
  | .released => .released
  | .stats answer => .statsOf answer
  | .names ns => .names ns
  | .silence => .nothing

/-- Make a call on the manager. -/
def makeCall (s : State) (m : Manager Script) (request : Request Script) (label : String) :
    State × Progress :=
  match m.call none request with
  | some m' => ({ s with plant := .managed m' }, .waiting (.call m.calls.length) label)
  | none => (s, .answered .nothing)

/-- Begin an operation on a pool of its own. -/
def beginOnPool (s : State) (p : Pool Script) : Operation → State × Progress
  | .submit task =>
    ({ s with plant := .pool (p.submit task) },
     .waiting (.submission p.submissions.length) (labelOf task))
  | .release =>
    match p.step (.release none) with
    | some p' => ({ s with plant := .pool p' }, .waiting (.release p.releases.length) "release")
    | none => (s, .answered .nothing)
  | .gauges => (s, .answered (.gauges p))
  | _ => (s, .answered .nothing)

/-- Begin an operation on a guarded pool. -/
def beginOnGuarded (s : State) (g : GuardedPool Script) : Operation → State × Progress
  | .submit task =>
    match g.step (.submit task) with
    | some g' =>
      ({ s with plant := .guarded g' }, .waiting (.submission g.replies.length) (labelOf task))
    | none => (s, .answered .nothing)
  | .releaseTimed bound =>
    match g.step (.release none bound) with
    | some g' =>
      ({ s with plant := .guarded g' }, .waiting (.timedRelease 0 g.releases.length) "release")
    | none => (s, .answered .nothing)
  | .stats =>
    match g.stats with
    | some stats => (s, .answered (.stats stats))
    | none => (s, .answered .nothing)
  | _ => (s, .answered .nothing)

/-- Begin an operation on a manager. -/
def beginOnManager (s : State) (m : Manager Script) : Operation → State × Progress
  | .execute pool task => s.makeCall m (.execute pool task) (labelOf task)
  | .statsOf pool => s.makeCall m (.stats pool) "stats"
  | .reload configs => s.makeCall m (.reload configs) "reload"
  | .shutdown => s.makeCall m .shutdown "shutdown"
  | .list => s.makeCall m .list "list"
  | .isClosed => (s, .answered (.flag m.closed))
  | .releasePool pool bound =>
    match m.find? pool with
    | none => (s, .answered .noSuchPool)
    | some i =>
      match m.fleet.pools[i]?, m.onPool i (.release none bound) with
      | some g, some m' =>
        ({ s with plant := .managed m' }, .waiting (.timedRelease i g.releases.length) "release")
      | _, _ => (s, .answered .noSuchPool)
  | .destroy => { s with destroyed := true }.makeCall m .shutdown "destroy"
  | _ => (s, .answered .nothing)

/-- Begin an operation. -/
def begin (s : State) (o : Operation) : State × Progress :=
  match o, s.plant with
  | .openGate name, _ => ({ s with gates := name :: s.gates }, .answered .nothing)
  | .failThreads n, _ => ({ s with shortage := n }, .answered .nothing)
  | _, .pool p => s.beginOnPool p o
  | _, .guarded g => s.beginOnGuarded g o
  | _, .managed m => if s.destroyed then (s, .answered .destroyed) else s.beginOnManager m o

/-- Make a call on the manager, wait for the quiet state after it, and return how it was
settled. -/
def ask (s : State) (request : Request Script) : State × Option Outcome :=
  match s.plant with
  | .managed m =>
    match s.makeCall m request "" with
    | (s, .waiting ticket _) =>
      let s := s.quiet
      (s, s.plant.outcome? ticket)
    | (s, .answered _) => (s, none)
  | _ => (s, none)

/-- Log the statistics of all pools of a manager, by name. -/
def logStats (s : State) : State × List Output :=
  match s.ask .list with
  | (s, some (.names ns)) =>
    ns.foldl
      (fun (s, outputs) name =>
        match s.ask (.stats name) with
        | (s, some (.stats (.ok stats))) => (s, outputs ++ [Daemon.statsRecord (.ok stats)])
        | (s, some (.stats (.error fault))) =>
          (s, outputs ++ [Daemon.statsRecord (.error fault.status)])
        | (s, _) => (s, outputs))
      (s, [])
  | (s, _) => (s, [])

/-- The matters among those pending that are settled. -/
def settled (s : State) : List (String × Outcome) :=
  s.pending.filterMap fun (ticket, label) =>
    (s.plant.outcome? ticket).map fun outcome => (label, outcome)

/-- The panics that the handler heard, if it keeps note of them. -/
def panics (s : State) : List (List (String × String)) :=
  match s.handler with
  | some .recording => s.plant.panics
  | _ => []

/-- A task waits for a call that it made. -/
def isCalling (s : State) : Bool := s.bodies.any fun body => body.call.isSome

/-- Perform an operation and wait for the quiet state after it; then wait, if that is asked for,
until the pool of a name has no more than some number of workers. -/
def perform (s : State) (o : Operation) (await : Option (String × Nat)) : State × Report :=
  let before := s
  let s := { s with endings := [] }
  let (s, progress, outputs) :=
    match o, s.destroyed with
    | .logStats, false =>
      let (s, outputs) := s.logStats
      (s, Progress.answered .nothing, outputs)
    | _, _ =>
      let (s, progress) := s.begin o
      (s, progress, [])
  let s := s.quiet
  let s :=
    match await with
    | some (name, n) =>
      match s.plant.find? name with
      | some i => s.awaitWorkers i n
      | none => s
    | none => s
  let resolved := s.settled
  let pending := s.pending.filter fun (ticket, _) => (s.plant.outcome? ticket).isNone
  let (answer, pending, waits) :=
    match progress with
    | .answered answer => (answer, pending, false)
    | .waiting ticket label =>
      match s.plant.outcome? ticket with
      | some outcome => (answerOf outcome, pending, false)
      | none => (.blocked, pending ++ [(ticket, label)], true)
  let written := journalGains (before.plant.journals s.handler) (s.plant.journals s.handler)
  ({ s with pending },
   { answer
     endings := s.endings
     panics := (journalGains before.panics s.panics).flatten
     resolved
     outputs := written.flatten ++ outputs
     hangs := s.isCalling || (waits && !o.mayWait) })

end State

end Rehearsal

end TaskPools
