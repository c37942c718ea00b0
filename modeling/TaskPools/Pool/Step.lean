/- # The steps of a worker pool

Each step is one critical section of the mutex of a pool, or one thing that a thread does between
two of them.  What the scheduler, the clock or a task decides is part of the step: which sleeper a
notification wakes, whether a thread can be started, how a task ends.  `Pool.step` is therefore a
function, and it is defined exactly where the step can be taken.

* A submission joins the threads of expired workers, asks for a slot, sleeps while the pool is
  full, and tells one worker of its task once the task is in the queue.
* A worker looks at the queue, takes the task at its front or goes to sleep, and gives the slot of
  its task back when the task has ended.  It leaves once the pool is closed and the queue empty, or
  once it has been idle for its whole expiry.
* A release closes the pool, wakes every sleeper and waits for the workers.
-/
import TaskPools.Pool.State

namespace TaskPools

namespace Pool

/-- What may happen to a pool without a new call and without the end of a task. -/
inductive Move where
  /-- Submission `s` waits for the next expired worker to the end. -/
  | reap (s : Nat)
  /-- Submission `s` asks for a slot.  `start` says whether a thread can be started if one is
  needed, and `alert` names the blocked submitter that hears of the slot if not. -/
  | enter (s : Nat) (start : Bool) (alert : Option Nat)
  /-- Submission `s`, whose sleep is over, asks again. -/
  | resume (s : Nat) (start : Bool) (alert : Option Nat)
  /-- Blocked submission `s` wakes for no reason. -/
  | stirSubmitter (s : Nat)
  /-- Submission `s` tells a sleeping worker of its task. -/
  | announce (s : Nat) (alert : Option Nat)
  /-- Sleeping worker `w` wakes for no reason, or because its time is over. -/
  | stirWorker (w : Nat)
  /-- Worker `w` looks at the queue; `late` says that its time is over. -/
  | look (w : Nat) (late : Bool)
  /-- Worker `w` gives the slot of its task back, tells a blocked submitter of it, and looks at the
  queue. -/
  | giveBack (w : Nat) (alert : Option Nat)
  /-- Release `r` closes the pool and takes the handles of its workers. -/
  | close (r : Nat)
  /-- Release `r` wakes the sleeping workers. -/
  | alertWorkers (r : Nat)
  /-- Release `r` wakes the blocked submitters. -/
  | alertSubmitters (r : Nat)
  /-- Release `r` waits for the next of its workers to the end. -/
  | join (r : Nat)
  deriving DecidableEq, Repr

/-- What may happen to a pool. -/
inductive Event (τ : Type) where
  /-- Somebody submits a task, or nothing. -/
  | submit (task : Option τ)
  /-- The task of worker `w` ends and lets `escape` through to the worker. -/
  | finish (w : Nat) (escape : Option Panic)
  /-- Somebody releases the pool, perhaps on the thread of its worker `own`. -/
  | release (own : Option Nat)
  | move (m : Move)
  deriving DecidableEq, Repr

variable {τ : Type}

/-! ## Small changes -/

/-- Add a report to the journal. -/
def report (p : Pool τ) (r : Report τ) : Pool τ :=
  { p with journal := p.journal ++ [r] }

/-- Put submission `s` to another place. -/
def setSubmission (p : Pool τ) (s : Nat) (place : Submission τ) : Pool τ :=
  { p with submissions := p.submissions.set s place }

/-- Put worker `w` to another place. -/
def setWorker (p : Pool τ) (w : Nat) (place : Worker τ) : Pool τ :=
  { p with workers := p.workers.set w place }

/-- Put release `r` to another place. -/
def setRelease (p : Pool τ) (r : Nat) (place : Release) : Pool τ :=
  { p with releases := p.releases.set r place }

/-- Worker `w` has left its loop. -/
def hasExited (p : Pool τ) (w : Nat) : Bool :=
  match p.workers[w]? with
  | some .exited => true
  | _ => false

/-! ## Notifications -/

/-- Tell one blocked submitter that a slot is free.  It may be any of them, and it is nobody only
if nobody is blocked. -/
def alertSubmitter (p : Pool τ) : Option Nat → Option (Pool τ)
  | none => if p.submissions.any Submission.isParked then none else some p
  | some s =>
    match p.submissions[s]? with
    | some (.parked task) => some (p.setSubmission s (.woken task true))
    | _ => none

/-- Tell one sleeping worker that there is a task.  It may be any of them, and it is nobody only
if nobody sleeps. -/
def alertWorker (p : Pool τ) : Option Nat → Option (Pool τ)
  | none => if p.workers.any Worker.isParked then none else some p
  | some w =>
    match p.workers[w]? with
    | some .parked => some (p.setWorker w .woken)
    | _ => none

/-- Wake a worker that sleeps. -/
def wake : Worker τ → Worker τ
  | .parked => .woken
  | w => w

/-- Wake a submitter that is blocked. -/
def wakeSubmitter : Submission τ → Submission τ
  | .parked task => .woken task true
  | s => s

/-! ## Submissions -/

/-- A submission begins: without a task it is over at once, and else it takes the handles of the
expired workers. -/
def submit (p : Pool τ) : Option τ → Pool τ
  | none => { p with submissions := p.submissions ++ [.returned (some .emptyTask)] }
  | some task =>
    match p.retired with
    | [] => { p with submissions := p.submissions ++ [.entering task] }
    | handles =>
      { p with retired := [], submissions := p.submissions ++ [.reaping task handles] }

/-- A submission waits for the first expired worker on its list to the end. -/
def reap (p : Pool τ) (s : Nat) : Option (Pool τ) :=
  match p.submissions[s]? with
  | some (.reaping task []) => some (p.setSubmission s (.entering task))
  | some (.reaping task (w :: rest)) =>
    if p.hasExited w then
      let place := if rest = [] then .entering task else .reaping task rest
      some { p.setSubmission s place with joined := p.joined ++ [w] }
    else none
  | _ => none

/-- Take a slot and put a task at the end of the queue. -/
def enqueue (p : Pool τ) (task : τ) : Pool τ :=
  { p with inFlight := p.inFlight + 1, queue := p.queue ++ [task] }

/-- Enter a new worker into the books; it counts as idle until it takes a task. -/
def hire (p : Pool τ) : Pool τ :=
  { p with
    workers := p.workers ++ [.starting]
    listed := p.listed ++ [p.workers.length]
    idle := p.idle + 1 }

/-- Strike worker `w`, which could not be started, out of the books, and with it the task at the
end of the queue and the slot of that task. -/
def rollBack (p : Pool τ) (w : Nat) : Pool τ :=
  { p with
    idle := p.idle - 1
    workers := p.workers.set w .unstarted
    listed := p.listed.erase w
    queue := p.queue.dropLast
    inFlight := p.inFlight - 1 }

/-- A task is accepted: it is in the queue, and submission `s` has yet to tell a worker of it. -/
def accept (p : Pool τ) (s : Nat) (task : τ) : Pool τ :=
  (p.setSubmission s .announcing).report (.accepted task)

/-- Take a free slot for submission `s`.  Every task in the queue needs an idle worker; if there is
one too few, a worker is started, and if that fails, all is undone. -/
def grantSlot (p : Pool τ) (s : Nat) (task : τ) (start : Bool) (alert : Option Nat) :
    Option (Pool τ) :=
  let q := p.enqueue task
  if (q.queue.length : Int) ≤ q.idle then some (q.accept s task)
  else if start then some (q.hire.accept s task)
  else do
    let q ← (q.hire.rollBack q.workers.length).alertSubmitter alert
    pure ((q.setSubmission s (.returned (some (.startFailed q.name)))).report .startFailed)

/-- Submission `s` is over with a fault. -/
def refuse (p : Pool τ) (s : Nat) (fault : Fault) : Pool τ :=
  p.setSubmission s (.returned (some fault))

/-- Submission `s` asks for a slot: a closed pool refuses it, a full one refuses it or makes it
wait. -/
def enter (p : Pool τ) (s : Nat) (start : Bool) (alert : Option Nat) : Option (Pool τ) :=
  match p.submissions[s]? with
  | some (.entering task) =>
    if p.closed then some (p.refuse s (.poolClosed p.name))
    else if (p.capacity : Int) ≤ p.inFlight then
      if p.nonBlocking then some (p.refuse s (.poolFull p.name p.capacity))
      else some { p.setSubmission s (.parked task) with waiting := p.waiting + 1 }
    else p.grantSlot s task start alert
  | _ => none

/-- Submission `s` asks again after a sleep, and sleeps on if the pool is open and still full. -/
def resume (p : Pool τ) (s : Nat) (start : Bool) (alert : Option Nat) : Option (Pool τ) :=
  match p.submissions[s]? with
  | some (.woken task _) =>
    if p.closed then
      some ({ p with waiting := p.waiting - 1 }.refuse s (.poolClosed p.name))
    else if p.inFlight < p.capacity then
      { p with waiting := p.waiting - 1 }.grantSlot s task start alert
    else some (p.setSubmission s (.parked task))
  | _ => none

/-- Blocked submission `s` wakes for no reason. -/
def stirSubmitter (p : Pool τ) (s : Nat) : Option (Pool τ) :=
  match p.submissions[s]? with
  | some (.parked task) => some (p.setSubmission s (.woken task false))
  | _ => none

/-- Submission `s` tells a sleeping worker of its task, and is over. -/
def announce (p : Pool τ) (s : Nat) (alert : Option Nat) : Option (Pool τ) :=
  match p.submissions[s]? with
  | some .announcing => (p.setSubmission s (.returned none)).alertWorker alert
  | _ => none

/-! ## Workers -/

/-- Worker `w` is free and looks at the queue: it takes the task at the front; if there is none, it
leaves a closed pool, leaves after its expiry with its handle set aside, or goes to sleep. -/
def examine (p : Pool τ) (w : Nat) (late : Bool) : Pool τ :=
  match p.queue with
  | task :: rest =>
    ({ p.setWorker w (.running task) with idle := p.idle - 1, queue := rest }).report
      (.taken w task)
  | [] =>
    if p.closed then { p.setWorker w .exited with idle := p.idle - 1 }
    else if late then
      let p := { p.setWorker w .exited with idle := p.idle - 1 }
      let p :=
        if p.listed.contains w then
          { p with listed := p.listed.erase w, retired := p.retired ++ [w] }
        else p
      p.report (.expired w)
    else p.setWorker w .parked

/-- Worker `w` looks at the queue after its start, when it cannot be late, or after a sleep. -/
def look (p : Pool τ) (w : Nat) (late : Bool) : Option (Pool τ) :=
  match p.workers[w]? with
  | some .starting => if late then none else some (p.examine w false)
  | some .woken => some (p.examine w late)
  | _ => none

/-- Sleeping worker `w` wakes. -/
def stirWorker (p : Pool τ) (w : Nat) : Option (Pool τ) :=
  match p.workers[w]? with
  | some .parked => some (p.setWorker w .woken)
  | _ => none

/-- The task of worker `w` ends. -/
def finish (p : Pool τ) (w : Nat) (escape : Option Panic) : Option (Pool τ) :=
  match p.workers[w]? with
  | some (.running task) => some ((p.setWorker w (.ended task)).report (.ended w task escape))
  | _ => none

/-- Worker `w` gives the slot of its task back, tells a blocked submitter and looks at the
queue. -/
def giveBack (p : Pool τ) (w : Nat) (alert : Option Nat) : Option (Pool τ) :=
  match p.workers[w]? with
  | some (.ended _) => do
    let q ← { p with inFlight := p.inFlight - 1, idle := p.idle + 1 }.alertSubmitter alert
    pure (q.examine w false)
  | _ => none

/-! ## Releases -/

/-- Release `r` closes the pool and takes all handles. -/
def close (p : Pool τ) (r : Nat) : Option (Pool τ) :=
  match p.releases[r]? with
  | some (.called own) =>
    some { p.setRelease r (.closed own (p.listed ++ p.retired)) with
      closed := true, listed := [], retired := [] }
  | _ => none

/-- Release `r` wakes all sleeping workers. -/
def alertWorkers (p : Pool τ) (r : Nat) : Option (Pool τ) :=
  match p.releases[r]? with
  | some (.closed own handles) =>
    some { p.setRelease r (.alerting own handles) with workers := p.workers.map wake }
  | _ => none

/-- Release `r` wakes all blocked submitters; if it took no handle, it is over. -/
def alertSubmitters (p : Pool τ) (r : Nat) : Option (Pool τ) :=
  match p.releases[r]? with
  | some (.alerting own handles) =>
    let place := if handles = [] then .returned else .joining own handles
    some { p.setRelease r place with submissions := p.submissions.map wakeSubmitter }
  | _ => none

/-- Release `r` waits for the first worker on its list to the end, or lets go of it if it is the
worker on whose thread the release runs.  With the last one the release is over. -/
def join (p : Pool τ) (r : Nat) : Option (Pool τ) :=
  match p.releases[r]? with
  | some (.joining own (w :: rest)) =>
    if own = some w ∨ p.hasExited w then
      let p := { p with joined := p.joined ++ [w] }
      if rest = [] then some ((p.setRelease r .returned).report .released)
      else some (p.setRelease r (.joining own rest))
    else none
  | _ => none

/-! ## All steps -/

/-- A move of a pool, where it can be made. -/
def move (p : Pool τ) : Move → Option (Pool τ)
  | .reap s => p.reap s
  | .enter s start alert => p.enter s start alert
  | .resume s start alert => p.resume s start alert
  | .stirSubmitter s => p.stirSubmitter s
  | .announce s alert => p.announce s alert
  | .stirWorker w => p.stirWorker w
  | .look w late => p.look w late
  | .giveBack w alert => p.giveBack w alert
  | .close r => p.close r
  | .alertWorkers r => p.alertWorkers r
  | .alertSubmitters r => p.alertSubmitters r
  | .join r => p.join r

/-- A step of a pool, where it can be taken. -/
def step (p : Pool τ) : Event τ → Option (Pool τ)
  | .submit task => some (p.submit task)
  | .finish w escape => p.finish w escape
  | .release own => some { p with releases := p.releases ++ [.called own] }
  | .move m => p.move m

end Pool

end TaskPools
