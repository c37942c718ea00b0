/- # Scripts

A script is a task whose behaviour is written down: a list of actions, which its worker carries out
one after the other.  A gate makes the task wait until the gate is open; a throw ends it; the rest
are calls that the task makes on the manager which runs it.
-/
import TaskPools.Manager.Step

namespace TaskPools

namespace Rehearsal

mutual

/-- One thing that a scripted task does. -/
inductive Action where
  /-- Nothing. -/
  | rest
  /-- Wait until the gate of this name is open. -/
  | gate (name : String)
  /-- End with a panic. -/
  | throw (panic : Panic)
  | execute (pool : String) (task : Option Script)
  | reload (configs : List PoolConfig)
  | stats (pool : String)
  | shutdown
  | list

/-- A task whose behaviour is written down, with a label to tell it from others. -/
inductive Script where
  | mk (label : String) (actions : List Action)

end

/-- The label of a script. -/
def Script.label : Script → String
  | .mk label _ => label

/-- The actions of a script. -/
def Script.actions : Script → List Action
  | .mk _ actions => actions

/-- What an action asks of the manager, if it makes a call. -/
def Action.request? : Action → Option (Request Script)
  | .execute pool task => some (.execute pool task)
  | .reload configs => some (.reload configs)
  | .stats pool => some (.stats pool)
  | .shutdown => some .shutdown
  | .list => some .list
  | .rest | .gate _ | .throw _ => none

/-- What a task hears when a call that it made returns. -/
inductive Echo where
  | status (fault : Option Fault)
  | shutdown
  | names (names : List String)

/-- What a call that has returned says to its caller. -/
def Echo.ofWork? {τ : Type} : Work τ → Option Echo
  | .execute _ _ (.returned fault) | .reload _ (.returned fault) => some (.status fault)
  | .stats _ (.returned (.ok _)) => some (.status none)
  | .stats _ (.returned (.error fault)) => some (.status (some fault))
  | .shutdown .returned => some .shutdown
  | .list (.returned ns) => some (.names ns)
  | _ => none

/-- How a scripted task ended. -/
structure Ending where
  label : String
  /-- The task ended with a panic. -/
  threw : Bool
  /-- What its calls returned, in order. -/
  echoes : List Echo

/-- A scripted task that is being carried out. -/
structure Body where
  /-- The pool and the worker that run the task. -/
  worker : Nat × Nat
  label : String
  /-- The actions still to come. -/
  actions : List Action
  /-- What the calls made so far returned. -/
  echoes : List Echo := []
  /-- The call that the task waits for. -/
  call : Option Nat := none

/-! ## Handlers for panics -/

/-- The handlers that a rehearsal may install. -/
inductive Handler where
  /-- Keeps note of each panic. -/
  | recording
  /-- Writes each panic to the log. -/
  | logging
  /-- Throws an error for each panic. -/
  | throwing
  /-- Throws a value that says nothing for each panic. -/
  | throwingUnknown
  deriving DecidableEq, Repr

/-- The handler that is meant. -/
def Handler.panicHandler : Handler → PanicHandler
  | .recording => { outputs := fun _ _ => [], escape := fun _ _ => none }
  | .logging => .logging
  | .throwing =>
    { outputs := fun _ _ => []
      escape := fun _ panic => some (.error ("handler failed: " ++ Panic.describe panic)) }
  | .throwingUnknown =>
    { outputs := fun _ _ => [], escape := fun _ _ => some .unknown }

end Rehearsal

end TaskPools
