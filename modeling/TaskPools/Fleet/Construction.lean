/- # Construction

An assembly on its own, together with the fleet for which it builds and with the batch that its
caller has in hand, which is exchanged for the new one once that is complete.  Its events are the
steps of the assembly, those of the retirement that cleans up after a fault, and the moves of the
pools.
-/
import TaskPools.Fleet.Assembly
import TaskPools.GuardedPool.Moves

namespace TaskPools

namespace Retirement

variable {τ : Type}

/-- The places of the releases that may be finished with: those on threads of their own, and the
one on the thread of the retirement. -/
def places (r : Retirement) : List (Option Nat) :=
  (List.range r.active.length).map some ++ if r.inline.isSome then [none] else []

end Retirement

/-- What the caller of an assembly has in hand after a step that has led to this place, and had
`hand` before it: he gets a batch only when that is complete. -/
def Assembly.handOver (hand : Batch) : Assembly → Batch
  | .done (.ok batch) => batch
  | .building _ _ | .discarding _ _ | .done (.error _) => hand

/-- An assembly and the fleet for which it builds. -/
structure Construction (τ : Type) where
  fleet : Fleet τ
  assembly : Assembly
  /-- The batch that the caller has in hand. -/
  hand : Batch

namespace Construction

/-- What may happen to a construction. -/
inductive Event where
  /-- The assembly goes on. -/
  | advance
  /-- The release of pool `i`, which is to be discarded, begins. -/
  | launch (i : Nat) (start : Bool)
  /-- A release that has returned is finished with. -/
  | collect (k : Option Nat)
  /-- Pool `i` moves. -/
  | pool (i : Nat) (m : GuardedPool.Move)

variable {τ : Type}

/-- The construction of a pool for each configuration, where nothing is built yet. -/
def ofConfigs (fleet : Fleet τ) (configs : List PoolConfig) (hand : Batch) : Construction τ :=
  { fleet, assembly := .ofConfigs configs, hand }

/-- A step of a construction, where it can be taken. -/
def step (c : Construction τ) : Event → Option (Construction τ)
  | .advance =>
    (c.assembly.advance c.fleet).map fun (fleet, assembly) =>
      { fleet, assembly, hand := assembly.handOver c.hand }
  | .launch i start =>
    match c.assembly with
    | .discarding fault retirement =>
      (retirement.launch c.fleet i none start).map fun (fleet, retirement) =>
        { c with fleet, assembly := .discarding fault retirement }
    | _ => none
  | .collect k =>
    match c.assembly with
    | .discarding fault retirement =>
      (retirement.collect c.fleet k).map fun (fleet, retirement) =>
        { c with fleet, assembly := .discarding fault retirement }
    | _ => none
  | .pool i m => (c.fleet.onPool i (.move m)).map fun fleet => { c with fleet }

/-- The events that are due while every thread can be started.  The pool that was built last is
discarded first. -/
def dueEvents (c : Construction τ) : List Event :=
  (c.fleet.pools.zipIdx.flatMap fun (g, i) => (g.dueMoves true).map (.pool i)) ++
    match c.assembly with
    | .discarding _ retirement =>
      (retirement.todo.reverse.map fun i => .launch i true) ++
        retirement.places.map .collect ++ [.advance]
    | _ => [.advance]

/-- Carry a construction on, at most `fuel` steps far. -/
def settle (c : Construction τ) : Nat → Construction τ
  | 0 => c
  | fuel + 1 =>
    match c.dueEvents.findSome? c.step with
    | some c => c.settle fuel
    | none => c

/-- More steps than the construction of pools for a list of configurations takes: one to build a
pool, and seven to release it again. -/
def enoughSteps (configs : List PoolConfig) : Nat := 8 * configs.length + 8

/-- Carry the construction of a pool for each configuration to its end. -/
def carryOut (fleet : Fleet τ) (configs : List PoolConfig) (hand : Batch) : Construction τ :=
  (ofConfigs fleet configs hand).settle (enoughSteps configs)

/-- The fault that kept the construction from its batch. -/
def fault? (c : Construction τ) : Option Fault :=
  match c.assembly with
  | .discarding fault _ | .done (.error fault) => some fault
  | .building _ _ | .done (.ok _) => none

/-- Build a batch for a list of configurations, or none, and clean up: the fleet after that, and
the result. -/
def build (fleet : Fleet τ) (configs : List PoolConfig) : Fleet τ × Except Fault Batch :=
  let c := carryOut fleet configs []
  match c.fault? with
  | some fault => (c.fleet, .error fault)
  | none => (c.fleet, .ok c.hand)

end Construction

end TaskPools
