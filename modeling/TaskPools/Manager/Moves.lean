/- # Events of a manager that are due

The events that follow of themselves when a manager is left alone: every call goes on, and every
pool moves.  `Manager.settle` lets them happen until nothing is due, and `Manager.perform` makes a
call and does so.
-/
import TaskPools.Fleet.Construction
import TaskPools.Manager.Step

namespace TaskPools

namespace Manager

variable {τ : Type}

/-- The events that call `c` is due; `start` says whether a thread can be started.  The pool that
was built last is released first. -/
def callEvents (start : Bool) : Call τ × Nat → List (Event τ)
  | (call, c) =>
    if call.work.isOver then []
    else
      match call.work.retirement? with
      | some retirement =>
        (retirement.todo.reverse.map fun i => .launch c i start) ++
          retirement.places.map (.collect c) ++ [.advance c]
      | none => [.advance c]

/-- The events of a manager that are due. -/
def dueEvents (m : Manager τ) (start : Bool) : List (Event τ) :=
  (m.fleet.pools.zipIdx.flatMap fun (g, i) => (g.dueMoves start).map (.pool i)) ++
    m.calls.zipIdx.flatMap (callEvents start)

/-- Let events happen that are due, at most `fuel` of them, while every thread can be started. -/
def settle (m : Manager τ) : Nat → Manager τ
  | 0 => m
  | fuel + 1 =>
    match (m.dueEvents true).findSome? m.step with
    | some m => m.settle fuel
    | none => m

/-- Make a call and let it run; the call gets the number that is returned. -/
def perform (m : Manager τ) (request : Request τ) (fuel : Nat) : Manager τ × Nat :=
  match m.call none request with
  | some m' => (m'.settle fuel, m.calls.length)
  | none => (m, m.calls.length)

/-- Where call `c` stands. -/
def work? (m : Manager τ) (c : Nat) : Option (Work τ) :=
  (m.calls[c]?).map Call.work

/-- What was written, journal by journal: first that of the fleet, then those of each pool. -/
def journals (m : Manager τ) (handler : Option PanicHandler) : List (List Output) :=
  m.fleet.journals handler

end Manager

end TaskPools
