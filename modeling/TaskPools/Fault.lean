/- # Faults

What can go wrong in a fleet of pools, by cause.  A fault carries what its message needs and no
more; `Fault.code` and `Fault.message` are the only places where causes become numbers and words,
and `Fault.status` puts the two together.
-/
import TaskPools.Status

namespace TaskPools

/-- Why a call failed. -/
inductive Fault where
  /-- A submission that holds no task. -/
  | emptyTask
  /-- A pool on its own was closed. -/
  | poolClosed (pool : String)
  /-- A pool on its own had as many unfinished tasks as it can hold. -/
  | poolFull (pool : String) (capacity : Nat)
  /-- No thread could be started for a worker that the pool needed. -/
  | startFailed (pool : String)
  /-- A pool cannot have room for no task. -/
  | capacityNotPositive (pool : String)
  /-- A pool cannot let its idle workers go at once. -/
  | expiryNotPositive (pool : String)
  /-- A pool with valid settings could not be created. -/
  | creationFailed (pool : String) (cause : Fault)
  /-- The manager, or a pool that it guards, was closed. -/
  | managerClosed
  /-- A guarded pool was full. -/
  | overloaded
  /-- The pool to which a manager routed a task was full. -/
  | poolOverloaded (pool : String)
  /-- No pool of this name is installed. -/
  | poolNotFound (pool : String)
  /-- A release ran out of time. -/
  | shutdownTimeout (pool : String)
  /-- A manager needs at least one pool. -/
  | noConfigs
  /-- Two pools of one list have the same name. -/
  | duplicateName (pool : String)
  /-- A pool needs a name. -/
  | emptyName
  /-- A reload was rejected; the pools in service stay. -/
  | reloadFailed (cause : Fault)
  /-- The shutdown timeout of a configuration, in milliseconds, lies outside its limits. -/
  | timeoutOutOfRange (timeout lo hi : Int)
  /-- An enabled configuration lists no pool. -/
  | noPools
  /-- The pool at this place of a configuration has no name. -/
  | nameRequired (index : Nat)
  /-- The size of a configured pool lies outside its limits. -/
  | sizeOutOfRange (pool : String) (lo hi : Int)
  /-- The expiry of a configured pool is negative. -/
  | expiryNegative (pool : String)
  /-- A configuration file cannot be opened. -/
  | fileUnreadable (path : String)
  deriving DecidableEq, Repr

namespace Fault

/-- The reason the system gives when it has no thread left to start. -/
def threadShortage : String := "Resource temporarily unavailable"

/-- The words that open the message of every broken rule of a configuration. -/
def invalid (reason : String) : String := "invalid config: " ++ reason

/-- The status code of a fault; a fault that wraps another has the code of its cause. -/
def code : Fault → Int32
  | .emptyTask | .capacityNotPositive _ | .expiryNotPositive _ => Code.workerInvalidArgument
  | .poolClosed _ => Code.workerClosed
  | .poolFull _ _ => Code.workerOverload
  | .startFailed _ => Code.workerStartFailed
  | .creationFailed _ cause | .reloadFailed cause => cause.code
  | .managerClosed => Code.managerClosed
  | .overloaded | .poolOverloaded _ => Code.poolOverload
  | .poolNotFound _ => Code.poolNotFound
  | .shutdownTimeout _ => Code.shutdownTimeout
  | .noConfigs | .duplicateName _ | .emptyName | .timeoutOutOfRange .. | .noPools
  | .nameRequired _ | .sizeOutOfRange .. | .expiryNegative _ => Code.invalidConfig
  | .fileUnreadable _ => Code.loadError

/-- The message of a fault. -/
def message : Fault → String
  | .emptyTask => "cannot submit an empty task"
  | .poolClosed pool => "worker pool '" ++ pool ++ "' is closed"
  | .poolFull pool capacity =>
    "worker pool '" ++ pool ++ "' is at capacity (" ++ toString capacity ++ ")"
  | .startFailed pool => "failed to start worker in pool '" ++ pool ++ "': " ++ threadShortage
  | .capacityNotPositive pool => "worker pool '" ++ pool ++ "' must have a positive capacity"
  | .expiryNotPositive pool => "worker pool '" ++ pool ++ "' must have a positive expiry"
  | .creationFailed pool cause => "failed to create pool " ++ pool ++ ": " ++ cause.message
  | .managerClosed => "manager is closed"
  | .overloaded => "pool overloaded"
  | .poolOverloaded pool => "pool overloaded: " ++ pool
  | .poolNotFound pool => "pool not found: " ++ pool
  | .shutdownTimeout pool => "shutdown timeout exceeded (pool " ++ pool ++ ")"
  | .noConfigs => invalid "no configs provided"
  | .duplicateName pool => invalid ("duplicate pool name: " ++ pool)
  | .emptyName => invalid "pool name is empty"
  | .reloadFailed cause => "failed to reload: " ++ cause.message
  | .timeoutOutOfRange timeout lo hi =>
    invalid ("shutdown timeout " ++ toString timeout ++ "ms must be between " ++ toString lo ++
      " and " ++ toString hi ++ "ms")
  | .noPools => invalid "executor enabled but no pools configured"
  | .nameRequired index => invalid ("pool " ++ toString index ++ ": name is required")
  | .sizeOutOfRange pool lo hi =>
    invalid ("pool " ++ pool ++ ": size must be between " ++ toString lo ++ " and " ++ toString hi)
  | .expiryNegative pool => invalid ("pool " ++ pool ++ ": expiry must be non-negative")
  | .fileUnreadable path => "cannot open config file: " ++ path

/-- The status that reports a fault. -/
def status (f : Fault) : Status := .coded f.code f.message

end Fault

/-- The status that reports a call: success, or the fault that stopped it. -/
def Status.ofFault? : Option Fault → Status
  | none => .ok
  | some f => f.status

end TaskPools
