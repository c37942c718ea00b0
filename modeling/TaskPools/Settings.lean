/- # Settings of the application

The settings say whether the application runs pools at all, which ones, and how long it waits for
each of them when it is shut down.  They are checked strictly: `Settings.validate` names the first
broken rule and repairs nothing.  `Settings.poolConfigs` turns them into configurations of pools,
and `Settings.override` lets the environment have the last word on the flag and the timeout.
-/
import TaskPools.Environment
import TaskPools.Pool.Config

namespace TaskPools

/-! ## Names of common pools -/

namespace PoolName

/-- The pool for requests. -/
def http : String := "http"

/-- The pool for queries. -/
def database : String := "database"

/-- The pool for the cache. -/
def cache : String := "cache"

/-- The pool for the log. -/
def logger : String := "logger"

/-- The pool for work that nobody waits for. -/
def background : String := "background"

/-- The names of all common pools. -/
def common : List String := [http, database, cache, logger, background]

end PoolName

/-! ## Settings -/

/-- The settings of one pool.  The expiry is in whole seconds. -/
structure PoolSettings where
  name : String := ""
  size : Int32 := defaultPoolSize
  expirySeconds : Int32 := 10
  nonBlocking : Bool := true
  deriving DecidableEq, Repr

/-- The settings of two pools are compared one by one. -/
instance : BEq PoolSettings where
  beq p q :=
    p.name == q.name && p.size == q.size && p.expirySeconds == q.expirySeconds &&
      p.nonBlocking == q.nonBlocking

/-- The settings of the application.  The timeout is in milliseconds. -/
structure Settings where
  enabled : Bool := true
  pools : List PoolSettings := []
  shutdownTimeout : Int64 := 5000
  deriving DecidableEq, Repr

/-- The pools count with their order. -/
instance : BEq Settings where
  beq s t :=
    s.enabled == t.enabled && s.pools == t.pools && s.shutdownTimeout == t.shutdownTimeout

/-- The configuration that the settings of a pool stand for. -/
def PoolSettings.config (s : PoolSettings) : PoolConfig where
  name := s.name
  size := s.size
  expiry := s.expirySeconds.toInt64 * 1000
  nonBlocking := s.nonBlocking

namespace Settings

/-- The shutdown timeout used when none that is valid is given. -/
def defaultTimeout : Int32 := 5000

/-- The least shutdown timeout. -/
def minTimeout : Int32 := 1

/-- The greatest shutdown timeout. -/
def maxTimeout : Int32 := 600000

/-- The settings in force when there is no configuration file. -/
def builtIn : Settings where
  pools :=
    [{ name := PoolName.http, size := 200 },
     { name := PoolName.database, size := 50, nonBlocking := false },
     { name := PoolName.background, size := 30 }]

/-- The shutdown timeout lies inside its limits. -/
def timeoutInRange (s : Settings) : Bool :=
  minTimeout.toInt64 ≤ s.shutdownTimeout && s.shutdownTimeout ≤ maxTimeout.toInt64

/-- The configurations of the pools, in the order of the settings. -/
def poolConfigs (s : Settings) : List PoolConfig := s.pools.map PoolSettings.config

/-- Going from the one settings to the other calls for new pools. -/
def poolsChanged (s t : Settings) : Bool := s.pools != t.pools

/-! ## Validation -/

/-- The rule that a pool at place `index` breaks, given the names used before it. -/
def poolFault (seen : List String) (index : Nat) (p : PoolSettings) : Option Fault :=
  if p.name = "" then some (.nameRequired index)
  else if seen.contains p.name then some (.duplicateName p.name)
  else if p.size < minPoolSize ∨ maxPoolSize < p.size then
    some (.sizeOutOfRange p.name minPoolSize.toInt maxPoolSize.toInt)
  else if p.expirySeconds < 0 then some (.expiryNegative p.name)
  else none

/-- The first rule that one of the pools breaks, where `seen` are the names of those before
them. -/
def poolsFault (seen : List String) : List PoolSettings → Option Fault
  | [] => none
  | p :: rest =>
    match poolFault seen seen.length p with
    | some fault => some fault
    | none => poolsFault (seen ++ [p.name]) rest

/-- The first rule that the settings break.  Pools of a disabled application need not follow any
rule. -/
def validate (s : Settings) : Option Fault :=
  if !s.timeoutInRange then
    some (.timeoutOutOfRange s.shutdownTimeout.toInt minTimeout.toInt maxTimeout.toInt)
  else if !s.enabled then none
  else if s.pools = [] then some .noPools
  else poolsFault [] s.pools

/-! ## The environment -/

/-- The variable that switches the application on or off. -/
def enabledVariable : String := "TASKEXEC_EXECUTOR_ENABLED"

/-- The variable that sets the shutdown timeout. -/
def timeoutVariable : String := "TASKEXEC_SHUTDOWN_TIMEOUT_MS"

/-- The settings with the overrides of the environment.  A timeout outside its limits gives way to
the default, whether or not the environment holds one. -/
def override (env : Environment) (s : Settings) : Settings × List Output :=
  let (enabled, enabledOutputs) := env.flag enabledVariable s.enabled
  let (fallback, fallbackOutputs) :=
    if s.timeoutInRange then (s.shutdownTimeout.toInt32, [])
    else
      (defaultTimeout,
       [Output.record .warning ("Shutdown timeout " ++ toString s.shutdownTimeout.toInt ++
          "ms out of range [" ++ toString minTimeout.toInt ++ ", " ++ toString maxTimeout.toInt ++
          "], using default " ++ toString defaultTimeout.toInt ++ "ms")])
  let (timeout, timeoutOutputs) := env.integer timeoutVariable fallback minTimeout maxTimeout
  ({ s with enabled, shutdownTimeout := timeout.toInt64 },
   enabledOutputs ++ fallbackOutputs ++ timeoutOutputs)

/-! ## Loading -/

/-- Where configuration files are found: the settings in the file of this path, or why there are
none. -/
abbrev Source := String → Except Fault Settings

/-- The source in which no file can be opened. -/
def noFiles : Source := fun path => .error (.fileUnreadable path)

/-- The settings in a file. -/
def ofFile (source : Source) (path : String) : Except Fault Settings × List Output :=
  match source path with
  | .ok s => (.ok s, [.record .info ("Loaded executor configuration from " ++ path)])
  | .error fault => (.error fault, [])

/-- The settings to start with: those of a file, or the built-in ones if the path is empty, with
the overrides of the environment, and only if they are valid. -/
def load (source : Source) (env : Environment) (path : String) :
    Except Fault Settings × List Output :=
  match if path = "" then (.ok builtIn, []) else ofFile source path with
  | (.error fault, outputs) => (.error fault, outputs)
  | (.ok s, outputs) =>
    let (s, overrideOutputs) := s.override env
    let outputs := outputs ++ overrideOutputs
    match s.validate with
    | some fault => (.error fault, outputs)
    | none => (.ok s, outputs)

end Settings

end TaskPools
