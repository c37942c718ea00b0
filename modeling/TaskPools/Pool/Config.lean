/- # The configuration of one pool

A configuration names a pool and says how many workers it may have, how long an idle worker is
kept, and whether a full pool refuses a task or makes its submitter wait.  Sizes and expiries
outside their limits are repaired and not rejected; only a pool without a name is refused.
-/
import TaskPools.Fault
import TaskPools.Log

namespace TaskPools

/-! ## Limits and defaults -/

/-- The fewest workers that a configured pool may have. -/
def minPoolSize : Int32 := 1

/-- The most workers that a configured pool may have. -/
def maxPoolSize : Int32 := 10000

/-- The size of a pool that does not say. -/
def defaultPoolSize : Int32 := 100

/-- How many milliseconds an idle worker is kept unless the configuration says otherwise. -/
def defaultExpiry : Int64 := 10000

/-- Settings of a pool; the expiry is in milliseconds. -/
structure PoolConfig where
  name : String := ""
  size : Int32 := defaultPoolSize
  expiry : Int64 := defaultExpiry
  nonBlocking : Bool := true
  deriving DecidableEq, Repr, Inhabited

/-- Configurations are compared setting by setting. -/
instance : BEq PoolConfig where
  beq c d :=
    c.name == d.name && c.size == d.size && c.expiry == d.expiry && c.nonBlocking == d.nonBlocking

/-! ## Repair -/

/-- A change that brings a setting into its limits. -/
inductive Repair where
  /-- The size was below the minimum. -/
  | sizeRaised (size : Int32)
  /-- The size was above the maximum. -/
  | sizeLowered (size : Int32)
  /-- The expiry was not positive. -/
  | expiryReplaced
  deriving DecidableEq, Repr

/-- The warning that reports a repair in the pool of this name. -/
def Repair.output (pool : String) : Repair → Output
  | .sizeRaised size =>
    .record .warning ("Pool '" ++ pool ++ "' size " ++ toString size.toInt ++
      " below minimum, using " ++ toString minPoolSize.toInt)
  | .sizeLowered size =>
    .record .warning ("Pool '" ++ pool ++ "' size " ++ toString size.toInt ++
      " above maximum, using " ++ toString maxPoolSize.toInt)
  | .expiryReplaced =>
    .record .warning ("Pool '" ++ pool ++ "' has non-positive expiry, using default " ++
      toString defaultExpiry.toInt ++ "ms")

namespace PoolConfig

/-- The repairs that a configuration needs. -/
def repairs (c : PoolConfig) : List Repair :=
  (if c.size < minPoolSize then [.sizeRaised c.size]
   else if maxPoolSize < c.size then [.sizeLowered c.size] else []) ++
  if c.expiry ≤ 0 then [.expiryReplaced] else []

/-- The configuration with every setting inside its limits. -/
def repaired (c : PoolConfig) : PoolConfig :=
  { c with
    size :=
      if c.size < minPoolSize then minPoolSize
      else if maxPoolSize < c.size then maxPoolSize else c.size
    expiry := if c.expiry ≤ 0 then defaultExpiry else c.expiry }

/-- Check a configuration: without a name it is refused, else it is repaired, and the repairs are
reported. -/
def validate (c : PoolConfig) : Except Fault (PoolConfig × List Repair) :=
  if c.name = "" then .error .emptyName else .ok (c.repaired, c.repairs)

/-- The number of workers that the size allows, as an unsigned word of 64 bits. -/
def capacity (c : PoolConfig) : Nat :=
  c.size.toInt64.toUInt64.toNat

/-- The text of a configuration. -/
def render (c : PoolConfig) : String :=
  "\x7bname=" ++ c.name ++ ", size=" ++ toString c.size.toInt ++
    ", expiry=" ++ toString c.expiry.toInt ++ "ms" ++
    ", non_blocking=" ++ toString c.nonBlocking ++ "\x7d"

end PoolConfig

end TaskPools
