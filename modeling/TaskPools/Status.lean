/- # Statuses

Every call that can fail answers with a `Status`: success, or an integer code with a message.
The codes below `61000` belong to the manager of a fleet of pools, those above to a single pool.
`Status.render` is the one line in which a status is shown to people; the heading in it depends
on the code alone.
-/

namespace TaskPools

/-! ## Codes -/

namespace Code

/-- The code of success. -/
abbrev success : Int32 := 0

/-- The code of an error that nothing else describes. -/
abbrev unexpected : Int32 := 60001

/-- The code of a request for a pool that is not installed. -/
abbrev poolNotFound : Int32 := 60002

/-- The code of a task refused because its pool is full. -/
abbrev poolOverload : Int32 := 60003

/-- The code of a call that came after the manager or the pool was closed. -/
abbrev managerClosed : Int32 := 60004

/-- The code of a configuration that breaks a rule. -/
abbrev invalidConfig : Int32 := 60005

/-- The code of a release that outlasted its timeout. -/
abbrev shutdownTimeout : Int32 := 60006

/-- The code of a configuration that cannot be loaded. -/
abbrev loadError : Int32 := 60007

/-- The code with which a pool on its own refuses a task when it is full. -/
abbrev workerOverload : Int32 := 61001

/-- The code with which a pool on its own refuses a task once it is closed. -/
abbrev workerClosed : Int32 := 61002

/-- The code of a worker that could not be started. -/
abbrev workerStartFailed : Int32 := 61003

/-- The code of an argument that a pool on its own cannot accept. -/
abbrev workerInvalidArgument : Int32 := 61004

/-- All codes in use: first those of a manager, then those of a pool. -/
def all : List Int32 :=
  [success, unexpected, poolNotFound, poolOverload, managerClosed, invalidConfig,
   shutdownTimeout, loadError, workerOverload, workerClosed, workerStartFailed,
   workerInvalidArgument]

/-- The words that head the text of a status with this code. -/
def heading (code : Int32) : String :=
  if code = success then "OK "
  else if code = unexpected then "Unexpected error: "
  else if code = poolNotFound then "Pool not found: "
  else if code = poolOverload ∨ code = workerOverload then "Overload: "
  else if code = managerClosed ∨ code = workerClosed then "Closed: "
  else if code = invalidConfig ∨ code = workerInvalidArgument then "Invalid config: "
  else if code = loadError then "Config load error: "
  else if code = shutdownTimeout then "Timeout: "
  else "Error code(" ++ toString code.toInt ++ "): "

end Code

/-! ## Statuses -/

/-- The answer of a call: plain success, or a code with a message.  A code of zero may carry a
message too, and then still counts as success. -/
inductive Status where
  | ok
  | coded (code : Int32) (message : String)
  deriving DecidableEq, Repr, Inhabited

namespace Status

/-- The code of a status; plain success has the code of success. -/
def code : Status → Int32
  | .ok => Code.success
  | .coded c _ => c

/-- The message of a status; plain success says "OK". -/
def message : Status → String
  | .ok => "OK"
  | .coded _ m => m

/-- A status counts as success when its code is zero, whatever its message. -/
def isOk (s : Status) : Bool :=
  s.code == Code.success

/-- The text of a status: plain success is "OK", any other status its heading and its message. -/
def render : Status → String
  | .ok => "OK"
  | .coded c m => Code.heading c ++ m

end Status

end TaskPools
