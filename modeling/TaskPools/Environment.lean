/- # The environment

Variables with which whoever starts the program can override its configuration.  A variable that
cannot be read never stops the program: it is reported in one line, and a default takes its
place.
-/
import TaskPools.Environment.Integer
import TaskPools.Log
import TaskPools.Panic

namespace TaskPools

/-- Variables and their values, the one that was set last in front. -/
structure Environment where
  entries : List (String × String) := []

namespace Environment

/-- Set a variable.  Its name and its value end at their first NUL character, and no variable can
have an empty name or one with an equals sign. -/
def set (env : Environment) (name value : String) : Environment :=
  let name := textBeforeNul name
  if name = "" ∨ name.contains '=' then env
  else { entries := (name, textBeforeNul value) :: env.entries }

/-- The environment in which these variables are set one after the other. -/
def ofList (entries : List (String × String)) : Environment :=
  entries.foldl (fun env (name, value) => env.set name value) {}

/-- The value of a variable, if it is set: the one that it was set to last. -/
def get? (env : Environment) (name : String) : Option String :=
  env.entries.lookup (textBeforeNul name)

/-- The line that reports a variable whose value cannot be used.  The name ends at its first NUL
character there too. -/
def warning (name value reason fallback : String) : Output :=
  .text .out ("[ConfigLimits] Warning: " ++ textBeforeNul name ++ "=" ++ value ++ " " ++ reason ++
    ", using default " ++ fallback ++ "\n")

/-! ## Integers -/

/-- What a warning says of an integer that cannot be used. -/
def describe (lo hi : Int32) : IntegerFault → String
  | .overflow => "out of range (overflow)"
  | .malformed => "invalid integer"
  | .outOfRange => "out of range [" ++ toString lo.toInt ++ ", " ++ toString hi.toInt ++ "]"

/-- An integer between `lo` and `hi` from a value that may be unset: the integer if there is one,
else the default, and what is wrong with a value that is set. -/
def readInteger (fallback lo hi : Int32) : Option (List UInt8) → Int32 × Option IntegerFault
  | none => (fallback, none)
  | some bytes =>
    match Integer.read lo hi bytes with
    | .ok n => (n, none)
    | .error fault => (fallback, some fault)

/-- The integer that a variable holds, or a default. -/
def integer (env : Environment) (name : String) (fallback lo hi : Int32) : Int32 × List Output :=
  let value := env.get? name
  let (n, fault) := readInteger fallback lo hi (value.map fun v => v.toUTF8.data.toList)
  (n, fault.toList.map fun fault =>
    warning name (value.getD "") (describe lo hi fault) (toString fallback.toInt))

/-! ## Flags -/

/-- The truth value that a word stands for, in any case. -/
def flagOfWord? (word : String) : Option Bool :=
  let word := word.toLower
  if ["true", "1", "yes", "on"].contains word then some true
  else if ["false", "0", "no", "off"].contains word then some false
  else none

/-- The truth value that a variable holds, or a default. -/
def flag (env : Environment) (name : String) (fallback : Bool) : Bool × List Output :=
  match env.get? name with
  | none => (fallback, [])
  | some word =>
    match flagOfWord? word with
    | some b => (b, [])
    | none => (fallback, [warning name word "invalid boolean" (toString fallback)])

/-- The variable that sets the level of the log. -/
def logLevelVariable : String := "TASKEXEC_LOG_LEVEL"

/-- The level that the environment names for the log. -/
def logLevel (env : Environment) : Level :=
  Level.ofWord? (env.get? logLevelVariable)

end Environment

end TaskPools
