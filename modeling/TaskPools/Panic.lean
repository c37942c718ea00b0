/- # Panics

A task may end by throwing something.  What is thrown is one of three kinds: an error object with
a message, a text, or a value that says nothing.  `Panic.describe` is the text shown for it, and a
`PanicHandler` is what a client may install to hear of it.
-/
import TaskPools.Log

namespace TaskPools

/-- The part of a text before its first NUL character. -/
def textBeforeNul (s : String) : String :=
  String.ofList (s.toList.takeWhile (· ≠ '\x00'))

/-- Something thrown out of a task. -/
inductive Panic where
  /-- An error object with its message, which ends at the first NUL character. -/
  | error (message : String)
  /-- A text. -/
  | text (message : String)
  /-- Any other value. -/
  | unknown
  deriving DecidableEq, Repr

namespace Panic

/-- The text shown for what a task threw, or for nothing at all. -/
def describe : Option Panic → String
  | none => "no exception"
  | some (.error m) => textBeforeNul m
  | some (.text m) => m
  | some .unknown => "unknown exception"

end Panic

/-- An observer of panics.  It hears the name of the pool and what was thrown, may write to the
log, and may itself throw. -/
structure PanicHandler where
  /-- What the handler writes. -/
  outputs : String → Option Panic → List Output
  /-- What the handler throws, if it does. -/
  escape : String → Option Panic → Option Panic

/-- The handler that writes one error record for each panic and never throws. -/
def PanicHandler.logging : PanicHandler where
  outputs pool panic :=
    [.record .error ("Task panicked in pool '" ++ pool ++ "': " ++ Panic.describe panic)]
  escape _ _ := none

end TaskPools
