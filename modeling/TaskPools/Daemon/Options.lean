/- # Options of the daemon

The command line knows two options, each with a letter and a name.  Operands are ignored, and `--`
ends the options; whether the first operand ends them too is for the caller to say.  Letters may be
joined behind one dash, and a name may be cut short as long as it stays the only one of its kind.
The argument of an option stands behind its letter or behind an equals sign after its name, or it
is the next word of the line.  Reading stops at the first request for help and at the first mistake.
-/

namespace TaskPools

namespace Daemon

/-- What a command line asks for. -/
inductive Invocation where
  /-- Run with this configuration file, or without one if the path is empty. -/
  | run (path : String)
  /-- Print the help. -/
  | help
  /-- The command line is wrong. -/
  | misuse
  deriving DecidableEq, Repr

/-- An option. -/
inductive Flag where
  /-- `-c`, the configuration file. -/
  | configFile
  /-- `-h`, the help. -/
  | help
  deriving DecidableEq, Repr

namespace Flag

/-- All options. -/
def all : List Flag := [configFile, help]

/-- The long name of an option. -/
def name : Flag → String
  | configFile => "conf_file"
  | help => "help"

/-- The option that a long name means: the one with this name, or else the only one whose name
begins so. -/
def ofName? (word : List Char) : Option Flag :=
  match all.filter fun f => f.name.toList = word with
  | [f] => some f
  | _ =>
    match all.filter fun f => word.isPrefixOf f.name.toList with
    | [f] => some f
    | _ => none

end Flag

/-- Where operands may stand. -/
inductive Operands where
  /-- Before, between and behind the options. -/
  | anywhere
  /-- Only behind the options, so that the first of them ends the options. -/
  | last
  deriving DecidableEq, Repr

mutual

/-- Read a command line; `path` is the configuration file given so far. -/
def readWords (operands : Operands) (path : String) : List String → Invocation
  | [] => .run path
  | word :: rest =>
    match word.toList with
    | ['-', '-'] => .run path
    | '-' :: '-' :: long =>
      let argument := long.dropWhile (· ≠ '=')
      match Flag.ofName? (long.takeWhile (· ≠ '=')) with
      | some .configFile =>
        match argument with
        | _ :: value => readWords operands (String.ofList value) rest
        | [] => readArgument operands rest
      | some .help => if argument = [] then .help else .misuse
      | none => .misuse
    | '-' :: 'c' :: [] => readArgument operands rest
    | '-' :: 'c' :: value => readWords operands (String.ofList value) rest
    | '-' :: 'h' :: _ => .help
    | '-' :: _ :: _ => .misuse
    | _ =>
      match operands with
      | .anywhere => readWords operands path rest
      | .last => .run path

/-- Read the path that must come next, and the command line behind it. -/
def readArgument (operands : Operands) : List String → Invocation
  | [] => .misuse
  | path :: rest => readWords operands path rest

end

/-- What the words behind the name of the program ask for. -/
def Invocation.ofWords (operands : Operands) (words : List String) : Invocation :=
  readWords operands "" words

end Daemon

end TaskPools
