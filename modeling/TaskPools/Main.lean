/- # The daemon as a program

The only module that reads or writes.  It takes the command line and the environment, stamps what
the daemon writes with the time of day, and reads signals from standard input, one word a line:
`stats`, `reload`, or `stop`, which the end of the input means too.
-/
import Std.Time.Format
import TaskPools.Daemon.Run

open TaskPools

/-- The variables that the daemon looks at. -/
def readEnvironment : IO Environment := do
  let names := [Settings.enabledVariable, Settings.timeoutVariable, Environment.logLevelVariable,
    Daemon.orderVariable]
  let mut entries := []
  for name in names do
    if let some value ← IO.getEnv name then
      entries := entries ++ [(name, value)]
  return Environment.ofList entries

/-- Write what is due, each record with the present time. -/
def writeOutputs (threshold : Int) (outputs : List Output) : IO Unit := do
  let now ← Std.Time.DateTime.now
  let stamp := now.format "uuuu-MM-dd HH:mm:ss"
  for o in outputs do
    if o.isWritten threshold then
      match o.channel with
      | .out => IO.print (o.render stamp)
      | .err => IO.eprint (o.render stamp)

/-- Serve the signals on standard input, and stop at the end of it. -/
partial def serveInput (threshold : Int) (c : Daemon.Context) (s : Daemon.State) : IO Unit := do
  let line ← (← IO.getStdin).getLine
  match line.trimAscii.toString with
  | "stats" =>
    let (s, outputs) := s.serve c .stats
    writeOutputs threshold outputs
    serveInput threshold c s
  | "reload" =>
    let (s, outputs) := s.serve c .reload
    writeOutputs threshold outputs
    serveInput threshold c s
  | word =>
    if line.isEmpty || word == "stop" then writeOutputs threshold s.stop
    else serveInput threshold c s

def main (args : List String) : IO UInt32 := do
  let environment ← readEnvironment
  let threshold := environment.logLevel.rank
  match Daemon.start Settings.noFiles environment ("taskexec" :: args) with
  | .ended success outputs =>
    writeOutputs threshold outputs
    return if success then 0 else 1
  | .serving c s outputs =>
    writeOutputs threshold outputs
    serveInput threshold c s
    return 0
