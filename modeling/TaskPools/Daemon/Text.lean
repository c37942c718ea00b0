/- # Texts of the daemon

The help, the banner that shows the settings at the start, and the line that shows the statistics
of a pool.
-/
import TaskPools.GuardedPool.State
import TaskPools.Settings

namespace TaskPools

namespace Daemon

/-- A line of plain text. -/
def line (text : String) : Output := .text .out (text ++ "\n")

/-- The help for a program of this name. -/
def help (program : String) : List Output :=
  ["",
   "Usage: " ++ program ++ " [OPTIONS]",
   "",
   "  Options:",
   "   -h --help                 Print this help.",
   "   -c --conf_file filename   Read executor configuration from the file.",
   "",
   "  Signals:",
   "   SIGHUP                    Reload the configuration file.",
   "   SIGUSR1                   Log pool statistics.",
   "   SIGINT, SIGTERM           Drain all pools and exit.",
   ""].map line

/-- The rule above and below the parts of the banner. -/
def rule : String := String.ofList (List.replicate 80 '=')

/-- The line of the banner for one pool. -/
def poolLine (p : PoolSettings) : String :=
  "   - " ++ p.name ++ " size=" ++ toString p.size.toInt ++ " expiry=" ++
    toString p.expirySeconds.toInt ++ "s" ++ if p.nonBlocking then " non-blocking" else " blocking"

/-- The banner for settings that come from this file, or from no file if the path is empty. -/
def banner (s : Settings) (path : String) : List Output :=
  (["",
    rule,
    "                        TaskExec Startup Configuration                          ",
    rule,
    " Executor:",
    "   - Enabled                  : " ++ if s.enabled then "YES" else "NO",
    "   - Shutdown Timeout         : " ++ toString s.shutdownTimeout.toInt ++ " ms",
    "   - Config File              : " ++ if path = "" then "(built-in defaults)" else path,
    " Pools:"] ++
   s.pools.map poolLine ++
   [rule, ""]).map line

/-- The record for the statistics of a pool, or for the status that came in their place. -/
def statsRecord : Except Status PoolStats → Output
  | .ok s =>
    .record .info ("pool=" ++ s.name ++ " cap=" ++ toString s.capacity ++
      " running=" ++ toString s.running ++ " free=" ++ toString s.free ++
      " waiting=" ++ toString s.waiting ++ " submitted=" ++ toString s.submitted ++
      " completed=" ++ toString s.completed ++ " panicked=" ++ toString s.panicked ++
      " rejected=" ++ toString s.rejected)
  | .error status => .record .warning status.render

end Daemon

end TaskPools
