/- # A run of the daemon

The daemon reads its command line, loads its settings, builds the pools and then serves signals
until it is told to stop.  Nothing hands it a task, so every call on its manager runs to its end at
once, and a run is a function of the command line, the environment, the configuration files and
the signals: its exit code and all that it writes, in order.
-/
import TaskPools.Daemon.Options
import TaskPools.Daemon.Text
import TaskPools.Manager.Moves

namespace TaskPools

namespace Daemon

/-- A signal that the daemon serves while it runs. -/
inductive Signal where
  /-- Log the statistics of the pools. -/
  | stats
  /-- Load the configuration again. -/
  | reload
  deriving DecidableEq, Repr

/-- The state of a daemon that serves. -/
structure State where
  /-- The settings in force. -/
  settings : Settings
  manager : Manager Unit

/-- What the daemon draws on while it serves. -/
structure Context where
  source : Settings.Source
  environment : Environment
  /-- The configuration file, or nothing. -/
  path : String

/-- More steps than a call on an idle manager takes: those to build and to release pools, and those
of the call itself. -/
def enoughSteps (m : Manager Unit) : Request Unit → Nat
  | .reload configs => 8 * (m.installed.length + configs.length) + 16
  | _ => 8 * m.installed.length + 16

/-- What was written from one time to a later one, by the pools and then by their fleet. -/
def latest (before after : List (List Output)) : List Output :=
  match journalGains before after with
  | fleet :: pools => pools.flatten ++ fleet
  | [] => []

/-- Make a call on the manager, and return where it stands in the end and what was written. -/
def State.ask (s : State) (request : Request Unit) : State × Option (Work Unit) × List Output :=
  let (manager, c) := s.manager.perform request (enoughSteps s.manager request)
  let handler := some PanicHandler.logging
  ({ s with manager }, manager.work? c,
   latest (s.manager.journals handler) (manager.journals handler))

/-- Log the statistics of all pools, by name. -/
def State.logStats (s : State) : State × List Output :=
  match s.ask .list with
  | (s, some (.list (.returned names)), outputs) =>
    names.foldl
      (fun (s, outputs) name =>
        match s.ask (.stats name) with
        | (s, some (.stats _ (.returned answer)), more) =>
          let answer := match answer with
            | .ok stats => .ok stats
            | .error fault => .error fault.status
          (s, outputs ++ more ++ [statsRecord answer])
        | (s, _, more) => (s, outputs ++ more))
      (s, outputs)
  | (s, _, outputs) => (s, outputs)

/-- Reload the pools because the settings changed to `new`. -/
def State.reloadPools (s : State) (new : Settings) : State × List Output :=
  match s.ask (.reload new.poolConfigs) with
  | (s, some (.reload _ (.returned none)), outputs) =>
    ({ s with settings := { s.settings with pools := new.pools } },
     outputs ++ [.record .info "Executor configuration reloaded"])
  | (s, some (.reload _ (.returned (some fault))), outputs) =>
    (s, outputs ++ [.record .error (fault.status.render ++ ", current pools keep serving")])
  | (s, _, outputs) => (s, outputs)

/-- Load the configuration file again.  Only a change of the pools takes effect at once. -/
def State.reload (s : State) (c : Context) : State × List Output :=
  if c.path = "" then
    (s, [.record .warning "Reload requested but no configuration file was given"])
  else
    match Settings.load c.source c.environment c.path with
    | (.error fault, outputs) =>
      (s, outputs ++ [.record .error ("Ignoring configuration change: " ++ fault.status.render)])
    | (.ok new, outputs) =>
      let outputs := outputs ++
        if new.shutdownTimeout ≠ s.settings.shutdownTimeout then
          [.record .warning ("Changing the shutdown timeout requires a restart, keeping " ++
            toString s.settings.shutdownTimeout.toInt ++ "ms")]
        else []
      if !new.enabled then
        (s, outputs ++
          [.record .warning "Disabling the executor requires a restart, keeping current pools"])
      else if !new.poolsChanged s.settings then
        (s, outputs ++ [.record .info "Pool configuration unchanged, nothing to reload"])
      else
        let (s, more) := s.reloadPools new
        (s, outputs ++ more)

/-- Serve one signal. -/
def State.serve (s : State) (c : Context) : Signal → State × List Output
  | .stats => s.logStats
  | .reload => s.reload c

/-- Stop: all pools are drained. -/
def State.stop (s : State) : List Output :=
  let (_, _, outputs) := s.ask .shutdown
  [.record .info "Shutdown requested, draining pools"] ++ outputs ++
    [.record .info "TaskExec server stopped"]

/-! ## From the command line to the end -/

/-- How a daemon begins. -/
inductive Start where
  /-- It ends at once. -/
  | ended (success : Bool) (outputs : List Output)
  /-- It serves. -/
  | serving (context : Context) (state : State) (outputs : List Output)

/-- The end of a daemon that cannot start because of a fault. -/
def Start.failed (fault : Fault) (outputs : List Output) : Start :=
  .ended false (outputs ++
    [.record .error fault.status.render, .record .error "TaskExec server exit..."])

/-- Start with the settings that the context gives. -/
def startWith (c : Context) : Start :=
  match Settings.load c.source c.environment c.path with
  | (.error fault, outputs) => .failed fault outputs
  | (.ok settings, outputs) =>
    let outputs := outputs ++ banner settings c.path
    if !settings.enabled then
      .ended true (outputs ++
        [.record .info "Executor disabled by configuration, nothing to run"])
    else
      let options := { watched := true, timeout := settings.shutdownTimeout }
      match Manager.create settings.poolConfigs options with
      | .error fault => .failed fault outputs
      | .ok manager =>
        .serving c { settings, manager } (outputs ++
          latest [] (manager.journals (some .logging)) ++
          [.record .info ("TaskExec server started with " ++ toString settings.pools.length ++
            " pools")])

/-- The variable that, with whatever value, puts operands behind the options. -/
def orderVariable : String := "POSIXLY_CORRECT"

/-- Where the environment has operands stand. -/
def operands (environment : Environment) : Operands :=
  if (environment.get? orderVariable).isSome then .last else .anywhere

/-- Start from a command line, which begins with the name of the program. -/
def start (source : Settings.Source) (environment : Environment) (words : List String) : Start :=
  let words := words.map textBeforeNul
  let program := words.head?.getD ""
  match Invocation.ofWords (operands environment) words.tail with
  | .help => .ended true (help program)
  | .misuse => .ended false (help program)
  | .run path => startWith { source, environment, path }

/-- A whole run: start, serve the signals one after the other, and stop.  It returns whether the run
succeeded and what it wrote. -/
def run (source : Settings.Source) (environment : Environment) (words : List String)
    (signals : List Signal) : Bool × List Output :=
  match start source environment words with
  | .ended success outputs => (success, outputs)
  | .serving c s outputs =>
    let (s, outputs) := signals.foldl
      (fun (s, outputs) signal =>
        let (s, more) := s.serve c signal
        (s, outputs ++ more))
      (s, outputs)
    (true, outputs ++ s.stop)

end Daemon

end TaskPools
