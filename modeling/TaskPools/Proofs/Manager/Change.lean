/-
# What a step can change in a manager

A step of a call reads the flag, the installed batch or an answer and goes on (`Manager.Follows`),
or it does one thing more: it hands a task over, reads a figure, builds a pool, swaps the batch,
sets the flag, or sees to a release.  `Manager.Act` lists these things with the managers that they
leave.  A step of a manager is such an act, a new call or a move of a pool (`Manager.Change`), and
`change_of_step` says that it is nothing else.
-/
import TaskPools.Manager.Step
import TaskPools.Proofs.Fleet.Retirement

namespace TaskPools

variable {τ : Type}

namespace Manager

/-! ## Runs -/

/-- Let events happen one after the other. -/
def run (m : Manager τ) (es : List (Event τ)) : Option (Manager τ) :=
  es.foldlM step m

/-- A manager of pools that were built for a list of configurations, or what becomes of one by steps
in any order. -/
inductive Reachable : Manager τ → Prop where
  | create {configs : List PoolConfig} {options : FleetOptions} {m : Manager τ} :
      ofConfigs configs options = .ok m → Reachable m
  | step {m m' : Manager τ} {e : Event τ} : Reachable m → m.step e = some m' → Reachable m'

theorem run_nil {m m' : Manager τ} (h : m.run [] = some m') : m' = m :=
  (Option.some.inj h).symm

/-- A run begins with its first step. -/
theorem run_cons {m m' : Manager τ} {e : Event τ} {es : List (Event τ)}
    (h : m.run (e :: es) = some m') : ∃ n, m.step e = some n ∧ n.run es = some m' := by
  rw [run, List.foldlM_cons] at h
  exact Option.bind_eq_some_iff.mp h

/-- A run of two parts passes through the manager between them. -/
theorem run_append {m m' : Manager τ} {es es' : List (Event τ)}
    (h : m.run (es ++ es') = some m') : ∃ n, m.run es = some n ∧ n.run es' = some m' := by
  rw [run, List.foldlM_append] at h
  exact Option.bind_eq_some_iff.mp h

/-- A run ends with its last step. -/
theorem run_of_append_one {m m' : Manager τ} {es : List (Event τ)} {e : Event τ}
    (h : m.run (es ++ [e]) = some m') : ∃ n, m.run es = some n ∧ n.step e = some m' := by
  obtain ⟨n, hn, hrun⟩ := run_append h
  obtain ⟨k, hstep, hrun⟩ := run_cons hrun
  obtain rfl := run_nil hrun
  exact ⟨n, hn, hstep⟩

/-- A step and a run from there are a run. -/
theorem run_of_step {m m' n : Manager τ} {e : Event τ} {es : List (Event τ)}
    (hstep : m.step e = some n) (hrun : n.run es = some m') : m.run (e :: es) = some m' := by
  rw [run, List.foldlM_cons, hstep]
  exact hrun

/-- Two runs, one after the other, are a run. -/
theorem run_trans {m m' n : Manager τ} {es es' : List (Event τ)} (hn : m.run es = some n)
    (hrun : n.run es' = some m') : m.run (es ++ es') = some m' := by
  rw [run, List.foldlM_append]
  exact Option.bind_eq_some_iff.mpr ⟨n, hn, hrun⟩

/-- What follows the first step of a run is a run from there. -/
theorem run_after_step {m m' n : Manager τ} {e : Event τ} {es : List (Event τ)}
    (hstep : m.step e = some n) (hrun : m.run (e :: es) = some m') : n.run es = some m' := by
  obtain ⟨k, hk, hrun⟩ := run_cons hrun
  cases hstep.symm.trans hk
  exact hrun

/-- What follows the first part of a run is a run from there. -/
theorem run_after_run {m m' n : Manager τ} {es es' : List (Event τ)} (hn : m.run es = some n)
    (hrun : m.run (es ++ es') = some m') : n.run es' = some m' := by
  obtain ⟨k, hk, hrun⟩ := run_append hrun
  cases hn.symm.trans hk
  exact hrun

/-- What every step preserves, a whole run preserves. -/
theorem run_preserves {P : Manager τ → Prop}
    (hstep : ∀ {m m' : Manager τ} {e : Event τ}, P m → m.step e = some m' → P m')
    {m m' : Manager τ} {es : List (Event τ)} (h : P m) (hrun : m.run es = some m') : P m' := by
  induction es generalizing m with
  | nil =>
    rw [run_nil hrun]
    exact h
  | cons e es ih =>
    obtain ⟨n, hn, hrun⟩ := run_cons hrun
    exact ih (hstep h hn) hrun

/-- Runs lead from reachable managers to reachable ones. -/
theorem Reachable.run {m m' : Manager τ} {es : List (Event τ)} (h : m.Reachable)
    (hrun : m.run es = some m') : m'.Reachable :=
  run_preserves Reachable.step h hrun

/-! ## Calls that go on -/

/-- A call goes on and changes nothing but its own place. -/
inductive Follows (m : Manager τ) : Work τ → Work τ → Prop where
  | executeClosed (pool : String) (task : Option τ) (is_closed : m.closed = true) :
      Follows m (.execute pool task .begun)
        (.execute pool task (.returned (some .managerClosed)))
  | executeOpen (pool : String) (task : Option τ) (is_open : m.closed = false) :
      Follows m (.execute pool task .begun) (.execute pool task .open)
  | lookUp (pool : String) (task : Option τ) (i : Nat) (found : m.find? pool = some i) :
      Follows m (.execute pool task .open) (.execute pool task (.found m.generation i))
  | notFound (pool : String) (task : Option τ) (missing : m.find? pool = none) :
      Follows m (.execute pool task .open)
        (.execute pool task (.returned (some (.poolNotFound pool))))
  | refused (pool : String) (task : Option τ) (generation i s : Nat)
      (reply : m.reply? i s = some (some .managerClosed)) :
      Follows m (.execute pool task (.submitted generation i s))
        (.execute pool task (.refused generation))
  | answered (pool : String) (task : Option τ) (generation i s : Nat) (fault : Option Fault)
      (reply : m.reply? i s = some fault) (other : fault ≠ some .managerClosed) :
      Follows m (.execute pool task (.submitted generation i s))
        (.execute pool task (.returned (nameOverload pool fault)))
  | refusedClosed (pool : String) (task : Option τ) (generation : Nat)
      (is_closed : m.closed = true) :
      Follows m (.execute pool task (.refused generation))
        (.execute pool task (.returned (some .managerClosed)))
  | reroute (pool : String) (task : Option τ) (generation : Nat) (is_open : m.closed = false) :
      Follows m (.execute pool task (.refused generation))
        (.execute pool task (.rerouting generation))
  | sameBatch (pool : String) (task : Option τ) (generation : Nat)
      (same : m.generation = generation) :
      Follows m (.execute pool task (.rerouting generation))
        (.execute pool task (.returned (some .managerClosed)))
  | lookUpAgain (pool : String) (task : Option τ) (generation i : Nat)
      (other : m.generation ≠ generation) (found : m.find? pool = some i) :
      Follows m (.execute pool task (.rerouting generation)) (.execute pool task (.refound i))
  | notFoundAgain (pool : String) (task : Option τ) (generation : Nat)
      (other : m.generation ≠ generation) (missing : m.find? pool = none) :
      Follows m (.execute pool task (.rerouting generation))
        (.execute pool task (.returned (some (.poolNotFound pool))))
  | answeredAgain (pool : String) (task : Option τ) (i s : Nat) (fault : Option Fault)
      (reply : m.reply? i s = some fault) :
      Follows m (.execute pool task (.resubmitted i s))
        (.execute pool task (.returned (nameOverload pool fault)))
  | reloadClosed (configs : List PoolConfig) (is_closed : m.closed = true) :
      Follows m (.reload configs .begun) (.reload configs (.returned (some .managerClosed)))
  | reloadOpen (configs : List PoolConfig) (is_open : m.closed = false) :
      Follows m (.reload configs .begun) (.reload configs (.assembling (.ofConfigs configs)))
  | allBuilt (configs : List PoolConfig) (batch : Batch) :
      Follows m (.reload configs (.assembling (.building [] batch)))
        (.reload configs (.assembling (.done (.ok batch))))
  | discard (configs : List PoolConfig) (config : PoolConfig) (rest : List PoolConfig)
      (batch : Batch) (fault : Fault) (unusable : m.fleet.build batch config = .error fault) :
      Follows m (.reload configs (.assembling (.building (config :: rest) batch)))
        (.reload configs (.assembling (.discarding fault (.ofBatch batch))))
  | discarded (configs : List PoolConfig) (fault : Fault) (r : Retirement)
      (is_over : r.isOver = true) :
      Follows m (.reload configs (.assembling (.discarding fault r)))
        (.reload configs (.assembling (.done (.error fault))))
  | assembled (configs : List PoolConfig) (batch : Batch) :
      Follows m (.reload configs (.assembling (.done (.ok batch)))) (.reload configs (.built batch))
  | reject (configs : List PoolConfig) (batch : Batch) (is_closed : m.closed = true) :
      Follows m (.reload configs (.built batch)) (.reload configs (.rejecting (.ofBatch batch)))
  | check (configs : List PoolConfig) (batch : Batch) (is_open : m.closed = false) :
      Follows m (.reload configs (.built batch)) (.reload configs (.checked batch))
  | rejected (configs : List PoolConfig) (r : Retirement) (is_over : r.isOver = true) :
      Follows m (.reload configs (.rejecting r))
        (.reload configs (.returned (some .managerClosed)))
  | reloaded (configs : List PoolConfig) (r : Retirement) (is_over : r.isOver = true) :
      Follows m (.reload configs (.retiring r)) (.reload configs (.returned none))
  | statsClosed (pool : String) (is_closed : m.closed = true) :
      Follows m (.stats pool .begun) (.stats pool (.returned (.error .managerClosed)))
  | statsOpen (pool : String) (is_open : m.closed = false) :
      Follows m (.stats pool .begun) (.stats pool .open)
  | statsLookUp (pool : String) (i : Nat) (found : m.find? pool = some i) :
      Follows m (.stats pool .open) (.stats pool (.found i))
  | statsNotFound (pool : String) (missing : m.find? pool = none) :
      Follows m (.stats pool .open) (.stats pool (.returned (.error (.poolNotFound pool))))
  | statsComplete (pool : String) (i k : Nat) (g : GuardedPool (Job τ)) (figures : List Nat)
      (stats : PoolStats) (at_i : m.fleet.pools[i]? = some g)
      (at_k : g.samples[k]? = some figures) (complete : g.statsOfFigures figures = some stats) :
      Follows m (.stats pool (.sampling i k)) (.stats pool (.returned (.ok stats)))
  | list : Follows m (.list .begun) (.list (.returned m.installed.names))

/-- The manager in which pool `i` is `g`. -/
def withPool (m : Manager τ) (i : Nat) (g : GuardedPool (Job τ)) : Manager τ :=
  { m with fleet := { m.fleet with pools := m.fleet.pools.set i g } }

/-- The manager with one notice more. -/
def note (m : Manager τ) (n : Notice) : Manager τ :=
  { m with fleet := m.fleet.note n }

/-! ## Changes -/

/-- What call `c`, made by `caller`, does in a step: its work before and after it, and the manager
that it leaves, apart from its own place. -/
inductive Act (m : Manager τ) (c : Nat) (caller : Option (Nat × Nat)) :
    Event τ → Work τ → Work τ → Manager τ → Prop where
  | goOn (work work' : Work τ) (follows : Follows m work work') :
      Act m c caller (.advance c) work work' m
  | submit (pool : String) (task : Option τ) (generation i : Nat) (g : GuardedPool (Job τ))
      (at_i : m.fleet.pools[i]? = some g) :
      Act m c caller (.advance c) (.execute pool task (.found generation i))
        (.execute pool task (.submitted generation i g.replies.length))
        (m.withPool i { g with
          pool := g.pool.submit (task.map (Job.mk c))
          replies := g.replies ++ [.pending] })
  | resubmit (pool : String) (task : Option τ) (i : Nat) (g : GuardedPool (Job τ))
      (at_i : m.fleet.pools[i]? = some g) :
      Act m c caller (.advance c) (.execute pool task (.refound i))
        (.execute pool task (.resubmitted i g.replies.length))
        (m.withPool i { g with
          pool := g.pool.submit (task.map (Job.mk c))
          replies := g.replies ++ [.pending] })
  | sample (pool : String) (i : Nat) (g : GuardedPool (Job τ))
      (at_i : m.fleet.pools[i]? = some g) :
      Act m c caller (.advance c) (.stats pool (.found i))
        (.stats pool (.sampling i g.samples.length))
        (m.withPool i { g with samples := g.samples ++ [[]] })
  | gauge (pool : String) (i k : Nat) (g g' : GuardedPool (Job τ))
      (at_i : m.fleet.pools[i]? = some g) (reads : g.step (.gauge k) = some g') :
      Act m c caller (.advance c) (.stats pool (.sampling i k)) (.stats pool (.sampling i k))
        (m.withPool i g')
  | build (configs : List PoolConfig) (config : PoolConfig) (rest : List PoolConfig)
      (batch batch' : Batch) (fleet : Fleet (Job τ))
      (builds : m.fleet.build batch config = .ok (fleet, batch')) :
      Act m c caller (.advance c) (.reload configs (.assembling (.building (config :: rest) batch)))
        (.reload configs (.assembling (.building rest batch'))) { m with fleet }
  | failReload (configs : List PoolConfig) (fault : Fault) :
      Act m c caller (.advance c) (.reload configs (.assembling (.done (.error fault))))
        (.reload configs (.returned (some (.reloadFailed fault)))) (m.note (.reloadRejected fault))
  | install (configs : List PoolConfig) (batch : Batch) :
      Act m c caller (.advance c) (.reload configs (.checked batch))
        (.reload configs (.retiring (.ofBatch m.installed)))
        ((m.install batch).note (.reloaded batch.length m.installed.length))
  | close :
      Act m c caller (.advance c) (.shutdown .begun) (.shutdown .closed) { m with closed := true }
  | emptyNothing (nothing : m.installed = []) :
      Act m c caller (.advance c) (.shutdown .closed) (.shutdown .returned) (m.install [])
  | emptyOut :
      Act m c caller (.advance c) (.shutdown .closed)
        (.shutdown (.retiring (.ofBatch m.installed)))
        ((m.install []).note (.shuttingDown m.installed.length))
  | shutDown (r : Retirement) (is_over : r.isOver = true) :
      Act m c caller (.advance c) (.shutdown (.retiring r)) (.shutdown .returned)
        (m.note .shutdownComplete)
  | launch (work : Work τ) (r : Retirement) (i : Nat) (g : GuardedPool (Job τ))
      (retires : work.retirement? = some r) (among : i ∈ r.todo)
      (free : r.inline = none) (at_i : m.fleet.pools[i]? = some g) :
      Act m c caller (.launch c i true) work
        (work.withRetirement { r with
          todo := r.todo.erase i
          active := r.active ++ [(i, g.releases.length)] })
        (m.withPool i { g with
          releases := g.releases ++ [.begun none m.fleet.options.timeout] })
  | launchInline (work : Work τ) (r : Retirement) (i : Nat) (g : GuardedPool (Job τ))
      (retires : work.retirement? = some r) (among : i ∈ r.todo)
      (free : r.inline = none) (at_i : m.fleet.pools[i]? = some g) :
      Act m c caller (.launch c i false) work
        (work.withRetirement { r with
          todo := r.todo.erase i
          inline := some (i, g.releases.length) })
        ((m.note (.releaseInline g.config.name)).withPool i { g with
          releases := g.releases ++
            [.begun (Retirement.ownWorker caller i) m.fleet.options.timeout] })
  | collect (k : Option Nat) (work : Work τ) (r r' : Retirement) (notices : List Notice)
      (retires : work.retirement? = some r) (todo_eq : r'.todo = r.todo)
      (collects : r.collect m.fleet k = some ({ m.fleet with notices }, r')) :
      Act m c caller (.collect c k) work (work.withRetirement r')
        { m with fleet := { m.fleet with notices } }

/-- What the steps of a manager do.  A call that takes the lock in its step finds it free. -/
inductive Change (m : Manager τ) : Event τ → Manager τ → Prop where
  | call (caller : Option (Nat × Nat)) (request : Request τ) :
      Change m (.call caller request)
        { m with calls := m.calls ++ [{ caller, work := request.work }] }
  | act (c : Nat) (caller : Option (Nat × Nat)) (e : Event τ) (work work' : Work τ) (n : Manager τ)
      (at_c : m.calls[c]? = some ⟨caller, work⟩) (acts : Act m c caller e work work' n)
      (unlocked : work.takesLock = true → m.isLocked = false) :
      Change m e (n.setWork c work')
  | pool (i : Nat) (move : GuardedPool.Move) (g g' : GuardedPool (Job τ))
      (at_i : m.fleet.pools[i]? = some g) (moves : g.step (.move move) = some g') :
      Change m (.pool i move) (m.withPool i g')

/-! ## Every step is a change -/

/-- A step of a pool in its manager is a step of the pool. -/
theorem withPool_of_onPool {m m' : Manager τ} {i : Nat} {e : GuardedPool.Event (Job τ)}
    (h : m.onPool i e = some m') :
    ∃ g g', m.fleet.pools[i]? = some g ∧ g.step e = some g' ∧ m' = m.withPool i g' := by
  obtain ⟨f, hf, rfl⟩ := Option.map_eq_some_iff.mp h
  obtain ⟨g, at_i, hf⟩ := Option.bind_eq_some_iff.mp hf
  obtain ⟨g', hstep, hf⟩ := Option.bind_eq_some_iff.mp hf
  cases hf
  exact ⟨g, g', at_i, hstep, rfl⟩

/-- A task can be handed to every pool that is there, and gets the next number. -/
theorem submit_eq {m : Manager τ} {i : Nat} {g : GuardedPool (Job τ)}
    (at_i : m.fleet.pools[i]? = some g) (job : Option (Job τ)) :
    m.submit i job = some (m.withPool i { g with
      pool := g.pool.submit job
      replies := g.replies ++ [.pending] }, g.replies.length) := by
  simp only [submit, onPool, Fleet.onPool, at_i]
  rfl

/-- What a submission has changed is one pool, which holds the task from then on. -/
theorem submitted_of_submit {m m' : Manager τ} {i s : Nat} {job : Option (Job τ)}
    (h : m.submit i job = some (m', s)) :
    ∃ g, m.fleet.pools[i]? = some g ∧ s = g.replies.length ∧
      m' = m.withPool i { g with
        pool := g.pool.submit job
        replies := g.replies ++ [.pending] } := by
  obtain ⟨g, at_i, h⟩ := Option.bind_eq_some_iff.mp h
  obtain ⟨n, hn, h⟩ := Option.bind_eq_some_iff.mp h
  cases h
  obtain ⟨g₁, g', at_i', hstep, rfl⟩ := withPool_of_onPool hn
  obtain rfl : g = g₁ := Option.some.inj (at_i.symm.trans at_i')
  cases hstep
  exact ⟨g, at_i, rfl, rfl⟩

section

variable {m m' : Manager τ} {c : Nat} {caller : Option (Nat × Nat)} {pool : String}

/-- The next step of an execution is one of the acts. -/
theorem act_of_advanceExecute {task : Option τ} {phase phase' : ExecutePhase}
    (h : m.advanceExecute c pool task phase = some (m', phase')) :
    Act m c caller (.advance c) (.execute pool task phase) (.execute pool task phase') m' := by
  cases phase with
  | begun =>
    cases h
    split
    · rename_i is_closed
      exact Act.goOn _ _ (Follows.executeClosed pool task is_closed)
    · rename_i is_open
      exact Act.goOn _ _ (Follows.executeOpen pool task (by simpa using is_open))
  | «open» =>
    rw [advanceExecute] at h
    split at h
    · rename_i i found
      cases h
      exact Act.goOn _ _ (Follows.lookUp pool task i found)
    · rename_i missing
      cases h
      exact Act.goOn _ _ (Follows.notFound pool task missing)
  | found generation i =>
    obtain ⟨⟨n, s⟩, hsubmit, h⟩ := Option.bind_eq_some_iff.mp h
    cases h
    obtain ⟨g, at_i, rfl, rfl⟩ := submitted_of_submit hsubmit
    exact Act.submit pool task generation i g at_i
  | submitted generation i s =>
    obtain ⟨fault, reply, h⟩ := Option.bind_eq_some_iff.mp h
    split at h
    · cases h
      exact Act.goOn _ _ (Follows.refused pool task generation i s reply)
    · rename_i other
      cases h
      exact Act.goOn _ _ (Follows.answered pool task generation i s fault reply other)
  | refused generation =>
    cases h
    split
    · rename_i is_closed
      exact Act.goOn _ _ (Follows.refusedClosed pool task generation is_closed)
    · rename_i is_open
      exact Act.goOn _ _ (Follows.reroute pool task generation (by simpa using is_open))
  | rerouting generation =>
    rw [advanceExecute] at h
    split at h
    · rename_i same
      cases h
      exact Act.goOn _ _ (Follows.sameBatch pool task generation same)
    · rename_i other
      split at h
      · rename_i i found
        cases h
        exact Act.goOn _ _ (Follows.lookUpAgain pool task generation i other found)
      · rename_i missing
        cases h
        exact Act.goOn _ _ (Follows.notFoundAgain pool task generation other missing)
  | refound i =>
    obtain ⟨⟨n, s⟩, hsubmit, h⟩ := Option.bind_eq_some_iff.mp h
    cases h
    obtain ⟨g, at_i, rfl, rfl⟩ := submitted_of_submit hsubmit
    exact Act.resubmit pool task i g at_i
  | resubmitted i s =>
    obtain ⟨fault, reply, h⟩ := Option.bind_eq_some_iff.mp h
    cases h
    exact Act.goOn _ _ (Follows.answeredAgain pool task i s fault reply)
  | returned fault => cases h

/-- The next step of a reload is one of the acts. -/
theorem act_of_advanceReload {configs : List PoolConfig} {phase phase' : ReloadPhase}
    (h : m.advanceReload configs phase = some (m', phase')) :
    Act m c caller (.advance c) (.reload configs phase) (.reload configs phase') m' := by
  cases phase with
  | begun =>
    cases h
    split
    · rename_i is_closed
      exact Act.goOn _ _ (Follows.reloadClosed configs is_closed)
    · rename_i is_open
      exact Act.goOn _ _ (Follows.reloadOpen configs (by simpa using is_open))
  | assembling assembly =>
    -- an assembly that is done is taken over by the reload, any other goes on by itself
    rcases assembly with ⟨todo, batch⟩ | ⟨fault, r⟩ | ⟨fault | batch⟩
    · rcases todo with _ | ⟨config, rest⟩
      · cases h
        exact Act.goOn _ _ (Follows.allBuilt configs batch)
      · obtain ⟨⟨fleet, assembly⟩, hadvance, h⟩ := Option.bind_eq_some_iff.mp h
        cases h
        rw [Assembly.advance] at hadvance
        split at hadvance
        · rename_i builds
          cases hadvance
          exact Act.build configs config rest batch _ _ builds
        · rename_i unusable
          cases hadvance
          exact Act.goOn _ _ (Follows.discard configs config rest batch _ unusable)
    · obtain ⟨⟨fleet, assembly⟩, hadvance, h⟩ := Option.bind_eq_some_iff.mp h
      cases h
      rw [Assembly.advance] at hadvance
      split at hadvance
      · rename_i is_over
        cases hadvance
        exact Act.goOn _ _ (Follows.discarded configs fault r is_over)
      · cases hadvance
    · cases h
      exact Act.failReload configs fault
    · cases h
      exact Act.goOn _ _ (Follows.assembled configs batch)
  | built batch =>
    cases h
    split
    · rename_i is_closed
      exact Act.goOn _ _ (Follows.reject configs batch is_closed)
    · rename_i is_open
      exact Act.goOn _ _ (Follows.check configs batch (by simpa using is_open))
  | checked batch =>
    cases h
    exact Act.install configs batch
  | rejecting r =>
    rw [advanceReload] at h
    split at h
    · rename_i is_over
      cases h
      exact Act.goOn _ _ (Follows.rejected configs r is_over)
    · cases h
  | retiring r =>
    rw [advanceReload] at h
    split at h
    · rename_i is_over
      cases h
      exact Act.goOn _ _ (Follows.reloaded configs r is_over)
    · cases h
  | returned fault => cases h

/-- The next step of a shutdown is one of the acts. -/
theorem act_of_advanceShutdown {phase phase' : ShutdownPhase}
    (h : m.advanceShutdown phase = some (m', phase')) :
    Act m c caller (.advance c) (.shutdown phase) (.shutdown phase') m' := by
  cases phase with
  | begun =>
    cases h
    exact Act.close
  | closed =>
    rw [advanceShutdown] at h
    split at h
    · rename_i nothing
      cases h
      exact Act.emptyNothing (List.isEmpty_iff.mp nothing)
    · cases h
      exact Act.emptyOut
  | retiring r =>
    rw [advanceShutdown] at h
    split at h
    · rename_i is_over
      cases h
      exact Act.shutDown r is_over
    · cases h
  | returned => cases h

/-- The next step of a call for statistics is one of the acts. -/
theorem act_of_advanceStats {phase phase' : StatsPhase}
    (h : m.advanceStats pool phase = some (m', phase')) :
    Act m c caller (.advance c) (.stats pool phase) (.stats pool phase') m' := by
  cases phase with
  | begun =>
    cases h
    split
    · rename_i is_closed
      exact Act.goOn _ _ (Follows.statsClosed pool is_closed)
    · rename_i is_open
      exact Act.goOn _ _ (Follows.statsOpen pool (by simpa using is_open))
  | «open» =>
    rw [advanceStats] at h
    split at h
    · rename_i i found
      cases h
      exact Act.goOn _ _ (Follows.statsLookUp pool i found)
    · rename_i missing
      cases h
      exact Act.goOn _ _ (Follows.statsNotFound pool missing)
  | found i =>
    obtain ⟨g, at_i, h⟩ := Option.bind_eq_some_iff.mp h
    obtain ⟨n, hn, h⟩ := Option.bind_eq_some_iff.mp h
    cases h
    obtain ⟨g₁, g', at_i', hstep, rfl⟩ := withPool_of_onPool hn
    obtain rfl : g = g₁ := Option.some.inj (at_i.symm.trans at_i')
    cases hstep
    exact Act.sample pool i g at_i
  | sampling i k =>
    obtain ⟨g, at_i, h⟩ := Option.bind_eq_some_iff.mp h
    obtain ⟨figures, at_k, h⟩ := Option.bind_eq_some_iff.mp h
    split at h
    · rename_i stats complete
      cases h
      exact Act.goOn _ _ (Follows.statsComplete pool i k g figures stats at_i at_k complete)
    · obtain ⟨n, hn, h⟩ := Option.bind_eq_some_iff.mp h
      cases h
      obtain ⟨g₁, g', at_i', hstep, rfl⟩ := withPool_of_onPool hn
      exact Act.gauge pool i k g₁ g' at_i' hstep
  | returned answer => cases h

/-- Whatever its work is, the next step of a call is one of the acts. -/
theorem act_of_advanceWork {work work' : Work τ}
    (h : m.advanceWork c work = some (m', work')) :
    Act m c caller (.advance c) work work' m' := by
  cases work with
  | execute pool task phase =>
    obtain ⟨⟨n, phase'⟩, hphase, hn⟩ := Option.map_eq_some_iff.mp h
    cases hn
    exact act_of_advanceExecute hphase
  | reload configs phase =>
    obtain ⟨⟨n, phase'⟩, hphase, hn⟩ := Option.map_eq_some_iff.mp h
    cases hn
    exact act_of_advanceReload hphase
  | shutdown phase =>
    obtain ⟨⟨n, phase'⟩, hphase, hn⟩ := Option.map_eq_some_iff.mp h
    cases hn
    exact act_of_advanceShutdown hphase
  | stats pool phase =>
    obtain ⟨⟨n, phase'⟩, hphase, hn⟩ := Option.map_eq_some_iff.mp h
    cases hn
    exact act_of_advanceStats hphase
  | list phase =>
    obtain ⟨⟨n, phase'⟩, hphase, hn⟩ := Option.map_eq_some_iff.mp h
    cases hn
    cases phase with
    | begun =>
      cases hphase
      exact Act.goOn _ _ Follows.list
    | returned names => cases hphase

/-- A call that goes on does so as `Change` says, and finds the lock free if it takes it. -/
theorem change_of_advance (h : m.advance c = some m') : Change m (.advance c) m' := by
  obtain ⟨⟨caller, work⟩, at_c, h⟩ := Option.bind_eq_some_iff.mp h
  obtain ⟨waits, h⟩ := Option.ite_none_left_eq_some.mp h
  obtain ⟨⟨n, work'⟩, hwork, h⟩ := Option.bind_eq_some_iff.mp h
  cases h
  refine Change.act c caller _ work work' n at_c (act_of_advanceWork hwork) fun takes => ?_
  simpa [takes] using waits

/-- A call that releases pools has no use for the lock. -/
theorem takesLock_of_retirement {work : Work τ} {r : Retirement}
    (retires : work.retirement? = some r) : work.takesLock = false := by
  cases work with
  | reload configs phase => cases phase <;> first | rfl | cases retires
  | shutdown phase => cases phase <;> first | rfl | cases retires
  | execute | stats | list => cases retires

/-- A release that begins does so as `Change` says. -/
theorem change_of_launch {i : Nat} {start : Bool} (h : m.launch c i start = some m') :
    Change m (.launch c i start) m' := by
  obtain ⟨⟨caller, work⟩, at_c, h⟩ := Option.bind_eq_some_iff.mp h
  obtain ⟨r, retires, h⟩ := Option.bind_eq_some_iff.mp h
  obtain ⟨⟨fleet, r'⟩, hlaunch, h⟩ := Option.bind_eq_some_iff.mp h
  cases h
  have unlocked (takes : work.takesLock = true) : m.isLocked = false := by
    rw [takesLock_of_retirement retires] at takes
    cases takes
  cases Retirement.launch_of_eq hlaunch with
  | thread g among free at_i =>
    exact Change.act c caller _ work _ _ at_c
      (Act.launch work r i g retires among free at_i) unlocked
  | inline g among free at_i =>
    exact Change.act c caller _ work _ _ at_c
      (Act.launchInline work r i g retires among free at_i) unlocked

/-- A release is finished with as `Change` says. -/
theorem change_of_collect {k : Option Nat} (h : m.collect c k = some m') :
    Change m (.collect c k) m' := by
  obtain ⟨⟨caller, work⟩, at_c, h⟩ := Option.bind_eq_some_iff.mp h
  obtain ⟨r, retires, h⟩ := Option.bind_eq_some_iff.mp h
  obtain ⟨⟨fleet, r'⟩, hcollect, h⟩ := Option.bind_eq_some_iff.mp h
  cases h
  have unlocked (takes : work.takesLock = true) : m.isLocked = false := by
    rw [takesLock_of_retirement retires] at takes
    cases takes
  obtain ⟨todo_eq, ⟨notices, rfl⟩, -⟩ := Retirement.eq_of_collect hcollect
  exact Change.act c caller _ work _ _ at_c
    (Act.collect k work r r' notices retires todo_eq hcollect) unlocked

/-- A pool moves as `Change` says. -/
theorem change_of_movePool {i : Nat} {move : GuardedPool.Move}
    (h : m.movePool i move = some m') : Change m (.pool i move) m' := by
  have moved : m.onPool i (.move move) = some m' := by
    cases move with
    | conclude w panic escape =>
      simp only [movePool] at h
      split at h
      · cases h
      · exact h
    | pool | answer | launch | complete | elapse => exact h
  obtain ⟨g, g', at_i, hstep, rfl⟩ := withPool_of_onPool moved
  exact Change.pool i move g g' at_i hstep

/-- A call is made as `Change` says. -/
theorem change_of_call {request : Request τ}
    (h : m.call caller request = some m') : Change m (.call caller request) m' := by
  cases caller with
  | none =>
    cases h
    exact Change.call none request
  | some worker =>
    obtain ⟨i, w⟩ := worker
    simp only [Manager.call] at h
    split at h
    · cases h
      exact Change.call (some (i, w)) request
    · cases h

/-- Every step of a manager is one of the changes. -/
theorem change_of_step {e : Event τ} (h : m.step e = some m') : Change m e m' := by
  cases e with
  | call caller request => exact change_of_call h
  | advance c => exact change_of_advance h
  | launch c i start => exact change_of_launch h
  | collect c k => exact change_of_collect h
  | pool i move => exact change_of_movePool h

end

end Manager

end TaskPools
