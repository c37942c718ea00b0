/-
# What calls for names and for statistics tell

As long as no reload installs its batch and no shutdown starts, a manager upholds one list of
configurations (`Manager.Upholds`): calls for the names tell the names on the list, and a call for
the statistics of one of its pools shows the settings of that pool.  Unless a reload has the lock,
neither waits for anybody: a call for names returns with its first step (`Upholds.list_returns`),
and one for statistics with its eleventh (`Upholds.stats_returns`).
-/
import TaskPools.Proofs.GuardedPool.Statistics
import TaskPools.Proofs.Manager.Configuration

namespace TaskPools

variable {τ : Type}

/-- The statistics show the settings of the configuration after their repair. -/
structure PoolConfig.ShownBy (config : PoolConfig) (stats : PoolStats) : Prop where
  name_eq : stats.name = config.name
  capacity_eq : stats.capacity = config.repaired.capacity
  nonBlocking_eq : stats.nonBlocking = config.nonBlocking
  expiry_eq : stats.expiry = config.repaired.expiry

/-! ## Statistics of one pool -/

namespace GuardedPool

variable {g g' : GuardedPool τ} {e : Event τ} {k : Nat} {config : PoolConfig}

/-- Statistics `k` are under way, or complete. -/
structure Samples (g : GuardedPool τ) (k : Nat) : Prop where
  begun : k < g.samples.length
  length_le : (g.figures k).length ≤ 7

/-- Samples are never taken back. -/
theorem Change.length_samples_le (hc : Change g e g') : g.samples.length ≤ g'.samples.length := by
  cases hc with
  | sample => exact Nat.le_trans (Nat.le_succ _) (List.length_append ▸ Nat.le_refl _)
  | gauge => exact Nat.le_of_eq (List.length_set ..).symm
  | answer s fault =>
    rcases fault with _ | fault
    · exact Nat.le_refl _
    · cases fault <;> exact Nat.le_refl _
  | submit | release | pool | returns | panics | launch | launchInline | complete | elapse =>
    exact Nat.le_refl _

/-- In every step statistics that are under way go on, and complete ones stay so. -/
theorem Samples.change (h : g.Samples k) (hc : Change g e g') : g'.Samples k := by
  refine ⟨Nat.lt_of_lt_of_le h.begun hc.length_samples_le, ?_⟩
  rcases hc.figures_eq k with ⟨-, next, is_next, read⟩ | ⟨-, same⟩
  · have more : (g.figures k).length < 7 := (List.getElem?_eq_some_iff.mp is_next).1
    rw [read, List.length_append, List.length_singleton]
    exact more
  · rw [same]
    exact h.length_le

/-- Statistics under way have their figures on record. -/
theorem Samples.getElem?_eq (h : g.Samples k) : g.samples[k]? = some (g.figures k) := by
  rw [figures, List.getElem?_eq_getElem h.begun, Option.getD_some]

/-- New statistics have no figure yet. -/
theorem samples_of_sample (g : GuardedPool τ) :
    ({ g with samples := g.samples ++ [[]] } : GuardedPool τ).Samples g.samples.length ∧
      ({ g with samples := g.samples ++ [[]] } : GuardedPool τ).figures g.samples.length = [] := by
  have new : ({ g with samples := g.samples ++ [[]] } : GuardedPool τ).figures g.samples.length
      = [] := by
    rw [figures, List.getElem?_concat_length, Option.getD_some]
  refine ⟨⟨?_, ?_⟩, new⟩
  · rw [List.length_append]
    exact Nat.lt_succ_self _
  · rw [new]
    exact Nat.zero_le _

/-- Statistics show the settings of their pool. -/
theorem Carries.shownBy (h : g.Carries config) {figures : List Nat} {stats : PoolStats}
    (complete : g.statsOfFigures figures = some stats) : config.ShownBy stats := by
  unfold statsOfFigures at complete
  split at complete
  · cases complete
    have settings := h.settings_eq
    simp only [Pool.settings, Prod.mk.injEq] at settings
    rw [h.config_eq]
    exact ⟨rfl, settings.2.1, rfl, rfl⟩
  · cases complete

/-- Statistics are complete, or their next figure can be read. -/
theorem Samples.goes_on (h : g.Samples k) :
    ((g.figures k).length = 7 ∧ ∃ stats, g.statsOfFigures (g.figures k) = some stats) ∨
      g.statsOfFigures (g.figures k) = none ∧ ∃ g', g.step (.gauge k) = some g' ∧
        (g'.figures k).length = (g.figures k).length + 1 := by
  by_cases complete : (g.figures k).length = 7
  · obtain ⟨a, b, c, d, e, f, g', all⟩ := exists_of_length_eq_seven complete
    rw [all]
    exact Or.inl ⟨rfl, _, rfl⟩
  · have more : (g.figures k).length < Gauge.order.length :=
      Nat.lt_of_le_of_ne h.length_le complete
    obtain ⟨next, is_next⟩ : ∃ next, Gauge.order[(g.figures k).length]? = some next :=
      ⟨_, List.getElem?_eq_getElem more⟩
    have reads : g.step (.gauge k)
        = some { g with samples := g.samples.set k (g.figures k ++ [g.read next]) } := by
      simp only [step, gauge, h.getElem?_eq, is_next, Option.bind_eq_bind, Option.bind_some]
      rfl
    refine Or.inr ⟨?_, _, reads, ?_⟩
    · unfold statsOfFigures
      split
      · rename_i all
        rw [all] at complete
        exact absurd rfl complete
      · rfl
    · rcases (change_of_step reads).figures_eq k with ⟨-, next, -, read⟩ | ⟨other, -⟩
      · rw [read, List.length_append, List.length_singleton]
      · rw [Event.reads, beq_self_eq_true] at other
        cases other

end GuardedPool

/-! ## What calls have seen -/

/-- A call for the statistics of the pool of this configuration has found it, and shows its settings
when it returns. -/
def StatsPhase.Sees (ps : List (GuardedPool (Job τ))) (config : PoolConfig) : StatsPhase → Prop
  | .begun | .open => True
  | .found i => ∃ g, ps[i]? = some g ∧ g.Carries config
  | .sampling i k => ∃ g, ps[i]? = some g ∧ g.Carries config ∧ g.Samples k
  | .returned answer => ∃ stats, answer = .ok stats ∧ config.ShownBy stats

/-- The names that a list of configurations has, in ascending order. -/
def NamesOf (configs : List PoolConfig) (names : List String) : Prop :=
  names.Perm (configs.map PoolConfig.name) ∧
    names.Pairwise fun x y => bytesOf x < bytesOf y

/-- What the work tells is true of this list of configurations. -/
def Work.Tells (ps : List (GuardedPool (Job τ))) (configs : List PoolConfig) : Work τ → Prop
  | .list (.returned names) => NamesOf configs names
  | .stats pool phase => ∀ config ∈ configs, config.name = pool → phase.Sees ps config
  | _ => True

/-- How many steps a call for statistics takes before it returns. -/
def StatsPhase.stepsLeft (ps : List (GuardedPool (Job τ))) : StatsPhase → Nat
  | .begun => 11
  | .open => 10
  | .found _ => 9
  | .sampling i k => 8 - ((ps[i]?).elim 0 fun g => (g.figures k).length)
  | .returned _ => 0

namespace Manager

/-- An open manager of pools for this list, all of whose calls tell the truth. -/
structure Upholds (m : Manager τ) (configs : List PoolConfig) : Prop where
  reachable : m.Reachable
  is_open : m.closed = false
  configured : m.Configured configs
  tells : ∀ c work, m.work? c = some work → work.Tells m.fleet.pools configs

section

variable {m m' n : Manager τ} {e : Event τ} {es : List (Event τ)} {c : Nat}
  {caller : Option (Nat × Nat)} {work work' : Work τ} {configs : List PoolConfig}
  {config : PoolConfig} {ps qs : List (GuardedPool (Job τ))}

/-- A call for statistics goes on seeing its pool, whatever the pools do. -/
theorem sees_of_pools {phase : StatsPhase} (h : phase.Sees ps config) (hc : PoolsChange ps qs) :
    phase.Sees qs config := by
  have kept : ∀ (i : Nat) (g : GuardedPool (Job τ)), ps[i]? = some g → g.Carries config →
      ∃ g' : GuardedPool (Job τ), qs[i]? = some g' ∧ g'.Carries config ∧
        ∀ k, g.Samples k → g'.Samples k := by
    intro i g at_i carries
    cases hc with
    | same => exact ⟨g, at_i, carries, fun k => id⟩
    | step j old new event at_j steps =>
      rw [getElem?_set_at at_j]
      split
      · rename_i here
        subst here
        obtain rfl := Option.some.inj (at_j.symm.trans at_i)
        exact ⟨new, rfl, carries.step steps,
          fun k samples => samples.change (GuardedPool.change_of_step steps)⟩
      · exact ⟨g, at_i, carries, fun k => id⟩
    | build =>
      rw [List.getElem?_append_left (List.getElem?_eq_some_iff.mp at_i).1]
      exact ⟨g, at_i, carries, fun k => id⟩
  cases phase with
  | begun | «open» => trivial
  | found i =>
    obtain ⟨g, at_i, carries⟩ := h
    obtain ⟨g', at_i', carries', -⟩ := kept i g at_i carries
    exact ⟨g', at_i', carries'⟩
  | sampling i k =>
    obtain ⟨g, at_i, carries, samples⟩ := h
    obtain ⟨g', at_i', carries', still⟩ := kept i g at_i carries
    exact ⟨g', at_i', carries', still k samples⟩
  | returned answer => exact h

/-- What a call tells stays true, whatever the pools do. -/
theorem tells_of_pools (h : work.Tells ps configs) (hc : PoolsChange ps qs) :
    work.Tells qs configs := by
  cases work with
  | stats pool phase => exact fun config among named => sees_of_pools (h config among named) hc
  | list phase =>
    cases phase with
    | begun => trivial
    | returned names => exact h
  | execute | reload | shutdown => trivial

/-- A call that begins has told nothing yet. -/
theorem Request.tells_work (request : Request τ) : request.work.Tells ps configs := by
  cases request with
  | stats pool => exact fun _ _ _ => trivial
  | execute | reload | shutdown | list => trivial

/-- The names of a batch that was built for a list are those on the list. -/
theorem namesOf_of_isFor {batch : Batch} (h : batch.IsFor ps configs) :
    NamesOf configs batch.names := by
  refine ⟨?_, names_ascend h.distinct⟩
  rw [← h.names_eq]
  exact List.mergeSort_perm _ _

/-- A call that goes on in an open manager tells what is installed. -/
theorem Follows.tells (hf : Follows m work work') (is_open : m.closed = false)
    (installed : m.installed.IsFor m.fleet.pools configs)
    (own : work.Tells m.fleet.pools configs) : work'.Tells m.fleet.pools configs := by
  have shows := shows_of_isFor installed
  cases hf with
  | list => exact namesOf_of_isFor installed
  | statsClosed pool is_closed =>
    rw [is_open] at is_closed
    cases is_closed
  | statsOpen => exact fun _ _ _ => trivial
  | statsLookUp pool i found =>
    rintro config among rfl
    obtain ⟨j, g, found', at_j, carries⟩ := shows.carried config among
    obtain rfl := Option.some.inj (found.symm.trans found')
    exact ⟨g, at_j, carries⟩
  | statsNotFound pool missing =>
    rintro config among rfl
    have listed := (shows.keys config.name).mpr (List.mem_map_of_mem among)
    rw [missing] at listed
    cases listed
  | statsComplete pool i k g figures stats at_i at_k complete =>
    intro config among named
    obtain ⟨g', at_i', carries, -⟩ := own config among named
    obtain rfl := Option.some.inj (at_i.symm.trans at_i')
    exact ⟨stats, rfl, carries.shownBy complete⟩
  | _ => trivial

/-- A pool that took a step stands where it stood. -/
theorem getElem?_withPool {i : Nat} {g : GuardedPool (Job τ)} (at_i : m.fleet.pools[i]? = some g)
    (g' : GuardedPool (Job τ)) : (m.withPool i g').fleet.pools[i]? = some g' :=
  (getElem?_set_at at_i g' i).trans (if_pos rfl)

/-- Whatever a call does in an open manager, it tells what is installed. -/
theorem Act.tells (ha : Act m c caller e work work' n) (is_open : m.closed = false)
    (installed : m.installed.IsFor m.fleet.pools configs)
    (own : work.Tells m.fleet.pools configs) : work'.Tells n.fleet.pools configs := by
  have change := ha.asks.change
  cases ha with
  | goOn _ _ follows => exact follows.tells is_open installed own
  | sample pool i g at_i =>
    intro config among named
    obtain ⟨g', at_i', carries⟩ := own config among named
    obtain rfl := Option.some.inj (at_i.symm.trans at_i')
    have now := getElem?_withPool at_i { g with samples := g.samples ++ [[]] }
    exact ⟨_, now, ⟨carries.config_eq, carries.settings_eq⟩, g.samples_of_sample.1⟩
  | gauge => exact tells_of_pools own change
  | launch _ _ _ _ retires | launchInline _ _ _ _ retires | collect _ _ _ _ _ retires =>
    cases retires_of_retirement? retires <;> trivial
  | submit | resubmit | build | failReload | install | close | emptyNothing | emptyOut
  | shutDown => trivial

/-! ## Runs without a swap -/

/-- As long as no reload installs its batch, an open manager keeps the list that is in force. -/
theorem Upholds.putsInForce?_eq (h : m.Upholds configs) (no_swap : installsBatch (m, e) = false) :
    putsInForce? (m, e) = none := by
  cases e with
  | advance c =>
    simp only [putsInForce?]
    split
    · rename_i at_c
      rw [installsBatch_of_work at_c] at no_swap
      cases no_swap
    · rename_i at_c
      -- a shutdown that got that far has closed the manager
      have set := h.reachable.flagFirst c .closed at_c (by decide)
      rw [h.is_open] at set
      cases set
    · rfl
  | call | launch | collect | pool => rfl

/-- The settings stay in force in a step that installs no batch and shuts nothing down. -/
theorem Upholds.step (h : m.Upholds configs) (hstep : m.step e = some m')
    (no_swap : installsBatch (m, e) = false) (no_start : setsFlag (m, e) = false) :
    m'.Upholds configs := by
  have hc := change_of_step hstep
  refine ⟨h.reachable.step hstep, (hc.closed_eq no_start).trans h.is_open, ?_, ?_⟩
  · have configured := h.configured.change hc
    rw [h.putsInForce?_eq no_swap] at configured
    exact configured
  · intro c work' hwork
    cases hold : m.work? c with
    | none =>
      obtain ⟨request, rfl⟩ := hc.begins hold hwork
      exact Request.tells_work request
    | some work =>
      have own := h.tells c work hold
      rcases hc.own_or_other hold with ⟨same, -⟩ | ⟨caller, new, n, acts, rfl, hnew⟩
      · obtain rfl := Option.some.inj (same.symm.trans hwork)
        exact tells_of_pools own hc.pools
      · obtain rfl := Option.some.inj (hnew.symm.trans hwork)
        exact acts.tells h.is_open h.configured.installed own

/-- The settings stay in force in a run that installs no batch and shuts nothing down. -/
theorem Upholds.run (h : m.Upholds configs) (hrun : m.run es = some m')
    (no_swap : m.reloadSwaps es = 0) (no_start : m.shutdownStarts es = 0) :
    m'.Upholds configs := by
  induction es generalizing m with
  | nil =>
    rw [run_nil hrun]
    exact h
  | cons e es ih =>
    obtain ⟨n, hstep, hrun⟩ := run_cons hrun
    rw [reloadSwaps_cons hstep, Nat.add_eq_zero_iff, Bool.toNat_eq_zero] at no_swap
    rw [shutdownStarts_cons hstep, Nat.add_eq_zero_iff, Bool.toNat_eq_zero] at no_start
    exact ih (h.step hstep no_swap.2 no_start.2) hrun no_swap.1 no_start.1

/-- A new manager has the settings in force from which it was made. -/
theorem upholds_of_ofConfigs {options : FleetOptions} (h : ofConfigs configs options = .ok m) :
    m.Upholds configs := by
  have reachable := Reachable.create h
  have configured := configured_of_ofConfigs h
  obtain ⟨fleet, batch, -, rfl⟩ := eq_of_ofConfigs h
  exact ⟨reachable, rfl, configured, nofun⟩

/-! ## Calls return -/

/-- A call can be made at any time, and leaves the manager upholding its list. -/
theorem Upholds.call (h : m.Upholds configs) (request : Request τ) :
    ∃ n, m.step (.call none request) = some n ∧ n.work? m.calls.length = some request.work ∧
      n.Upholds configs := by
  have hstep : m.step (.call none request)
      = some { m with calls := m.calls ++ [{ caller := none, work := request.work }] } := rfl
  exact ⟨_, hstep, (work?_call _ _).trans (if_pos rfl), h.step hstep rfl rfl⟩

/-- A call that neither installs a batch nor shuts down leaves the manager upholding its list. -/
theorem Upholds.advance (h : m.Upholds configs) (hwork : m.work? c = some work)
    (reads : work.holdsLock = false ∧ work.shutsDown = false)
    (hstep : m.step (.advance c) = some m') : m'.Upholds configs := by
  refine h.step hstep ?_ ?_
  · rw [installsBatch_of_work hwork, reads.1]
  · rw [setsFlag, hwork, Option.any_some, reads.2]

theorem exists_getElem?_of_work? (hwork : m.work? c = some work) :
    ∃ caller, m.calls[c]? = some ⟨caller, work⟩ := by
  obtain ⟨⟨caller, work'⟩, at_c, rfl⟩ := Option.map_eq_some_iff.mp hwork
  exact ⟨caller, at_c⟩

/-- A call that can go on does so in a step of its own, where the lock is free. -/
theorem exists_step_advance (hwork : m.work? c = some work) (unlocked : m.isLocked = false)
    (goes : m.advanceWork c work = some (n, work')) (calls_eq : n.calls = m.calls) :
    ∃ m', m.step (.advance c) = some m' ∧ m'.work? c = some work' ∧
      m'.fleet = n.fleet := by
  obtain ⟨caller, at_c⟩ := exists_getElem?_of_work? hwork
  refine ⟨_, step_advance at_c (.inr unlocked) goes, ?_, rfl⟩
  exact work?_setWork_self ((work?_of_calls calls_eq c).trans hwork)

/-- A call for the names returns with its first step. -/
theorem Upholds.list_returns (h : m.Upholds configs) (unlocked : m.isLocked = false)
    {phase : ListPhase}
    (hwork : m.work? c = some (.list phase)) :
    ∃ k n names, k ≤ 1 ∧ m.run (List.replicate k (.advance c)) = some n ∧
      n.work? c = some (.list (.returned names)) ∧ NamesOf configs names := by
  cases phase with
  | begun =>
    obtain ⟨n, hstep, hn, -⟩ := exists_step_advance hwork unlocked (n := m) rfl rfl
    have upholds := h.advance hwork ⟨rfl, rfl⟩ hstep
    exact ⟨1, n, _, Nat.le_refl 1, run_one hstep, hn, upholds.tells c _ hn⟩
  | returned names => exact ⟨0, m, names, Nat.zero_le 1, rfl, hwork, h.tells c _ hwork⟩

/-- A call for the statistics of a pool goes on, and each of its steps is one of those that it has
left. -/
theorem Upholds.stats_goes_on (h : m.Upholds configs) (unlocked : m.isLocked = false)
    (among : config ∈ configs) {phase : StatsPhase}
    (hwork : m.work? c = some (.stats config.name phase))
    (pending : ∀ answer, phase ≠ .returned answer) :
    ∃ n phase', m.step (.advance c) = some n ∧ n.work? c = some (.stats config.name phase') ∧
      phase.stepsLeft m.fleet.pools = phase'.stepsLeft n.fleet.pools + 1 := by
  have seen : phase.Sees m.fleet.pools config := h.tells c _ hwork config among rfl
  cases phase with
  | begun =>
    have goes : m.advanceWork c (.stats config.name .begun)
        = some (m, .stats config.name .open) := by
      simp [advanceWork, advanceStats, h.is_open]
    obtain ⟨n, hstep, hn, -⟩ := exists_step_advance hwork unlocked goes rfl
    exact ⟨n, .open, hstep, hn, rfl⟩
  | «open» =>
    obtain ⟨i, g, found, -⟩ := (shows_of_isFor h.configured.installed).carried config among
    have goes : m.advanceWork c (.stats config.name .open)
        = some (m, .stats config.name (.found i)) := by
      simp [advanceWork, advanceStats, found]
    obtain ⟨n, hstep, hn, -⟩ := exists_step_advance hwork unlocked goes rfl
    exact ⟨n, .found i, hstep, hn, rfl⟩
  | found i =>
    obtain ⟨g, at_i, -⟩ := seen
    have goes : m.advanceWork c (.stats config.name (.found i))
        = some (m.withPool i { g with samples := g.samples ++ [[]] },
            .stats config.name (.sampling i g.samples.length)) := by
      simp only [advanceWork, advanceStats, onPool, Fleet.onPool, at_i]
      rfl
    obtain ⟨n, hstep, hn, fleet_eq⟩ := exists_step_advance hwork unlocked goes rfl
    refine ⟨n, _, hstep, hn, ?_⟩
    have now := getElem?_withPool at_i { g with samples := g.samples ++ [[]] }
    rw [← fleet_eq] at now
    simp only [StatsPhase.stepsLeft, now, Option.elim_some, g.samples_of_sample.2]
    rfl
  | sampling i k =>
    obtain ⟨g, at_i, carries, samples⟩ := seen
    rcases samples.goes_on with ⟨all, stats, complete⟩ | ⟨incomplete, g', reads, more⟩
    · have goes : m.advanceWork c (.stats config.name (.sampling i k))
          = some (m, .stats config.name (.returned (.ok stats))) := by
        simp [advanceWork, advanceStats, at_i, samples.getElem?_eq, complete]
      obtain ⟨n, hstep, hn, -⟩ := exists_step_advance hwork unlocked goes rfl
      refine ⟨n, _, hstep, hn, ?_⟩
      simp only [StatsPhase.stepsLeft, at_i, Option.elim_some, all]
    · have goes : m.advanceWork c (.stats config.name (.sampling i k))
          = some (m.withPool i g', .stats config.name (.sampling i k)) := by
        simp only [advanceWork, advanceStats, onPool, Fleet.onPool, at_i, samples.getElem?_eq,
          incomplete, reads, Option.bind_eq_bind, Option.bind_some]
        rfl
      obtain ⟨n, hstep, hn, fleet_eq⟩ := exists_step_advance hwork unlocked goes rfl
      refine ⟨n, _, hstep, hn, ?_⟩
      have now := getElem?_withPool at_i g'
      rw [← fleet_eq] at now
      have before := samples.length_le
      have after := (samples.change (GuardedPool.change_of_step reads)).length_le
      simp only [StatsPhase.stepsLeft, at_i, now, Option.elim_some]
      omega
  | returned answer => exact absurd rfl (pending answer)

/-- A call for the statistics of a pool returns with the last of its steps, and shows the settings
of the pool. -/
theorem Upholds.stats_returns (h : m.Upholds configs) (unlocked : m.isLocked = false)
    (among : config ∈ configs) {phase : StatsPhase}
    (hwork : m.work? c = some (.stats config.name phase)) :
    ∃ n stats, m.run (List.replicate (phase.stepsLeft m.fleet.pools) (.advance c)) = some n ∧
      n.work? c = some (.stats config.name (.returned (.ok stats))) ∧ config.ShownBy stats := by
  induction left : phase.stepsLeft m.fleet.pools generalizing m phase with
  | zero =>
    have seen : phase.Sees m.fleet.pools config := h.tells c _ hwork config among rfl
    by_cases pending : ∀ answer, phase ≠ .returned answer
    · obtain ⟨n, phase', -, -, one⟩ := h.stats_goes_on unlocked among hwork pending
      omega
    · push Not at pending
      obtain ⟨answer, rfl⟩ := pending
      obtain ⟨stats, rfl, shown⟩ := seen
      exact ⟨m, stats, rfl, hwork, shown⟩
  | succ k ih =>
    have pending : ∀ answer, phase ≠ .returned answer := by
      rintro answer rfl
      cases left
    obtain ⟨n, phase', hstep, hn, one⟩ := h.stats_goes_on unlocked among hwork pending
    have upholds := h.advance hwork ⟨rfl, rfl⟩ hstep
    have unlocked' : n.isLocked = false := by
      refine (change_of_step hstep).still_unlocked unlocked ?_
      rintro _ _ ⟨⟩ at_n
      cases hn.symm.trans at_n
      rfl
    obtain ⟨n', stats, hrun, done⟩ := ih upholds unlocked' hn (by omega)
    exact ⟨n', stats, run_of_step hstep hrun, done⟩

end

end Manager

end TaskPools
