/-
# Settings in force

Settings that pass the strict check can be used as they stand.  The construction of their pools
succeeds without starting a thread, it warns of the pools without an expiry and of nothing else, and
as long as no reload installs its batch and no shutdown starts, the manager tells exactly the names
in the settings and shows the sizes, the expiries and the blocking that they ask for
(`Manager.settings_in_force`).
-/
import TaskPools.Proofs.Manager.Creation
import TaskPools.Proofs.Manager.Inquiries

namespace TaskPools

variable {τ : Type}

/-- The statistics show the settings of the pool. -/
structure PoolSettings.ShownBy (p : PoolSettings) (stats : PoolStats) : Prop where
  name_eq : stats.name = p.name
  capacity_eq : (stats.capacity : Int) = p.size.toInt
  nonBlocking_eq : stats.nonBlocking = p.nonBlocking
  expiry_eq : stats.expiry.toInt = p.expiryInForce

/-- These are the names of the pools, in ascending order of their bytes. -/
def PoolSettings.Named (pools : List PoolSettings) (names : List String) : Prop :=
  names.Perm (pools.map PoolSettings.name) ∧ names.Pairwise fun x y => bytesOf x < bytesOf y

/-- A call that is made now comes to this by steps of its own. -/
def Manager.ComesTo (m : Manager τ) (request : Request τ) (work : Work τ) : Prop :=
  ∃ k n, m.run (.call none request :: List.replicate k (.advance m.calls.length)) = some n ∧
    n.work? m.calls.length = some work

/-- What calls on a manager tell of the pools in the settings.  No call waits for anything but the
lock, which a reload has from its second look at the flag to its swap. -/
structure Manager.Presents (m : Manager τ) (pools : List PoolSettings) : Prop where
  /-- A call for the names that is made now tells exactly theirs. -/
  list_answered : m.isLocked = false → ∃ names, m.ComesTo .list (.list (.returned names)) ∧
    PoolSettings.Named pools names
  /-- A call for the statistics of one of them that is made now shows its settings. -/
  stats_answered : m.isLocked = false → ∀ p ∈ pools, ∃ stats,
    m.ComesTo (.stats p.name) (.stats p.name (.returned (.ok stats))) ∧ p.ShownBy stats
  /-- A call for the names that was made before can return, and then it tells exactly theirs. -/
  list_returns : m.isLocked = false → ∀ c phase, m.work? c = some (.list phase) →
    ∃ k n names, m.run (List.replicate k (.advance c)) = some n ∧
      n.work? c = some (.list (.returned names)) ∧ PoolSettings.Named pools names
  /-- A call for the statistics of one of them that was made before can return, and then it shows
  its settings. -/
  stats_returns : m.isLocked = false → ∀ p ∈ pools, ∀ c phase,
    m.work? c = some (.stats p.name phase) →
      ∃ k n stats, m.run (List.replicate k (.advance c)) = some n ∧
        n.work? c = some (.stats p.name (.returned (.ok stats))) ∧ p.ShownBy stats
  /-- A call for the names that has returned tells exactly theirs. -/
  lists : ∀ c names, m.work? c = some (.list (.returned names)) → PoolSettings.Named pools names
  /-- A call for the statistics of one of them that has returned shows its settings. -/
  stats : ∀ p ∈ pools, ∀ c answer, m.work? c = some (.stats p.name (.returned answer)) →
    ∃ stats, answer = .ok stats ∧ p.ShownBy stats

theorem PoolSettings.Sound.shownBy {p : PoolSettings} {stats : PoolStats} (h : p.Sound)
    (shown : p.config.ShownBy stats) : p.ShownBy stats where
  name_eq := shown.name_eq
  capacity_eq := by rw [shown.capacity_eq, h.capacity_eq]
  nonBlocking_eq := shown.nonBlocking_eq
  expiry_eq := by rw [shown.expiry_eq, h.toInt_expiry_repaired]

namespace Manager

variable {m : Manager τ} {ps : List PoolSettings}

theorem named_of_namesOf {names : List String} (h : NamesOf (ps.map PoolSettings.config) names) :
    PoolSettings.Named ps names := by
  obtain ⟨perm, ascends⟩ := h
  rw [List.map_map] at perm
  exact ⟨perm, ascends⟩

theorem Upholds.presents (h : m.Upholds (ps.map PoolSettings.config)) (sound : ∀ p ∈ ps, p.Sound) :
    m.Presents ps where
  list_answered unlocked := by
    obtain ⟨n, hstep, hwork, upholds⟩ := h.call .list
    have unlocked' := (change_of_step hstep).still_unlocked unlocked nofun
    obtain ⟨k, n', names, -, hrun, hn, told⟩ := upholds.list_returns unlocked' hwork
    exact ⟨names, ⟨k, n', run_of_step hstep hrun, hn⟩, named_of_namesOf told⟩
  stats_answered unlocked p among := by
    obtain ⟨n, hstep, hwork, upholds⟩ := h.call (.stats p.config.name)
    have unlocked' := (change_of_step hstep).still_unlocked unlocked nofun
    obtain ⟨n', stats, hrun, hn, shown⟩ :=
      upholds.stats_returns unlocked' (List.mem_map_of_mem among) hwork
    exact ⟨stats, ⟨_, n', run_of_step hstep hrun, hn⟩, (sound p among).shownBy shown⟩
  list_returns unlocked c phase hwork := by
    obtain ⟨k, n, names, -, hrun, hn, told⟩ := h.list_returns unlocked hwork
    exact ⟨k, n, names, hrun, hn, named_of_namesOf told⟩
  stats_returns unlocked p among c phase hwork := by
    obtain ⟨n, stats, hrun, hn, shown⟩ :=
      h.stats_returns unlocked (List.mem_map_of_mem among) hwork
    exact ⟨_, n, stats, hrun, hn, (sound p among).shownBy shown⟩
  lists c names hwork := named_of_namesOf (h.tells c _ hwork)
  stats p among c answer hwork := by
    obtain ⟨stats, rfl, shown⟩ := h.tells c _ hwork p.config (List.mem_map_of_mem among) rfl
    exact ⟨stats, rfl, (sound p among).shownBy shown⟩

/-- The second check of sound pools warns of those that have no expiry. -/
theorem flatMap_warnings (sound : ∀ p ∈ ps, p.Sound) :
    ps.flatMap (fun p => p.config.warnings) = ps.filterMap PoolSettings.warning? := by
  induction ps with
  | nil => rfl
  | cons p rest ih =>
    obtain ⟨sound_p, sound⟩ := List.forall_mem_cons.mp sound
    rw [List.flatMap_cons, sound_p.warnings_eq, ih sound, List.filterMap_cons]
    cases p.warning? <;> rfl

/-- **Settings that pass the strict check are in force as they stand.**  A manager is created from
them, whether or not threads can be started: whichever way the construction of its pools goes, it
only builds one pool after the other, and when it stops it has built them all.  It has warned of the
pools without an expiry and of nothing else.  Whatever happens then, as long as no reload installs
its batch and no shutdown starts, calls for the names tell exactly those in the settings in
ascending order, and calls for statistics show the size, the expiry and the blocking that the
settings ask for; and where no reload is about to install its batch, all of them return. -/
theorem settings_in_force {s : Settings} (wanted : s.enabled = true) (valid : s.validate = none)
    (options : FleetOptions) :
    ∃ (m : Manager τ) (fleet : Fleet (Job τ)) (batch : Batch),
      create s.poolConfigs options = .ok m ∧ m = ofBatch fleet batch ∧
      (Construction.ofConfigs { options } s.poolConfigs []).Yields fleet batch
        (s.pools.length + 1) ∧
      Construction.build { options } s.poolConfigs = (fleet, .ok batch) ∧
      (∀ handler, m.fleet.warnings handler = s.pools.filterMap PoolSettings.warning?) ∧
      ∀ es n, m.run es = some n → m.reloadSwaps es = 0 → m.shutdownStarts es = 0 →
        n.Presents s.pools := by
  obtain ⟨-, rules⟩ := Settings.validate_eq_none_iff.mp valid
  obtain ⟨some_pool, sound, distinct⟩ := rules wanted
  have length_eq : s.poolConfigs.length = s.pools.length := List.length_map ..
  have unused : ∀ p ∈ s.pools, p.name ∉ ([] : Batch).map Prod.fst := nofun
  obtain ⟨fleet, batch, builds⟩ :=
    Fleet.buildAll_of_sound ({ options } : Fleet (Job τ)) sound distinct unused
  have yields : (Construction.ofConfigs { options } s.poolConfigs []).Yields fleet batch
      (s.poolConfigs.length + 1) :=
    Construction.yields_of_buildAll (freshlyBuilt_nil options) builds
  have created : ofConfigs s.poolConfigs options = .ok (ofBatch fleet batch) := by
    rw [ofConfigs, Settings.poolConfigs, builds]
    rfl
  refine ⟨ofBatch fleet batch, fleet, batch, ?_, rfl, length_eq ▸ yields, yields.build_eq, ?_, ?_⟩
  · have not_empty : s.poolConfigs ≠ [] := fun empty => some_pool (List.map_eq_nil_iff.mp empty)
    rw [create, if_neg not_empty, created]
  · intro handler
    rw [warnings_of_ofConfigs created, Settings.poolConfigs, List.flatMap_map]
    exact flatMap_warnings sound
  · intro es n hrun no_swap no_start
    exact ((upholds_of_ofConfigs created).run hrun no_swap no_start).presents sound

/-- The settings of two pools, of which one says nothing about its expiry. -/
def twoPools : Settings where
  pools :=
    [{ name := "io", size := 3, expirySeconds := 0, nonBlocking := false },
     { name := "db", size := 2, expirySeconds := 60 }]

/-- A call for the names and one for the statistics of each pool, which go on in turn. -/
def inquiries : List (Event Nat) :=
  [.call none .list, .call none (.stats "io"), .call none (.stats "db"), .advance 0] ++
    (List.range 11).flatMap fun _ => [.advance 1, .advance 2]

/-- The names are told in the order of their bytes, the pool without an expiry gets the default one
and is the only one of which there is a warning, and the other one gets the one it asks for. -/
theorem settings_in_force_of_two_pools :
    twoPools.enabled = true ∧ twoPools.validate = none ∧
      ∃ (m n : Manager Nat) (names : List String) (io db : PoolStats),
        create twoPools.poolConfigs {} = .ok m ∧ m.run inquiries = some n ∧
        m.fleet.warnings none = [Repair.expiryReplaced.output "io"] ∧
        n.work? 0 = some (.list (.returned names)) ∧ names.Perm ["io", "db"] ∧
        n.work? 1 = some (.stats "io" (.returned (.ok io))) ∧ io.capacity = 3 ∧
        io.nonBlocking = false ∧ io.expiry.toInt = 10000 ∧
        n.work? 2 = some (.stats "db" (.returned (.ok db))) ∧ db.capacity = 2 ∧
        db.nonBlocking = true ∧ db.expiry.toInt = 60000 := by
  obtain ⟨m, fleet, batch, created, -, -, -, warned, presents⟩ :=
    settings_in_force (τ := Nat) (s := twoPools) rfl rfl {}
  obtain ⟨m', n, names, io, db, created', hrun, no_swap, no_start, listed, at_io, at_db⟩ :
      ∃ (m n : Manager Nat) (names : List String) (io db : PoolStats),
        create twoPools.poolConfigs {} = .ok m ∧ m.run inquiries = some n ∧
        m.reloadSwaps inquiries = 0 ∧ m.shutdownStarts inquiries = 0 ∧
        n.work? 0 = some (.list (.returned names)) ∧
        n.work? 1 = some (.stats "io" (.returned (.ok io))) ∧
        n.work? 2 = some (.stats "db" (.returned (.ok db))) :=
    ⟨_, _, _, _, _, rfl, rfl, rfl, rfl, rfl, rfl, rfl⟩
  cases created.symm.trans created'
  have shown := presents inquiries n hrun no_swap no_start
  obtain ⟨_, same, io_shown⟩ := shown.stats _ List.mem_cons_self 1 _ at_io
  cases same
  obtain ⟨_, same, db_shown⟩ :=
    shown.stats _ (List.mem_cons_of_mem _ List.mem_cons_self) 2 _ at_db
  cases same
  refine ⟨rfl, rfl, m, n, names, io, db, created, hrun, warned none, listed,
    (shown.lists 0 names listed).1, at_io, ?_, io_shown.nonBlocking_eq, io_shown.expiry_eq, at_db,
    ?_, db_shown.nonBlocking_eq, db_shown.expiry_eq⟩
  · exact Int.ofNat.inj io_shown.capacity_eq
  · exact Int.ofNat.inj db_shown.capacity_eq

end Manager

end TaskPools
