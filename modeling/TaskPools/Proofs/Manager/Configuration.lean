/-
# One configuration is in force

A batch is built pool by pool from one list of configurations, and no other call can see it before
it is complete.  Then it is installed as a whole: so the installed batch always shows one list
(`Manager.Shows`), that of the last reload that installed its batch, or the list of which the
manager was created, or nothing once a shutdown has emptied the manager (`Manager.inForce`).  Calls
for the installed names read the batch in one step and tell the names of one such list in ascending
order (`one_configuration_shown`).
-/
import TaskPools.Proofs.ByteOrder
import TaskPools.Proofs.Fleet.Assembly
import TaskPools.Proofs.Manager.Swaps
import TaskPools.Proofs.Pool.Figures

namespace TaskPools

variable {τ : Type}

/-! ## Settings of a pool -/

namespace GuardedPool

/-- The settings of the pool are those of a configuration after their repair. -/
structure Carries (g : GuardedPool τ) (config : PoolConfig) : Prop where
  config_eq : g.config = config.repaired
  settings_eq : g.pool.settings
    = (config.name, config.repaired.capacity, config.repaired.expiry, config.nonBlocking)

/-- A new pool carries the configuration for which it was built. -/
theorem carries_of_create {g : GuardedPool τ} {config : PoolConfig} {watched : Bool}
    (h : create config watched = .ok g) : g.Carries config := by
  obtain ⟨-, pool, hpool, rfl⟩ := eq_of_create h
  obtain ⟨-, -, rfl⟩ := Pool.eq_of_create hpool
  exact ⟨rfl, rfl⟩

/-- A pool carries its configuration for ever. -/
theorem Carries.step {g g' : GuardedPool τ} {config : PoolConfig} {e : Event τ}
    (h : g.Carries config) (hstep : g.step e = some g') : g'.Carries config := by
  have hc := change_of_step hstep
  refine ⟨hc.settings_eq.1.trans h.config_eq, ?_⟩
  rcases hc.pool_step with same | ⟨e', steps⟩
  · rw [same]
    exact h.settings_eq
  · exact (Pool.settings_of_step steps).trans h.settings_eq

end GuardedPool

/-! ## Batches built for a list -/

/-- Each entry of the batch names a pool that was built for the configuration at the same place of
the list, and no name stands there twice. -/
structure Batch.IsFor (batch : Batch) (ps : List (GuardedPool τ)) (configs : List PoolConfig) :
    Prop where
  entries : List.Forall₂ (fun entry config => entry.1 = config.name ∧ config.name ≠ "" ∧
    ∃ g, ps[entry.2]? = some g ∧ g.Carries config) batch configs
  distinct : (batch.map Prod.fst).Nodup

/-- The list of a reload that builds its batch, what is left of the list, and the batch so far. -/
def Work.assembled? : Work τ → Option (List PoolConfig × List PoolConfig × Batch)
  | .reload configs (.assembling (.building todo batch)) => some (configs, todo, batch)
  | .reload configs (.assembling (.done (.ok batch))) | .reload configs (.built batch)
  | .reload configs (.checked batch) => some (configs, [], batch)
  | _ => none

/-- What a reload has built is built for the configurations on its list that it got through. -/
def Work.BuiltFor (ps : List (GuardedPool (Job τ))) (work : Work τ) : Prop :=
  ∀ configs todo batch, work.assembled? = some (configs, todo, batch) →
    ∃ ready, configs = ready ++ todo ∧ batch.IsFor ps ready

namespace Manager

/-- The list that a step puts into force: that of a reload which installs its batch, or none for a
shutdown that empties the manager. -/
def putsInForce? : Manager τ × Event τ → Option (List PoolConfig)
  | (m, .advance c) =>
    match m.work? c with
    | some (.reload configs (.checked _)) => some configs
    | some (.shutdown .closed) => some []
    | _ => none
  | _ => none

/-- The list that is in force after a run at whose beginning it is `configs`: the last one that was
put into force. -/
def inForce (configs : List PoolConfig) (m : Manager τ) (es : List (Event τ)) : List PoolConfig :=
  ((m.history es).filterMap putsInForce?).getLast?.getD configs

/-- What is installed are pools for one list of configurations: exactly its names are found, and the
pool of each name carries the settings of the entry of that name. -/
structure Shows (m : Manager τ) (configs : List PoolConfig) : Prop where
  distinct : (configs.map PoolConfig.name).Nodup
  named : ∀ config ∈ configs, config.name ≠ ""
  keys : ∀ pool, (m.find? pool).isSome = true ↔ pool ∈ configs.map PoolConfig.name
  carried : ∀ config ∈ configs, ∃ i g, m.find? config.name = some i ∧
    m.fleet.pools[i]? = some g ∧ g.Carries config

/-- What is installed is built for a list, and so is what the reloads have built. -/
structure Configured (m : Manager τ) (configs : List PoolConfig) : Prop where
  installed : m.installed.IsFor m.fleet.pools configs
  building : ∀ c work, m.work? c = some work → work.BuiltFor m.fleet.pools

end Manager

section

variable {ps qs : List (GuardedPool (Job τ))} {batch : Batch} {configs : List PoolConfig}

/-- The batch for a list has the names of the list, in its order. -/
theorem Batch.IsFor.names_eq (h : batch.IsFor ps configs) :
    batch.map Prod.fst = configs.map PoolConfig.name := by
  have same := h.entries.imp fun entry config fits => fits.1
  rw [← List.forall₂_eq_eq_eq, List.forall₂_map_left_iff, List.forall₂_map_right_iff]
  exact same

/-- The empty batch is for the empty list. -/
theorem isFor_nil : Batch.IsFor [] ps [] := ⟨.nil, .nil⟩

theorem Batch.IsFor.eq_nil (h : Batch.IsFor [] ps configs) : configs = [] :=
  List.forall₂_nil_left_iff.mp h.entries

/-- Pools keep the settings with which they were built. -/
theorem Batch.IsFor.pools (h : batch.IsFor ps configs) (hc : Manager.PoolsChange ps qs) :
    batch.IsFor qs configs := by
  refine ⟨h.entries.imp fun entry config fits => ?_, h.distinct⟩
  obtain ⟨same, named, g, at_i, carries⟩ := fits
  refine ⟨same, named, ?_⟩
  cases hc with
  | same => exact ⟨g, at_i, carries⟩
  | step j old new e at_j steps =>
    rw [getElem?_set_at at_j]
    split
    · rename_i here
      rw [here] at at_i
      cases at_j.symm.trans at_i
      exact ⟨new, rfl, carries.step steps⟩
    · exact ⟨g, at_i, carries⟩
  | build =>
    rw [List.getElem?_append_left (List.getElem?_eq_some_iff.mp at_i).1]
    exact ⟨g, at_i, carries⟩

/-- One pool more is built, for one more configuration. -/
theorem Batch.IsFor.build {f f' : Fleet (Job τ)} {batch' : Batch} {config : PoolConfig}
    (h : batch.IsFor f.pools configs) (builds : f.build batch config = .ok (f', batch')) :
    batch'.IsFor f'.pools (configs ++ [config]) := by
  have unused : config.name ∉ batch.map Prod.fst := by
    intro used
    obtain ⟨entry, among, same⟩ := List.mem_map.mp used
    rw [Fleet.build, if_pos] at builds
    · cases builds
    · exact List.lookup_isSome_iff.mpr ⟨entry, among, beq_iff_eq.mpr same.symm⟩
  obtain ⟨g, created, rfl, rfl⟩ := Manager.eq_of_build builds
  have kept := (h.pools (.build config _ g created)).entries
  refine ⟨List.rel_append kept ?_, ?_⟩
  · refine .cons ⟨rfl, (GuardedPool.eq_of_create created).1, g, ?_, ?_⟩ .nil
    · exact List.getElem?_concat_length
    · exact GuardedPool.carries_of_create created
  · rw [List.map_append, List.map_singleton]
    exact List.nodup_append.mpr ⟨h.distinct, List.nodup_singleton _, by
      rintro name used _ new rfl
      rw [List.mem_singleton.mp new] at used
      exact unused used⟩

/-- Each name of the batch is found, and nothing else. -/
theorem Batch.IsFor.lookup_eq (h : batch.IsFor ps configs) {entry : String × Nat}
    (among : entry ∈ batch) : batch.lookup entry.1 = some entry.2 :=
  lookup_eq_of_mem h.distinct among

/-- What a reload has built stays built for its list, whatever the pools do. -/
theorem Work.BuiltFor.pools {work : Work τ} (h : work.BuiltFor ps)
    (hc : Manager.PoolsChange ps qs) : work.BuiltFor qs := by
  intro configs todo batch assembled
  obtain ⟨ready, rfl, built⟩ := h configs todo batch assembled
  exact ⟨ready, rfl, built.pools hc⟩

namespace Manager

variable {m m' n : Manager τ} {e : Event τ} {es : List (Event τ)} {c : Nat}
  {caller : Option (Nat × Nat)} {work work' : Work τ}

/-- A manager shows the list for which its batch is. -/
theorem shows_of_isFor (h : m.installed.IsFor m.fleet.pools configs) : m.Shows configs where
  distinct := h.names_eq ▸ h.distinct
  named config among := by
    obtain ⟨entry, -, -, named, -⟩ := exists_of_forall₂ h.entries among
    exact named
  keys pool := by
    rw [← h.names_eq, find?, List.lookup_isSome_iff, List.mem_map]
    exact exists_congr fun entry => and_congr_right fun _ => beq_iff_eq.trans eq_comm
  carried config among := by
    obtain ⟨entry, listed, same, -, g, at_i, carries⟩ := exists_of_forall₂ h.entries among
    exact ⟨entry.2, g, same ▸ h.lookup_eq listed, at_i, carries⟩

/-! ## What reloads build -/

/-- Who has built nothing has built nothing for a wrong list. -/
theorem builtFor_of_none (h : work.assembled? = none) : work.BuiltFor ps := by
  intro configs todo batch assembled
  rw [h] at assembled
  cases assembled

/-- A reload that builds nothing in a step has built nothing yet, or what it had before. -/
theorem Follows.builtFor (hf : Follows m work work') (h : work.BuiltFor ps) :
    work'.BuiltFor ps := by
  cases hf with
  | reloadOpen configs =>
    rintro _ _ _ ⟨⟩
    exact ⟨[], rfl, isFor_nil⟩
  | allBuilt | assembled | check => exact h
  | _ => exact builtFor_of_none rfl

/-- Whatever a call does, what it has built is for the list that it was given. -/
theorem Act.builtFor (ha : Act m c caller e work work' n) (h : work.BuiltFor m.fleet.pools) :
    work'.BuiltFor n.fleet.pools := by
  cases ha with
  | goOn _ _ follows => exact follows.builtFor h
  | build configs config rest batch batch' fleet builds =>
    rintro _ _ _ ⟨⟩
    obtain ⟨ready, rfl, built⟩ := h _ _ _ rfl
    exact ⟨ready ++ [config], by simp, built.build builds⟩
  | launch _ _ _ _ retires | launchInline _ _ _ _ retires | collect _ _ _ _ _ retires =>
    cases retires_of_retirement? retires <;> exact builtFor_of_none rfl
  | submit | resubmit | sample | gauge | failReload | install | close | emptyNothing | emptyOut
  | shutDown => exact builtFor_of_none rfl

/-! ## What is in force -/

/-- What a step installs is built for the list that it puts into force. -/
theorem Act.isFor (ha : Act m c caller e work work' n) (at_c : m.work? c = some work)
    (building : work.BuiltFor m.fleet.pools) (h : m.installed.IsFor m.fleet.pools configs) :
    n.installed.IsFor n.fleet.pools ((putsInForce? (m, e)).getD configs) := by
  have kept := h.pools ha.asks.change
  cases ha with
  | install configs' batch =>
    obtain ⟨ready, same, built⟩ := building _ _ _ rfl
    rw [List.append_nil] at same
    simp only [putsInForce?, at_c]
    exact same ▸ built
  | emptyNothing | emptyOut =>
    simp only [putsInForce?, at_c]
    exact isFor_nil
  | goOn _ _ follows =>
    cases follows <;>
    · simp only [putsInForce?, at_c]
      exact h
  | submit | resubmit | sample | gauge | build | failReload | close | shutDown =>
    simp only [putsInForce?, at_c]
    exact kept
  | launch | launchInline | collect => exact kept

/-- In every step the installed batch is for the list in force. -/
theorem Configured.change (h : m.Configured configs) (hc : Change m e m') :
    m'.Configured ((putsInForce? (m, e)).getD configs) := by
  cases hc with
  | call caller request =>
    refine ⟨h.installed, fun c work hwork => ?_⟩
    rw [work?_call] at hwork
    split at hwork
    · cases hwork
      cases request <;> exact builtFor_of_none rfl
    · exact h.building c work hwork
  | pool i move g g' at_i moves =>
    have pools := (Change.pool i move g g' at_i moves).pools
    exact ⟨h.installed.pools pools, fun c work hwork => (h.building c work hwork).pools pools⟩
  | act c caller _ work work' n at_c acts =>
    have hwork := work?_of_getElem? at_c
    have own := h.building c work hwork
    refine ⟨acts.isFor hwork own h.installed, fun c' other hother => ?_⟩
    by_cases hne : c' = c
    · subst hne
      have kept := (work?_of_calls acts.calls_eq c').trans hwork
      cases (work?_setWork_self kept).symm.trans hother
      exact acts.builtFor own
    · rw [work?_setWork_ne hne, work?_of_calls acts.calls_eq] at hother
      exact (h.building c' other hother).pools acts.asks.change

/-- A list is in force from the step on that puts it there. -/
theorem inForce_cons (hstep : m.step e = some n) (es : List (Event τ)) :
    m.inForce configs (e :: es) = n.inForce ((putsInForce? (m, e)).getD configs) es := by
  rw [inForce, inForce, history_cons hstep, List.filterMap_cons]
  cases putsInForce? (m, e) with
  | none => rfl
  | some latest =>
    simp only [List.getLast?_cons, Option.getD_some]

/-- After every run the installed batch is for the list in force. -/
theorem Configured.run (h : m.Configured configs) (hrun : m.run es = some m') :
    m'.Configured (m.inForce configs es) := by
  induction es generalizing m configs with
  | nil =>
    rw [run_nil hrun]
    exact h
  | cons e es ih =>
    obtain ⟨n, hstep, hrun⟩ := run_cons hrun
    rw [inForce_cons hstep]
    exact ih (h.change (change_of_step hstep)) hrun

/-- Building a list of pools makes a batch for this list. -/
theorem isFor_of_buildAll {f f' : Fleet (Job τ)} {batch batch' : Batch} {todo : List PoolConfig}
    (h : batch.IsFor f.pools configs) (builds : f.buildAll batch todo = .ok (f', batch')) :
    batch'.IsFor f'.pools (configs ++ todo) := by
  induction todo generalizing f batch configs with
  | nil =>
    cases builds
    rw [List.append_nil]
    exact h
  | cons config rest ih =>
    rw [Fleet.buildAll] at builds
    split at builds
    · rename_i first
      have whole := ih (h.build first) builds
      rw [List.append_assoc] at whole
      exact whole
    · cases builds

/-- A new manager shows the list that it is created from. -/
theorem configured_of_ofConfigs {options : FleetOptions} (h : ofConfigs configs options = .ok m) :
    m.Configured configs := by
  rw [ofConfigs] at h
  simp only [bind, Except.bind] at h
  split at h
  · cases h
  · rename_i built hbuilt
    cases h
    obtain ⟨fleet, batch⟩ := built
    have shown : batch.IsFor fleet.pools ([] ++ configs) := isFor_of_buildAll isFor_nil hbuilt
    refine ⟨shown, fun c work hwork => ?_⟩
    cases hwork

/-! ## Lists of names -/

/-- The names of a batch, which are all different, ascend byte by byte. -/
theorem names_ascend (distinct : (batch.map Prod.fst).Nodup) :
    batch.names.Pairwise fun x y => bytesOf x < bytesOf y := by
  have ordered : batch.names.Pairwise fun x y => decide (x ≤ y) = true := by
    refine List.pairwise_mergeSort (fun x y z hxy hyz => ?_) (fun x y => ?_) _
    · exact decide_eq_true (String.le_trans (of_decide_eq_true hxy) (of_decide_eq_true hyz))
    · rw [Bool.or_eq_true, decide_eq_true_iff, decide_eq_true_iff]
      exact String.le_total x y
  have apart : batch.names.Nodup := (List.mergeSort_perm _ _).nodup_iff.mpr distinct
  refine (ordered.and apart).imp fun ⟨le, ne⟩ => bytesOf_lt ?_
  exact lt_of_le_of_ne (of_decide_eq_true le) ne

/-- A call that tells names has read them in one step, while it was under way. -/
theorem lists_before {m₀ : Manager τ} {names : List String} (absent : m₀.work? c = none)
    (hrun : m₀.run es = some m) (hwork : m.work? c = some (.list (.returned names))) :
    ∃ es₁ es₂ n, es = es₁ ++ .advance c :: es₂ ∧ m₀.run es₁ = some n ∧
      n.work? c = some (.list .begun) ∧ names = n.installed.names := by
  rcases arrived_of_run absent hrun hwork with
    ⟨request, begun⟩ | ⟨es₁, e, es₂, n, caller, old, n', rfl, hn, hold, acts⟩
  · cases request <;> cases begun
  · generalize hnew : Work.list (.returned names) = new at acts
    cases acts with
    | goOn _ _ follows =>
      cases follows with
      | list =>
        cases hnew
        exact ⟨es₁, es₂, n, rfl, hn, hold, rfl⟩
      | _ => cases hnew
    | launch _ _ _ _ retires | launchInline _ _ _ _ retires
    | collect _ _ _ _ _ retires =>
      cases retires_of_retirement? retires <;> cases hnew
    | submit | resubmit | sample | gauge | build | failReload | install | close | emptyNothing
    | emptyOut | shutDown => cases hnew

/-- **One configuration is in force at a time.**  Whatever calls overlap, what is installed shows
one list of configurations as a whole: the list that the manager was created from, or that of the
last reload that installed its batch, or nothing once a shutdown has emptied the manager.  A call
for the installed names tells those of the list that was in force at one moment while it was under
way, in strictly ascending order of their bytes. -/
theorem one_configuration_shown {options : FleetOptions} {m₀ : Manager τ}
    (hcreate : ofConfigs configs options = .ok m₀) (hrun : m₀.run es = some m) :
    m.Shows (m₀.inForce configs es) ∧
    (0 < m₀.shutdownSwaps es → m₀.inForce configs es = []) ∧
    ∀ c names, m.work? c = some (.list (.returned names)) →
      ∃ es₁ es₂ n, es = es₁ ++ .advance c :: es₂ ∧ m₀.run es₁ = some n ∧
        n.work? c = some (.list .begun) ∧
        names.Perm ((m₀.inForce configs es₁).map PoolConfig.name) ∧
        names.Pairwise fun x y => bytesOf x < bytesOf y := by
  have configured := configured_of_ofConfigs hcreate
  refine ⟨shows_of_isFor (configured.run hrun).installed, fun swapped => ?_,
    fun c names hwork => ?_⟩
  · have emptied := (Reachable.create hcreate).shutDown_of_shutdownSwaps hrun swapped
    have installed := (configured.run hrun).installed
    rw [emptied.installed] at installed
    exact installed.eq_nil
  · have absent : m₀.work? c = none := by
      obtain ⟨fleet, batch, -, rfl⟩ := eq_of_ofConfigs hcreate
      rfl
    obtain ⟨es₁, es₂, n, rfl, hn, begun, rfl⟩ := lists_before absent hrun hwork
    have installed := (configured.run hn).installed
    refine ⟨es₁, es₂, n, rfl, hn, begun, ?_, names_ascend installed.distinct⟩
    rw [← installed.names_eq]
    exact List.mergeSort_perm _ _

end Manager

end

namespace Manager

/-- Two reloads build side by side; the one whose list names "db" twice fails, and the other one
installs "db" and "web" while a call for the names is under way, which reads them after that.  Then
a shutdown empties the manager, and a second call reads. -/
def overlappingReloads : List (Event Nat) :=
  [.call none (.reload [{ name := "db", size := 1 }, { name := "db", size := 2 }]),
    .call none (.reload [{ name := "db", size := 0 }, { name := "web", size := 1 }]),
    .call none .list, .advance 0, .advance 1, .advance 0, .advance 1, .advance 0, .advance 1,
    .advance 1, .advance 1, .advance 1, .advance 1, .advance 2, .launch 0 1 true,
    .call none .shutdown, .advance 3, .advance 3, .call none .list, .advance 4]

/-- The call that overlaps with the reloads tells the names of one list in ascending order; after
the reloads the list of the second one is shown, and after the shutdown nothing. -/
theorem configuration_shown_by_overlapping_reloads :
    ∃ (m₀ m n k : Manager Nat) (names : List String) (es₁ : List (Event Nat)),
      ofConfigs [{ name := "io", size := 1 }] {} = .ok m₀ ∧
      m₀.run (overlappingReloads.take 14) = some n ∧ m₀.run overlappingReloads = some m ∧
      n.work? 2 = some (.list (.returned names)) ∧ m₀.run es₁ = some k ∧
      k.work? 2 = some (.list .begun) ∧
      names.Perm ((m₀.inForce [{ name := "io", size := 1 }] es₁).map PoolConfig.name) ∧
      names.Pairwise (fun x y => bytesOf x < bytesOf y) ∧
      n.Shows [{ name := "db", size := 0 }, { name := "web", size := 1 }] ∧ m.Shows [] := by
  obtain ⟨m₀, m, n, names, hm₀, hn, hm, hwork, hforce, swapped⟩ :
      ∃ (m₀ m n : Manager Nat) (names : List String),
        ofConfigs [{ name := "io", size := 1 }] {} = .ok m₀ ∧
        m₀.run (overlappingReloads.take 14) = some n ∧ m₀.run overlappingReloads = some m ∧
        n.work? 2 = some (.list (.returned names)) ∧
        m₀.inForce [{ name := "io", size := 1 }] (overlappingReloads.take 14)
          = [{ name := "db", size := 0 }, { name := "web", size := 1 }] ∧
        m₀.shutdownSwaps overlappingReloads = 1 :=
    ⟨_, _, _, _, rfl, rfl, rfl, rfl, rfl, rfl⟩
  obtain ⟨shown, -, lists⟩ := one_configuration_shown hm₀ hn
  obtain ⟨emptied, empty, -⟩ := one_configuration_shown hm₀ hm
  obtain ⟨es₁, es₂, k, -, hk, begun, perm, ascends⟩ := lists 2 names hwork
  rw [hforce] at shown
  rw [empty (by rw [swapped]; exact Nat.one_pos)] at emptied
  exact ⟨m₀, m, n, k, names, es₁, hm₀, hn, hm, hwork, hk, begun, perm, ascends, shown, emptied⟩

end Manager

end TaskPools
