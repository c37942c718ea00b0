/-
# When settings call for new pools

Settings are compared setting by setting, and so are the configurations of pools that they stand
for.  The two comparisons agree (`beq_config`): seconds become milliseconds without loss, so no two
settings of a pool stand for one configuration (`PoolSettings.config_injective`).  So new pools are
called for exactly when the list of their configurations is another one, and a daemon that loads its
settings again goes by nothing else (`change_detected_exactly`): then it makes one call on its
manager, a reload of the new list, and otherwise it makes none.
-/
import Mathlib.Data.List.Basic
import TaskPools.Daemon.Run
import TaskPools.Proofs.Manager.Pools
import TaskPools.Proofs.Settings

namespace TaskPools

/-! ## Comparing configurations -/

namespace PoolConfig

theorem beq_iff {c d : PoolConfig} : (c == d) = true ↔
    c.name = d.name ∧ c.size = d.size ∧ c.expiry = d.expiry ∧ c.nonBlocking = d.nonBlocking := by
  show (c.name == d.name && c.size == d.size && c.expiry == d.expiry &&
    c.nonBlocking == d.nonBlocking) = true ↔ _
  simp only [Bool.and_eq_true, beq_iff_eq, and_assoc]

instance : LawfulBEq PoolConfig where
  eq_of_beq := by
    intro c d same
    cases c
    cases d
    rw [mk.injEq]
    exact beq_iff.mp same
  rfl := beq_iff.mpr ⟨rfl, rfl, rfl, rfl⟩

end PoolConfig

namespace PoolSettings

variable {p q : PoolSettings}

theorem beq_iff : (p == q) = true ↔ p.name = q.name ∧ p.size = q.size ∧
    p.expirySeconds = q.expirySeconds ∧ p.nonBlocking = q.nonBlocking := by
  show (p.name == q.name && p.size == q.size && p.expirySeconds == q.expirySeconds &&
    p.nonBlocking == q.nonBlocking) = true ↔ _
  simp only [Bool.and_eq_true, beq_iff_eq, and_assoc]

instance : LawfulBEq PoolSettings where
  eq_of_beq := by
    intro p q same
    cases p
    cases q
    rw [mk.injEq]
    exact beq_iff.mp same
  rfl := beq_iff.mpr ⟨rfl, rfl, rfl, rfl⟩

/-- No two expiries become one. -/
theorem expiry_config_inj : p.config.expiry = q.config.expiry ↔
    p.expirySeconds = q.expirySeconds := by
  rw [← Int64.toInt_inj, toInt_expiry_config, toInt_expiry_config, ← Int32.toInt_inj]
  omega

/-- The extremes neither wrap around nor meet. -/
example :
    ({ expirySeconds := -2147483648 } : PoolSettings).config.expiry = -2147483648000 ∧
      ({ expirySeconds := 2147483647 } : PoolSettings).config.expiry = 2147483647000 := by
  decide

/-- The settings of a pool can be told from the configuration that they stand for. -/
theorem config_injective : Function.Injective config := by
  intro p q same
  have expiry_eq := expiry_config_inj.mp (congrArg PoolConfig.expiry same)
  have name_eq : p.name = q.name := congrArg PoolConfig.name same
  have size_eq : p.size = q.size := congrArg PoolConfig.size same
  have mode_eq : p.nonBlocking = q.nonBlocking := congrArg PoolConfig.nonBlocking same
  exact eq_of_beq (beq_iff.mpr ⟨name_eq, size_eq, expiry_eq, mode_eq⟩)

/-- Settings are the same if and only if the configurations are. -/
theorem beq_config (p q : PoolSettings) : (p == q) = (p.config == q.config) := by
  rw [Bool.eq_iff_iff, beq_iff_eq, beq_iff_eq, config_injective.eq_iff]

end PoolSettings

/-! ## Comparing settings -/

namespace Settings

variable {a b : Settings}

theorem poolConfigs_inj : a.poolConfigs = b.poolConfigs ↔ a.pools = b.pools :=
  (List.map_injective_iff.mpr PoolSettings.config_injective).eq_iff

theorem poolsChanged_eq (a b : Settings) :
    a.poolsChanged b = (a.poolConfigs != b.poolConfigs) := by
  have same_answer : (a.pools == b.pools) = (a.poolConfigs == b.poolConfigs) := by
    rw [Bool.eq_iff_iff, beq_iff_eq, beq_iff_eq, poolConfigs_inj]
  rw [poolsChanged, bne, bne, same_answer]

theorem poolsChanged_eq_false_iff : a.poolsChanged b = false ↔ a.poolConfigs = b.poolConfigs := by
  rw [poolsChanged_eq, bne_eq_false_iff_eq]

theorem beq_iff : (a == b) = true ↔
    a.poolsChanged b = false ∧ a.enabled = b.enabled ∧ a.shutdownTimeout = b.shutdownTimeout := by
  show (a.enabled == b.enabled && a.pools == b.pools &&
    a.shutdownTimeout == b.shutdownTimeout) = true ↔ _
  rw [poolsChanged_eq_false_iff, poolConfigs_inj]
  simp only [Bool.and_eq_true, beq_iff_eq, and_assoc, and_left_comm]

end Settings

/-! ## Loading settings again -/

namespace Daemon

/-- The settings that a daemon finds when it loads them again, if they can be used and do not
switch the application off. -/
def Context.proposal? (c : Context) : Option Settings :=
  if c.path = "" then none
  else
    match Settings.load c.source c.environment c.path with
    | (.ok new, _) => if new.enabled then some new else none
    | (.error _, _) => none

/-- Between `s` and `s'` the daemon makes one call on its manager, a reload of the pools of `new`.
If that succeeds these are the pools in the settings from then on, and if it does not the settings
stay as they are. -/
structure State.ReloadsOnce (s : State) (new : Settings) (s' : State) : Prop where
  asked : s.manager.AskedOnce (.reload new.poolConfigs) s'.manager
  settings_eq : s'.settings =
    match s'.manager.work? s.manager.calls.length with
    | some (.reload _ (.returned none)) => { s.settings with pools := new.pools }
    | _ => s.settings

section

variable {s : State} {c : Context} {new : Settings}

/-- A daemon that has settings with other pools to go by asks for these once. -/
theorem State.reloadPools_spec (s : State) (new : Settings) :
    s.ReloadsOnce new (s.reloadPools new).1 := by
  have asked : s.manager.AskedOnce (.reload new.poolConfigs)
      (s.ask (.reload new.poolConfigs)).1.manager := Manager.askedOnce_perform ..
  have called : (s.ask (.reload new.poolConfigs)).2.1 =
      (s.ask (.reload new.poolConfigs)).1.manager.work? s.manager.calls.length := rfl
  have settings_eq : (s.ask (.reload new.poolConfigs)).1.settings = s.settings := rfl
  rw [State.reloadPools]
  generalize s.ask (.reload new.poolConfigs) = answer at asked called settings_eq
  obtain ⟨s', work, outputs⟩ := answer
  simp only at asked called settings_eq
  -- the answer of the call decides between the two ways to go on
  split
  · rename_i same
    cases same
    exact ⟨asked, by simp only [← called, settings_eq]⟩
  · rename_i same
    cases same
    exact ⟨asked, by simp only [← called, settings_eq]⟩
  · rename_i same
    cases same
    exact ⟨asked, by simp only [← called, settings_eq]⟩

/-- Without settings to go by, and with settings of the same pools, nothing happens. -/
theorem State.reload_of_same
    (same : ∀ new, c.proposal? = some new → new.poolConfigs = s.settings.poolConfigs) :
    (s.reload c).1 = s := by
  rw [State.reload]
  rw [Context.proposal?] at same
  split
  · rfl
  · rename_i path
    rw [if_neg path] at same
    cases loaded : Settings.load c.source c.environment c.path with
    | mk result outputs =>
      cases result with
      | error fault => rfl
      | ok new =>
        rw [loaded] at same
        cases enabled : new.enabled with
        | false => simp [enabled]
        | true =>
          have unchanged : new.poolsChanged s.settings = false :=
            Settings.poolsChanged_eq_false_iff.mpr (same new (if_pos enabled))
          simp [enabled, unchanged]

/-- With settings of other pools, these are called for. -/
theorem State.reload_of_other (proposed : c.proposal? = some new)
    (other : new.poolConfigs ≠ s.settings.poolConfigs) :
    (s.reload c).1 = (s.reloadPools new).1 := by
  rw [State.reload]
  rw [Context.proposal?] at proposed
  obtain ⟨path, proposed⟩ := Option.ite_none_left_eq_some.mp proposed
  rw [if_neg path]
  cases loaded : Settings.load c.source c.environment c.path with
  | mk result outputs =>
    rw [loaded] at proposed
    cases result with
    | error fault => cases proposed
    | ok found =>
      obtain ⟨enabled, ⟨⟩⟩ := Option.ite_none_right_eq_some.mp proposed
      have changed : new.poolsChanged s.settings = true := by
        rw [Settings.poolsChanged_eq, bne_iff_ne]
        exact other
      simp [enabled, changed]

end

end Daemon

namespace Settings

/-- **Changes are detected exactly.**  Going from the one settings to the other calls for new pools
if and only if the lists of configurations that they stand for differ, in whichever way these are
compared, and seconds become milliseconds without loss.  Settings are equal if and only if no new
pools are called for and flag and timeout agree; a change of those two alone calls for none.  So a
daemon that loads its settings again leaves everything as it is if the list is the same, and if it
is not makes exactly one call on its manager, a reload of the new list. -/
theorem change_detected_exactly (a b : Settings) :
    (a.poolsChanged b = false ↔ a.poolConfigs = b.poolConfigs) ∧
      a.poolsChanged b = (a.poolConfigs != b.poolConfigs) ∧
      (∀ p q : PoolSettings, (p == q) = (p.config == q.config)) ∧
      (∀ p : PoolSettings, p.config.expiry.toInt = 1000 * p.expirySeconds.toInt) ∧
      ((a == b) = true ↔ a.poolsChanged b = false ∧ a.enabled = b.enabled ∧
        a.shutdownTimeout = b.shutdownTimeout) ∧
      (∀ enabled shutdownTimeout, poolsChanged { a with enabled, shutdownTimeout } a = false) ∧
      (∀ (s : Daemon.State) (c : Daemon.Context),
        (∀ new, c.proposal? = some new → new.poolConfigs = s.settings.poolConfigs) →
          (s.reload c).1 = s) ∧
      ∀ (s : Daemon.State) (c : Daemon.Context) (new : Settings), c.proposal? = some new →
        new.poolConfigs ≠ s.settings.poolConfigs → s.ReloadsOnce new (s.reload c).1 :=
  ⟨poolsChanged_eq_false_iff, poolsChanged_eq a b, PoolSettings.beq_config,
    PoolSettings.toInt_expiry_config, beq_iff, fun _ _ => poolsChanged_eq_false_iff.mpr rfl,
    fun _ _ => Daemon.State.reload_of_same,
    fun s _ new proposed other =>
      Daemon.State.reload_of_other proposed other ▸ s.reloadPools_spec new⟩

/-- Settings of one pool. -/
def onePool : Settings where
  pools := [{ name := "io", size := 1 }]

/-- The same pool, and another one. -/
def onePoolMore : Settings where
  pools := [{ name := "io", size := 1 }, { name := "db", size := 2 }]

/-- A file with settings of two pools. -/
def grownFile : Daemon.Context where
  source := fun _ => .ok onePoolMore
  environment := {}
  path := "pools.json"

/-- A daemon that serves one pool and finds two in its file makes one reload call, after which it
serves the two; told to reload once more, it makes no call. -/
theorem grown_file_reloaded_once :
    ∃ (m : Manager Unit) (s : Daemon.State),
      Manager.create onePool.poolConfigs { watched := true } = .ok m ∧
      (Daemon.State.reload ⟨onePool, m⟩ grownFile).1 = s ∧
      m.AskedOnce (.reload onePoolMore.poolConfigs) s.manager ∧
      s.manager.installed = [("io", 1), ("db", 2)] ∧ s.settings = onePoolMore ∧
      (s.reload grownFile).1 = s := by
  obtain ⟨m, created, installed, settings_eq⟩ : ∃ m : Manager Unit,
      Manager.create onePool.poolConfigs { watched := true } = .ok m ∧
      (Daemon.State.reload ⟨onePool, m⟩ grownFile).1.manager.installed = [("io", 1), ("db", 2)] ∧
      (Daemon.State.reload ⟨onePool, m⟩ grownFile).1.settings = onePoolMore :=
    ⟨_, rfl, rfl, rfl⟩
  obtain ⟨-, -, -, -, -, -, unasked, asked⟩ := change_detected_exactly onePool onePoolMore
  have proposed : grownFile.proposal? = some onePoolMore := rfl
  have other : onePoolMore.poolConfigs ≠ onePool.poolConfigs := by decide
  refine ⟨m, _, created, rfl, (asked ⟨onePool, m⟩ grownFile onePoolMore proposed other).asked,
    installed, settings_eq, unasked _ grownFile fun new found => ?_⟩
  cases proposed.symm.trans found
  rw [settings_eq]

end Settings

end TaskPools
