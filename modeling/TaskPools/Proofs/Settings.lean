/-
# What the strict check lets through

The settings are checked strictly and nothing in them is repaired; the configuration of a pool is
checked again when the pool is built, and then sizes and expiries are repaired.  Settings pass the
strict check if and only if their timeout is in range and, as far as pools are wanted, every pool
is sound (`PoolSettings.Sound`) and no two share a name (`Settings.validate_eq_none_iff`).  The
second check leaves the configuration of a sound pool as it is, except that an expiry of no seconds
gives way to the default (`PoolSettings.Sound.repairs_eq`).
-/
import TaskPools.Settings
import TaskPools.Proofs.Pool.Config

namespace TaskPools

/-! ## The rules for one pool -/

namespace PoolSettings

/-- The settings of a pool that break no rule by themselves. -/
structure Sound (p : PoolSettings) : Prop where
  named : p.name ≠ ""
  size_ge : minPoolSize ≤ p.size
  size_le : p.size ≤ maxPoolSize
  expiry_nonneg : 0 ≤ p.expirySeconds

/-- How many milliseconds the idle workers of the pool are kept. -/
def expiryInForce (p : PoolSettings) : Int :=
  if p.expirySeconds = 0 then 10000 else 1000 * p.expirySeconds.toInt

/-- The warning that is due for the settings of the pool. -/
def warning? (p : PoolSettings) : Option Output :=
  if p.expirySeconds = 0 then some (Repair.expiryReplaced.output p.name) else none

end PoolSettings

namespace Settings

variable {p : PoolSettings} {ps : List PoolSettings} {seen : List String} {index : Nat}

theorem poolFault_eq_none_iff :
    poolFault seen index p = none ↔ p.Sound ∧ p.name ∉ seen := by
  constructor
  · intro faultless
    rw [poolFault] at faultless
    split at faultless
    · cases faultless
    · rename_i named
      split at faultless
      · cases faultless
      · rename_i unused
        split at faultless
        · cases faultless
        · rename_i in_range
          split at faultless
          · cases faultless
          · rename_i nonneg
            obtain ⟨size_ge, size_le⟩ := not_or.mp in_range
            refine ⟨⟨named, ?_, ?_, ?_⟩, fun used => unused (List.contains_iff_mem.mpr used)⟩
            · exact Int32.not_lt.mp size_ge
            · exact Int32.not_lt.mp size_le
            · exact Int32.not_lt.mp nonneg
  · rintro ⟨⟨named, size_ge, size_le, nonneg⟩, unused⟩
    have in_range : ¬(p.size < minPoolSize ∨ maxPoolSize < p.size) :=
      not_or.mpr ⟨Int32.not_lt.mpr size_ge, Int32.not_lt.mpr size_le⟩
    rw [poolFault, if_neg named, if_neg (fun used => unused (List.contains_iff_mem.mp used)),
      if_neg in_range, if_neg (Int32.not_lt.mpr nonneg)]

/-- The names used before a pool are those of `seen` and those of the pools on its left. -/
theorem poolsFault_eq_none_iff :
    poolsFault seen ps = none ↔
      (∀ p ∈ ps, p.Sound) ∧ (ps.map PoolSettings.name).Nodup ∧ ∀ p ∈ ps, p.name ∉ seen := by
  induction ps generalizing seen with
  | nil => simp [poolsFault]
  | cons p rest ih =>
    rw [poolsFault]
    cases hfault : poolFault seen seen.length p with
    | some fault =>
      simp only [reduceCtorEq, false_iff]
      rintro ⟨sound, -, unused⟩
      have faultless : poolFault seen seen.length p = none :=
        poolFault_eq_none_iff.mpr ⟨sound p List.mem_cons_self, unused p List.mem_cons_self⟩
      rw [hfault] at faultless
      cases faultless
    | none =>
      obtain ⟨sound, unused⟩ := poolFault_eq_none_iff.mp hfault
      simp only [ih, List.forall_mem_cons, List.map_cons, List.nodup_cons, sound, unused,
        List.mem_append, List.mem_singleton, not_or, List.mem_map, not_exists, not_and]
      grind

/-- **What the strict check lets through.** -/
theorem validate_eq_none_iff {s : Settings} :
    s.validate = none ↔ s.timeoutInRange = true ∧
      (s.enabled = true → s.pools ≠ [] ∧ (∀ p ∈ s.pools, p.Sound) ∧
        (s.pools.map PoolSettings.name).Nodup) := by
  rw [validate]
  cases s.timeoutInRange with
  | false => simp
  | true =>
    cases s.enabled with
    | false => simp
    | true =>
      by_cases empty : s.pools = []
      · simp [empty]
      · simp [empty, poolsFault_eq_none_iff]

end Settings

/-! ## The second check -/

namespace PoolSettings

variable {p : PoolSettings}

/-- Seconds become milliseconds, and none of them is too many for 64 bits. -/
theorem toInt_expiry_config (p : PoolSettings) :
    p.config.expiry.toInt = 1000 * p.expirySeconds.toInt := by
  have low := p.expirySeconds.le_toInt
  have high := p.expirySeconds.toInt_lt
  have milli : (1000 : Int64).toInt = 1000 := rfl
  rw [config, Int64.toInt_mul, Int32.toInt_toInt64, milli, Int.mul_comm]
  exact Int.bmod_eq_of_le (by omega) (by omega)

theorem Sound.expiry_config_le_iff (h : p.Sound) :
    p.config.expiry ≤ 0 ↔ p.expirySeconds = 0 := by
  have nonneg := Int32.le_iff_toInt_le.mp h.expiry_nonneg
  have zero : (0 : Int32).toInt = 0 := rfl
  have none : (0 : Int64).toInt = 0 := rfl
  rw [Int64.le_iff_toInt_le, toInt_expiry_config, ← Int32.toInt_inj]
  omega

/-- The second check repairs a sound pool only if it has no expiry. -/
theorem Sound.repairs_eq (h : p.Sound) :
    p.config.repairs = if p.expirySeconds = 0 then [.expiryReplaced] else [] := by
  have size_ge : ¬p.config.size < minPoolSize := Int32.not_lt.mpr h.size_ge
  have size_le : ¬maxPoolSize < p.config.size := Int32.not_lt.mpr h.size_le
  simp only [PoolConfig.repairs, if_neg size_ge, if_neg size_le, List.nil_append,
    h.expiry_config_le_iff]

theorem Sound.size_repaired (h : p.Sound) : p.config.repaired.size = p.size := by
  have size_ge : ¬p.config.size < minPoolSize := Int32.not_lt.mpr h.size_ge
  have size_le : ¬maxPoolSize < p.config.size := Int32.not_lt.mpr h.size_le
  rw [PoolConfig.repaired]
  simp only [if_neg size_ge, if_neg size_le]
  rfl

theorem Sound.toInt_expiry_repaired (h : p.Sound) :
    p.config.repaired.expiry.toInt = p.expiryInForce := by
  rw [PoolConfig.repaired, expiryInForce]
  simp only [h.expiry_config_le_iff]
  split
  · rfl
  · exact p.toInt_expiry_config

/-- The size of a sound pool is the number of its workers. -/
theorem Sound.capacity_eq (h : p.Sound) :
    (p.config.repaired.capacity : Int) = p.size.toInt := by
  rw [PoolConfig.capacity_eq p.config.repaired_size_in_limits.1, h.size_repaired]

end PoolSettings

end TaskPools
