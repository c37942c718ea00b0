/-
# What the repair of a configuration makes sure of

A repaired configuration has a size inside its limits and a positive expiry, and its size keeps its
value when it becomes the capacity of a pool.  So the checks that a pool makes of its own, which
come after the repair, find nothing left to object to.
-/
import TaskPools.Pool.Config

namespace TaskPools

section

variable {size : Int32}

/-! ## The limits of a size -/

theorem size_lt_min_iff : size < minPoolSize ↔ size.toInt < 1 := Int32.lt_iff_toInt_lt

theorem max_lt_size_iff : maxPoolSize < size ↔ 10000 < size.toInt := Int32.lt_iff_toInt_lt

theorem min_le_size_iff : minPoolSize ≤ size ↔ 1 ≤ size.toInt := Int32.le_iff_toInt_le

theorem size_le_max_iff : size ≤ maxPoolSize ↔ size.toInt ≤ 10000 := Int32.le_iff_toInt_le

end

/-! ## Repaired configurations -/

namespace PoolConfig

variable {c : PoolConfig}

/-- The repaired size lies inside its limits. -/
theorem repaired_size_in_limits (c : PoolConfig) :
    minPoolSize ≤ c.repaired.size ∧ c.repaired.size ≤ maxPoolSize := by
  rw [repaired]
  simp only
  split
  · decide
  · rename_i size_ge
    split
    · decide
    · rename_i size_le
      exact ⟨Int32.not_lt.mp size_ge, Int32.not_lt.mp size_le⟩

theorem repaired_expiry_pos (c : PoolConfig) : ¬ c.repaired.expiry ≤ 0 := by
  rw [repaired]
  simp only
  split
  · decide
  · assumption

/-- A size above zero keeps its value when it becomes an unsigned word of 64 bits. -/
theorem capacity_eq (size_ge : minPoolSize ≤ c.size) : (c.capacity : Int) = c.size.toInt := by
  have least := min_le_size_iff.mp size_ge
  have same : c.size.toInt64.toInt = c.size.toInt := Int32.toInt_toInt64 c.size
  have nonneg : 0 ≤ c.size.toInt64 := by
    rw [Int64.le_iff_toInt_le, same]
    exact Int.le_trans (by decide) least
  rw [capacity, Int64.toNat_toUInt64_of_le nonneg, ← Int64.toNat_toInt, same]
  exact Int.toNat_of_nonneg (by omega)

theorem repaired_capacity_pos (c : PoolConfig) : 0 < c.repaired.capacity := by
  have size_ge := c.repaired_size_in_limits.1
  have least := min_le_size_iff.mp size_ge
  have same := capacity_eq size_ge
  omega

end PoolConfig

end TaskPools
