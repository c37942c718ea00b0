/-
# Why a guarded pool can always be made

A configuration that has a name is repaired: its size moves to the nearest one inside the limits, an
expiry that is not positive gives way to the default, and one warning is logged for each setting
that changed (`PoolConfig.RepairedTo`, `PoolConfig.dueWarnings`).  A repaired configuration needs no
repair, and the pool inside the guard has nothing to object to it.  So a guarded pool is made from
every configuration that has a name (`GuardedPool.creation_infallible`).
-/
import TaskPools.Proofs.GuardedPool.Answers
import TaskPools.Proofs.Pool.Config

namespace TaskPools

namespace PoolConfig

/-! ## Repairs -/

/-- What a check leaves behind: what is wrong, the configuration afterwards, and what was logged. -/
def checked (c : PoolConfig) : Option Fault × PoolConfig × List Output :=
  match c.validate with
  | .ok (d, repairs) => (none, d, repairs.map (Repair.output c.name))
  | .error fault => (some fault, c, [])

/-- The configuration `d` is the configuration `c` with every setting moved inside its limits. -/
structure RepairedTo (c d : PoolConfig) : Prop where
  name_eq : d.name = c.name
  nonBlocking_eq : d.nonBlocking = c.nonBlocking
  size_in_limits : 1 ≤ d.size.toInt ∧ d.size.toInt ≤ 10000
  size_nearest : ∀ n : Int, 1 ≤ n → n ≤ 10000 →
    (d.size.toInt - c.size.toInt).natAbs ≤ (n - c.size.toInt).natAbs
  expiry_kept : 0 < c.expiry.toInt → d.expiry = c.expiry
  expiry_replaced : c.expiry.toInt ≤ 0 → d.expiry.toInt = 10000

/-- The warning that is due if the size of `c` became that of `d`. -/
def sizeWarning? (c d : PoolConfig) : Option Output :=
  if d.size = c.size then none
  else some (.record .warning ("Pool '" ++ c.name ++ "' size " ++ toString c.size.toInt ++
    (if c.size < d.size then " below minimum, using " else " above maximum, using ") ++
    toString d.size.toInt))

/-- The warning that is due if the expiry of `c` became that of `d`. -/
def expiryWarning? (c d : PoolConfig) : Option Output :=
  if d.expiry = c.expiry then none
  else some (.record .warning ("Pool '" ++ c.name ++ "' has non-positive expiry, using default " ++
    toString d.expiry.toInt ++ "ms"))

/-- The warnings that are due if `c` became `d`, one for each setting that changed. -/
def dueWarnings (c d : PoolConfig) : List Output :=
  (c.sizeWarning? d).toList ++ (c.expiryWarning? d).toList

variable {c d e : PoolConfig}

theorem expiry_le_zero_iff : c.expiry ≤ 0 ↔ c.expiry.toInt ≤ 0 := Int64.le_iff_toInt_le

/-- The size is raised, lowered or left alone. -/
theorem size_repaired_cases (c : PoolConfig) :
    (c.size.toInt < 1 ∧ c.repaired.size = minPoolSize) ∨
      (10000 < c.size.toInt ∧ c.repaired.size = maxPoolSize) ∨
      (1 ≤ c.size.toInt ∧ c.size.toInt ≤ 10000) ∧ c.repaired.size = c.size := by
  simp only [repaired, size_lt_min_iff, max_lt_size_iff]
  by_cases low : c.size.toInt < 1
  · exact Or.inl ⟨low, if_pos low⟩
  · rw [if_neg low]
    by_cases high : 10000 < c.size.toInt
    · exact Or.inr (Or.inl ⟨high, if_pos high⟩)
    · exact Or.inr (Or.inr ⟨by omega, if_neg high⟩)

theorem repairedTo_repaired (c : PoolConfig) : c.RepairedTo c.repaired := by
  have least : minPoolSize.toInt = 1 := rfl
  have greatest : maxPoolSize.toInt = 10000 := rfl
  constructor
  case name_eq => rfl
  case nonBlocking_eq => rfl
  case size_in_limits =>
    have inside := c.repaired_size_in_limits
    exact ⟨min_le_size_iff.mp inside.1, size_le_max_iff.mp inside.2⟩
  case size_nearest =>
    intro n ge le
    rcases c.size_repaired_cases with ⟨low, same⟩ | ⟨high, same⟩ | ⟨inside, same⟩
    · rw [same]
      omega
    · rw [same]
      omega
    · rw [same]
      omega
  case expiry_kept =>
    intro positive
    exact if_neg fun le => Int.not_lt.mpr (expiry_le_zero_iff.mp le) positive
  case expiry_replaced =>
    intro le
    have same : c.repaired.expiry = defaultExpiry := if_pos (expiry_le_zero_iff.mpr le)
    rw [same]
    rfl

namespace RepairedTo

/-- A configuration can be repaired in one way only. -/
theorem unique (h : c.RepairedTo d) (h' : c.RepairedTo e) : d = e := by
  have sizes : d.size.toInt = e.size.toInt := by
    have d_in := h.size_in_limits
    have e_in := h'.size_in_limits
    have d_near := h.size_nearest e.size.toInt e_in.1 e_in.2
    have e_near := h'.size_nearest d.size.toInt d_in.1 d_in.2
    have d_own := h.size_nearest c.size.toInt
    omega
  have expiries : d.expiry = e.expiry := by
    by_cases positive : 0 < c.expiry.toInt
    · rw [h.expiry_kept positive, h'.expiry_kept positive]
    · have le := Int.not_lt.mp positive
      exact Int64.toInt_inj.mp ((h.expiry_replaced le).trans (h'.expiry_replaced le).symm)
  have names := h.name_eq.trans h'.name_eq.symm
  have modes := h.nonBlocking_eq.trans h'.nonBlocking_eq.symm
  cases d
  cases e
  rw [mk.injEq]
  exact ⟨names, Int32.toInt_inj.mp sizes, expiries, modes⟩

/-- What came of a repair needs none. -/
theorem again (h : c.RepairedTo d) : d.RepairedTo d where
  name_eq := rfl
  nonBlocking_eq := rfl
  size_in_limits := h.size_in_limits
  size_nearest := fun n _ _ => by omega
  expiry_kept := fun _ => rfl
  expiry_replaced := fun le => by
    by_cases positive : 0 < c.expiry.toInt
    · rw [h.expiry_kept positive] at le
      omega
    · exact h.expiry_replaced (Int.not_lt.mp positive)

end RepairedTo

theorem repaired_repaired (c : PoolConfig) : c.repaired.repaired = c.repaired :=
  c.repaired.repairedTo_repaired.unique c.repairedTo_repaired.again

/-! ## Warnings -/

/-- The repairs are reported by one warning for each setting that changes. -/
theorem repairs_outputs (c : PoolConfig) :
    c.repairs.map (Repair.output c.name) = c.dueWarnings c.repaired := by
  have of_size : (if c.size < minPoolSize then [Repair.sizeRaised c.size]
      else if maxPoolSize < c.size then [.sizeLowered c.size] else []).map (Repair.output c.name) =
        (c.sizeWarning? c.repaired).toList := by
    simp only [size_lt_min_iff, max_lt_size_iff]
    rcases c.size_repaired_cases with ⟨low, same⟩ | ⟨high, same⟩ | ⟨inside, same⟩
    · have raised : c.size < minPoolSize := size_lt_min_iff.mpr low
      have changed : minPoolSize ≠ c.size := (Int32.ne_of_lt raised).symm
      rw [if_pos low, sizeWarning?, same, if_neg changed, if_pos raised]
      rfl
    · have lowered : maxPoolSize < c.size := max_lt_size_iff.mpr high
      have changed : maxPoolSize ≠ c.size := Int32.ne_of_lt lowered
      rw [if_neg (by omega), if_pos high, sizeWarning?, same, if_neg changed,
        if_neg (Int32.lt_asymm lowered)]
      rfl
    · rw [if_neg (by omega), if_neg (by omega), sizeWarning?, if_pos same]
      rfl
  have of_expiry : (if c.expiry ≤ 0 then [Repair.expiryReplaced] else []).map
      (Repair.output c.name) = (c.expiryWarning? c.repaired).toList := by
    by_cases le : c.expiry ≤ 0
    · have same : c.repaired.expiry = defaultExpiry := if_pos le
      have changed : defaultExpiry ≠ c.expiry := by
        intro unchanged
        rw [← unchanged] at le
        exact absurd le (by decide)
      rw [if_pos le, expiryWarning?, same, if_neg changed]
      rfl
    · have same : c.repaired.expiry = c.expiry := if_neg le
      rw [if_neg le, expiryWarning?, if_pos same]
      rfl
  rw [repairs, List.map_append, of_size, of_expiry, dueWarnings]

theorem dueWarnings_self (c : PoolConfig) : c.dueWarnings c = [] := by
  rw [dueWarnings, sizeWarning?, expiryWarning?, if_pos rfl, if_pos rfl]
  rfl

/-! ## The check -/

theorem checked_of_unnamed (unnamed : c.name = "") : c.checked = (some .emptyName, c, []) := by
  rw [checked, validate, if_pos unnamed]

theorem checked_of_named (named : c.name ≠ "") :
    c.checked = (none, c.repaired, c.dueWarnings c.repaired) := by
  rw [checked, validate, if_neg named, ← repairs_outputs]

theorem checked_repaired (named : c.name ≠ "") :
    c.repaired.checked = (none, c.repaired, []) := by
  have still_named : c.repaired.name ≠ "" := named
  rw [checked_of_named still_named, repaired_repaired, dueWarnings_self]

end PoolConfig

/-! ## The pool -/

namespace GuardedPool

variable {τ : Type}

/-- The guarded pool has the settings of the configuration, and so has the pool inside, which was
made from them without an objection. -/
structure HasSettings (g : GuardedPool τ) (d : PoolConfig) : Prop where
  config_eq : g.config = d
  made : Pool.create d.name d.capacity d.expiry d.nonBlocking = .ok g.pool
  name_eq : g.pool.name = d.name
  capacity_eq : (g.pool.capacity : Int) = d.size.toInt
  expiry_eq : g.pool.expiry = d.expiry
  nonBlocking_eq : g.pool.nonBlocking = d.nonBlocking

variable {c : PoolConfig} {watched : Bool} {g : GuardedPool τ}

/-- A guarded pool can be created for every configuration that has a name. -/
theorem create_of_named (named : c.name ≠ "") (watched : Bool) :
    ∃ g : GuardedPool τ, create c watched = .ok g := by
  obtain ⟨pool, made⟩ : ∃ pool : Pool τ, Pool.create c.repaired.name c.repaired.capacity
      c.repaired.expiry c.repaired.nonBlocking = .ok pool := by
    rw [Pool.create, if_neg (Nat.ne_of_gt c.repaired_capacity_pos), if_neg c.repaired_expiry_pos]
    exact ⟨_, rfl⟩
  rw [create, PoolConfig.validate, if_neg named]
  simp only [bind, Except.bind, made]
  exact ⟨_, rfl⟩

theorem create_of_unnamed (unnamed : c.name = "") (watched : Bool) :
    (create c watched : Except Fault (GuardedPool τ)) = .error .emptyName := by
  rw [create, PoolConfig.validate, if_pos unnamed]
  rfl

theorem hasSettings_of_create (created : create c watched = .ok g) : g.HasSettings c.repaired := by
  obtain ⟨-, pool, made, rfl⟩ := eq_of_create created
  obtain ⟨-, -, rfl⟩ := Pool.eq_of_create made
  exact ⟨rfl, made, rfl, PoolConfig.capacity_eq c.repaired_size_in_limits.1, rfl, rfl⟩

theorem outputs_of_create (created : create c watched = .ok g) (handler : Option PanicHandler) :
    g.outputs handler = c.dueWarnings c.repaired := by
  obtain ⟨-, pool, -, rfl⟩ := eq_of_create created
  have own : (c.repairs.map GuardReport.repaired).flatMap
      (GuardReport.outputs c.repaired.name handler) = c.repairs.map (Repair.output c.name) := by
    rw [List.flatMap_map, List.map_eq_flatMap]
    rfl
  exact own.trans c.repairs_outputs

/-- **The repair leaves nothing to object to.**  A configuration without a name is refused as it is,
and nothing is logged.  Every other one is repaired, with one warning for each setting that changes,
the repaired one passes the check unchanged and in silence, its size becomes the capacity without
wrapping around, and a guarded pool is made whose pool has the repaired settings. -/
theorem creation_infallible (c : PoolConfig) (watched : Bool) :
    (c.checked.1 = none ↔ c.name ≠ "") ∧
    ((∃ g : GuardedPool τ, create c watched = .ok g) ↔ c.name ≠ "") ∧
    (c.name = "" → c.checked = (some .emptyName, c, []) ∧
      create c watched = (.error .emptyName : Except Fault (GuardedPool τ))) ∧
    (c.name ≠ "" → ∃ d, c.RepairedTo d ∧ c.checked = (none, d, c.dueWarnings d) ∧
      d.checked = (none, d, []) ∧ (d.capacity : Int) = d.size.toInt ∧
      ∃ g : GuardedPool τ, create c watched = .ok g ∧ g.HasSettings d ∧
        ∀ handler, g.outputs handler = c.dueWarnings d) := by
  refine ⟨⟨fun accepted unnamed => ?_, fun named => ?_⟩, ⟨?_, fun named => ?_⟩, fun unnamed => ?_,
    fun named => ?_⟩
  · rw [PoolConfig.checked_of_unnamed unnamed] at accepted
    cases accepted
  · rw [PoolConfig.checked_of_named named]
  · rintro ⟨g, created⟩
    exact (eq_of_create created).1
  · exact create_of_named named watched
  · exact ⟨PoolConfig.checked_of_unnamed unnamed, create_of_unnamed unnamed watched⟩
  · obtain ⟨g, created⟩ := create_of_named (τ := τ) named watched
    exact ⟨c.repaired, c.repairedTo_repaired, PoolConfig.checked_of_named named,
      PoolConfig.checked_repaired named, PoolConfig.capacity_eq c.repaired_size_in_limits.1,
      g, created, hasSettings_of_create created, outputs_of_create created⟩

/-- A configuration with the least size and the least expiry there are. -/
def extremes : PoolConfig where
  name := "io"
  size := -2147483648
  expiry := -9223372036854775808
  nonBlocking := false

/-- Both settings are repaired, and the pool has one worker at most. -/
theorem extremes_created : ∃ g : GuardedPool Nat, create extremes true = .ok g ∧
    g.config = { name := "io", size := 1, expiry := 10000, nonBlocking := false } ∧
    g.pool.capacity = 1 ∧ g.outputs none =
      [.record .warning "Pool 'io' size -2147483648 below minimum, using 1",
       .record .warning "Pool 'io' has non-positive expiry, using default 10000ms"] := by
  obtain ⟨d, repaired, -, -, -, g, created, settings, told⟩ :=
    (creation_infallible (τ := Nat) extremes true).2.2.2 (by decide)
  have d_eq : d = { name := "io", size := 1, expiry := 10000, nonBlocking := false } :=
    repaired.unique extremes.repairedTo_repaired
  refine ⟨g, created, settings.config_eq.trans d_eq, ?_, ?_⟩
  · have capacity_eq := settings.capacity_eq
    rw [d_eq] at capacity_eq
    exact Int.ofNat_inj.mp capacity_eq
  · rw [told none, d_eq]
    cbv

end GuardedPool

end TaskPools
