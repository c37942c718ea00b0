/-
# What an assembly makes of a list

Pools can be built for a list of configurations if and only if all names are given and no two are
the same (`Usable`); else some configuration is the first that offends against this
(`FirstOffence`).  An assembly keeps to the list whatever the fleet is (`Assembly.Tells`): as long
as it builds, what it got through is usable, and the fault for which it gives up is that of the
first offence.
-/
import Mathlib.Data.List.Induction
import Mathlib.Data.List.Nodup
import Mathlib.Data.List.Perm.Basic
import TaskPools.Fleet.Assembly
import TaskPools.Proofs.GuardedPool.Creation

namespace TaskPools

variable {τ : Type}

namespace PoolConfig

/-- All names are given, and no two are the same. -/
def Usable (configs : List PoolConfig) : Prop :=
  (∀ config ∈ configs, config.name ≠ "") ∧ (configs.map name).Nodup

instance (configs : List PoolConfig) : Decidable (Usable configs) :=
  inferInstanceAs (Decidable (_ ∧ _))

/-- After the configurations `before`, this one cannot be used, and the fault says why. -/
inductive Offends (before : List PoolConfig) (config : PoolConfig) : Fault → Prop where
  | unnamed (empty : config.name = "") : Offends before config .emptyName
  | repeated (again : config.name ∈ before.map name) :
      Offends before config (.duplicateName config.name)

/-- The configuration at place `k` is the first of the list that cannot be used. -/
structure FirstOffence (configs : List PoolConfig) (k : Nat) (fault : Fault) : Prop where
  offends : ∃ config, configs[k]? = some config ∧ Offends (configs.take k) config fault
  first : ∀ j < k, ∀ config fault, configs[j]? = some config →
    ¬ Offends (configs.take j) config fault

section

variable {ready rest configs configs' : List PoolConfig} {config : PoolConfig}
  {fault fault' : Fault} {k k' : Nat}

/-! ## Lists that can be used -/

theorem usable_nil : Usable [] := ⟨nofun, List.nodup_nil⟩

/-- A list is usable if it is up to its last configuration, and that does not offend. -/
theorem usable_append_one :
    Usable (ready ++ [config]) ↔ Usable ready ∧ ∀ fault, ¬ Offends ready config fault := by
  have harmless : (∀ fault, ¬ Offends ready config fault) ↔
      config.name ≠ "" ∧ config.name ∉ ready.map name := by
    constructor
    · intro never
      exact ⟨fun empty => never _ (.unnamed empty), fun again => never _ (.repeated again)⟩
    · rintro ⟨named, new⟩ fault (empty | again)
      · exact named empty
      · exact new again
  rw [harmless, Usable, Usable, List.map_append, List.map_singleton, List.nodup_append,
    List.forall_mem_append, List.forall_mem_singleton]
  constructor
  · rintro ⟨⟨named, here⟩, distinct, -, other⟩
    exact ⟨⟨named, distinct⟩, here, fun again => other _ again _ (List.mem_singleton_self _) rfl⟩
  · rintro ⟨⟨named, distinct⟩, here, new⟩
    refine ⟨⟨named, here⟩, distinct, List.nodup_singleton _, fun a among b last => ?_⟩
    rw [List.mem_singleton.mp last]
    rintro rfl
    exact new among

/-- A list is usable if and only if no configuration offends after those before it. -/
theorem usable_iff : Usable configs ↔
    ∀ j config fault, configs[j]? = some config → ¬ Offends (configs.take j) config fault := by
  induction configs using List.reverseRecOn with
  | nil => exact ⟨fun _ j config fault => nofun, fun _ => usable_nil⟩
  | append_singleton ready last ih =>
    rw [usable_append_one, ih]
    -- up to the last configuration the places and what is before them are those of `ready`
    have before {j : Nat} (hj : j < ready.length) :
        (ready ++ [last])[j]? = ready[j]? ∧ (ready ++ [last]).take j = ready.take j :=
      ⟨List.getElem?_append_left hj, List.take_append_of_le_length (Nat.le_of_lt hj)⟩
    constructor
    · rintro ⟨earlier, final⟩ j config fault at_j
      rw [getElem?_append_one] at at_j
      split at at_j
      · rename_i hj
        cases at_j
        rw [hj, List.take_left']
        · exact final fault
        · rfl
      · rw [(before (List.getElem?_eq_some_iff.mp at_j).1).2]
        exact earlier j config fault at_j
    · refine fun never => ⟨fun j config fault at_j => ?_, fun fault offends => ?_⟩
      · obtain ⟨same, taken⟩ := before (List.getElem?_eq_some_iff.mp at_j).1
        rw [← taken]
        exact never j config fault (same.trans at_j)
      · refine never ready.length last fault List.getElem?_concat_length ?_
        rw [List.take_left']
        · exact offends
        · rfl

/-- Usable is what has the same names, in whatever order. -/
theorem Usable.perm (h : Usable configs) (same : configs.Perm configs') : Usable configs' :=
  ⟨fun config among => h.1 config (same.mem_iff.mpr among),
    (same.map name).nodup_iff.mp h.2⟩

/-! ## The first offence -/

theorem FirstOffence.not_usable (h : FirstOffence configs k fault) : ¬ Usable configs := by
  obtain ⟨config, at_k, offends⟩ := h.offends
  exact fun usable => usable_iff.mp usable k config fault at_k offends

/-- After a usable beginning the next configuration may be the first that offends. -/
theorem firstOffence_of_usable (usable : Usable ready) (offends : Offends ready config fault) :
    FirstOffence (ready ++ config :: rest) ready.length fault := by
  refine ⟨⟨config, ?_, ?_⟩, fun j earlier config' fault' at_j => ?_⟩
  · rw [List.getElem?_append_right (Nat.le_refl _), Nat.sub_self]
    rfl
  · rw [List.take_left']
    · exact offends
    · rfl
  · rw [List.getElem?_append_left earlier] at at_j
    rw [List.take_append_of_le_length (Nat.le_of_lt earlier)]
    exact usable_iff.mp usable j config' fault' at_j

/-- What comes before the first offence is usable. -/
theorem FirstOffence.usable (h : FirstOffence configs k fault) : Usable (configs.take k) := by
  refine usable_iff.mpr fun j config fault' at_j => ?_
  have earlier : j < k := by
    have in_range := (List.getElem?_eq_some_iff.mp at_j).1
    exact Nat.lt_of_lt_of_le in_range (List.length_take_le _ _)
  rw [List.getElem?_take_of_lt earlier] at at_j
  rw [List.take_take, Nat.min_eq_left (Nat.le_of_lt earlier)]
  exact h.first j earlier config fault' at_j

/-- A list has one first offence: a configuration that has no name cannot have that of another, as
that would have offended before. -/
theorem FirstOffence.unique (h : FirstOffence configs k fault)
    (h' : FirstOffence configs k' fault') : k = k' ∧ fault = fault' := by
  obtain ⟨config, at_k, offends⟩ := h.offends
  obtain ⟨config', at_k', offends'⟩ := h'.offends
  obtain rfl : k = k' := by
    rcases Nat.lt_trichotomy k k' with earlier | same | later
    · exact absurd offends (h'.first k earlier config fault at_k)
    · exact same
    · exact absurd offends' (h.first k' later config' fault' at_k')
  obtain rfl := Option.some.inj (at_k.symm.trans at_k')
  have named_before : "" ∉ (configs.take k).map name := by
    intro empty
    obtain ⟨earlier, among, unnamed⟩ := List.mem_map.mp empty
    exact h.usable.1 earlier among unnamed
  refine ⟨rfl, ?_⟩
  cases offends with
  | unnamed empty =>
    cases offends' with
    | unnamed => rfl
    | repeated again => exact absurd (empty ▸ again) named_before
  | repeated again =>
    cases offends' with
    | unnamed empty => exact absurd (empty ▸ again) named_before
    | repeated => rfl

theorem FirstOffence.code_eq (h : FirstOffence configs k fault) :
    fault.code = Code.invalidConfig := by
  obtain ⟨config, -, offends⟩ := h.offends
  cases offends <;> rfl

/-- How an offence is reported. -/
theorem Offends.status_eq (h : Offends ready config fault) :
    (config.name = "" ∧
      fault.status = .coded Code.invalidConfig "invalid config: pool name is empty") ∨
    (config.name ∈ ready.map name ∧ fault.status = .coded Code.invalidConfig
      ("invalid config: " ++ ("duplicate pool name: " ++ config.name))) := by
  cases h with
  | unnamed empty => exact Or.inl ⟨empty, rfl⟩
  | repeated again => exact Or.inr ⟨again, rfl⟩

end

end PoolConfig

/-! ## Building one pool -/

section

variable {f f' : Fleet τ} {batch batch' : Batch} {ready : List PoolConfig} {config : PoolConfig}
  {fault : Fault}

theorem lookup_eq_none_of_unused {name : String} (unused : name ∉ batch.map Prod.fst) :
    batch.lookup name = none := by
  cases found : batch.lookup name with
  | none => rfl
  | some i =>
    obtain ⟨l, r, rfl, -⟩ := List.lookup_eq_some_iff.mp found
    exact absurd (List.mem_map_of_mem (List.mem_append_right l List.mem_cons_self)) unused

/-- A batch that has no name twice finds every pool under its name. -/
theorem lookup_eq_of_mem (distinct : (batch.map Prod.fst).Nodup) {entry : String × Nat}
    (among : entry ∈ batch) : batch.lookup entry.1 = some entry.2 := by
  obtain ⟨l, r, rfl⟩ := List.append_of_mem among
  refine List.lookup_eq_some_iff.mpr ⟨l, r, rfl, fun other before => ?_⟩
  rw [List.map_append, List.map_cons] at distinct
  have apart := (List.nodup_append.mp distinct).2.2 other.1 (List.mem_map_of_mem before)
    entry.1 List.mem_cons_self
  exact bne_iff_ne.mpr apart.symm

theorem Fleet.build_of_unused (f : Fleet τ) {g : GuardedPool τ}
    (unused : config.name ∉ batch.map Prod.fst)
    (created : GuardedPool.create config f.options.watched = .ok g) :
    f.build batch config = .ok ({ f with pools := f.pools ++ [g] },
      batch ++ [(config.name, f.pools.length)]) := by
  rw [Fleet.build, lookup_eq_none_of_unused unused]
  simp only [created, bind, Except.bind]
  rfl

/-- A pool is built for a configuration that does not offend. -/
theorem Fleet.build_of_usable (f : Fleet τ) (names : batch.map Prod.fst = ready.map PoolConfig.name)
    (harmless : ∀ fault, ¬ PoolConfig.Offends ready config fault) :
    ∃ g, GuardedPool.create config f.options.watched = .ok g ∧
      f.build batch config = .ok ({ f with pools := f.pools ++ [g] },
        batch ++ [(config.name, f.pools.length)]) := by
  have named : config.name ≠ "" := fun empty => harmless _ (.unnamed empty)
  have unused : config.name ∉ batch.map Prod.fst := by
    rw [names]
    exact fun used => harmless _ (.repeated used)
  obtain ⟨g, created⟩ := @GuardedPool.create_of_named τ _ named f.options.watched
  exact ⟨g, created, f.build_of_unused unused created⟩

/-- The first configuration that offends stops the construction, for the reason of its offence. -/
theorem Fleet.build_of_offends (f : Fleet τ)
    (names : batch.map Prod.fst = ready.map PoolConfig.name) (usable : PoolConfig.Usable ready)
    (offends : PoolConfig.Offends ready config fault) : f.build batch config = .error fault := by
  cases offends with
  | unnamed empty =>
    have absent : batch.lookup config.name = none := by
      refine lookup_eq_none_of_unused ?_
      rw [names, empty]
      intro again
      obtain ⟨earlier, among, unnamed⟩ := List.mem_map.mp again
      exact usable.1 earlier among unnamed
    rw [Fleet.build, absent]
    simp only [GuardedPool.create_of_unnamed empty, bind, Except.bind]
    rfl
  | repeated again =>
    rw [← names] at again
    obtain ⟨entry, among, same⟩ := List.mem_map.mp again
    have present : (batch.lookup config.name).isSome = true :=
      List.lookup_isSome_iff.mpr ⟨entry, among, by simp [same]⟩
    rw [Fleet.build, if_pos present]

/-! ## The way of an assembly -/

/-- What an assembly for a list has come to, after it got through the configurations `ready`. -/
inductive Assembly.Tells (configs ready : List PoolConfig) : Assembly → Prop where
  | building (todo : List PoolConfig) (batch : Batch) (split : configs = ready ++ todo)
      (usable : PoolConfig.Usable ready)
      (names : batch.map Prod.fst = ready.map PoolConfig.name) :
      Tells configs ready (.building todo batch)
  | discarding (fault : Fault) (r : Retirement)
      (first : PoolConfig.FirstOffence configs ready.length fault) :
      Tells configs ready (.discarding fault r)
  | built (batch : Batch) (complete : configs = ready) (usable : PoolConfig.Usable ready)
      (names : batch.map Prod.fst = ready.map PoolConfig.name) :
      Tells configs ready (.done (.ok batch))
  | failed (fault : Fault) (first : PoolConfig.FirstOffence configs ready.length fault) :
      Tells configs ready (.done (.error fault))

/-- What an assembly does in a step, which may take it through one more configuration. -/
inductive Assembly.Change (f : Fleet τ) (ready : List PoolConfig) :
    Assembly → Fleet τ → List PoolConfig → Assembly → Prop where
  | build (config : PoolConfig) (rest : List PoolConfig) (batch : Batch) (g : GuardedPool τ)
      (created : GuardedPool.create config f.options.watched = .ok g) :
      Change f ready (.building (config :: rest) batch) { f with pools := f.pools ++ [g] }
        (ready ++ [config]) (.building rest (batch ++ [(config.name, f.pools.length)]))
  | allBuilt (batch : Batch) :
      Change f ready (.building [] batch) f ready (.done (.ok batch))
  | discard (config : PoolConfig) (rest : List PoolConfig) (batch : Batch) (fault : Fault) :
      Change f ready (.building (config :: rest) batch) f ready
        (.discarding fault (.ofBatch batch))
  | discarded (fault : Fault) (r : Retirement) (is_over : r.isOver = true) :
      Change f ready (.discarding fault r) f ready (.done (.error fault))

/-- An assembly builds a pool for each configuration that it gets through. -/
theorem Assembly.Change.length_eq {ready' : List PoolConfig} {a a' : Assembly}
    (h : Assembly.Change f ready a f' ready' a') :
    ready'.length + f.pools.length = ready.length + f'.pools.length := by
  cases h with
  | build config rest batch g created =>
    rw [List.length_append, List.length_append, List.length_singleton, List.length_singleton]
    omega
  | allBuilt | discard | discarded => rfl

theorem Assembly.tells_ofConfigs (configs : List PoolConfig) :
    (Assembly.ofConfigs configs).Tells configs [] :=
  .building configs [] rfl PoolConfig.usable_nil rfl

/-- An assembly that builds gets through the next configuration or fails for the reason of the first
offence, whatever the fleet is. -/
theorem Assembly.Tells.advance {configs ready : List PoolConfig} {a a' : Assembly}
    (h : a.Tells configs ready) (advances : a.advance f = some (f', a')) :
    ∃ ready', Assembly.Change f ready a f' ready' a' ∧ a'.Tells configs ready' := by
  cases h with
  | building todo batch split usable names =>
    cases todo with
    | nil =>
      cases advances
      exact ⟨ready, .allBuilt batch, .built batch (split.trans (List.append_nil _)) usable names⟩
    | cons config rest =>
      rw [Assembly.advance] at advances
      by_cases harmless : ∀ fault, ¬ PoolConfig.Offends ready config fault
      · obtain ⟨g, created, built⟩ := f.build_of_usable names harmless
        rw [built] at advances
        cases advances
        refine ⟨ready ++ [config], .build config rest batch g created, .building rest _ ?_ ?_ ?_⟩
        · rw [split, List.append_assoc]
          rfl
        · exact PoolConfig.usable_append_one.mpr ⟨usable, harmless⟩
        · rw [List.map_append, List.map_append, names]
          rfl
      · simp only [not_forall, not_not] at harmless
        obtain ⟨fault, offends⟩ := harmless
        rw [f.build_of_offends names usable offends] at advances
        cases advances
        subst split
        exact ⟨ready, .discard config rest batch fault,
          .discarding fault _ (PoolConfig.firstOffence_of_usable usable offends)⟩
  | discarding fault r first =>
    rw [Assembly.advance] at advances
    split at advances
    · rename_i is_over
      cases advances
      exact ⟨ready, .discarded fault r is_over, .failed fault first⟩
    · cases advances
  | built | failed => cases advances

end

end TaskPools
