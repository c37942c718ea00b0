/-
# Pools that are made, and cleared away again

While a list of pools is being built, its batch names exactly the new pools, and these are as they
were built (`Batch.Made`).  When the batch is given up instead, a retirement sees to it that each of
them is released once (`Retirement.Clears`), until nothing is left to see to
(`Retirement.Clears.released`).
-/
import Mathlib.Data.List.Range
import TaskPools.Proofs.Fleet.Growth
import TaskPools.Proofs.Fleet.Retirement

namespace TaskPools

variable {τ : Type}

/-- The batch names the pools from number `n` on, which were just built for these configurations. -/
structure Batch.Made (batch : Batch) (n : Nat) (ready : List PoolConfig) (f : Fleet τ) : Prop where
  batch_eq : batch = (ready.map PoolConfig.name).zipIdx n
  created : ∀ (j : Nat) (config : PoolConfig), ready[j]? = some config →
    ∃ g, GuardedPool.create config f.options.watched = .ok g ∧ f.pools[n + j]? = some g

/-- The retirement sees to it that each pool from number `n` on is released once. -/
structure Retirement.Clears (r : Retirement) (n : Nat) (f : Fleet τ) : Prop where
  built : ∀ i ∈ r.todo, n ≤ i ∧ i < f.pools.length
  once : ∀ (i : Nat) (g : GuardedPool τ), n ≤ i → f.pools[i]? = some g →
    r.todo.count i + g.releases.length = 1
  begun : ∀ i t, (i, t) ∈ r.underWay → n ≤ i ∧
    ∃ g place, f.pools[i]? = some g ∧ g.releases[t]? = some place
  attended : ∀ (i t : Nat) (g : GuardedPool τ) (place : TimedRelease), n ≤ i →
    f.pools[i]? = some g → g.releases[t]? = some place → place.hasReturned = false →
      (i, t) ∈ r.underWay

/-! ## Pools that are made -/

section

variable {batch : Batch} {n i : Nat} {ready : List PoolConfig} {config : PoolConfig}
  {f f' : Fleet τ} {g g' : GuardedPool τ}

theorem Batch.made_nil (f : Fleet τ) : Batch.Made [] f.pools.length [] f := ⟨rfl, nofun⟩

theorem Batch.Made.pools_eq (h : batch.Made n ready f) :
    batch.pools = List.range' n ready.length := by
  rw [h.batch_eq, Batch.pools, List.zipIdx_map_snd, List.length_map]

theorem Batch.Made.build (h : batch.Made n ready f) (length_eq : f.pools.length = n + ready.length)
    (created : GuardedPool.create config f.options.watched = .ok g) :
    Batch.Made (batch ++ [(config.name, f.pools.length)]) n (ready ++ [config])
      { f with pools := f.pools ++ [g] } where
  batch_eq := by
    rw [h.batch_eq, List.map_append, List.zipIdx_append, List.length_map, length_eq]
    rfl
  created j other at_j := by
    rw [getElem?_append_one] at at_j
    rw [getElem?_append_one]
    split at at_j
    · rename_i last
      cases at_j
      rw [if_pos (by rw [last, length_eq])]
      exact ⟨g, created, rfl⟩
    · obtain ⟨g', created', at_place⟩ := h.created j other at_j
      have in_range := (List.getElem?_eq_some_iff.mp at_place).1
      rw [if_neg (Nat.ne_of_lt in_range)]
      exact ⟨g', created', at_place⟩

/-- A pool that was made is new. -/
theorem Batch.Made.exists_of_new (h : batch.Made n ready f)
    (length_eq : f.pools.length = n + ready.length) (new : n ≤ i) (at_i : f.pools[i]? = some g) :
    ∃ config, GuardedPool.create config f.options.watched = .ok g := by
  have in_range := (List.getElem?_eq_some_iff.mp at_i).1
  have place : n + (i - n) = i := Nat.add_sub_cancel' new
  obtain ⟨g', created, at_place⟩ := h.created (i - n) ready[i - n]
    (List.getElem?_eq_getElem (by omega))
  rw [place] at at_place
  cases at_i.symm.trans at_place
  exact ⟨_, created⟩

/-- As long as only older pools move, nothing becomes of those that were made. -/
theorem Batch.Made.move (h : batch.Made n ready f) (length_eq : f.pools.length = n + ready.length)
    (at_i : f.pools[i]? = some g) {m : GuardedPool.Move} (moves : g.step (.move m) = some g') :
    i < n ∧ batch.Made n ready { f with pools := f.pools.set i g' } := by
  have old : i < n := by
    by_contra new
    obtain ⟨config, created⟩ := h.exists_of_new length_eq (Nat.not_lt.mp new) at_i
    rw [GuardedPool.step_move_of_create created m] at moves
    cases moves
  refine ⟨old, h.batch_eq, fun j config at_j => ?_⟩
  obtain ⟨g₁, created, at_place⟩ := h.created j config at_j
  refine ⟨g₁, created, ?_⟩
  rw [List.getElem?_set_ne]
  · exact at_place
  · omega

/-- When a batch is given up, all its pools are still to be released. -/
theorem Batch.Made.clears (h : batch.Made n ready f)
    (length_eq : f.pools.length = n + ready.length) : (Retirement.ofBatch batch).Clears n f where
  built i hi := by
    have among : i ∈ batch.pools := hi
    rw [h.pools_eq, List.mem_range'_1] at among
    omega
  once i g new at_i := by
    obtain ⟨config, created⟩ := h.exists_of_new length_eq new at_i
    have in_range := (List.getElem?_eq_some_iff.mp at_i).1
    rw [(GuardedPool.isNew_of_create created).no_call.2.1]
    show batch.pools.count i + 0 = 1
    rw [h.pools_eq]
    exact List.count_eq_one_of_mem (List.nodup_range' ) (List.mem_range'_1.mpr ⟨new, by omega⟩)
  begun := nofun
  attended i t g place new at_i at_t := by
    obtain ⟨config, created⟩ := h.exists_of_new length_eq new at_i
    rw [(GuardedPool.isNew_of_create created).no_call.2.1] at at_t
    cases at_t

end

/-! ## Pools that are cleared away -/

section

variable {r r' : Retirement} {n i : Nat} {f f' : Fleet τ} {g g' : GuardedPool τ}

/-- A move of a pool asks for no release, and no release that has returned becomes open again. -/
theorem Retirement.Clears.move (h : r.Clears n f) (at_i : f.pools[i]? = some g)
    {m : GuardedPool.Move} (moves : g.step (.move m) = some g') :
    r.Clears n { f with pools := f.pools.set i g' } := by
  have hc := GuardedPool.change_of_step moves
  refine ⟨fun j hj => ?_, fun j g₁ new at_j => ?_, fun j t sees => ?_,
    fun j t g₁ place new at_j at_t is_open => ?_⟩
  · rw [List.length_set]
    exact h.built j hj
  · rw [getElem?_set_at at_i] at at_j
    split at at_j
    · rename_i here
      cases at_j
      rw [hc.length_releases]
      exact h.once j g new (here ▸ at_i)
    · exact h.once j g₁ new at_j
  · obtain ⟨new, g₁, place, at_j, at_t⟩ := h.begun j t sees
    refine ⟨new, ?_⟩
    rw [getElem?_set_at at_i]
    split
    · rename_i here
      cases (here ▸ at_i : f.pools[j]? = some g).symm.trans at_j
      have in_range := (List.getElem?_eq_some_iff.mp at_t).1
      rw [← hc.length_releases] at in_range
      exact ⟨g', _, rfl, List.getElem?_eq_getElem in_range⟩
    · exact ⟨g₁, place, at_j, at_t⟩
  · rw [getElem?_set_at at_i] at at_j
    split at at_j
    · rename_i here
      cases at_j
      obtain ⟨old, at_t', was_open⟩ := hc.open_before nofun at_t is_open
      exact h.attended j t g old new (here ▸ at_i) at_t' was_open
    · exact h.attended j t g₁ place new at_j at_t is_open

theorem Retirement.Clears.launch (h : r.Clears n f) {start : Bool}
    (launches : r.Launch f i none start f' r') : r'.Clears n f' := by
  obtain ⟨g, own, notices, hperm, at_i, rfl, started⟩ := launches.eq
  have here : n ≤ i ∧ i < f.pools.length := h.built i (hperm.mem_iff.mpr List.mem_cons_self)
  refine ⟨fun j hj => ?_, fun j g₁ new at_j => ?_, fun j t sees => ?_,
    fun j t g₁ place new at_j at_t is_open => ?_⟩
  · rw [List.length_set]
    exact h.built j (hperm.mem_iff.mpr (List.mem_cons_of_mem i hj))
  · rw [getElem?_set_at at_i] at at_j
    split at at_j
    · rename_i same
      have before := h.once i g here.1 at_i
      rw [hperm.count_eq, List.count_cons_self] at before
      cases at_j
      rw [same, List.length_append, List.length_singleton]
      omega
    · rename_i other
      have before := h.once j g₁ new at_j
      rwa [hperm.count_eq, List.count_cons_of_ne (Ne.symm other)] at before
  · rw [getElem?_set_at at_i]
    rw [started, List.mem_append, List.mem_singleton] at sees
    rcases sees with sees | last
    · obtain ⟨new, g₁, place, at_j, at_t⟩ := h.begun j t sees
      refine ⟨new, ?_⟩
      split
      · rename_i same
        subst same
        cases at_i.symm.trans at_j
        refine ⟨_, place, rfl, ?_⟩
        rw [List.getElem?_append_left (List.getElem?_eq_some_iff.mp at_t).1]
        exact at_t
      · exact ⟨g₁, place, at_j, at_t⟩
    · cases last
      rw [if_pos rfl]
      exact ⟨here.1, _, _, rfl, List.getElem?_concat_length⟩
  · rw [started, List.mem_append, List.mem_singleton]
    rw [getElem?_set_at at_i] at at_j
    split at at_j
    · rename_i same
      subst same
      cases at_j
      rw [getElem?_append_one] at at_t
      split at at_t
      · rename_i last
        exact Or.inr (congrArg _ last)
      · exact Or.inl (h.attended j t g place new at_i at_t is_open)
    · exact Or.inl (h.attended j t g₁ place new at_j at_t is_open)

theorem Retirement.Clears.collect (h : r.Clears n f) {k : Option Nat}
    (collects : r.collect f k = some (f', r')) : r'.Clears n f' := by
  obtain ⟨todo_eq, ⟨notices, rfl⟩, i, t, g, fault, hperm, at_i, returned⟩ :=
    Retirement.eq_of_collect collects
  refine ⟨fun j hj => h.built j (todo_eq ▸ hj), fun j g₁ new at_j => ?_, fun j s sees => ?_,
    fun j s g₁ place new at_j at_s is_open => ?_⟩
  · rw [todo_eq]
    exact h.once j g₁ new at_j
  · exact h.begun j s (hperm.mem_iff.mpr (List.mem_cons_of_mem _ sees))
  · have sees := h.attended j s g₁ place new at_j at_s is_open
    rcases List.mem_cons.mp (hperm.mem_iff.mp sees) with same | later
    · cases same
      cases at_i.symm.trans at_j
      cases returned.symm.trans at_s
      cases is_open
    · exact later

theorem Retirement.Clears.finish (h : r.Clears n f) (is_over : r.isOver = true) :
    ({ todo := [] } : Retirement).Clears n f := by
  obtain ⟨nothing, nobody⟩ := Retirement.isOver_iff.mp is_over
  refine ⟨nofun, fun i g new at_i => ?_, nofun, fun i t g place new at_i at_t is_open => ?_⟩
  · rw [← nothing]
    exact h.once i g new at_i
  · have sees := h.attended i t g place new at_i at_t is_open
    rw [nobody] at sees
    cases sees

/-- Once nothing is left to see to, each pool was released once, and its release has returned. -/
theorem Retirement.Clears.released (h : ({ todo := [] } : Retirement).Clears n f) (new : n ≤ i)
    (at_i : f.pools[i]? = some g) : ∃ outcome, g.releases = [.returned outcome] := by
  have one := h.once i g new at_i
  rw [List.count_nil, Nat.zero_add] at one
  obtain ⟨place, only⟩ := List.length_eq_one_iff.mp one
  have at_first : g.releases[0]? = some place := by
    rw [only]
    rfl
  cases place with
  | returned outcome => exact ⟨outcome, only⟩
  | begun | waiting | inline => cases h.attended i 0 g _ new at_i at_first rfl

end

end TaskPools
