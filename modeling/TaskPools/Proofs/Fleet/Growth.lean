/-
# Fleets that get new pools

A pool that was just built is as its configuration says, and nobody has asked anything of it
(`GuardedPool.IsNew`).  A fleet grows (`Fleet.Grows`) when pools are built and released again and
those that were there before only move.
-/
import TaskPools.Fleet.State
import TaskPools.Proofs.GuardedPool.Vacant
import TaskPools.Proofs.Pool.Figures

namespace TaskPools

variable {τ : Type}

/-! ## New pools -/

namespace GuardedPool

/-- The pool was built for this configuration, and nobody has asked anything of it. -/
structure IsNew (g : GuardedPool τ) (config : PoolConfig) : Prop where
  config_eq : g.config = config.repaired
  settings_eq : g.pool.settings
    = (config.name, config.repaired.capacity, config.repaired.expiry, config.nonBlocking)
  is_open : g.pool.closed = false
  no_worker : g.pool.workers = [] ∧ g.pool.listed = [] ∧ g.pool.retired = []
  no_task : g.pool.queue = [] ∧ g.pool.inFlight = 0 ∧ g.pool.idle = 0 ∧ g.pool.waiting = 0
  no_count : g.submitted = 0 ∧ g.completed = 0 ∧ g.panicked = 0 ∧ g.rejected = 0
  no_call : g.replies = [] ∧ g.releases = [] ∧ g.pool.releases = []

/-- The pool moves. -/
def Moves (g g' : GuardedPool τ) : Prop := ∃ m, g.step (.move m) = some g'

section

variable {config : PoolConfig} {watched : Bool} {g : GuardedPool τ}

theorem isNew_of_create (h : create config watched = .ok g) : g.IsNew config := by
  obtain ⟨-, pool, hpool, rfl⟩ := eq_of_create h
  obtain ⟨-, -, rfl⟩ := Pool.eq_of_create hpool
  exact ⟨rfl, rfl, rfl, ⟨rfl, rfl, rfl⟩, ⟨rfl, rfl, rfl, rfl⟩, ⟨rfl, rfl, rfl, rfl⟩, rfl, rfl, rfl⟩

/-- A new pool does not move. -/
theorem step_move_of_create (h : create config watched = .ok g) (m : Move) :
    g.step (.move m) = none := by
  obtain ⟨-, pool, hpool, rfl⟩ := eq_of_create h
  obtain ⟨-, -, rfl⟩ := Pool.eq_of_create hpool
  cases m with
  | pool m => cases m <;> rfl
  | answer s => rfl
  | conclude w panic escape =>
    rcases panic with _ | panic
    · rfl
    · cases watched <;> rfl
  | launch t start => rfl
  | complete t => rfl
  | elapse t => rfl

theorem IsNew.stepsLeft_eq (h : g.IsNew config) : g.stepsLeft = 0 := by
  rw [stepsLeft, Pool.stepsLeft, h.no_call.2.1, h.no_call.2.2]
  rfl

end

end GuardedPool

/-! ## Fleets that grow -/

namespace Fleet

/-- Such a fleet has `k` pools more: the older ones have only moved, and nobody has submitted to the
new ones. -/
structure Grows (f₀ f : Fleet τ) (k : Nat) : Prop where
  options_eq : f.options = f₀.options
  length_eq : f.pools.length = f₀.pools.length + k
  older : ∀ (i : Nat) (g : GuardedPool τ), f₀.pools[i]? = some g →
    ∃ g', f.pools[i]? = some g' ∧ Relation.ReflTransGen GuardedPool.Moves g g'
  newer : ∀ (i : Nat) (g : GuardedPool τ), f₀.pools.length ≤ i → f.pools[i]? = some g →
    g.Reachable ∧ g.replies = []

/-- How many steps the releases of the pools from number `n` on take before all have returned. -/
def stepsLeft (f : Fleet τ) (n : Nat) : Nat :=
  ((f.pools.drop n).map GuardedPool.stepsLeft).sum

section

variable {f₀ f : Fleet τ} {k i n : Nat} {g g' : GuardedPool τ}

theorem Grows.refl (f₀ : Fleet τ) : f₀.Grows f₀ 0 where
  options_eq := rfl
  length_eq := rfl
  older i g at_i := ⟨g, at_i, .refl⟩
  newer i g new at_i := by
    have in_range := (List.getElem?_eq_some_iff.mp at_i).1
    omega

theorem Grows.build (h : f₀.Grows f k) {config : PoolConfig} {watched : Bool}
    (created : GuardedPool.create config watched = .ok g) :
    f₀.Grows { f with pools := f.pools ++ [g] } (k + 1) where
  options_eq := h.options_eq
  length_eq := by
    rw [List.length_append, h.length_eq]
    rfl
  older i g₀ at_i := by
    obtain ⟨g', at_i', moved⟩ := h.older i g₀ at_i
    exact ⟨g', (List.getElem?_append_left (List.getElem?_eq_some_iff.mp at_i').1).trans at_i',
      moved⟩
  newer i g' new at_i := by
    rw [getElem?_append_one] at at_i
    split at at_i
    · cases at_i
      exact ⟨.create created, (GuardedPool.isNew_of_create created).no_call.1⟩
    · exact h.newer i g' new at_i

/-- One pool changes, by a move if it is one of the older ones. -/
theorem Grows.set (h : f₀.Grows f k) (at_i : f.pools[i]? = some g)
    (old : i < f₀.pools.length → GuardedPool.Moves g g')
    (new : f₀.pools.length ≤ i → g'.Reachable ∧ g'.replies = []) (notices : List Notice) :
    f₀.Grows { f with pools := f.pools.set i g', notices } k where
  options_eq := h.options_eq
  length_eq := List.length_set.trans h.length_eq
  older j g₀ at_j := by
    obtain ⟨g₁, at_j', moved⟩ := h.older j g₀ at_j
    rw [getElem?_set_at at_i]
    split
    · rename_i here
      subst here
      cases at_i.symm.trans at_j'
      exact ⟨g', rfl, moved.tail (old (List.getElem?_eq_some_iff.mp at_j).1)⟩
    · exact ⟨g₁, at_j', moved⟩
  newer j g₁ younger at_j := by
    rw [getElem?_set_at at_i] at at_j
    split at at_j
    · rename_i here
      cases at_j
      exact new (here ▸ younger)
    · exact h.newer j g₁ younger at_j

theorem stepsLeft_build (hn : n ≤ f.pools.length) (f' : Fleet τ)
    (pools_eq : f'.pools = f.pools ++ [g]) :
    f'.stepsLeft n = f.stepsLeft n + g.stepsLeft := by
  rw [stepsLeft, pools_eq, List.drop_append_of_le_length hn, List.map_append, List.sum_append,
    List.map_singleton, List.sum_singleton]
  rfl

theorem stepsLeft_set (at_i : f.pools[i]? = some g) (hi : n ≤ i) (f' : Fleet τ)
    (pools_eq : f'.pools = f.pools.set i g') :
    f'.stepsLeft n + g.stepsLeft = f.stepsLeft n + g'.stepsLeft := by
  have at_place : (f.pools.drop n)[i - n]? = some g := by
    rw [List.getElem?_drop, Nat.add_sub_cancel' hi]
    exact at_i
  rw [stepsLeft, pools_eq, List.drop_set, if_neg (Nat.not_lt.mpr hi)]
  exact sum_map_set_add GuardedPool.stepsLeft at_place g'

theorem stepsLeft_set_of_lt (hi : i < n) (f' : Fleet τ) (pools_eq : f'.pools = f.pools.set i g') :
    f'.stepsLeft n = f.stepsLeft n := by
  rw [stepsLeft, pools_eq, List.drop_set, if_pos hi]
  rfl

end

end Fleet

end TaskPools
