/-
# What a retirement does

A retirement begins the releases of its pools one by one, in any order, and puts those aside that
have returned.  Beginning a release asks the pool for it and for nothing else (`Retirement.Launch`),
and putting one aside changes no pool (`eq_of_collect`).  Both can be done as soon as they are due
(`exists_launch`, `exists_collect`).
-/
import Mathlib.Data.List.Perm.Basic
import TaskPools.Fleet.Retirement
import TaskPools.Proofs.GuardedPool.Answers

namespace TaskPools

variable {τ : Type}

namespace Retirement

/-- The releases under way, each with its pool. -/
def underWay (r : Retirement) : List (Nat × Nat) :=
  r.active ++ r.inline.toList

/-- A retirement begins the release of one of its pools, on a new thread or on its own. -/
inductive Launch (r : Retirement) (f : Fleet τ) (i : Nat) (caller : Option (Nat × Nat)) :
    Bool → Fleet τ → Retirement → Prop where
  | thread (g : GuardedPool τ) (among : i ∈ r.todo) (free : r.inline = none)
      (at_i : f.pools[i]? = some g) :
      Launch r f i caller true
        { f with
          pools := f.pools.set i
            { g with releases := g.releases ++ [.begun none f.options.timeout] } }
        { r with todo := r.todo.erase i, active := r.active ++ [(i, g.releases.length)] }
  | inline (g : GuardedPool τ) (among : i ∈ r.todo) (free : r.inline = none)
      (at_i : f.pools[i]? = some g) :
      Launch r f i caller false
        { f.note (.releaseInline g.config.name) with
          pools := f.pools.set i
            { g with releases := g.releases ++ [.begun (ownWorker caller i) f.options.timeout] } }
        { r with todo := r.todo.erase i, inline := some (i, g.releases.length) }

section

variable {f f' : Fleet τ} {r r' : Retirement} {caller : Option (Nat × Nat)} {start : Bool}
  {k : Option Nat} {i t : Nat} {g : GuardedPool τ}

theorem isOver_iff : r.isOver = true ↔ r.todo = [] ∧ r.underWay = [] := by
  simp only [isOver, underWay, Bool.and_eq_true, List.isEmpty_iff, Option.isNone_iff_eq_none,
    List.append_eq_nil_iff, Option.toList_eq_nil_iff, and_assoc]

/-! ## The release of a pool -/

theorem launch_of_eq (h : r.launch f i caller start = some (f', r')) :
    Launch r f i caller start f' r' := by
  rw [launch] at h
  split at h
  · rename_i ready
    obtain ⟨among, free⟩ := Bool.and_eq_true_iff.mp ready
    have among : i ∈ r.todo := List.contains_iff_mem.mp among
    have free : r.inline = none := Option.isNone_iff_eq_none.mp free
    obtain ⟨g, at_i, h⟩ := Option.bind_eq_some_iff.mp h
    cases start with
    | true =>
      obtain ⟨f₁, hf, h⟩ := Option.bind_eq_some_iff.mp h
      cases h
      obtain ⟨g₁, at_i', hf⟩ := Option.bind_eq_some_iff.mp hf
      obtain rfl : g = g₁ := Option.some.inj (at_i.symm.trans at_i')
      cases hf
      exact .thread g among free at_i
    | false =>
      obtain ⟨f₁, hf, h⟩ := Option.bind_eq_some_iff.mp h
      cases h
      obtain ⟨g₁, at_i', hf⟩ := Option.bind_eq_some_iff.mp hf
      obtain rfl : g = g₁ := Option.some.inj (at_i.symm.trans at_i')
      cases hf
      exact .inline g among free at_i
  · cases h

/-- On whichever thread, one pool is asked for one release, and the retirement sees to that. -/
theorem Launch.eq (h : Launch r f i caller start f' r') :
    ∃ g own notices, r.todo.Perm (i :: r'.todo) ∧ f.pools[i]? = some g ∧
      f' = { f with
        pools := f.pools.set i { g with releases := g.releases ++ [.begun own f.options.timeout] }
        notices } ∧
      r'.underWay = r.underWay ++ [(i, g.releases.length)] := by
  cases h with
  | thread g among free at_i =>
    refine ⟨g, none, f.notices, List.perm_cons_erase among, at_i, rfl, ?_⟩
    rw [underWay, underWay, free]
    exact (List.append_nil _).trans (congrArg (· ++ _) (List.append_nil _).symm)
  | inline g among free at_i =>
    refine ⟨g, _, _, List.perm_cons_erase among, at_i, rfl, ?_⟩
    rw [underWay, underWay, free]
    exact congrArg (· ++ _) (List.append_nil _).symm

theorem exists_launch (among : i ∈ r.todo) (free : r.inline = none)
    (at_i : f.pools[i]? = some g) (caller : Option (Nat × Nat)) (start : Bool) :
    ∃ f' r', r.launch f i caller start = some (f', r') := by
  have ready : (r.todo.contains i && r.inline.isNone) = true := by
    rw [free, List.contains_iff_mem.mpr among]
    rfl
  rw [launch, if_pos ready]
  cases start with
  | true =>
    simp only [at_i, Option.bind_eq_bind, Option.bind_some, Fleet.onPool]
    exact ⟨_, _, rfl⟩
  | false =>
    simp only [at_i, Option.bind_eq_bind, Option.bind_some, Fleet.onPool, Fleet.note]
    exact ⟨_, _, rfl⟩

/-! ## Releases that are put aside -/

/-- Note is taken only of a release that has returned. -/
theorem eq_of_takeNote (h : takeNote f i t = some f') :
    (∃ notices, f' = { f with notices }) ∧
      ∃ g fault, f.pools[i]? = some g ∧ g.releases[t]? = some (.returned fault) := by
  obtain ⟨g, at_i, h⟩ := Option.bind_eq_some_iff.mp h
  split at h
  · rename_i returned
    cases h
    exact ⟨⟨f.notices, rfl⟩, g, none, at_i, returned⟩
  · rename_i fault returned
    cases h
    exact ⟨⟨_, rfl⟩, g, some fault, at_i, returned⟩
  · cases h

theorem takeNote_of_returned {fault : Option Fault} (at_i : f.pools[i]? = some g)
    (returned : g.releases[t]? = some (.returned fault)) : ∃ f', takeNote f i t = some f' := by
  rw [takeNote, at_i, Option.bind_eq_bind, Option.bind_some, returned]
  cases fault with
  | none => exact ⟨_, rfl⟩
  | some fault => exact ⟨_, rfl⟩

/-- One release is put aside, it has returned, and no pool changes. -/
theorem eq_of_collect (h : r.collect f k = some (f', r')) :
    r'.todo = r.todo ∧ (∃ notices, f' = { f with notices }) ∧
      ∃ i t g fault, r.underWay.Perm ((i, t) :: r'.underWay) ∧ f.pools[i]? = some g ∧
        g.releases[t]? = some (.returned fault) := by
  cases k with
  | some k =>
    obtain ⟨⟨i, t⟩, at_k, h⟩ := Option.bind_eq_some_iff.mp h
    obtain ⟨f₁, noted, h⟩ := Option.bind_eq_some_iff.mp h
    cases h
    obtain ⟨notices, g, fault, at_i, returned⟩ := eq_of_takeNote noted
    refine ⟨rfl, notices, i, t, g, fault, ?_, at_i, returned⟩
    obtain ⟨in_range, at_k⟩ := List.getElem?_eq_some_iff.mp at_k
    rw [← at_k]
    exact (List.getElem_cons_eraseIdx_perm in_range).symm.append_right _
  | none =>
    obtain ⟨⟨i, t⟩, at_inline, h⟩ := Option.bind_eq_some_iff.mp h
    obtain ⟨f₁, noted, h⟩ := Option.bind_eq_some_iff.mp h
    cases h
    obtain ⟨notices, g, fault, at_i, returned⟩ := eq_of_takeNote noted
    refine ⟨rfl, notices, i, t, g, fault, ?_, at_i, returned⟩
    show (r.active ++ r.inline.toList).Perm ((i, t) :: (r.active ++ []))
    rw [at_inline, List.append_nil]
    exact List.perm_append_comm

/-- A retirement can put aside one of its releases under way, once that has returned. -/
theorem exists_collect (r : Retirement) (busy : r.underWay ≠ []) :
    ∃ i t k r', (i, t) ∈ r.underWay ∧ r'.todo = r.todo ∧
      r'.underWay.length < r.underWay.length ∧
      ∀ f f' : Fleet τ, takeNote f i t = some f' → r.collect f k = some (f', r') := by
  obtain ⟨todo, active, inline⟩ := r
  cases inline with
  | some release =>
    refine ⟨release.1, release.2, none, ⟨todo, active, none⟩, ?_, rfl, ?_, fun f f' noted => ?_⟩
    · simp [underWay]
    · simp [underWay]
    · simp only [collect, Option.bind_eq_bind, Option.bind_some, noted]
      rfl
  | none =>
    cases active with
    | nil => exact absurd rfl busy
    | cons release rest =>
      refine ⟨release.1, release.2, some 0, ⟨todo, rest, none⟩, ?_, rfl, ?_, fun f f' noted => ?_⟩
      · simp [underWay]
      · simp [underWay]
      · simp only [collect, List.getElem?_cons_zero, Option.bind_eq_bind, Option.bind_some, noted]
        rfl

end

end Retirement

end TaskPools
