/-
# How long a release is waited for

A release of a guarded pool waits for the time that its caller gave it and can then return of
itself, whatever the workers of the pool do (`canReturn_of_timed`), unless no thread could be
started for it (`TimedRelease.Waits`).  In that case it runs on the thread of its caller, and where
it comes to a worker with a running task it is `Stuck` until the task has ended (`Stuck.change`).
-/
import TaskPools.Proofs.GuardedPool.Release
import TaskPools.Proofs.Pool.Detained

namespace TaskPools

variable {τ : Type}

/-- A release that waits for no longer than `bound`, or without one because `failed` happened. -/
inductive TimedRelease.Waits (bound : Int64) (failed : Prop) : TimedRelease → Prop where
  | begun (own : Option Nat) : Waits bound failed (.begun own bound)
  | waiting (r : Nat) : Waits bound failed (.waiting r bound)
  | inline (r : Nat) (unstarted : failed) : Waits bound failed (.inline r)
  | returned (fault : Option Fault) : Waits bound failed (.returned fault)

theorem TimedRelease.Waits.mono {bound : Int64} {failed failed' : Prop} {place : TimedRelease}
    (h : place.Waits bound failed) (later : failed → failed') : place.Waits bound failed' := by
  cases h with
  | begun own => exact .begun own
  | waiting r => exact .waiting r
  | inline r unstarted => exact .inline r (later unstarted)
  | returned fault => exact .returned fault

namespace GuardedPool

/-- The time that somebody gives to a release. -/
def Event.bound? : Event τ → Option Int64
  | .release _ bound => some bound
  | _ => none

/-- Release `t` runs on the thread of its caller and waits for worker `w`, which runs `task`. -/
def Stuck (g : GuardedPool τ) (t w : Nat) (task : τ) : Prop :=
  ∃ r, g.releases[t]? = some (.inline r) ∧ g.pool.Detained r w task

/-- Release `t` can return by steps of its own: it starts its thread, and it gives up. -/
def CanReturn (g : GuardedPool τ) (t : Nat) : Prop :=
  ∃ (moves : List Move) (g' : GuardedPool τ) (fault : Option Fault),
    g.run (moves.map .move) = some g' ∧
      (∀ move ∈ moves, move = .launch t true ∨ move = .elapse t) ∧
      g'.releases = g.releases.set t (.returned fault)

/-- What holds of the releases of a guarded pool after a run of these events. -/
structure KeepsTime (g : GuardedPool τ) (es : List (Event τ)) : Prop where
  /-- Each of them waits for no longer than the time that it was given, unless no thread could be
  started for it. -/
  bounded : ∀ (t : Nat) (place : TimedRelease), g.releases[t]? = some place →
    ∃ bound, (es.filterMap Event.bound?)[t]? = some bound ∧
      place.Waits bound (.move (.launch t false) ∈ es)
  /-- None of them waits without a bound for a worker with a running task, unless no thread could
  be started for it. -/
  awaited : ∀ (t w : Nat) (task : τ), g.Stuck t w task → .move (.launch t false) ∈ es
  /-- Each of them can return, unless it runs on the thread of its caller. -/
  returns : ∀ (t : Nat) (place : TimedRelease), g.releases[t]? = some place →
    (∀ r, place ≠ .inline r) → g.CanReturn t

section

variable {g g' : GuardedPool τ} {e : Event τ} {es : List (Event τ)} {t w : Nat} {task : τ}
  {place : TimedRelease}

/-! ## Bounds -/

/-- A release begins with the time that it is given, or it was there before. -/
theorem Change.release_before (hc : Change g e g') (at_t : g'.releases[t]? = some place) :
    (∃ own bound, e = .release own bound ∧ t = g.releases.length ∧ place = .begun own bound) ∨
      ∃ old, g.releases[t]? = some old ∧ ∀ bound failed, old.Waits bound failed →
        place.Waits bound (failed ∨ e = .move (.launch t false)) := by
  have same (at_t : g.releases[t]? = some place) :
      ∃ old, g.releases[t]? = some old ∧ ∀ bound failed, old.Waits bound failed →
        place.Waits bound (failed ∨ e = .move (.launch t false)) :=
    ⟨place, at_t, fun bound failed waits => waits.mono Or.inl⟩
  have moved {s : Nat} {old new : TimedRelease} (at_s : g.releases[s]? = some old)
      (becomes : ∀ bound failed, old.Waits bound failed →
        new.Waits bound (failed ∨ e = .move (.launch s false)))
      (at_t : (g.releases.set s new)[t]? = some place) :
      ∃ old, g.releases[t]? = some old ∧ ∀ bound failed, old.Waits bound failed →
        place.Waits bound (failed ∨ e = .move (.launch t false)) := by
    rw [getElem?_set_at at_s] at at_t
    split at at_t
    · rename_i hs
      cases at_t
      exact ⟨old, hs ▸ at_s, hs ▸ becomes⟩
    · exact same at_t
  cases hc with
  | release own bound =>
    rw [getElem?_append_one] at at_t
    split at at_t
    · rename_i last
      cases at_t
      exact Or.inl ⟨own, bound, rfl, last, rfl⟩
    · exact Or.inr (same at_t)
  | submit | sample | gauge | pool | returns | panics => exact Or.inr (same at_t)
  | answer s fault =>
    have kept := releases_count g fault
    exact Or.inr (same (kept ▸ at_t))
  | launch s own given at_s =>
    refine Or.inr (moved at_s (fun bound failed waits => ?_) at_t)
    cases waits
    exact .waiting _
  | launchInline s own given at_s =>
    exact Or.inr (moved at_s (fun bound failed _ => .inline _ (Or.inr rfl)) at_t)
  | complete s r at_s =>
    rcases at_s with ⟨given, at_s⟩ | at_s
    · exact Or.inr (moved at_s (fun bound failed _ => .returned none) at_t)
    · exact Or.inr (moved at_s (fun bound failed _ => .returned none) at_t)
  | elapse s r given at_s =>
    exact Or.inr (moved at_s (fun bound failed _ => .returned _) at_t)

/-- The releases are those that were asked for. -/
theorem Change.length_releases_eq (hc : Change g e g') :
    g'.releases.length = g.releases.length + e.bound?.toList.length := by
  cases hc with
  | release => exact List.length_append
  | answer s fault => exact congrArg List.length (releases_count g fault)
  | launch | launchInline | complete | elapse => exact List.length_set
  | submit | sample | gauge | pool | returns | panics => rfl

/-- What is known of the bounds of the releases at the beginning of a run and what happens in it
tells the bounds at its end. -/
theorem waits_of_run {bounds : List Int64} {failed : Nat → Prop}
    (known : ∀ (t : Nat) (place : TimedRelease), g.releases[t]? = some place →
      ∃ bound, bounds[t]? = some bound ∧ place.Waits bound (failed t))
    (length_eq : bounds.length = g.releases.length) (hrun : g.run es = some g')
    (at_t : g'.releases[t]? = some place) :
    ∃ bound, (bounds ++ es.filterMap Event.bound?)[t]? = some bound ∧
      place.Waits bound (failed t ∨ .move (.launch t false) ∈ es) := by
  induction es generalizing g bounds failed with
  | nil =>
    rw [run_nil hrun] at at_t
    obtain ⟨bound, is_bound, waits⟩ := known t place at_t
    exact ⟨bound, by simpa using is_bound, waits.mono Or.inl⟩
  | cons e es ih =>
    obtain ⟨k, hk, hrun⟩ := run_cons hrun
    have hc := change_of_step hk
    have known' : ∀ (t : Nat) (place : TimedRelease), k.releases[t]? = some place →
        ∃ bound, (bounds ++ e.bound?.toList)[t]? = some bound ∧
          place.Waits bound (failed t ∨ e = .move (.launch t false)) := by
      intro t place at_t
      rcases hc.release_before at_t with ⟨own, bound, rfl, rfl, rfl⟩ | ⟨old, at_t', becomes⟩
      · refine ⟨bound, ?_, .begun own⟩
        rw [← length_eq]
        exact List.getElem?_concat_length
      · obtain ⟨bound, is_bound, waits⟩ := known t old at_t'
        refine ⟨bound, ?_, becomes bound (failed t) waits⟩
        rw [List.getElem?_append_left (List.getElem?_eq_some_iff.mp is_bound).1]
        exact is_bound
    have length_eq' : (bounds ++ e.bound?.toList).length = k.releases.length := by
      rw [List.length_append, length_eq, hc.length_releases_eq]
    obtain ⟨bound, is_bound, waits⟩ := ih known' length_eq' hrun
    refine ⟨bound, ?_, waits.mono ?_⟩
    · rw [List.append_assoc] at is_bound
      rw [List.filterMap_cons]
      cases hbound : e.bound? <;> simpa [hbound] using is_bound
    · rintro ((before | rfl) | later)
      · exact Or.inl before
      · exact Or.inr List.mem_cons_self
      · exact Or.inr (List.mem_cons_of_mem e later)

theorem bounded_of_run {config : PoolConfig} {watched : Bool}
    (hcreate : create config watched = .ok g) (hrun : g.run es = some g')
    (at_t : g'.releases[t]? = some place) :
    ∃ bound, (es.filterMap Event.bound?)[t]? = some bound ∧
      place.Waits bound (.move (.launch t false) ∈ es) := by
  have fresh : g.releases = [] := by
    obtain ⟨-, pool, -, rfl⟩ := eq_of_create hcreate
    rfl
  have nothing : ∀ (t : Nat) (place : TimedRelease), g.releases[t]? = some place →
      ∃ bound, ([] : List Int64)[t]? = some bound ∧ place.Waits bound False := by
    rw [fresh]
    nofun
  obtain ⟨bound, is_bound, waits⟩ := waits_of_run nothing (by rw [fresh]; rfl) hrun at_t
  exact ⟨bound, is_bound, waits.mono (Or.resolve_left · not_false)⟩

/-! ## A release that has a bound can return -/

theorem step_launch {own : Option Nat} {bound : Int64}
    (at_t : g.releases[t]? = some (.begun own bound)) :
    ∃ g', g.step (.move (.launch t true)) = some g' ∧
      g'.releases = g.releases.set t (.waiting g.pool.releases.length bound) := by
  refine ⟨{ g with
    pool := { g.pool with releases := g.pool.releases ++ [.called none] }
    releases := g.releases.set t (.waiting g.pool.releases.length bound) }, ?_, rfl⟩
  rw [step, move, launch, at_t]
  rfl

theorem step_elapse {r : Nat} {bound : Int64}
    (at_t : g.releases[t]? = some (.waiting r bound)) :
    ∃ g' fault, g.step (.move (.elapse t)) = some g' ∧
      g'.releases = g.releases.set t (.returned fault) := by
  refine ⟨g.setRelease t (.returned (some (.shutdownTimeout g.config.name))), _, ?_, rfl⟩
  rw [step, move, elapse, at_t]

/-- A release that does not run on the thread of its caller can return by steps of its own. -/
theorem canReturn_of_timed (at_t : g.releases[t]? = some place) (timed : ∀ r, place ≠ .inline r) :
    g.CanReturn t := by
  have in_range : t < g.releases.length := (List.getElem?_eq_some_iff.mp at_t).1
  cases place with
  | begun own bound =>
    obtain ⟨k, hk, launched⟩ := step_launch at_t
    have at_t' : k.releases[t]? = some (.waiting g.pool.releases.length bound) := by
      rw [launched, List.getElem?_set_self in_range]
    obtain ⟨g', fault, hg', releases_eq⟩ := step_elapse at_t'
    refine ⟨[.launch t true, .elapse t], g', fault, ?_, by simp, ?_⟩
    · rw [List.map_cons, List.map_cons, List.map_nil, run, List.foldlM_cons, hk,
        Option.bind_eq_bind, Option.bind_some, List.foldlM_cons, hg']
      rfl
    · rw [releases_eq, launched, List.set_set]
  | waiting r bound =>
    obtain ⟨g', fault, hg', releases_eq⟩ := step_elapse at_t
    refine ⟨[.elapse t], g', fault, ?_, by simp, releases_eq⟩
    rw [List.map_cons, List.map_nil, run, List.foldlM_cons, hg']
    rfl
  | inline r => exact absurd rfl (timed r)
  | returned fault =>
    refine ⟨[], g, fault, rfl, by simp, ?_⟩
    obtain ⟨_, at_t⟩ := List.getElem?_eq_some_iff.mp at_t
    rw [← at_t, List.set_getElem_self]

theorem keepsTime_of_run {config : PoolConfig} {watched : Bool}
    (hcreate : create config watched = .ok g) (hrun : g.run es = some g') : g'.KeepsTime es := by
  refine ⟨fun t place at_t => bounded_of_run hcreate hrun at_t, ?_,
    fun t place at_t timed => canReturn_of_timed at_t timed⟩
  rintro t w task ⟨r, at_t, -⟩
  obtain ⟨bound, -, waits⟩ := bounded_of_run hcreate hrun at_t
  cases waits with
  | inline r unstarted => exact unstarted

/-! ## A release that has none -/

/-- As long as the task does not end, neither does the wait. -/
theorem Stuck.change (h : g.Stuck t w task) (hc : Change g e g')
    (goes_on : ∀ panic escape, e ≠ .move (.conclude w panic escape)) : g'.Stuck t w task := by
  obtain ⟨r, at_t, detained⟩ := h
  have in_range : t < g.releases.length := (List.getElem?_eq_some_iff.mp at_t).1
  have other {s : Nat} {old : TimedRelease} (at_s : g.releases[s]? = some old)
      (differs : old ≠ .inline r) (new : TimedRelease) :
      (g.releases.set s new)[t]? = some (.inline r) := by
    rw [getElem?_set_at at_s, if_neg]
    · exact at_t
    · rintro rfl
      exact differs (Option.some.inj (at_s.symm.trans at_t))
  cases hc with
  | submit a => exact ⟨r, at_t, detained.submit a⟩
  | release own bound =>
    refine ⟨r, ?_, detained⟩
    rw [List.getElem?_append_left in_range]
    exact at_t
  | sample | gauge => exact ⟨r, at_t, detained⟩
  | pool m p moves => exact ⟨r, at_t, detained.move moves⟩
  | answer s fault =>
    have kept := releases_count g fault
    have same := pool_count g fault
    exact ⟨r, kept ▸ at_t, same.symm ▸ detained⟩
  | returns v escape p finishes =>
    refine ⟨r, at_t, detained.finish ?_ finishes⟩
    rintro rfl
    exact goes_on none escape rfl
  | panics v panic escape p finishes =>
    refine ⟨r, at_t, detained.finish ?_ finishes⟩
    rintro rfl
    exact goes_on (some panic) escape rfl
  | launch s own bound at_s => exact ⟨r, other at_s nofun _, detained.callRelease none⟩
  | launchInline s own bound at_s => exact ⟨r, other at_s nofun _, detained.callRelease own⟩
  | complete s r' at_s is_over =>
    -- the release that is stuck cannot be the one that returns
    have differs : r' ≠ r := by
      rintro rfl
      exact detained.not_returned is_over
    rcases at_s with ⟨bound, at_s⟩ | at_s
    · exact ⟨r, other at_s nofun _, detained⟩
    · refine ⟨r, other at_s ?_ _, detained⟩
      rintro same
      cases same
      exact differs rfl
  | elapse s r' bound at_s => exact ⟨r, other at_s nofun _, detained⟩

end

end GuardedPool

end TaskPools
