/-
# What a successful release says of the pool

A release of a guarded pool returns success only once some release of the pool inside has returned
(`SucceedsOnRelease`).  After that the pool has no worker left, unless another release has taken the
handles and still waits for them: a release that finds no handles does not wait for the one that
took them.  So a success tells that all accepted tasks have ended exactly where no other release of
the same pool is still under way (`drained_of_release_ok`), and `release_ok_while_running` is a run
in which one is.
-/
import TaskPools.Proofs.GuardedPool.Answers
import TaskPools.Proofs.Pool.Drain

namespace TaskPools

variable {τ : Type}

namespace GuardedPool

/-- Let events happen one after the other. -/
def run (g : GuardedPool τ) (es : List (Event τ)) : Option (GuardedPool τ) :=
  es.foldlM step g

/-- No release that is about to start runs on the thread of a worker but of one of `own`. -/
def CalledFrom (own : Nat → Prop) (g : GuardedPool τ) : Prop :=
  ∀ w bound, TimedRelease.begun (some w) bound ∈ g.releases → own w

/-- Where a release returned success, some release of the pool has returned. -/
def SucceedsOnRelease (g : GuardedPool τ) : Prop :=
  TimedRelease.returned none ∈ g.releases → Release.returned ∈ g.pool.releases

section

variable {g g' : GuardedPool τ} {e : Event τ} {es : List (Event τ)} {own : Nat → Prop}

/-- The worker on whose thread a release is called, if it is one's. -/
def Event.caller? : Event τ → Option Nat
  | .release own _ => own
  | _ => none

theorem run_nil (hrun : g.run [] = some g') : g' = g :=
  (Option.some.inj hrun).symm

theorem run_cons (hrun : g.run (e :: es) = some g') :
    ∃ k, g.step e = some k ∧ k.run es = some g' := by
  rw [GuardedPool.run, List.foldlM_cons] at hrun
  exact Option.bind_eq_some_iff.mp hrun

theorem Reachable.run (h : g.Reachable) (hrun : g.run es = some g') : g'.Reachable := by
  induction es generalizing g with
  | nil =>
    obtain rfl : g = g' := by simpa [GuardedPool.run] using hrun
    exact h
  | cons e es ih =>
    rw [GuardedPool.run, List.foldlM_cons] at hrun
    obtain ⟨m, hm, hrun⟩ := Option.bind_eq_some_iff.mp hrun
    exact ih (h.step hm) hrun

theorem CalledFrom.change (h : g.CalledFrom own) (hc : Change g e g')
    (known : ∀ w, e.caller? = some w → own w) : g'.CalledFrom own := by
  intro w bound hmem
  have before {t : Nat} {place : TimedRelease}
      (hmem : .begun (some w) bound ∈ g.releases.set t place)
      (other : place ≠ .begun (some w) bound) : own w := by
    rcases List.mem_or_eq_of_mem_set hmem with hmem | same
    · exact h w bound hmem
    · exact absurd same.symm other
  cases hc with
  | release run bound' =>
    rcases List.mem_append.mp hmem with hmem | new
    · exact h w bound hmem
    · cases List.mem_singleton.mp new
      exact known w rfl
  | answer s fault =>
    have same := releases_count g fault
    exact h w bound (same ▸ hmem)
  | launch | launchInline | complete | elapse => exact before hmem nofun
  | submit | sample | gauge | pool | returns | panics => exact h w bound hmem

/-- The pool inside keeps its handles as any pool does. -/
theorem tended_of_change (called : g.CalledFrom own) (from_own : g.pool.ReleasedFrom own)
    (h : g.pool.Tended own) (hc : Change g e g') :
    g'.pool.ReleasedFrom own ∧ g'.pool.Tended own := by
  cases hc with
  | submit task => exact h.step from_own (e := .submit task) nofun rfl
  | pool m p moves => exact h.step from_own (e := .move m) nofun moves
  | returns w escape p finishes => exact h.step from_own (e := .finish w none) nofun finishes
  | panics w panic escape p finishes => exact h.step from_own (e := .finish w _) nofun finishes
  | launch t run bound at_t => exact h.step from_own (e := .release none) nofun rfl
  | launchInline t run bound at_t =>
    refine h.step from_own (e := .release run) (fun w hw => ?_) rfl
    cases hw
    exact called w bound (List.mem_of_getElem? at_t)
  | answer s fault =>
    have same := pool_count g fault
    exact ⟨same.symm ▸ from_own, same.symm ▸ h⟩
  | release | sample | gauge | complete | elapse => exact ⟨from_own, h⟩

theorem SucceedsOnRelease.change (h : g.SucceedsOnRelease) (hc : Change g e g') :
    g'.SucceedsOnRelease := by
  intro hmem
  have before {t : Nat} {place : TimedRelease} (hmem : .returned none ∈ g.releases.set t place)
      (other : place ≠ .returned none) : Release.returned ∈ g.pool.releases := by
    rcases List.mem_or_eq_of_mem_set hmem with hmem | same
    · exact h hmem
    · exact absurd same.symm other
  cases hc with
  | submit task => exact Pool.still_returned_of_step (e := .submit task) rfl (h hmem)
  | pool m p moves => exact Pool.still_returned_of_step (e := .move m) moves (h hmem)
  | returns w escape p finishes | panics w panic escape p finishes =>
    exact (Pool.change_of_finish finishes).still_returned (h hmem)
  | launch t run bound at_t | launchInline t run bound at_t =>
    exact List.mem_append_left _ (before hmem nofun)
  | answer s fault =>
    show Release.returned ∈ (g.count fault).pool.releases
    rw [pool_count]
    exact h (releases_count g fault ▸ hmem)
  | release run bound =>
    rcases List.mem_append.mp hmem with hmem | new
    · exact h hmem
    · cases List.mem_singleton.mp new
  | complete t r at_t is_over => exact List.mem_of_getElem? is_over
  | elapse t r bound at_t => exact before hmem nofun
  | sample | gauge => exact h hmem

theorem Reachable.succeedsOnRelease (h : g.Reachable) : g.SucceedsOnRelease := by
  induction h with
  | create hcreate =>
    obtain ⟨-, pool, hpool, rfl⟩ := eq_of_create hcreate
    exact nofun
  | step _ hstep ih => exact ih.change (change_of_step hstep)

/-- Over a run in which releases are called on the threads of `own` alone. -/
theorem tended_of_run (called : g.CalledFrom own) (from_own : g.pool.ReleasedFrom own)
    (h : g.pool.Tended own) (known : ∀ e ∈ es, ∀ w, e.caller? = some w → own w)
    (hrun : g.run es = some g') : g'.pool.Tended own := by
  induction es generalizing g with
  | nil =>
    obtain rfl : g = g' := by simpa [GuardedPool.run] using hrun
    exact h
  | cons e es ih =>
    rw [GuardedPool.run, List.foldlM_cons] at hrun
    obtain ⟨m, hm, hrun⟩ := Option.bind_eq_some_iff.mp hrun
    have hc := change_of_step hm
    have first := known e List.mem_cons_self
    obtain ⟨from_own', h'⟩ := tended_of_change called from_own h hc
    exact ih (called.change hc first) from_own' h'
      (fun e he => known e (List.mem_cons_of_mem _ he)) hrun

/-- **A successful release means a drained pool, unless another release is still under way.**  Once
a release has returned success, every live worker is one on whose own thread a release was called,
or another release of the same pool holds its handle and still waits for it.  So if no release of
the pool holds a handle and none was called by a task of the pool itself, no worker is left, the
queue is empty and every accepted task has ended. -/
theorem drained_of_release_ok {config : PoolConfig} {watched : Bool} {t : Nat}
    (hcreate : create config watched = .ok g) (hrun : g.run es = some g')
    (ok : g'.releases[t]? = some (.returned none)) :
    (∀ w, g'.pool.liveAt w = true →
      (∃ bound, .release (some w) bound ∈ es) ∨
        ∃ place ∈ g'.pool.releases, w ∈ place.handles) ∧
    ((∀ w bound, .release (some w) bound ∉ es) →
      (∀ place ∈ g'.pool.releases, place.handles = []) →
        g'.pool.live = 0 ∧ g'.pool.queue = [] ∧ g'.pool.ended.Perm g'.pool.accepted) := by
  have h' : g'.Reachable := (Reachable.create hcreate).run hrun
  have has_returned : Release.returned ∈ g'.pool.releases :=
    h'.succeedsOnRelease (List.mem_of_getElem? ok)
  have tended : g'.pool.Tended fun w => ∃ bound, .release (some w) bound ∈ es := by
    obtain ⟨-, pool, hpool, rfl⟩ := eq_of_create hcreate
    obtain ⟨-, -, rfl⟩ := Pool.eq_of_create hpool
    -- a new pool has no releases and no workers
    apply tended_of_run _ _ _ _ hrun
    · intro w bound hmem
      cases hmem
    · intro place hplace
      cases hplace
    · intro w live
      cases live
    · intro e he w hw
      cases e with
      | release run bound =>
        have run_eq : run = some w := hw
        exact ⟨bound, run_eq ▸ he⟩
      | submit | sample | gauge | move => cases hw
  have held (w : Nat) (live : g'.pool.liveAt w = true) :=
    tended.held_of_returned h'.pool.arises has_returned live
  refine ⟨held, fun not_own alone => ?_⟩
  have nobody : g'.pool.live = 0 := by
    apply Pool.live_eq_zero
    intro w
    by_contra live
    rcases held w (by simpa using live) with ⟨bound, own⟩ | ⟨place, hplace, hw⟩
    · exact not_own w bound own
    · rw [alone place hplace] at hw
      cases hw
  exact ⟨nobody, h'.pool.arises.ended_perm nobody⟩

end

/-- A pool with one worker runs task 7, and a release gives it up after its time. -/
def untilTimeout : List (Event Nat) :=
  [.submit (some 7), .move (.pool (.enter 0 true none)), .move (.pool (.announce 0 none)),
    .move (.answer 0), .move (.pool (.look 0 false)), .release none 50, .move (.launch 0 true),
    .move (.pool (.close 0)), .move (.pool (.alertWorkers 0)), .move (.pool (.alertSubmitters 0)),
    .move (.elapse 0)]

/-- A second release of that pool. -/
def secondRelease : List (Event Nat) :=
  [.release none 50, .move (.launch 1 true), .move (.pool (.close 1)),
    .move (.pool (.alertWorkers 1)), .move (.pool (.alertSubmitters 1)), .move (.complete 1)]

/-- The task ends, its worker leaves, and the first release comes to its end in the background. -/
def drainedAtLast : List (Event Nat) :=
  [.move (.conclude 0 none none), .move (.pool (.giveBack 0 none)), .move (.pool (.join 0))]

/-- Released a second time after it has drained, the pool has run its task. -/
theorem drained_of_second_release :
    ∃ g₀ g : GuardedPool Nat, create { name := "io", size := 1 } false = .ok g₀ ∧
      g₀.run (untilTimeout ++ drainedAtLast ++ secondRelease) = some g ∧
      g.releases = [.returned (some (.shutdownTimeout "io")), .returned none] ∧
      g.pool.live = 0 ∧ g.pool.queue = [] ∧ g.pool.ended.Perm g.pool.accepted := by
  obtain ⟨g₀, g, hg₀, hg, hreleases, halone⟩ : ∃ g₀ g : GuardedPool Nat,
      create { name := "io", size := 1 } false = .ok g₀ ∧
        g₀.run (untilTimeout ++ drainedAtLast ++ secondRelease) = some g ∧
        g.releases = [.returned (some (.shutdownTimeout "io")), .returned none] ∧
        g.pool.releases = [.returned, .returned] := ⟨_, _, rfl, rfl, rfl, rfl⟩
  have ok : g.releases[1]? = some (.returned none) := by rw [hreleases]; rfl
  refine ⟨g₀, g, hg₀, hg, hreleases, (drained_of_release_ok hg₀ hg ok).2 ?_ ?_⟩
  · intro w bound hmem
    simp [untilTimeout, drainedAtLast, secondRelease] at hmem
  · intro place hplace
    rw [halone] at hplace
    simp only [List.mem_cons, List.not_mem_nil, or_false, or_self] at hplace
    rw [hplace]
    rfl

/-- Released a second time while the first release still waits for the worker, the pool reports
success although its task runs. -/
theorem release_ok_while_running :
    ∃ g₀ g : GuardedPool Nat, create { name := "io", size := 1 } false = .ok g₀ ∧
      g₀.run (untilTimeout ++ secondRelease) = some g ∧
      g.releases[1]? = some (.returned none) ∧
      g.pool.accepted = [7] ∧ g.pool.ended = [] ∧ ¬ g.pool.ended.Perm g.pool.accepted :=
  ⟨_, _, rfl, rfl, rfl, rfl, rfl, by decide⟩

end GuardedPool

end TaskPools
