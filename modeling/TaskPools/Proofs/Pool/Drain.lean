/-
# How a pool drains

Every live worker has somebody who will wait for its end: the pool lists its handle, or a release
has taken it and still holds it (`Tended`).  Only a worker on whose thread a release runs is let go
of.  A closed pool lists nothing, so once no release holds a handle, nobody is left in a closed pool
and every accepted task has ended (`Arises.ended_perm`).
-/
import Mathlib.Data.List.Count
import TaskPools.Proofs.Pool.Answers

namespace TaskPools

variable {τ : Type}

namespace Release

/-- The handles that a release took and holds. -/
def handles : Release → List Nat
  | closed _ handles | alerting _ handles | joining _ handles => handles
  | called _ | returned => []

/-- The worker on whose thread a release runs. -/
def own? : Release → Option Nat
  | called own | closed own _ | alerting own _ | joining own _ => own
  | returned => none

/-- The release is about to close the pool. -/
def isCalled : Release → Bool
  | called _ => true
  | _ => false

end Release

namespace Pool

/-- No release runs on the thread of a worker but of one of `own`. -/
def ReleasedFrom (own : Nat → Prop) (p : Pool τ) : Prop :=
  ∀ place ∈ p.releases, ∀ w, place.own? = some w → own w

/-- Worker `w` is live. -/
def liveAt (p : Pool τ) (w : Nat) : Bool :=
  (p.workers[w]?).any Worker.isLive

/-- Every live worker but those of `own` is listed, or a release holds its handle. -/
def Tended (own : Nat → Prop) (p : Pool τ) : Prop :=
  ∀ w, p.liveAt w = true →
    own w ∨ w ∈ p.listed ∨ ∃ place ∈ p.releases, w ∈ place.handles

/-- A closed pool has no handles left, and a release that went beyond its first step has closed the
pool. -/
structure Sealed (p : Pool τ) : Prop where
  emptied : p.closed = true → p.listed = [] ∧ p.retired = []
  closed_of : ∀ place ∈ p.releases, place.isCalled = false → p.closed = true

section

variable {p q : Pool τ} {own : Nat → Prop} {w : Nat} {r : Nat} {old new : Release}

/-! ## Releases -/

/-- A release that goes on is the one it was, and all others stay. -/
theorem mem_releases_set (at_r : p.releases[r]? = some old) (new : Release) {place : Release}
    (hplace : place ∈ p.releases) :
    place ∈ p.releases.set r new ∨ (place = old ∧ new ∈ p.releases.set r new) := by
  obtain ⟨s, at_s⟩ := List.getElem?_of_mem hplace
  by_cases same : s = r
  · rw [same] at at_s
    refine Or.inr ⟨Option.some.inj (at_s.symm.trans at_r), ?_⟩
    exact List.mem_set (List.getElem?_eq_some_iff.mp at_r).1 new
  · left
    apply List.mem_of_getElem?
    rw [List.getElem?_set_ne (Ne.symm same)]
    exact at_s

/-- Releases come from the same workers where one of them goes to another place. -/
theorem ReleasedFrom.set (h : p.ReleasedFrom own) (at_r : p.releases[r]? = some old)
    (same : ∀ w, new.own? = some w → old.own? = some w)
    (hreleases : q.releases = p.releases.set r new) : q.ReleasedFrom own := by
  intro place hplace w hw
  rw [hreleases] at hplace
  rcases List.mem_or_eq_of_mem_set hplace with before | rfl
  · exact h place before w hw
  · exact h old (List.mem_of_getElem? at_r) w (same w hw)

/-- A release never moves to another thread. -/
theorem ReleasedFrom.move (h : p.ReleasedFrom own) (hc : Change p .move q) :
    q.ReleasedFrom own := by
  cases hc with
  | close r run at_r | alertWorkers r run handles at_r =>
    refine h.set at_r ?_ rfl
    exact fun w hw => hw
  | alertSubmitters r run handles at_r =>
    refine h.set at_r (fun w hw => ?_) rfl
    split at hw
    · cases hw
    · exact hw
  | join r run w rest at_r =>
    refine h.set at_r (fun w hw => ?_) rfl
    split at hw
    · cases hw
    · exact hw
  | reapNone | reap | refuseClosed | refuseFull | block | sleepOn | accept | acceptStarting
  | failStart | stirSubmitter | announce | stirWorker | take | leave | expire | park | finish
  | giveBack => exact h

/-! ## Live workers -/

/-- A worker that goes to another place decides about its own life only. -/
theorem liveAt_of_set {x y : Worker τ} (at_w : p.workers[w]? = some x)
    (hworkers : q.workers = p.workers.set w y) (v : Nat) :
    q.liveAt v = if v = w then y.isLive else p.liveAt v := by
  rw [liveAt, hworkers, getElem?_set_at at_w, liveAt]
  split <;> rfl

/-- A new worker decides about its own life only. -/
theorem liveAt_of_append {x : Worker τ} (hworkers : q.workers = p.workers ++ [x]) (v : Nat) :
    q.liveAt v = if v = p.workers.length then x.isLive else p.liveAt v := by
  rw [liveAt, hworkers, getElem?_append_one, liveAt]
  split <;> rfl

/-- A worker that changes its place does not come to life. -/
theorem live_before_set {x y : Worker τ} (at_w : p.workers[w]? = some x)
    (hworkers : q.workers = p.workers.set w y) (alive : y.isLive = true → x.isLive = true) (v : Nat)
    (live : q.liveAt v = true) : p.liveAt v = true := by
  rw [liveAt_of_set at_w hworkers] at live
  split at live
  · rename_i same
    rw [liveAt, same, at_w]
    exact alive live
  · exact live

/-- Waking a worker brings nobody to life. -/
theorem live_before_rouse {workers : List (Worker τ)} (roused : Roused p.workers workers)
    (hworkers : q.workers = workers) (v : Nat) (live : q.liveAt v = true) : p.liveAt v = true := by
  cases roused with
  | nobody =>
    rw [liveAt, hworkers] at live
    exact live
  | one w at_w => exact live_before_set at_w hworkers (fun _ => rfl) v live

/-- Waking all workers brings nobody to life. -/
theorem live_before_wake (hworkers : q.workers = p.workers.map wake) (v : Nat)
    (live : q.liveAt v = true) : p.liveAt v = true := by
  rw [liveAt, hworkers, List.getElem?_map] at live
  rw [liveAt]
  cases at_v : p.workers[v]? with
  | none =>
    rw [at_v] at live
    exact live
  | some x =>
    rw [at_v] at live
    cases x <;> exact live

/-- No worker comes to life, and no handle is given up. -/
theorem Tended.same (h : p.Tended own) (alive : ∀ w, q.liveAt w = true → p.liveAt w = true)
    (hlisted : q.listed = p.listed) (hreleases : q.releases = p.releases) : q.Tended own := by
  intro w live
  rw [hlisted, hreleases]
  exact h w (alive w live)

/-- A new worker is listed. -/
theorem Tended.hire (h : p.Tended own) (hworkers : q.workers = p.workers ++ [.starting])
    (hlisted : q.listed = p.listed ++ [p.workers.length])
    (hreleases : q.releases = p.releases) : q.Tended own := by
  intro w live
  rw [liveAt_of_append hworkers] at live
  rw [hlisted, hreleases, List.mem_append]
  split at live
  · rename_i new
    exact Or.inr (Or.inl (Or.inr (List.mem_singleton.mpr new)))
  · rcases h w live with known | listed | held
    · exact Or.inl known
    · exact Or.inr (Or.inl (Or.inl listed))
    · exact Or.inr (Or.inr held)

/-- A handle is struck out that is not of a live worker. -/
theorem Tended.strike (h : p.Tended own) {l : List Nat}
    (alive : ∀ v, q.liveAt v = true → v ≠ w ∧ p.liveAt v = true)
    (hlisted : q.listed = l.erase w) (more : ∀ v ∈ p.listed, v ∈ l)
    (hreleases : q.releases = p.releases) : q.Tended own := by
  intro v live
  obtain ⟨other, live⟩ := alive v live
  rw [hlisted, hreleases, List.mem_erase_of_ne other]
  rcases h v live with known | listed | held
  · exact Or.inl known
  · exact Or.inr (Or.inl (more v listed))
  · exact Or.inr (Or.inr held)

/-- A worker that could not be started never was listed. -/
theorem Tended.failStart (h : p.Tended own) (hworkers : q.workers = p.workers ++ [.unstarted])
    (hlisted : q.listed = (p.listed ++ [p.workers.length]).erase p.workers.length)
    (hreleases : q.releases = p.releases) : q.Tended own := by
  apply h.strike _ hlisted _ hreleases
  · intro v live
    rw [liveAt_of_append hworkers] at live
    split at live
    · cases live
    · rename_i other
      exact ⟨other, live⟩
  · exact fun v => List.mem_append_left _

/-- A worker that expires takes nobody's handle with it but its own. -/
theorem Tended.expire (h : p.Tended own) (at_w : p.workers[w]? = some .woken)
    (hworkers : q.workers = p.workers.set w .exited) (hlisted : q.listed = p.listed.erase w)
    (hreleases : q.releases = p.releases) : q.Tended own := by
  apply h.strike _ hlisted _ hreleases
  · intro v live
    rw [liveAt_of_set at_w hworkers] at live
    split at live
    · cases live
    · rename_i other
      exact ⟨other, live⟩
  · exact fun v => id

/-- The release that closes the pool takes all handles. -/
theorem Tended.close (h : p.Tended own) {run : Option Nat}
    (at_r : p.releases[r]? = some (.called run))
    (alive : ∀ w, q.liveAt w = true → p.liveAt w = true)
    (hreleases : q.releases = p.releases.set r (.closed run (p.listed ++ p.retired))) :
    q.Tended own := by
  intro w live
  have taken := List.mem_set (List.getElem?_eq_some_iff.mp at_r).1
    (Release.closed run (p.listed ++ p.retired))
  rw [hreleases]
  rcases h w (alive w live) with known | listed | ⟨place, hplace, held⟩
  · exact Or.inl known
  · exact Or.inr (Or.inr ⟨_, taken, List.mem_append_left _ listed⟩)
  · refine Or.inr (Or.inr ?_)
    rcases mem_releases_set at_r _ hplace with still | ⟨rfl, -⟩
    · exact ⟨place, still, held⟩
    · cases held

/-- A release goes on and holds on to every handle, except to those of workers that are dead or on
whose threads releases run. -/
theorem Tended.set (h : p.Tended own) (at_r : p.releases[r]? = some old)
    (keeps : ∀ w ∈ old.handles, own w ∨ w ∈ new.handles ∨ p.liveAt w = false)
    (alive : ∀ w, q.liveAt w = true → p.liveAt w = true)
    (hlisted : q.listed = p.listed) (hreleases : q.releases = p.releases.set r new) :
    q.Tended own := by
  intro w live
  rw [hlisted, hreleases]
  rcases h w (alive w live) with known | listed | ⟨place, hplace, held⟩
  · exact Or.inl known
  · exact Or.inr (Or.inl listed)
  · rcases mem_releases_set at_r new hplace with still | ⟨rfl, now⟩
    · exact Or.inr (Or.inr ⟨place, still, held⟩)
    · rcases keeps w held with known | kept | dead
      · exact Or.inl known
      · exact Or.inr (Or.inr ⟨new, now, kept⟩)
      · rw [alive w live] at dead
        cases dead

/-- As a pool moves, each live worker that made no release stays listed, or a release holds its
handle. -/
theorem Tended.move (h : p.Tended own) (from_own : p.ReleasedFrom own) (hc : Change p .move q) :
    q.Tended own := by
  cases hc with
  | reapNone | reap | refuseClosed | refuseFull | block | sleepOn | accept | stirSubmitter =>
    exact h.same (fun _ => id) rfl rfl
  | acceptStarting => exact h.hire rfl rfl rfl
  | failStart => exact h.failStart rfl rfl rfl
  | announce s workers at_s roused => exact h.same (live_before_rouse roused rfl) rfl rfl
  | stirWorker w at_w => exact h.same (live_before_set at_w rfl fun _ => rfl) rfl rfl
  | take w x task rest at_w awake | park w x at_w awake | leave w x at_w awake =>
    exact h.same (live_before_set at_w rfl fun _ => (isLive_of_isAwake awake).1) rfl rfl
  | expire w at_w => exact h.expire at_w rfl rfl rfl
  | finish w task escape at_w | giveBack w task submissions at_w =>
    exact h.same (live_before_set at_w rfl fun _ => rfl) rfl rfl
  | close r run at_r => exact h.close at_r (fun _ => id) rfl
  | alertWorkers r run handles at_r =>
    refine h.set at_r ?_ (live_before_wake rfl) rfl rfl
    exact fun w held => Or.inr (Or.inl held)
  | alertSubmitters r run handles at_r =>
    refine h.set at_r (fun w held => Or.inr (Or.inl ?_)) (fun _ => id) rfl rfl
    have held : w ∈ handles := held
    split
    · rename_i nothing
      rw [nothing] at held
      cases held
    · exact held
  | join r run w rest at_r is_over =>
    refine h.set at_r (fun v held => ?_) (fun _ => id) rfl rfl
    rcases List.mem_cons.mp held with rfl | later
    · rcases is_over with rfl | exited
      · exact Or.inl (from_own _ (List.mem_of_getElem? at_r) v rfl)
      · refine Or.inr (Or.inr ?_)
        rw [liveAt, exited]
        rfl
    · refine Or.inr (Or.inl ?_)
      split
      · rename_i last
        rw [last] at later
        cases later
      · exact later

/-- A call leaves every handle where it is. -/
theorem Tended.call (h : p.Tended own) (hc : Change p .call q) : q.Tended own := by
  cases hc with
  | refuseEmpty | arrive | arriveReaping => exact h
  | callRelease run =>
    intro w live
    rcases h w live with known | listed | ⟨place, hplace, held⟩
    · exact Or.inl known
    · exact Or.inr (Or.inl listed)
    · exact Or.inr (Or.inr ⟨place, List.mem_append_left _ hplace, held⟩)

/-- A release is called on the thread of one of `own`, or on that of no worker. -/
theorem ReleasedFrom.call (h : p.ReleasedFrom own) {run : Option Nat}
    (known : ∀ w, run = some w → own w) (hreleases : q.releases = p.releases ++ [.called run]) :
    q.ReleasedFrom own := by
  intro place hplace w hw
  rw [hreleases] at hplace
  rcases List.mem_append.mp hplace with before | new
  · exact h place before w hw
  · rw [List.mem_singleton.mp new] at hw
    exact known w hw

/-- Releases go on coming from the workers that are known to make them. -/
theorem ReleasedFrom.step (h : p.ReleasedFrom own) {e : Event τ}
    (known : ∀ w, e = .release (some w) → own w) (hstep : p.step e = some q) :
    q.ReleasedFrom own := by
  cases e with
  | submit task =>
    cases hstep
    cases task with
    | none => exact h
    | some task =>
      rw [submit]
      split <;> exact h
  | finish w escape => exact h.move (change_of_finish hstep)
  | release run =>
    cases hstep
    exact h.call (fun w hw => known w (hw ▸ rfl)) rfl
  | move m =>
    rcases change_of_move hstep with hc | ⟨m, hm, hc⟩
    · exact h.move hc
    · exact (h.move hm).move hc

/-- Every step of a pool keeps both. -/
theorem Tended.step (h : p.Tended own) (from_own : p.ReleasedFrom own) {e : Event τ}
    (known : ∀ w, e = .release (some w) → own w) (hstep : p.step e = some q) :
    q.ReleasedFrom own ∧ q.Tended own := by
  refine ⟨from_own.step known hstep, ?_⟩
  cases e with
  | submit task =>
    cases hstep
    exact h.call (change_of_submit p task)
  | finish w escape => exact h.move from_own (change_of_finish hstep)
  | release run =>
    cases hstep
    exact h.call (Change.callRelease run)
  | move m =>
    rcases change_of_move hstep with hc | ⟨m, hm, hc⟩
    · exact h.move from_own hc
    · exact (h.move from_own hm).move (from_own.move hm) hc

/-! ## Closed pools -/

/-- A closed pool stays closed. -/
theorem Change.closed_mono {c : Cause} (hc : Change p c q) (is_closed : p.closed = true) :
    q.closed = true := by
  cases hc with
  | close => rfl
  | _ => exact is_closed

/-- A pool that is closed stays so. -/
theorem closed_of_step {e : Event τ} (hstep : p.step e = some q) (is_closed : p.closed = true) :
    q.closed = true := by
  rcases change_of_step hstep with ⟨c, hc⟩ | ⟨m, hm, hc⟩
  · exact hc.closed_mono is_closed
  · exact hc.closed_mono (hm.closed_mono is_closed)

/-- A pool stays sealed where its handles stay. -/
theorem Sealed.same (h : p.Sealed) (hclosed : q.closed = p.closed) (hlisted : q.listed = p.listed)
    (hretired : q.retired = p.retired) (hreleases : q.releases = p.releases) : q.Sealed := by
  constructor
  · rw [hclosed, hlisted, hretired]
    exact h.emptied
  · rw [hclosed, hreleases]
    exact h.closed_of

/-- An open pool may list what it likes. -/
theorem Sealed.open (h : p.Sealed) (is_open : p.closed = false) (hclosed : q.closed = p.closed)
    (hreleases : q.releases = p.releases) : q.Sealed := by
  constructor
  · intro is_closed
    rw [hclosed, is_open] at is_closed
    cases is_closed
  · rw [hclosed, hreleases]
    exact h.closed_of

/-- A pool stays sealed where a release that has closed it goes on. -/
theorem Sealed.set (h : p.Sealed) (at_r : p.releases[r]? = some old)
    (beyond : old.isCalled = false) (hclosed : q.closed = p.closed)
    (hlisted : q.listed = p.listed) (hretired : q.retired = p.retired)
    (hreleases : q.releases = p.releases.set r new) : q.Sealed := by
  constructor
  · rw [hclosed, hlisted, hretired]
    exact h.emptied
  · intro place hplace later
    rw [hclosed]
    rw [hreleases] at hplace
    rcases List.mem_or_eq_of_mem_set hplace with before | rfl
    · exact h.closed_of place before later
    · exact h.closed_of old (List.mem_of_getElem? at_r) beyond

/-- In every step a closed pool stays without handles of its own. -/
theorem Sealed.change (h : p.Sealed) {c : Cause} (hc : Change p c q) : q.Sealed := by
  cases hc with
  | refuseEmpty | arrive | reapNone | reap | refuseClosed | refuseFull | block | sleepOn | accept
  | stirSubmitter | announce | stirWorker | take | leave | park | finish | giveBack =>
    exact h.same rfl rfl rfl rfl
  | arriveReaping =>
    constructor
    · intro is_closed
      exact ⟨(h.emptied is_closed).1, rfl⟩
    · exact h.closed_of
  | acceptStarting s x task at_s asks is_open | failStart s x task submissions at_s asks is_open =>
    exact h.open is_open rfl rfl
  | expire w at_w queue_eq is_open => exact h.open is_open rfl rfl
  | callRelease run =>
    constructor
    · exact h.emptied
    · intro place hplace later
      rcases List.mem_append.mp hplace with before | new
      · exact h.closed_of place before later
      · rw [List.mem_singleton.mp new] at later
        cases later
  | close r run at_r =>
    constructor
    · intro _
      exact ⟨rfl, rfl⟩
    · intro place _ _
      rfl
  | alertWorkers r run handles at_r | alertSubmitters r run handles at_r
  | join r run w rest at_r => exact h.set at_r rfl rfl rfl rfl rfl

/-- A closed pool has no handles of its own left. -/
theorem Arises.sealed (h : p.Arises) : p.Sealed := by
  induction h with
  | create hc =>
    obtain ⟨-, -, rfl⟩ := eq_of_create hc
    exact ⟨nofun, nofun⟩
  | change _ hc ih => exact ih.change hc

/-- A release that has returned stays so. -/
theorem Change.still_returned {c : Cause} (hc : Change p c q)
    (has_returned : Release.returned ∈ p.releases) :
    Release.returned ∈ q.releases := by
  have still {r : Nat} {old new : Release} (at_r : p.releases[r]? = some old)
      (other : old ≠ .returned) : Release.returned ∈ p.releases.set r new := by
    rcases mem_releases_set at_r new has_returned with still | ⟨same, -⟩
    · exact still
    · exact absurd same.symm other
  cases hc with
  | callRelease run => exact List.mem_append_left _ has_returned
  | close r run at_r | alertWorkers r run handles at_r | alertSubmitters r run handles at_r
  | join r run w rest at_r => exact still at_r nofun
  | refuseEmpty | arrive | arriveReaping | reapNone | reap | refuseClosed | refuseFull | block
  | sleepOn | accept | acceptStarting | failStart | stirSubmitter | announce | stirWorker | take
  | leave | expire | park | finish | giveBack => exact has_returned

/-- A release that has returned stays so. -/
theorem still_returned_of_step {e : Event τ} (hstep : p.step e = some q)
    (has_returned : Release.returned ∈ p.releases) : Release.returned ∈ q.releases := by
  rcases change_of_step hstep with ⟨c, hc⟩ | ⟨m, hm, hc⟩
  · exact hc.still_returned has_returned
  · exact hc.still_returned (hm.still_returned has_returned)

/-! ## When nobody is left -/

/-- Once a release has returned, a live worker is one on whose thread a release ran, or some other
release still holds its handle. -/
theorem Tended.held_of_returned (h : p.Tended own) (arises : p.Arises)
    (has_returned : Release.returned ∈ p.releases) (live : p.liveAt w = true) :
    own w ∨ ∃ place ∈ p.releases, w ∈ place.handles := by
  have is_closed : p.closed = true := arises.sealed.closed_of _ has_returned rfl
  have hlisted := (arises.sealed.emptied is_closed).1
  rcases h w live with known | listed | held
  · exact Or.inl known
  · rw [hlisted] at listed
    cases listed
  · exact Or.inr held

/-- A pool has no live workers if none of them is live. -/
theorem live_eq_zero (dead : ∀ w, p.liveAt w = false) : p.live = 0 := by
  rw [live, List.countP_eq_zero]
  intro x hx live
  obtain ⟨w, at_w⟩ := List.getElem?_of_mem hx
  have := dead w
  rw [liveAt, at_w, Option.any_some, live] at this
  cases this

/-- A pool in which no worker is left has run every task that it accepted. -/
theorem Arises.ended_perm (h : p.Arises) (nobody : p.live = 0) :
    p.queue = [] ∧ p.ended.Perm p.accepted := by
  have hstaffed := h.staffed
  have hexecuting := executing_le_live p
  constructor
  · have hidle := hstaffed.idle_eq
    have hqueue := hstaffed.queue_le
    exact List.length_eq_zero_iff.mp (by omega)
  · classical
    rw [List.perm_iff_count]
    intro task
    exact (h.drained nobody (· == task)).2

end

end Pool

end TaskPools
