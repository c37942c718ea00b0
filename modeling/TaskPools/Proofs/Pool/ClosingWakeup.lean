/-
# Nobody sleeps on in a closed pool

A release that has closed the pool wakes the workers and then the blocked submitters, and it does so
after it has let go of the mutex.  Until then some sleep in a closed pool; but as long as one does,
a release is about to wake them (`SleepersAwaited`).
-/
import TaskPools.Proofs.Pool.SlotWakeup
import TaskPools.Proofs.Pool.TaskWakeup

namespace TaskPools

variable {τ : Type}

namespace Release

/-- About to wake the workers, and the submitters after them. -/
def wakesWorkers : Release → Bool
  | closed _ _ => true
  | _ => false

/-- About to wake the submitters, perhaps after the workers. -/
def wakesSubmitters : Release → Bool
  | closed _ _ | alerting _ _ => true
  | _ => false

end Release

namespace Pool

/-- Whoever sleeps in a closed pool will be woken by a release. -/
structure SleepersAwaited (p : Pool τ) : Prop where
  workers : p.closed = true → 0 < p.parked → 0 < p.releases.countP Release.wakesWorkers
  submitters : p.closed = true → 0 < p.asleep → 0 < p.releases.countP Release.wakesSubmitters

section

variable {p q : Pool τ} {r s w : Nat} {x y : Submission τ} {v z : Worker τ} {old new : Release}

theorem sleepersAwaited_of_open (is_open : q.closed = false) : q.SleepersAwaited := by
  constructor <;> intro is_closed <;> rw [is_open] at is_closed <;> cases is_closed

/-- Nobody falls asleep, and no release goes on. -/
theorem SleepersAwaited.same (h : p.SleepersAwaited) (hclosed : q.closed = p.closed)
    (hparked : q.parked ≤ p.parked) (hasleep : q.asleep ≤ p.asleep)
    (hreleases : q.releases = p.releases) : q.SleepersAwaited := by
  constructor
  · intro is_closed some_parked
    rw [hreleases]
    exact h.workers (hclosed ▸ is_closed) (by omega)
  · intro is_closed some_asleep
    rw [hreleases]
    exact h.submitters (hclosed ▸ is_closed) (by omega)

theorem SleepersAwaited.append (h : p.SleepersAwaited) (hclosed : q.closed = p.closed)
    (hworkers : q.workers = p.workers) (hsubmissions : q.submissions = p.submissions ++ [x])
    (hx : x.isParked = false) (hreleases : q.releases = p.releases) : q.SleepersAwaited := by
  apply h.same hclosed _ _ hreleases
  · apply Nat.le_of_eq
    rw [parked, hworkers, parked]
  · unfold asleep
    rw [hsubmissions, List.countP_append, List.countP_singleton, hx]
    exact Nat.le_refl _

/-- A submission changes its place and does not go to sleep. -/
theorem SleepersAwaited.shift (h : p.SleepersAwaited) (at_s : p.submissions[s]? = some x)
    (hsubmissions : q.submissions = p.submissions.set s y) (hy : y.isParked = false)
    (hclosed : q.closed = p.closed) (hparked : q.parked ≤ p.parked)
    (hreleases : q.releases = p.releases) : q.SleepersAwaited := by
  have hcount := asleep_of_set at_s hsubmissions
  rw [hy, Bool.toNat_false] at hcount
  exact h.same hclosed hparked (by omega) hreleases

/-- A worker changes its place and does not go to sleep. -/
theorem SleepersAwaited.move (h : p.SleepersAwaited) (at_w : p.workers[w]? = some v)
    (hworkers : q.workers = p.workers.set w z) (hz : z.isParked = false)
    (hclosed : q.closed = p.closed) (hasleep : q.asleep ≤ p.asleep)
    (hreleases : q.releases = p.releases) : q.SleepersAwaited := by
  have hcount := parked_of_set at_w hworkers
  rw [hz, Bool.toNat_false] at hcount
  exact h.same hclosed (by omega) hasleep hreleases

/-- A release goes on, and it has woken whom it is no longer about to wake. -/
theorem SleepersAwaited.set (h : p.SleepersAwaited) (at_r : p.releases[r]? = some old)
    (hreleases : q.releases = p.releases.set r new) (hclosed : q.closed = p.closed)
    (workers : (new.wakesWorkers = old.wakesWorkers ∧ q.parked = p.parked) ∨ q.parked = 0)
    (submitters : (new.wakesSubmitters = old.wakesSubmitters ∧ q.asleep = p.asleep) ∨
      q.asleep = 0) : q.SleepersAwaited := by
  constructor
  · intro is_closed some_parked
    have hcount := countP_set_add Release.wakesWorkers at_r new
    rcases workers with ⟨same, hparked⟩ | nobody
    · have := h.workers (hclosed ▸ is_closed) (by omega)
      rw [hreleases]
      rw [same] at hcount
      omega
    · omega
  · intro is_closed some_asleep
    have hcount := countP_set_add Release.wakesSubmitters at_r new
    rcases submitters with ⟨same, hasleep⟩ | nobody
    · have := h.submitters (hclosed ▸ is_closed) (by omega)
      rw [hreleases]
      rw [same] at hcount
      omega
    · omega

theorem parked_map_wake (l : List (Worker τ)) : (l.map wake).countP Worker.isParked = 0 := by
  rw [List.countP_eq_zero]
  intro x hx
  obtain ⟨x, -, rfl⟩ := List.mem_map.mp hx
  cases x <;> exact Bool.false_ne_true

theorem asleep_map_wake (l : List (Submission τ)) :
    (l.map wakeSubmitter).countP Submission.isParked = 0 := by
  rw [List.countP_eq_zero]
  intro x hx
  obtain ⟨x, -, rfl⟩ := List.mem_map.mp hx
  cases x <;> exact Bool.false_ne_true

theorem SleepersAwaited.change (h : p.SleepersAwaited) {c : Cause} (hc : Change p c q) :
    q.SleepersAwaited := by
  cases hc with
  | refuseEmpty | arrive | arriveReaping => exact h.append rfl rfl rfl rfl rfl
  -- only in an open pool does anybody fall asleep, and only there are tasks accepted
  | block s task at_s is_open | sleepOn s task told at_s is_open
  | refuseFull s task at_s is_open | accept s x task at_s asks is_open
  | acceptStarting s x task at_s asks is_open
  | failStart s x task submissions at_s asks is_open
  | park w x at_w awake queue_eq is_open | expire w at_w queue_eq is_open =>
    exact sleepersAwaited_of_open is_open
  | reapNone s task at_s | refuseClosed s x task at_s | stirSubmitter s task at_s =>
    exact h.shift at_s rfl rfl rfl (Nat.le_refl _) rfl
  | reap s task w rest at_s =>
    refine h.shift at_s rfl ?_ rfl (Nat.le_refl _) rfl
    split <;> rfl
  | announce s workers at_s roused =>
    refine h.shift at_s rfl rfl rfl ?_ rfl
    show workers.countP Worker.isParked ≤ p.workers.countP Worker.isParked
    rcases roused.counts with ⟨rfl, -⟩ | ⟨one_less, -⟩
    · exact Nat.le_refl _
    · omega
  | stirWorker w at_w => exact h.move at_w rfl rfl rfl (Nat.le_refl _) rfl
  | take w x task rest at_w | leave w x at_w => exact h.move at_w rfl rfl rfl (Nat.le_refl _) rfl
  | finish w task escape at_w => exact h.move at_w rfl rfl rfl (Nat.le_refl _) rfl
  | giveBack w task submissions at_w told =>
    refine h.move at_w rfl rfl rfl ?_ rfl
    show submissions.countP Submission.isParked ≤ p.submissions.countP Submission.isParked
    rcases told.counts with ⟨rfl, -⟩ | ⟨one_less, -⟩
    · exact Nat.le_refl _
    · omega
  | callRelease own =>
    have same (f : Release → Bool) (hf : f (.called own) = false) :
        (p.releases ++ [Release.called own]).countP f = p.releases.countP f := by
      rw [List.countP_append, List.countP_singleton, hf]
      rfl
    constructor
    · intro is_closed some_parked
      exact (same Release.wakesWorkers rfl).symm ▸ h.workers is_closed some_parked
    · intro is_closed some_asleep
      exact (same Release.wakesSubmitters rfl).symm ▸ h.submitters is_closed some_asleep
  | close r own at_r =>
    have taken := List.mem_set (List.getElem?_eq_some_iff.mp at_r).1
      (Release.closed own (p.listed ++ p.retired))
    constructor
    · intro _ _
      exact List.countP_pos_iff.mpr ⟨_, taken, rfl⟩
    · intro _ _
      exact List.countP_pos_iff.mpr ⟨_, taken, rfl⟩
  | alertWorkers r own handles at_r =>
    exact h.set at_r rfl rfl (Or.inr (parked_map_wake _)) (Or.inl ⟨rfl, rfl⟩)
  | alertSubmitters r own handles at_r =>
    refine h.set at_r rfl rfl (Or.inl ⟨?_, rfl⟩) (Or.inr (asleep_map_wake _))
    split <;> rfl
  | join r own w rest at_r =>
    refine h.set at_r rfl rfl (Or.inl ⟨?_, rfl⟩) (Or.inl ⟨?_, rfl⟩) <;> split <;> rfl

theorem Arises.sleepersAwaited (h : p.Arises) : p.SleepersAwaited := by
  induction h with
  | create hc =>
    obtain ⟨-, -, rfl⟩ := eq_of_create hc
    exact sleepersAwaited_of_open rfl
  | change _ hc ih => exact ih.change hc

end

end Pool

end TaskPools
