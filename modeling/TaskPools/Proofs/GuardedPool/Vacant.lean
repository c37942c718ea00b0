/-
# A pool that nobody submitted to

Such a pool has no workers (`Pool.Vacant`), so a release of it has nobody to wait for.  All that
ever moves there are its releases, and each move brings one of them a step nearer to its end
(`Reachable.stepsLeft_lt`), whether threads can be started or not (`Reachable.exists_move`): a
release of it can always go on until it returns, without anybody's help (`Reachable.can_return`).
-/
import Mathlib.Logic.Relation
import TaskPools.Proofs.GuardedPool.Answers

namespace TaskPools

variable {τ : Type}

/-- The release has no worker to wait for. -/
def Release.isVacant : Release → Bool
  | called _ | closed _ [] | alerting _ [] | returned => true
  | closed _ (_ :: _) | alerting _ (_ :: _) | joining _ _ => false

/-- How many steps a release takes before it returns or waits for a worker. -/
def Release.stepsLeft : Release → Nat
  | called _ => 3
  | closed _ _ => 2
  | alerting _ _ => 1
  | joining _ _ | returned => 0

/-- The release of the pool that a release with a bounded wait has started. -/
def TimedRelease.started? : TimedRelease → Option Nat
  | .waiting r _ | .inline r => some r
  | .begun _ _ | .returned _ => none

/-- How many steps a release with a bounded wait takes before it returns, those of the release that
it starts included. -/
def TimedRelease.stepsLeft : TimedRelease → Nat
  | .begun _ _ => 5
  | .waiting _ _ | .inline _ => 1
  | .returned _ => 0

/-- A release is called, or one release goes on without having a worker to wait for. -/
def Release.Proceeds (before after : List Release) : Prop :=
  (∃ own, after = before ++ [.called own]) ∨
    ∃ (r : Nat) (place next : Release), before[r]? = some place ∧ after = before.set r next ∧
      next.isVacant = true ∧ next.stepsLeft < place.stepsLeft

namespace Pool

/-- A pool without submissions has no workers, and its releases wait for none. -/
structure Vacant (p : Pool τ) : Prop where
  workers : p.workers = []
  listed : p.listed = []
  retired : p.retired = []
  releases : ∀ place ∈ p.releases, place.isVacant = true

/-- How many steps the releases take before they return. -/
def stepsLeft (p : Pool τ) : Nat := (p.releases.map Release.stepsLeft).sum

section

variable {p q : Pool τ} {c : Cause} {m : Move} {r : Nat}

/-- In a vacant pool no release has a handle to join. -/
theorem Vacant.vacant_at (h : p.Vacant) {place : Release} (at_r : p.releases[r]? = some place) :
    place.isVacant = true :=
  h.releases place (List.mem_of_getElem? at_r)

/-- Only submissions bring workers, so without them nothing can change but the releases. -/
theorem Vacant.proceeds (h : p.submissions = [] → p.Vacant) (hc : Change p c q)
    (unused : q.submissions = []) :
    p.Vacant ∧ Release.Proceeds p.releases q.releases ∧
      q.workers = [] ∧ q.listed = [] ∧ q.retired = [] := by
  -- a change of one submission or of one worker needs one that is there
  have no_submission {s : Nat} {x : Submission τ} (unused : p.submissions = []) :
      p.submissions[s]? ≠ some x := by
    rw [unused]
    nofun
  have no_worker {w : Nat} {x : Worker τ} (unused : p.submissions = []) :
      p.workers[w]? ≠ some x := by
    rw [(h unused).workers]
    nofun
  cases hc with
  | refuseEmpty | arrive | arriveReaping => exact absurd unused (by simp)
  | reapNone s _ at_s | reap s _ _ _ at_s | refuseClosed s _ _ at_s | refuseFull s _ at_s
  | block s _ at_s | sleepOn s _ _ at_s | accept s _ _ at_s | acceptStarting s _ _ at_s
  | stirSubmitter s _ at_s | announce s _ at_s =>
    exact absurd at_s (no_submission (by simpa using unused))
  | failStart s x task submissions at_s asks is_open free short told =>
    have none_told : submissions = [] := by simpa using unused
    refine absurd at_s (no_submission ?_)
    cases told with
    | nobody => exact none_told
    | one => simpa using none_told
  | giveBack w task submissions at_w told =>
    refine absurd at_w (no_worker ?_)
    have none_told : submissions = [] := unused
    cases told with
    | nobody => exact none_told
    | one => simpa using none_told
  | stirWorker w at_w | take w _ _ _ at_w | leave w _ at_w | expire w at_w | park w _ at_w
  | finish w _ _ at_w => exact absurd at_w (no_worker unused)
  | callRelease own =>
    have before := h unused
    exact ⟨before, Or.inl ⟨own, rfl⟩, before.workers, before.listed, before.retired⟩
  | close r own at_r =>
    have before := h unused
    have nobody : p.listed ++ p.retired = [] := by
      rw [before.listed, before.retired, List.nil_append]
    exact ⟨before, Or.inr ⟨r, _, _, at_r, rfl, by rw [nobody]; rfl, Nat.lt_succ_self 2⟩,
      before.workers, rfl, rfl⟩
  | alertWorkers r own handles at_r =>
    have before := h unused
    have vacant := before.vacant_at at_r
    refine ⟨before, Or.inr ⟨r, _, _, at_r, rfl, ?_, Nat.lt_succ_self 1⟩, ?_, before.listed,
      before.retired⟩
    · cases handles with
      | nil => rfl
      | cons => cases vacant
    · simp [before.workers]
  | alertSubmitters r own handles at_r =>
    have before := h (by simpa using unused)
    have vacant := before.vacant_at at_r
    cases handles with
    | nil => exact ⟨before, Or.inr ⟨r, _, _, at_r, rfl, rfl, Nat.lt_succ_self 0⟩, before.workers,
        before.listed, before.retired⟩
    | cons => cases vacant
  | join r own w rest at_r => cases (h unused).vacant_at at_r

/-- A pool without submissions stays vacant. -/
theorem Vacant.change (h : p.submissions = [] → p.Vacant) (hc : Change p c q)
    (unused : q.submissions = []) : q.Vacant := by
  obtain ⟨before, proceeds, workers, listed, retired⟩ := Vacant.proceeds h hc unused
  refine ⟨workers, listed, retired, fun place hplace => ?_⟩
  rcases proceeds with ⟨own, after⟩ | ⟨r, old, next, -, after, vacant, -⟩
  · rw [after] at hplace
    rcases List.mem_append.mp hplace with hplace | hplace
    · exact before.releases place hplace
    · rw [List.mem_singleton.mp hplace]
      rfl
  · rw [after] at hplace
    rcases List.mem_or_eq_of_mem_set hplace with hplace | rfl
    · exact before.releases place hplace
    · exact vacant

/-- A pool without submissions is vacant. -/
theorem Arises.vacant (h : p.Arises) (unused : p.submissions = []) : p.Vacant := by
  induction h with
  | create hc =>
    obtain ⟨-, -, rfl⟩ := eq_of_create hc
    exact ⟨rfl, rfl, rfl, nofun⟩
  | change _ hc ih => exact Vacant.change ih hc unused

/-! ## How far the releases of a vacant pool are from their end -/

/-- Every move of a vacant pool brings it nearer to its end. -/
theorem Vacant.stepsLeft_lt (h : p.Vacant) (unused : p.submissions = [])
    (hc : Change p .move q) : q.submissions = [] ∧ q.stepsLeft < p.stepsLeft := by
  have still_unused : q.submissions = [] := by
    rw [← List.length_eq_zero_iff, hc.length_submissions, unused]
    rfl
  obtain ⟨-, proceeds, -⟩ := Vacant.proceeds (fun _ => h) hc still_unused
  refine ⟨still_unused, ?_⟩
  rcases proceeds with ⟨own, after⟩ | ⟨r, place, next, at_r, after, -, nearer⟩
  · have same := hc.length_releases
    rw [after, List.length_append, List.length_singleton] at same
    omega
  · have total := sum_map_set_add Release.stepsLeft at_r next
    rw [stepsLeft, stepsLeft, after]
    omega

theorem Vacant.stepsLeft_lt_of_move (h : p.Vacant) (unused : p.submissions = [])
    (moves : p.move m = some q) : q.stepsLeft < p.stepsLeft := by
  rcases change_of_move moves with hc | ⟨p', hc, hc'⟩
  · exact (h.stepsLeft_lt unused hc).2
  · obtain ⟨still_unused, nearer⟩ := h.stepsLeft_lt unused hc
    have vacant := Vacant.change (fun _ => h) hc still_unused
    exact Nat.lt_trans (vacant.stepsLeft_lt still_unused hc').2 nearer

/-- A release of a vacant pool that has not returned can go on. -/
theorem Vacant.exists_move (h : p.Vacant) {place : Release} (at_r : p.releases[r]? = some place)
    (is_open : place ≠ .returned) :
    ∃ m q, m ∈ [.close r, .alertWorkers r, .alertSubmitters r] ∧ p.move m = some q := by
  have vacant := h.vacant_at at_r
  cases place with
  | called own => exact ⟨.close r, _, by simp, by rw [move, close, at_r]⟩
  | closed own handles => exact ⟨.alertWorkers r, _, by simp, by rw [move, alertWorkers, at_r]⟩
  | alerting own handles =>
    exact ⟨.alertSubmitters r, _, by simp, by rw [move, alertSubmitters, at_r]⟩
  | joining => cases vacant
  | returned => exact absurd rfl is_open

end

end Pool

namespace GuardedPool

/-- The move is a step of a release, and the thread that it needs, if it needs one, can be started
or not as `start` says. -/
def Move.ofRelease (start : Bool) : Move → Bool
  | .launch _ started => started == start
  | .pool (.close _) | .pool (.alertWorkers _) | .pool (.alertSubmitters _) | .complete _
  | .elapse _ => true
  | _ => false

/-- A guarded pool goes on by itself, and no task of it ends. -/
def GoesOn (g g' : GuardedPool τ) : Prop :=
  ∃ move, (∀ w panic escape, move ≠ .conclude w panic escape) ∧ g.step (.move move) = some g'

/-- What a release has started is a release of the pool. -/
def Backed (g : GuardedPool τ) : Prop :=
  ∀ place ∈ g.releases, ∀ r, place.started? = some r → r < g.pool.releases.length

/-- How many steps the releases of a pool without submissions take before all have returned. -/
def stepsLeft (g : GuardedPool τ) : Nat :=
  (g.releases.map TimedRelease.stepsLeft).sum + g.pool.stepsLeft

section

variable {g g' : GuardedPool τ} {e : Event τ} {m : Move} {t r : Nat}

/-- Launched releases stay backed where they stay and no release of the pool inside goes away. -/
theorem Backed.keep (h : g.Backed) (hreleases : g'.releases = g.releases)
    (hlength : g.pool.releases.length ≤ g'.pool.releases.length) : g'.Backed := by
  intro place hplace r started
  rw [hreleases] at hplace
  exact Nat.lt_of_lt_of_le (h place hplace r started) hlength

/-- Launched releases stay backed where one of them is launched or goes on. -/
theorem Backed.set (h : g.Backed) {new : TimedRelease}
    (hreleases : g'.releases = g.releases.set t new)
    (hlength : g.pool.releases.length ≤ g'.pool.releases.length)
    (hnew : ∀ r, new.started? = some r → r < g'.pool.releases.length) : g'.Backed := by
  intro place hplace r started
  rw [hreleases] at hplace
  rcases List.mem_or_eq_of_mem_set hplace with before | rfl
  · exact Nat.lt_of_lt_of_le (h place before r started) hlength
  · exact hnew r started

/-- In every step each launched release has its release in the pool inside. -/
theorem Backed.change (h : g.Backed) (hc : Change g e g') : g'.Backed := by
  cases hc with
  | submit task =>
    refine h.keep rfl (Nat.le_of_eq ?_)
    cases task with
    | none => rfl
    | some task =>
      rw [Pool.submit]
      split <;> rfl
  | release own bound =>
    intro place hplace r started
    rcases List.mem_append.mp hplace with before | new
    · exact h place before r started
    · rw [List.mem_singleton.mp new] at started
      cases started
  | pool m p moves =>
    refine h.keep rfl (Nat.le_of_eq ?_)
    rcases Pool.change_of_move moves with hc | ⟨p', hc, hc'⟩
    · exact hc.length_releases.symm
    · exact (hc'.length_releases.trans hc.length_releases).symm
  | returns w escape p finishes | panics w panic escape p finishes =>
    exact h.keep rfl (Nat.le_of_eq (Pool.change_of_finish finishes).length_releases.symm)
  | answer s fault =>
    refine h.keep (releases_count g fault) (Nat.le_of_eq ?_)
    exact congrArg (fun p : Pool τ => p.releases.length) (pool_count g fault).symm
  | launch t own bound at_t | launchInline t own bound at_t =>
    refine h.set rfl ?_ fun r started => ?_
    · rw [List.length_append]
      exact Nat.le_add_right _ _
    · cases started
      rw [List.length_append]
      exact Nat.lt_succ_self _
  | complete | elapse =>
    refine h.set rfl (Nat.le_refl _) fun r started => ?_
    cases started
  | sample | gauge => exact h.keep rfl (Nat.le_refl _)

/-- In every reachable guard each launched release has its release in the pool inside. -/
theorem Reachable.backed (h : g.Reachable) : g.Backed := by
  induction h with
  | create hcreate =>
    obtain ⟨-, pool, hpool, rfl⟩ := eq_of_create hcreate
    exact nofun
  | step _ hstep ih => exact ih.change (change_of_step hstep)

/-- A guard that was handed nothing has a vacant pool inside. -/
theorem Reachable.vacant (h : g.Reachable) (unused : g.replies = []) :
    g.pool.submissions = [] ∧ g.pool.Vacant := by
  have none_made : g.pool.submissions = [] := by
    rw [← List.length_eq_zero_iff, ← h.answered.length_eq, unused]
    rfl
  exact ⟨none_made, h.pool.arises.vacant none_made⟩

/-! ## The releases of a vacant pool go on to their ends -/

/-- A release that begins adds its own steps. -/
theorem stepsLeft_release (g : GuardedPool τ) (own : Option Nat) (bound : Int64) :
    stepsLeft { g with releases := g.releases ++ [.begun own bound] } = g.stepsLeft + 5 := by
  rw [stepsLeft, stepsLeft, List.map_append, List.sum_append, List.map_singleton,
    List.sum_singleton, Nat.add_right_comm]
  rfl

/-- Whatever moves in a pool without submissions, its releases are nearer to their ends. -/
theorem Reachable.stepsLeft_lt (h : g.Reachable) (unused : g.replies = [])
    (moves : g.step (.move m) = some g') : g'.replies = [] ∧ g'.stepsLeft < g.stepsLeft := by
  obtain ⟨none_made, vacant⟩ := h.vacant unused
  -- a release that starts leaves four of its five steps to the release of the pool
  have starts {t : Nat} {own own' : Option Nat} {bound : Int64} {place : TimedRelease}
      (at_t : g.releases[t]? = some (.begun own bound)) (one_left : place.stepsLeft = 1) :
      ((g.releases.set t place).map TimedRelease.stepsLeft).sum
        + ((g.pool.releases ++ [Release.called own']).map Release.stepsLeft).sum < g.stepsLeft := by
    have total := sum_map_set_add TimedRelease.stepsLeft at_t place
    have five : (TimedRelease.begun own bound).stepsLeft = 5 := rfl
    have three : (Release.called own').stepsLeft = 3 := rfl
    rw [stepsLeft, Pool.stepsLeft, List.map_append, List.sum_append, List.map_singleton,
      List.sum_singleton]
    omega
  cases change_of_step moves with
  | pool m p pool_moves =>
    exact ⟨unused, Nat.add_lt_add_left (vacant.stepsLeft_lt_of_move none_made pool_moves) _⟩
  | returns w escape p finishes | panics w panic escape p finishes =>
    have nearer := (vacant.stepsLeft_lt none_made (Pool.change_of_finish finishes)).2
    exact ⟨unused, Nat.add_lt_add_left nearer _⟩
  | answer s fault settled open_s =>
    rw [unused] at open_s
    cases open_s
  | launch t own bound at_t | launchInline t own bound at_t =>
    refine ⟨unused, starts at_t ?_⟩
    rfl
  | complete t r at_t =>
    refine ⟨unused, Nat.add_lt_add_right ?_ _⟩
    rcases at_t with ⟨bound, at_t⟩ | at_t
    · exact Nat.lt_of_succ_le (Nat.le_of_eq (sum_map_set_add TimedRelease.stepsLeft at_t _))
    · exact Nat.lt_of_succ_le (Nat.le_of_eq (sum_map_set_add TimedRelease.stepsLeft at_t _))
  | elapse t r bound at_t =>
    refine ⟨unused, Nat.add_lt_add_right ?_ _⟩
    exact Nat.lt_of_succ_le (Nat.le_of_eq (sum_map_set_add TimedRelease.stepsLeft at_t _))

/-- A release of a pool without submissions that has not returned can go on, whether a thread can be
started for it or not. -/
theorem Reachable.exists_move (h : g.Reachable) (unused : g.replies = []) {place : TimedRelease}
    (at_t : g.releases[t]? = some place) (is_open : place.hasReturned = false) (start : Bool) :
    ∃ m g', m.ofRelease start = true ∧ g.step (.move m) = some g' := by
  -- what is started is over, or it can go on
  have goes_on {r : Nat} (started : place.started? = some r) :
      ∃ m g', m.ofRelease start = true ∧ g.step (.move m) = some g' := by
    have in_range : r < g.pool.releases.length :=
      h.backed place (List.mem_of_getElem? at_t) r started
    have at_r := List.getElem?_eq_getElem in_range
    by_cases is_over : g.pool.releases[r] = .returned
    · refine ⟨.complete t, g.setRelease t (.returned none), rfl, ?_⟩
      rw [is_over] at at_r
      rw [GuardedPool.step, GuardedPool.move, complete, at_t]
      cases place with
      | waiting r' bound | inline r' =>
        cases started
        exact if_pos at_r
      | begun | returned => cases started
    · obtain ⟨m, p, among, moves⟩ := (h.vacant unused).2.exists_move at_r is_over
      refine ⟨.pool m, { g with pool := p }, ?_, ?_⟩
      · simp only [List.mem_cons, List.not_mem_nil, or_false] at among
        rcases among with rfl | rfl | rfl <;> rfl
      · rw [GuardedPool.step, GuardedPool.move, onPool, Pool.step, moves]
        rfl
  cases place with
  | begun own bound =>
    have launches : ∃ g', g.step (.move (.launch t start)) = some g' := by
      rw [GuardedPool.step, GuardedPool.move, launch, at_t]
      cases start with
      | true => exact ⟨_, rfl⟩
      | false => exact ⟨_, rfl⟩
    obtain ⟨g', launches⟩ := launches
    exact ⟨.launch t start, g', beq_self_eq_true start, launches⟩
  | waiting r bound | inline r => exact goes_on rfl
  | returned fault => cases is_open

/-- A release of a pool that nobody submitted to can always return. -/
theorem Reachable.can_return (h : g.Reachable) (unused : g.replies = []) {place : TimedRelease}
    (at_t : g.releases[t]? = some place) :
    ∃ g', Relation.ReflTransGen GoesOn g g' ∧
      ∃ fault, g'.releases[t]? = some (.returned fault) := by
  induction hn : g.stepsLeft using Nat.strongRecOn generalizing g place with
  | ind n ih =>
    by_cases is_over : place.hasReturned = true
    · cases place with
      | returned fault => exact ⟨g, .refl, fault, at_t⟩
      | begun | waiting | inline => cases is_over
    · obtain ⟨m, g₁, of_release, moves⟩ := h.exists_move unused at_t (by simpa using is_over) true
      obtain ⟨still_unused, nearer⟩ := h.stepsLeft_lt unused moves
      have in_range : t < g₁.releases.length := by
        rw [(change_of_step moves).length_releases]
        exact (List.getElem?_eq_some_iff.mp at_t).1
      obtain ⟨g', onward, returned⟩ := ih _ (hn ▸ nearer) (h.step moves) still_unused
        (List.getElem?_eq_getElem in_range) rfl
      have not_end (w : Nat) (panic escape : Option Panic) : m ≠ .conclude w panic escape := by
        rintro rfl
        cases of_release
      exact ⟨g', .head ⟨m, not_end, moves⟩ onward, returned⟩

end

end GuardedPool

end TaskPools
