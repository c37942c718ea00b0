/-
# What a closed pool still does

A closed pool works off its queue and does nothing else: it accepts no submission, starts no thread
and puts no slot to use, and a submission that was blocked can only be refused (`Drains`).  That
much holds however the threads are scheduled.  In a course that holds up no client, the release that
closed the pool wakes all blocked submitters, and each of them comes to ask again and is refused
(`eventually_refused`).
-/
import Mathlib.Data.Finset.Lattice.Fold
import TaskPools.Proofs.Pool.ClosingWakeup
import TaskPools.Proofs.Pool.Course
import TaskPools.Proofs.Pool.QuietState
import TaskPools.Proofs.Pool.Staffing

namespace TaskPools

variable {τ : Type}

/-- What may become of a submission to a closed pool of this name. -/
inductive Submission.Passes (pool : String) : Submission τ → Submission τ → Prop where
  | stays (x : Submission τ) : Passes pool x x
  | reaps (task : τ) (handles rest : List Nat) :
      Passes pool (.reaping task handles) (.reaping task rest)
  | enters (task : τ) (handles : List Nat) : Passes pool (.reaping task handles) (.entering task)
  | wakes (task : τ) (told : Bool) : Passes pool (.parked task) (.woken task told)
  | refused (x : Submission τ) (task : τ) (asks : x.asking? = some task) :
      Passes pool x (.returned (some (.poolClosed pool)))
  | announces : Passes pool .announcing (.returned none)

namespace Submission

variable {x y : Submission τ}

theorem Passes.isAccepted_eq {pool : String} (h : x.Passes pool y) :
    y.isAccepted = x.isAccepted := by
  cases h with
  | refused x task asks => exact (Pool.task?_of_asking asks).2.symm
  | stays | reaps | enters | wakes | announces => rfl

/-- Nobody is blocked anew. -/
theorem Passes.isWaiting_before {pool : String} (h : x.Passes pool y)
    (waiting : y.isWaiting = true) : x.isWaiting = true := by
  cases h with
  | stays => exact waiting
  | wakes => rfl
  | reaps | enters | refused | announces => cases waiting

/-- Nobody falls asleep. -/
theorem Passes.isParked_before {pool : String} (h : x.Passes pool y)
    (asleep : y.isParked = true) : x.isParked = true := by
  cases h with
  | stays => exact asleep
  | wakes | reaps | enters | refused | announces => cases asleep

/-- Who waits in a closed pool goes on waiting or is told that it is closed. -/
theorem Passes.waiting_or_refused {pool : String} (h : x.Passes pool y)
    (waiting : x.isWaiting = true) :
    y.isWaiting = true ∨ y = .returned (some (.poolClosed pool)) := by
  cases h with
  | stays => exact Or.inl waiting
  | wakes => exact Or.inl rfl
  | refused => exact Or.inr rfl
  | reaps | enters | announces => cases waiting

theorem isParked_of_not_waiting (h : x.isWaiting = false) : x.isParked = false := by
  cases x <;> first | rfl | cases h

end Submission

namespace Pool

/-- Submission `s` is blocked: it sleeps, or its sleep is over and it has not asked again yet. -/
def blockedAt (p : Pool τ) (s : Nat) : Bool := (p.submissions[s]?).any Submission.isWaiting

/-- Submission `s` sleeps. -/
def asleepAt (p : Pool τ) (s : Nat) : Bool := (p.submissions[s]?).any Submission.isParked

/-- Submission `s` was told that the pool is closed. -/
def RefusedAt (p : Pool τ) (s : Nat) : Prop :=
  p.submissions[s]? = some (.returned (some (.poolClosed p.name)))

/-- What a closed pool comes to by its own and its clients' steps. -/
structure Drains (p q : Pool τ) : Prop where
  closed : q.closed = true
  name_eq : q.name = p.name
  started_eq : q.started = p.started
  inFlight_le : q.inFlight ≤ p.inFlight
  settled : ∀ s, q.hasAccepted s = p.hasAccepted s
  blocked_before : ∀ s, q.blockedAt s = true → p.blockedAt s = true
  asleep_before : ∀ s, q.asleepAt s = true → p.asleepAt s = true
  refused : ∀ s, p.RefusedAt s → q.RefusedAt s
  blocked_or_refused : ∀ s, p.blockedAt s = true → q.blockedAt s = true ∨ q.RefusedAt s

section

variable {p q m : Pool τ} {c : Cause} {s r : Nat} {x y : Submission τ} {e : Event τ}
  {es : List (Event τ)} {own : Option Nat} {handles : List Nat}
  {place : Release}

/-! ## Submissions to a closed pool -/

/-- What a change of a closed pool does to a submission. -/
theorem Change.passes (hc : Change p c q) (is_closed : p.closed = true)
    (at_s : p.submissions[s]? = some x) : ∃ y, q.submissions[s]? = some y ∧ x.Passes p.name y := by
  have shut {P : Prop} (is_open : p.closed = false) : P := by
    rw [is_closed] at is_open
    cases is_open
  have stays (same : q.submissions[s]? = some x) :
      ∃ y, q.submissions[s]? = some y ∧ x.Passes p.name y := ⟨x, same, .stays x⟩
  have goes_on {s' : Nat} {y z : Submission τ} (at_s' : p.submissions[s']? = some y)
      (hsubmissions : q.submissions = p.submissions.set s' z) (passes : y.Passes p.name z) :
      ∃ y, q.submissions[s]? = some y ∧ x.Passes p.name y := by
    rw [hsubmissions, getElem?_set_at at_s']
    split
    · rename_i same
      rw [same, at_s'] at at_s
      cases at_s
      exact ⟨z, rfl, passes⟩
    · exact ⟨x, at_s, .stays x⟩
  cases hc with
  | refuseEmpty | arrive | arriveReaping =>
    exact stays ((List.getElem?_append_left (List.getElem?_eq_some_iff.mp at_s).1).trans at_s)
  | reapNone s' task at_s' => exact goes_on at_s' rfl (.enters task [])
  | reap s' task w rest at_s' =>
    refine goes_on at_s' rfl ?_
    split
    · exact .enters task (w :: rest)
    · exact .reaps task (w :: rest) rest
  | refuseClosed s' y task at_s' asks => exact goes_on at_s' rfl (.refused y task asks)
  | stirSubmitter s' task at_s' => exact goes_on at_s' rfl (.wakes task false)
  | announce s' workers at_s' => exact goes_on at_s' rfl .announces
  | giveBack w task submissions at_w told =>
    cases told with
    | nobody => exact stays at_s
    | one s' task at_s' => exact goes_on at_s' rfl (.wakes task true)
  | alertSubmitters =>
    rw [List.getElem?_map, at_s]
    refine ⟨wakeSubmitter x, rfl, ?_⟩
    cases x with
    | parked task => exact .wakes task true
    | reaping | entering | woken | announcing | returned => exact .stays _
  | refuseFull s' task at_s' is_open | block s' task at_s' is_open
  | sleepOn s' task told at_s' is_open | accept s' y task at_s' asks is_open
  | acceptStarting s' y task at_s' asks is_open
  | failStart s' y task submissions at_s' asks is_open | expire w at_w queue_eq is_open
  | park w y at_w awake queue_eq is_open => exact shut is_open
  | stirWorker | take | leave | finish | callRelease | close | alertWorkers | join =>
    exact stays at_s

/-- A submission that is new has neither been blocked nor accepted yet. -/
theorem Change.new_submission (hc : Change p c q) (beyond : p.submissions[s]? = none)
    (at_s : q.submissions[s]? = some y) : y.isWaiting = false ∧ y.isAccepted = false := by
  cases c with
  | move =>
    have in_range := (List.getElem?_eq_some_iff.mp at_s).1
    rw [hc.length_submissions] at in_range
    exact absurd in_range (Nat.not_lt.mpr (List.getElem?_eq_none_iff.mp beyond))
  | call =>
    have added {z : Submission τ} (hsubmissions : q.submissions = p.submissions ++ [z])
        (hz : z.isWaiting = false ∧ z.isAccepted = false) :
        y.isWaiting = false ∧ y.isAccepted = false := by
      rw [hsubmissions, getElem?_append_one, beyond] at at_s
      split at at_s <;> cases at_s
      exact hz
    cases hc with
    | refuseEmpty | arrive | arriveReaping => exact added rfl ⟨rfl, rfl⟩
    | callRelease =>
      rw [beyond] at at_s
      cases at_s

/-- What no submission to a closed pool comes to be, and no new one is, it was before. -/
theorem Change.any_before (hc : Change p c q) (is_closed : p.closed = true)
    {f : Submission τ → Bool} (old : ∀ {x y}, x.Passes p.name y → f y = true → f x = true)
    (new : ∀ {y : Submission τ}, y.isWaiting = false → y.isAccepted = false → f y = false)
    (now : (q.submissions[s]?).any f = true) : (p.submissions[s]?).any f = true := by
  obtain ⟨y, at_s, hy⟩ := (Option.any_eq_true _ _).mp now
  cases before : p.submissions[s]? with
  | none =>
    obtain ⟨waiting, accepted⟩ := hc.new_submission before at_s
    rw [new waiting accepted] at hy
    cases hy
  | some x =>
    obtain ⟨y', at_s', passes⟩ := hc.passes is_closed before
    cases at_s.symm.trans at_s'
    exact old passes hy

/-- A closed pool comes to itself. -/
theorem Drains.refl (is_closed : p.closed = true) : Drains p p :=
  ⟨is_closed, rfl, rfl, Int.le_refl _, fun _ => rfl, fun _ => id, fun _ => id, fun _ => id,
    fun _ => Or.inl⟩

/-- What a closed pool comes to goes on in the same way. -/
theorem Drains.trans (h₁ : Drains p m) (h₂ : Drains m q) : Drains p q where
  closed := h₂.closed
  name_eq := h₂.name_eq.trans h₁.name_eq
  started_eq := h₂.started_eq.trans h₁.started_eq
  inFlight_le := Int.le_trans h₂.inFlight_le h₁.inFlight_le
  settled s := (h₂.settled s).trans (h₁.settled s)
  blocked_before s := h₁.blocked_before s ∘ h₂.blocked_before s
  asleep_before s := h₁.asleep_before s ∘ h₂.asleep_before s
  refused s := h₂.refused s ∘ h₁.refused s
  blocked_or_refused s blocked :=
    (h₁.blocked_or_refused s blocked).elim (h₂.blocked_or_refused s) (Or.inr ∘ h₂.refused s)

/-- No step changes the name of a pool. -/
theorem Change.name_eq (hc : Change p c q) : q.name = p.name :=
  congrArg Prod.fst hc.settings_eq

/-- Who was told that the pool is closed stays told. -/
theorem RefusedAt.change (h : p.RefusedAt s) (hc : Change p c q) : q.RefusedAt s := by
  rw [RefusedAt, hc.name_eq]
  exact hc.returned h

/-- A closed pool stays closed and accepts nothing, and nobody new comes to wait in it. -/
theorem Change.drains (hc : Change p c q) (is_closed : p.closed = true) : Drains p q where
  closed := hc.closed_mono is_closed
  name_eq := hc.name_eq
  started_eq := by
    refine hc.started_eq_or_accepts.resolve_right ?_
    rintro ⟨is_open, -⟩
    rw [is_closed] at is_open
    cases is_open
  inFlight_le := by
    cases hc with
    | accept s x task at_s asks is_open | acceptStarting s x task at_s asks is_open =>
      rw [is_closed] at is_open
      cases is_open
    | giveBack => exact Int.sub_le_self _ (by decide)
    | _ => exact Int.le_refl _
  settled s := by
    refine Bool.eq_iff_iff.mpr ⟨?_, fun accepted => ?_⟩
    · exact hc.any_before is_closed (fun passes => passes.isAccepted_eq.symm.trans) fun _ => id
    · obtain ⟨x, at_s, hx⟩ := (Option.any_eq_true _ _).mp accepted
      obtain ⟨y, at_s', passes⟩ := hc.passes is_closed at_s
      exact (Option.any_eq_true _ _).mpr ⟨y, at_s', passes.isAccepted_eq.trans hx⟩
  blocked_before s :=
    hc.any_before is_closed Submission.Passes.isWaiting_before fun waiting _ => waiting
  asleep_before s :=
    hc.any_before is_closed Submission.Passes.isParked_before
      fun waiting _ => Submission.isParked_of_not_waiting waiting
  refused s h := h.change hc
  blocked_or_refused s blocked := by
    obtain ⟨x, at_s, hx⟩ := (Option.any_eq_true _ _).mp blocked
    obtain ⟨y, at_s', passes⟩ := hc.passes is_closed at_s
    rcases passes.waiting_or_refused hx with waiting | rfl
    · exact Or.inl ((Option.any_eq_true _ _).mpr ⟨y, at_s', waiting⟩)
    · refine Or.inr ?_
      rw [RefusedAt, hc.name_eq]
      exact at_s'

/-- Whatever happens to it next, a closed pool drains. -/
theorem drains_of_step (hstep : p.step e = some q) (is_closed : p.closed = true) : Drains p q := by
  rcases change_of_step hstep with ⟨c, hc⟩ | ⟨m, hm, hc⟩
  · exact hc.drains is_closed
  · exact (hm.drains is_closed).trans (hc.drains (hm.closed_mono is_closed))

/-- However long it runs, a closed pool drains. -/
theorem drains_of_run (hrun : p.run es = some q) (is_closed : p.closed = true) : Drains p q :=
  run_preserves (fun h hstep => h.trans (drains_of_step hstep h.closed)) (Drains.refl is_closed)
    hrun

/-- However far its course goes, a closed pool drains. -/
theorem Course.drains (x : Course τ) {n k : Nat} (is_closed : (x.state n).closed = true)
    (hle : n ≤ k) : Drains (x.state n) (x.state k) :=
  x.keeps (fun h hc => h.trans (hc.drains h.closed)) (Drains.refl is_closed) hle

/-- The history of a run does not go on about acceptances once the pool is closed. -/
theorem admissions_of_closed {p₀ : Pool τ} {es' : List (Event τ)} (hrun : p₀.run es = some p)
    (is_closed : p.closed = true) (hrun' : p.run es' = some q) :
    p₀.admissions (es ++ es') = p₀.admissions es := by
  induction es' using List.reverseRecOn generalizing q with
  | nil => rw [List.append_nil]
  | append_singleton es' e ih =>
    obtain ⟨m, hm, hstep⟩ := run_of_append_one hrun'
    have whole : p₀.run (es ++ es') = some m := by
      rw [run, List.foldlM_append]
      exact Option.bind_eq_some_iff.mpr ⟨p, hrun, hm⟩
    have drains := drains_of_step hstep (drains_of_run hm is_closed).closed
    rw [← List.append_assoc, admissions_append_one whole, admits?_eq_none hstep drains.settled,
      Option.toList_none, List.append_nil, ih hm]

/-- Idle workers are live workers without a task. -/
theorem Arises.queue_le_idle (h : p.Arises) : p.queue.length ≤ p.parked + p.awake := by
  obtain ⟨hin, hid, hle, hcap⟩ := h.staffed
  have hlive := p.live_eq
  omega

/-! ## Everybody is woken -/

/-- A release that is about to wake the submitters stays where it is or comes to the next place, if
nobody sleeps not even that. -/
theorem Change.wakes_on (hc : Change p c q) (at_r : p.releases[r]? = some place)
    (wakes : place.wakesSubmitters = true) :
    q.releases[r]? = some place ∨
      (∃ own handles, place = .closed own handles ∧
        q.releases[r]? = some (.alerting own handles)) ∨ q.asleep = 0 := by
  -- another release goes on
  have other {r' : Nat} {old new : Release} (at_r' : p.releases[r']? = some old)
      (hreleases : q.releases = p.releases.set r' new) (hne : old ≠ place) :
      q.releases[r]? = some place := by
    rw [hreleases]
    exact getElem?_set_of_ne at_r' at_r hne
  cases hc with
  | callRelease =>
    exact Or.inl ((List.getElem?_append_left (List.getElem?_eq_some_iff.mp at_r).1).trans at_r)
  | close r' own at_r' =>
    refine Or.inl (other at_r' rfl ?_)
    rintro rfl
    cases wakes
  | alertWorkers r' own handles at_r' =>
    by_cases same : r' = r
    · subst same
      cases at_r.symm.trans at_r'
      exact Or.inr (Or.inl ⟨own, handles, rfl,
        List.getElem?_set_self (List.getElem?_eq_some_iff.mp at_r).1⟩)
    · exact Or.inl ((List.getElem?_set_ne same).trans at_r)
  | alertSubmitters => exact Or.inr (Or.inr (asleep_map_wake _))
  | join r' own w rest at_r' =>
    refine Or.inl (other at_r' rfl ?_)
    rintro rfl
    cases wakes
  | refuseEmpty | arrive | arriveReaping | reapNone | reap | refuseClosed | refuseFull | block
  | sleepOn | accept | acceptStarting | failStart | stirSubmitter | announce | stirWorker | take
  | leave | expire | park | finish | giveBack => exact Or.inl at_r

/-- The pool is closed and nobody sleeps. -/
def WideAwake (p : Pool τ) : Prop := p.closed = true ∧ p.asleep = 0

/-- The pool is closed and nobody sleeps, or release `r` is about to wake those who do. -/
def WakesNext (r : Nat) (own : Option Nat) (handles : List Nat) (p : Pool τ) : Prop :=
  p.WideAwake ∨ p.closed = true ∧ p.releases[r]? = some (.alerting own handles)

/-- Nobody falls asleep in a closed pool. -/
theorem WideAwake.change (h : p.WideAwake) (hc : Change p c q) : q.WideAwake := by
  obtain ⟨is_closed, nobody⟩ := h
  have drains := hc.drains is_closed
  refine ⟨drains.closed, countP_eq_zero_iff_any.mpr fun s => ?_⟩
  by_contra asleep
  have before := drains.asleep_before s (by simpa [asleepAt] using asleep)
  rw [asleepAt, countP_eq_zero_iff_any.mp nobody s] at before
  cases before

/-- A release that is about to wake the sleepers stays about to, until it has done so. -/
theorem WakesNext.change (h : p.WakesNext r own handles) (hc : Change p c q) :
    q.WakesNext r own handles := by
  rcases h with awake | ⟨is_closed, at_r⟩
  · exact Or.inl (awake.change hc)
  · have still := hc.closed_mono is_closed
    rcases hc.wakes_on at_r rfl with same | ⟨_, _, ⟨⟩, _⟩ | nobody
    · exact Or.inr ⟨still, same⟩
    · exact Or.inl ⟨still, nobody⟩

/-- A release that has closed the pool wakes the workers next. -/
theorem alerting_of_step (at_r : p.releases[r]? = some (.closed own handles))
    (client : e.client? = some (.release r)) (hstep : p.step e = some q) :
    q.releases[r]? = some (.alerting own handles) := by
  rcases move_of_release client with rfl | rfl | rfl | rfl <;> rw [step, move] at hstep
  · simp [close, at_r] at hstep
  · rw [alertWorkers, at_r] at hstep
    cases hstep
    exact List.getElem?_set_self (List.getElem?_eq_some_iff.mp at_r).1
  · simp [alertSubmitters, at_r] at hstep
  · simp [join, at_r] at hstep

/-- After that it wakes the submitters. -/
theorem asleep_eq_zero_of_step (at_r : p.releases[r]? = some (.alerting own handles))
    (client : e.client? = some (.release r)) (hstep : p.step e = some q) : q.asleep = 0 := by
  rcases move_of_release client with rfl | rfl | rfl | rfl <;> rw [step, move] at hstep
  · simp [close, at_r] at hstep
  · simp [alertWorkers, at_r] at hstep
  · rw [alertSubmitters, at_r] at hstep
    cases hstep
    exact asleep_map_wake _
  · simp [join, at_r] at hstep

section

variable {x : Course τ} {n : Nat}

/-- A release that has closed the pool comes to the point of waking the submitters. -/
theorem Course.Fair.leads_to_alerting (fair : x.Fair) (is_closed : (x.state n).closed = true)
    (at_r : (x.state n).releases[r]? = some (.closed own handles)) :
    ∃ k ≥ n, ∀ l ≥ k, (x.state l).WakesNext r own handles := by
  refine fair.leads (.release r)
    (P := fun p => p.closed = true ∧ p.releases[r]? = some (.closed own handles)) ?_
    (fun h hc => h.change hc) ?_ ?_ ⟨is_closed, at_r⟩
  · rintro p q c ⟨is_closed, at_r⟩ hc
    have still := hc.closed_mono is_closed
    rcases hc.wakes_on at_r rfl with same | ⟨_, _, ⟨⟩, next⟩ | nobody
    · exact Or.inl ⟨still, same⟩
    · exact Or.inr (Or.inr ⟨still, next⟩)
    · exact Or.inr (Or.inl ⟨still, nobody⟩)
  · rintro p ⟨-, at_r⟩
    exact ⟨.move (.alertWorkers r), _, rfl, by rw [step, move, alertWorkers, at_r]⟩
  · rintro p q e ⟨is_closed, at_r⟩ client hstep
    exact Or.inr ⟨closed_of_step hstep is_closed, alerting_of_step at_r client hstep⟩

/-- A release that is about to wake the submitters wakes them, and nobody falls asleep again. -/
theorem Course.Fair.leads_to_wide_awake (fair : x.Fair) (is_closed : (x.state n).closed = true)
    (at_r : (x.state n).releases[r]? = some (.alerting own handles)) :
    ∃ k ≥ n, ∀ l ≥ k, (x.state l).WideAwake := by
  refine fair.leads (.release r)
    (P := fun p => p.closed = true ∧ p.releases[r]? = some (.alerting own handles)) ?_
    (fun h hc => h.change hc) ?_ ?_ ⟨is_closed, at_r⟩
  · rintro p q c h hc
    exact (WakesNext.change (Or.inr h) hc).symm
  · rintro p ⟨-, at_r⟩
    exact ⟨.move (.alertSubmitters r), _, rfl, by rw [step, move, alertSubmitters, at_r]⟩
  · rintro p q e ⟨is_closed, at_r⟩ client hstep
    exact ⟨closed_of_step hstep is_closed, asleep_eq_zero_of_step at_r client hstep⟩

/-- Whoever sleeps in a closed pool is woken in the end. -/
theorem Course.Fair.eventually_wide_awake (fair : x.Fair) (h : (x.state n).Arises)
    (is_closed : (x.state n).closed = true) : ∃ k ≥ n, ∀ l ≥ k, (x.state l).WideAwake := by
  by_cases nobody : (x.state n).asleep = 0
  · exact ⟨n, Nat.le_refl n, fun l hl =>
      x.keeps (P := WideAwake) (fun h hc => h.change hc) ⟨is_closed, nobody⟩ hl⟩
  · have awaited := h.sleepersAwaited.submitters is_closed (Nat.pos_of_ne_zero nobody)
    obtain ⟨place, hplace, wakes⟩ := List.countP_pos_iff.mp awaited
    obtain ⟨r, at_r⟩ := List.getElem?_of_mem hplace
    cases place with
    | closed own handles =>
      obtain ⟨k, hk, next⟩ := fair.leads_to_alerting is_closed at_r
      rcases next k (Nat.le_refl k) with awake | ⟨still, at_r'⟩
      · exact ⟨k, hk, fun l hl =>
          x.keeps (P := WideAwake) (fun h hc => h.change hc) awake hl⟩
      · obtain ⟨l, hl, awake⟩ := fair.leads_to_wide_awake still at_r'
        exact ⟨l, Nat.le_trans hk hl, awake⟩
    | alerting own handles => exact fair.leads_to_wide_awake is_closed at_r
    | called | joining | returned => cases wakes

/-! ## Everybody is refused -/

/-- A submission whose sleep is over asks a closed pool again and is refused. -/
theorem refused_of_step {task : τ} {told : Bool} (is_closed : p.closed = true)
    (at_s : p.submissions[s]? = some (.woken task told))
    (client : e.client? = some (.submission s)) (hstep : p.step e = some q) : q.RefusedAt s := by
  rcases move_of_submission client with
    rfl | ⟨start, alert, rfl⟩ | ⟨start, alert, rfl⟩ | ⟨alert, rfl⟩ <;> rw [step, move] at hstep
  · simp [reap, at_s] at hstep
  · simp [enter, at_s] at hstep
  · rw [resume, at_s] at hstep
    simp only [if_pos is_closed] at hstep
    cases hstep
    exact List.getElem?_set_self (List.getElem?_eq_some_iff.mp at_s).1
  · simp [announce, at_s] at hstep

/-- A submitter who is awake in a closed pool is told so in the end. -/
theorem Course.Fair.leads_to_refusal {task : τ} {told : Bool} (fair : x.Fair)
    (is_closed : (x.state n).closed = true)
    (at_s : (x.state n).submissions[s]? = some (.woken task told)) :
    ∃ k ≥ n, ∀ l ≥ k, (x.state l).RefusedAt s := by
  refine fair.leads (.submission s)
    (P := fun p => p.closed = true ∧ p.submissions[s]? = some (.woken task told))
    (Q := fun p => p.RefusedAt s) ?_ (fun h hc => h.change hc) ?_ ?_ ⟨is_closed, at_s⟩
  · rintro p q c ⟨is_closed, at_s⟩ hc
    obtain ⟨y, at_s', passes⟩ := hc.passes is_closed at_s
    cases passes with
    | stays => exact Or.inl ⟨hc.closed_mono is_closed, at_s'⟩
    | refused =>
      refine Or.inr ?_
      rw [RefusedAt, hc.name_eq]
      exact at_s'
  · rintro p ⟨-, at_s⟩
    obtain ⟨q, hq⟩ := exists_resume at_s
    exact ⟨.move (.resume s true none), q, rfl, hq⟩
  · rintro p q e ⟨is_closed, at_s⟩ client hstep
    exact refused_of_step is_closed at_s client hstep

/-- Whoever is blocked in a closed pool is refused in the end. -/
theorem Course.Fair.eventually_refused (fair : x.Fair) (h : (x.state n).Arises)
    (is_closed : (x.state n).closed = true) (blocked : (x.state n).blockedAt s = true) :
    ∃ k ≥ n, ∀ l ≥ k, (x.state l).RefusedAt s := by
  obtain ⟨k, hk, awake⟩ := fair.eventually_wide_awake h is_closed
  obtain ⟨still, nobody⟩ := awake k (Nat.le_refl k)
  rcases (x.drains is_closed hk).blocked_or_refused s blocked with blocked | refused
  · obtain ⟨y, at_s, waiting⟩ := (Option.any_eq_true _ _).mp blocked
    have not_asleep := countP_eq_zero_iff_any.mp nobody s
    rw [at_s] at not_asleep
    cases y with
    | woken task told =>
      obtain ⟨l, hl, refused⟩ := fair.leads_to_refusal still at_s
      exact ⟨l, Nat.le_trans hk hl, refused⟩
    | parked => cases not_asleep
    | reaping | entering | announcing | returned => cases waiting
  · exact ⟨k, hk, fun l hl =>
      x.keeps (P := fun p => p.RefusedAt s) (fun h hc => h.change hc) refused hl⟩

/-- All of them are refused in the end, and then nobody is blocked. -/
theorem Course.Fair.eventually_nobody_waits (fair : x.Fair) (h : (x.state n).Arises)
    (is_closed : (x.state n).closed = true) :
    ∃ k ≥ n, ∀ l ≥ k, (x.state l).waiting = 0 ∧
      ∀ s, (x.state n).blockedAt s = true → (x.state l).RefusedAt s := by
  choose! moment later refused using
    fun s blocked => fair.eventually_refused (s := s) h is_closed blocked
  let last := (Finset.range (x.state n).submissions.length).sup moment
  refine ⟨max n last, Nat.le_max_left _ _, fun l hl => ?_⟩
  have hn : n ≤ l := Nat.le_trans (Nat.le_max_left _ _) hl
  have all_refused : ∀ s, (x.state n).blockedAt s = true → (x.state l).RefusedAt s := by
    intro s blocked
    obtain ⟨y, at_s, -⟩ := (Option.any_eq_true _ _).mp blocked
    have among : s ∈ Finset.range (x.state n).submissions.length :=
      Finset.mem_range.mpr (List.getElem?_eq_some_iff.mp at_s).1
    refine refused s blocked l ?_
    exact Nat.le_trans (Finset.le_sup among) (Nat.le_trans (Nat.le_max_right _ _) hl)
  refine ⟨?_, all_refused⟩
  -- whoever is blocked now was blocked then, and has been refused
  have arises : (x.state l).Arises := x.keeps (fun h hc => h.change hc) h hn
  rw [arises.waitersCounted]
  refine congrArg Nat.cast (countP_eq_zero_iff_any.mpr fun s => ?_)
  by_contra waiting
  have blocked : (x.state l).blockedAt s = true := by simpa [blockedAt] using waiting
  have gone := all_refused s ((x.drains is_closed hn).blocked_before s blocked)
  rw [RefusedAt] at gone
  rw [blockedAt, gone] at blocked
  cases blocked

end

end

/-- **A closed pool only drains.**  Once a pool is closed it stays closed, accepts no submission,
starts no thread and puts no further slot to use; what its workers run is what was accepted before.
A submission that is blocked when the pool is closed is not among the accepted ones; it stays
blocked or was told that the pool is closed.  And there are at least as many idle workers as tasks
in the queue.  In a course that holds up no client, all submissions that were blocked are told that
the pool is closed in the end, and from then on nobody is blocked. -/
theorem closed_pool_drains {name : String} {capacity : Nat} {expiry : Int64} {nonBlocking : Bool}
    {p₀ p : Pool τ} {es : List (Event τ)}
    (created : create name capacity expiry nonBlocking = .ok p₀) (hrun : p₀.run es = some p)
    (is_closed : p.closed = true) :
    (∀ es' q, p.run es' = some q →
      q.closed = true ∧ p₀.admissions (es ++ es') = p₀.admissions es ∧
      (p₀.pickUps (es ++ es')).map Prod.snd <+: (p₀.admissions es).map Prod.snd ∧
      q.started = p.started ∧ q.inFlight ≤ p.inFlight ∧ q.queue.length ≤ q.parked + q.awake ∧
      ∀ s, p.blockedAt s = true → s ∉ (p₀.admissions es).map Prod.fst ∧
        (q.blockedAt s = true ∨
          q.submissions[s]? = some (.returned (some (.poolClosed p.name))))) ∧
    ∀ x : Course τ, x.Fair → x.state 0 = p →
      ∃ n, ∀ k ≥ n, (x.state k).waiting = 0 ∧ ∀ s, p.blockedAt s = true →
        (x.state k).submissions[s]? = some (.returned (some (.poolClosed p.name))) := by
  have reachable : p.Reachable := (Reachable.create created).run hrun
  refine ⟨fun es' q hrun' => ?_, ?_⟩
  · have drains := drains_of_run hrun' is_closed
    have whole : p₀.run (es ++ es') = some q := by
      rw [run, List.foldlM_append]
      exact Option.bind_eq_some_iff.mpr ⟨p, hrun, hrun'⟩
    have chronicled := chronicled_of_run created whole
    have arises := (reachable.run hrun').arises
    have same := admissions_of_closed hrun is_closed hrun'
    refine ⟨drains.closed, same, ?_, drains.started_eq, drains.inFlight_le,
      arises.queue_le_idle, fun s blocked => ⟨?_, ?_⟩⟩
    · rw [← chronicled.taken, ← same, ← chronicled.accepted, arises.inOrder]
      exact List.prefix_append _ _
    · rw [← (chronicled_of_run created hrun).settled]
      obtain ⟨y, at_s, waiting⟩ := (Option.any_eq_true _ _).mp blocked
      rw [hasAccepted, at_s]
      cases y <;> first | exact Bool.false_ne_true | cases waiting
    · have := drains.blocked_or_refused s blocked
      rw [RefusedAt, drains.name_eq] at this
      exact this
  · rintro x fair rfl
    obtain ⟨n, -, settled⟩ := fair.eventually_nobody_waits reachable.arises is_closed
    refine ⟨n, fun k hk => ⟨(settled k hk).1, fun s blocked => ?_⟩⟩
    rw [← (x.drains is_closed (Nat.zero_le k)).name_eq]
    exact (settled k hk).2 s blocked

/-- Both workers of a pool of two slots run a task, and two submitters are blocked.  The first task
ends, one submitter is told of the slot, and another submission takes it before the pool is closed.
-/
def haltedRun : List (Event Nat) :=
  [.submit (some 1), .move (.enter 0 true none), .move (.announce 0 none), .move (.look 0 false),
    .submit (some 2), .move (.enter 1 true none), .move (.announce 1 none), .move (.look 1 false),
    .submit (some 3), .move (.enter 2 true none), .submit (some 4), .move (.enter 3 true none),
    .finish 0 none, .move (.giveBack 0 (some 2)), .submit (some 5), .move (.enter 4 true none),
    .release none, .move (.close 0)]

/-- The pool works off its queue and refuses both submitters. -/
def drainRun : List (Event Nat) :=
  [.move (.resume 2 true none), .move (.alertWorkers 0), .move (.alertSubmitters 0),
    .move (.resume 3 true none), .move (.announce 4 none), .move (.look 0 false), .finish 0 none,
    .move (.giveBack 0 none), .finish 1 none, .move (.giveBack 1 none), .move (.join 0),
    .move (.join 0)]

/-- Neither the submitter that was told of the slot nor the one that slept is accepted, and in a
fair course nobody is blocked in the end. -/
theorem closed_pool_drains_after_telling :
    ∃ p₀ p q : Pool Nat, create "io" 2 1000 false = .ok p₀ ∧ p₀.run haltedRun = some p ∧
      p.closed = true ∧ p.queue = [5] ∧ p.submissions[2]? = some (.woken 3 true) ∧
      p.submissions[3]? = some (.parked 4) ∧ p.queue.length ≤ p.parked + p.awake ∧
      p.run drainRun = some q ∧ q.closed = true ∧ q.started = p.started ∧
      p₀.admissions (haltedRun ++ drainRun) = p₀.admissions haltedRun ∧
      2 ∉ (p₀.admissions haltedRun).map Prod.fst ∧
      ∃ x : Course Nat, x.Fair ∧ x.state 0 = p ∧ ∃ n, ∀ k ≥ n, (x.state k).waiting = 0 ∧
        (x.state k).submissions[3]? = some (.returned (some (.poolClosed "io"))) := by
  obtain ⟨p₀, p, q, hp₀, hp, is_closed, hqueue, told, asleep, name_eq, hq, settled, returned⟩ :
      ∃ p₀ p q : Pool Nat, create "io" 2 1000 false = .ok p₀ ∧ p₀.run haltedRun = some p ∧
        p.closed = true ∧ p.queue = [5] ∧ p.submissions[2]? = some (.woken 3 true) ∧
        p.submissions[3]? = some (.parked 4) ∧ p.name = "io" ∧ p.run drainRun = some q ∧
        q.submissions.all Submission.isReturned = true ∧ q.releases = [.returned] :=
    ⟨_, _, _, rfl, rfl, rfl, rfl, rfl, rfl, rfl, rfl, rfl, rfl⟩
  obtain ⟨drains, settles⟩ := closed_pool_drains hp₀ hp is_closed
  obtain ⟨-, -, -, -, -, enough, -⟩ := drains [] p rfl
  obtain ⟨still, same, -, hstarted, -, -, refused⟩ := drains drainRun q hq
  have blocked : p.blockedAt 2 = true := by rw [blockedAt, told]; rfl
  have blocked' : p.blockedAt 3 = true := by rw [blockedAt, asleep]; rfl
  have fair : (Course.ofRun hq).Fair := by
    refine Course.fair_ofRun hq (List.all_eq_true.mp settled) fun place hplace => ?_
    rw [returned] at hplace
    exact List.mem_singleton.mp hplace
  obtain ⟨n, hn⟩ := settles _ fair (Course.state_ofRun_zero hq)
  refine ⟨p₀, p, q, hp₀, hp, is_closed, hqueue, told, asleep, enough, hq, still, hstarted, same,
    (refused 2 blocked).1, Course.ofRun hq, fair, Course.state_ofRun_zero hq, n, fun k hk => ?_⟩
  rw [← name_eq]
  exact ⟨(hn k hk).1, (hn k hk).2 3 blocked'⟩

end Pool

end TaskPools
