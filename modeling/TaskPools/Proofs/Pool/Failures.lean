/-
# Submissions that fail

A submission fails because it holds no task, because the pool is closed or full, or because no
thread starts for it.  What a submission does before and when it fails is seen by nobody else:
whatever it does of itself without being accepted (`Acts`) leaves the queue, the slots, the workers
and the other submissions as they were (`Spares`), and where it fails it does so of itself
(`FailsWith.acts`).  A failed start takes all back that was done for it, but for the number of the
worker that did not come to be, and passes the news of the slot on.
-/
import TaskPools.Proofs.Pool.Figures

namespace TaskPools

variable {τ : Type}

namespace Pool

/-- Submission `s` counts among the blocked submitters. -/
def waits (p : Pool τ) (s : Nat) : Bool :=
  (p.submissions[s]?).any Submission.isWaiting

/-- Submission `s` goes on of itself: it changes its place, and not because it is woken. -/
structure Acts (p : Pool τ) (s : Nat) (q : Pool τ) : Prop where
  moved : q.submissions[s]? ≠ p.submissions[s]?
  awake : ∀ task, p.submissions[s]? ≠ some (.parked task)

/-- Submission `s` comes to its end with a fault. -/
structure FailsWith (p : Pool τ) (s : Nat) (fault : Fault) (q : Pool τ) : Prop where
  unsettled : p.submissions[s]? ≠ some (.returned (some fault))
  failed : q.submissions[s]? = some (.returned (some fault))

/-- The faults with which a submission can fail. -/
def faults (p : Pool τ) : List Fault :=
  [.emptyTask, .poolClosed p.name, .poolFull p.name p.capacity, .startFailed p.name]

/-- Of pool `p` nothing is different in `q` but the place of submission `s`, handles of expired
workers that the submission takes to wait for them, the number of a worker that could not be
started, and that a blocked submitter may have heard of a slot. -/
structure Spares (p : Pool τ) (s : Nat) (q : Pool τ) : Prop where
  queue_eq : q.queue = p.queue
  inFlight_eq : q.inFlight = p.inFlight
  idle_eq : q.idle = p.idle
  closed_eq : q.closed = p.closed
  listed_eq : q.listed = p.listed
  releases_eq : q.releases = p.releases
  workers_eq : q.workers = p.workers ∨ q.workers = p.workers ++ [.unstarted]
  journal_eq : q.journal = p.journal ∨ q.journal = p.journal ++ [.startFailed]
  retired_eq : q.retired = p.retired ∨
    q.retired = [] ∧ ∃ task, q.submissions[s]? = some (.reaping task p.retired)
  joined_eq : q.joined = p.joined ∨
    ∃ w, p.workers[w]? = some .exited ∧ q.joined = p.joined ++ [w]
  waiting_eq : q.waiting = p.waiting - (p.waits s).toNat + (q.waits s).toNat
  others : ∀ {s' : Nat} {x : Submission τ}, s' ≠ s → p.submissions[s']? = some x →
    q.submissions[s']? = some x ∨
      ∃ task, x = .parked task ∧ q.submissions[s']? = some (.woken task true)

section

variable {p q : Pool τ} {c : Cause} {s s' : Nat} {x y : Submission τ} {fault : Fault}

/-! ## Which submission acts -/

/-- Only the submission whose place is set can have acted. -/
theorem Acts.eq_of_set (h : p.Acts s q) (hq : q.submissions = p.submissions.set s' y) : s = s' := by
  by_contra other
  refine h.moved ?_
  rw [hq, List.getElem?_set_ne (Ne.symm other)]

/-- Only the submission that is new can have acted. -/
theorem Acts.eq_of_append (h : p.Acts s q) (hq : q.submissions = p.submissions ++ [y]) :
    s = p.submissions.length := by
  by_contra other
  refine h.moved ?_
  rw [hq, getElem?_append_one, if_neg other]

/-- A notification lets nobody act. -/
theorem not_acts_of_told (told : Told p.submissions q.submissions) : ¬ p.Acts s q := by
  intro h
  generalize hq : q.submissions = l at told
  cases told with
  | nobody => exact h.moved (congrArg (·[s]?) hq)
  | one s' task at_s' =>
    obtain rfl := h.eq_of_set hq
    exact h.awake task at_s'

/-- Nor does the end of the pool. -/
theorem not_acts_of_wake (hq : q.submissions = p.submissions.map wakeSubmitter) :
    ¬ p.Acts s q := by
  intro h
  refine h.moved ?_
  rw [hq, List.getElem?_map]
  cases at_s : p.submissions[s]? with
  | none => rfl
  | some x => cases x <;> first | rfl | exact absurd at_s (h.awake _)

/-! ## What a submission does of itself -/

/-- A new submission is all that is new. -/
theorem Spares.append {retired : List Nat} (hs : s = p.submissions.length)
    (silent : y.isWaiting = false)
    (hretired : retired = p.retired ∨ retired = [] ∧ ∃ task, y = .reaping task p.retired) :
    p.Spares s { p with retired, submissions := p.submissions ++ [y] } := by
  subst hs
  refine ⟨rfl, rfl, rfl, rfl, rfl, rfl, Or.inl rfl, Or.inl rfl, ?_, Or.inl rfl, ?_, ?_⟩
  · refine hretired.imp_right fun ⟨taken, task, hy⟩ => ⟨taken, task, ?_⟩
    rw [getElem?_append_one, if_pos rfl, hy]
  · simp [waits, silent]
  · intro s' x other at_s'
    left
    rw [List.getElem?_append_left (List.getElem?_eq_some_iff.mp at_s').1]
    exact at_s'

/-- A submission moves, and the books of the blocked submitters follow. -/
theorem Spares.set {waiting : Int} {joined : List Nat} (at_s : p.submissions[s]? = some x)
    (hjoined : joined = p.joined ∨
      ∃ w, p.workers[w]? = some .exited ∧ joined = p.joined ++ [w])
    (hwaiting : waiting = p.waiting - x.isWaiting.toNat + y.isWaiting.toNat) :
    p.Spares s { p with waiting, joined, submissions := p.submissions.set s y } := by
  refine ⟨rfl, rfl, rfl, rfl, rfl, rfl, Or.inl rfl, Or.inl rfl, Or.inl rfl, hjoined, ?_, ?_⟩
  · have in_range := (List.getElem?_eq_some_iff.mp at_s).1
    rw [waits, waits, at_s, List.getElem?_set_self in_range]
    exact hwaiting
  · intro s' x' other at_s'
    left
    rw [List.getElem?_set_ne (Ne.symm other)]
    exact at_s'

/-- A worker does not start: the queue, its slot and the idle workers are as they were, nobody is
listed, and only the number of the worker is used up. -/
theorem Spares.failStart (arises : p.Arises) {task : τ} {submissions : List (Submission τ)}
    (at_s : p.submissions[s]? = some x) (asks : x.asking? = some task)
    (told : Told p.submissions submissions) :
    p.Spares s { p with
      waiting := p.waitingWithout x
      workers := p.workers ++ [.unstarted]
      listed := (p.listed ++ [p.workers.length]).erase p.workers.length
      submissions := submissions.set s (.returned (some (.startFailed p.name)))
      journal := p.journal ++ [.startFailed] } := by
  have at_s' := told.getElem? at_s (isParked_of_asking asks)
  have in_range := (List.getElem?_eq_some_iff.mp at_s').1
  refine ⟨rfl, rfl, rfl, rfl, arises.listedLive.erase_unstarted, rfl, Or.inr rfl, Or.inr rfl,
    Or.inl rfl, Or.inl rfl, ?_, ?_⟩
  · simp [waits, waitingWithout, at_s, List.getElem?_set_self in_range, Submission.isWaiting]
  · intro s' x' other at_other
    rw [List.getElem?_set_ne (Ne.symm other)]
    -- the sleeper that is told of the slot is not the submission that failed
    cases told with
    | nobody => exact Or.inl at_other
    | one t task' at_t =>
      by_cases hs' : s' = t
      · subst hs'
        rw [at_t] at at_other
        exact Or.inr ⟨task', (Option.some.inj at_other).symm, List.getElem?_set_self
          (List.getElem?_eq_some_iff.mp at_t).1⟩
      · left
        rw [List.getElem?_set_ne (Ne.symm hs')]
        exact at_other

/-- What a submission does of itself without being accepted spares the pool. -/
theorem Change.spares (hc : Change p c q) (arises : p.Arises) (acts : p.Acts s q)
    (unaccepted : q.hasAccepted s = false) : p.Spares s q := by
  cases hc with
  | refuseEmpty | arrive =>
    exact Spares.append (acts.eq_of_append rfl) rfl (Or.inl rfl)
  | arriveReaping task =>
    exact Spares.append (acts.eq_of_append rfl) rfl (Or.inr ⟨rfl, task, rfl⟩)
  | reapNone s' task at_s | refuseFull s' task at_s | block s' task at_s
  | sleepOn s' task told at_s =>
    obtain rfl := acts.eq_of_set rfl
    exact Spares.set at_s (Or.inl rfl) (by simp [Submission.isWaiting])
  | reap s' task w rest at_s at_w =>
    obtain rfl := acts.eq_of_set rfl
    refine Spares.set at_s (Or.inr ⟨w, at_w, rfl⟩) ?_
    split <;> simp [Submission.isWaiting]
  | refuseClosed s' x task at_s =>
    obtain rfl := acts.eq_of_set rfl
    exact Spares.set at_s (Or.inl rfl) (by simp [waitingWithout, Submission.isWaiting])
  | failStart s' x task submissions at_s asks is_open free short told =>
    by_cases same : s = s'
    · subst same
      exact Spares.failStart arises at_s asks told
    · refine absurd ?_ (not_acts_of_told (s := s) (q := { p with submissions }) told)
      refine ⟨fun still => acts.moved ?_, acts.awake⟩
      rw [List.getElem?_set_ne (Ne.symm same)]
      exact still
  | accept s' x task at_s | acceptStarting s' x task at_s | announce s' workers at_s =>
    obtain rfl := acts.eq_of_set rfl
    have in_range := (List.getElem?_eq_some_iff.mp at_s).1
    rw [hasAccepted, List.getElem?_set_self in_range] at unaccepted
    cases unaccepted
  | stirSubmitter s' task at_s =>
    obtain rfl := acts.eq_of_set rfl
    exact absurd at_s (acts.awake task)
  | giveBack w task submissions at_w told => exact absurd acts (not_acts_of_told told)
  | alertSubmitters => exact absurd acts (not_acts_of_wake rfl)
  | stirWorker | take | leave | expire | park | finish | callRelease | close | alertWorkers
  | join => exact absurd rfl acts.moved

/-! ## Where a submission fails -/

/-- A notification is no answer. -/
theorem returned_of_told {l m : List (Submission τ)} (told : Told l m) {answer : Option Fault}
    (h : m[s]? = some (.returned answer)) : l[s]? = some (.returned answer) := by
  cases told with
  | nobody => exact h
  | one t task at_t =>
    rw [getElem?_set_at at_t] at h
    split at h
    · cases h
    · exact h

theorem FailsWith.eq_of_set (h : p.FailsWith s fault q) (at_s' : p.submissions[s']? = some x)
    (hq : q.submissions = p.submissions.set s' y) : s = s' ∧ y = .returned (some fault) := by
  have failed := h.failed
  rw [hq, getElem?_set_at at_s'] at failed
  split at failed
  · rename_i same
    exact ⟨same, Option.some.inj failed⟩
  · exact absurd failed h.unsettled

theorem FailsWith.eq_of_append (h : p.FailsWith s fault q)
    (hq : q.submissions = p.submissions ++ [y]) :
    s = p.submissions.length ∧ y = .returned (some fault) := by
  have failed := h.failed
  rw [hq, getElem?_append_one] at failed
  split at failed
  · rename_i same
    exact ⟨same, Option.some.inj failed⟩
  · exact absurd failed h.unsettled

/-- A submission fails with one of the faults of its pool, and nobody's sleep ends that way. -/
theorem FailsWith.asked (h : p.FailsWith s fault q) (hc : Change p c q) :
    fault ∈ p.faults ∧ ∀ task, p.submissions[s]? ≠ some (.parked task) := by
  cases hc with
  | refuseEmpty =>
    obtain ⟨rfl, hy⟩ := h.eq_of_append rfl
    cases hy
    refine ⟨by simp [faults], fun task asleep => ?_⟩
    exact absurd (List.getElem?_eq_some_iff.mp asleep).1 (Nat.lt_irrefl _)
  | arrive | arriveReaping => cases (h.eq_of_append rfl).2
  | refuseClosed s' x task at_s asks =>
    obtain ⟨rfl, hy⟩ := h.eq_of_set at_s rfl
    cases hy
    refine ⟨by simp [faults], fun task' asleep => ?_⟩
    obtain rfl := Option.some.inj (at_s.symm.trans asleep)
    cases asks
  | refuseFull s' task at_s =>
    obtain ⟨rfl, hy⟩ := h.eq_of_set at_s rfl
    cases hy
    refine ⟨by simp [faults], fun task' asleep => ?_⟩
    cases at_s.symm.trans asleep
  | failStart s' x task submissions at_s asks is_open free short told =>
    have awake := told.getElem? at_s (isParked_of_asking asks)
    have still : FailsWith { p with submissions } s fault _ :=
      ⟨fun returned => h.unsettled (returned_of_told told returned), h.failed⟩
    obtain ⟨rfl, hy⟩ := still.eq_of_set awake rfl
    cases hy
    refine ⟨by simp [faults], fun task' asleep => ?_⟩
    obtain rfl := Option.some.inj (at_s.symm.trans asleep)
    cases asks
  | reap s' task w rest at_s =>
    have hy := (h.eq_of_set at_s rfl).2
    split at hy <;> cases hy
  | reapNone s' task at_s | block s' task at_s | sleepOn s' task told at_s
  | accept s' x task at_s | acceptStarting s' x task at_s | stirSubmitter s' task at_s
  | announce s' workers at_s => cases (h.eq_of_set at_s rfl).2
  | giveBack w task submissions at_w told =>
    exact absurd (returned_of_told told h.failed) h.unsettled
  | alertSubmitters =>
    obtain ⟨x, at_s, woken⟩ := Option.map_eq_some_iff.mp (List.getElem?_map.symm.trans h.failed)
    refine absurd (at_s.trans ?_) h.unsettled
    cases x <;> first | exact congrArg some woken | cases woken
  | stirWorker | take | leave | expire | park | finish | callRelease | close | alertWorkers
  | join => exact absurd h.failed h.unsettled

theorem FailsWith.acts (h : p.FailsWith s fault q) (hc : Change p c q) : p.Acts s q :=
  ⟨fun still => h.unsettled (still.symm.trans h.failed), (h.asked hc).2⟩


/-! ## Steps -/

theorem submissions_examine (p : Pool τ) (w : Nat) (late : Bool) :
    (p.examine w late).submissions = p.submissions := by
  unfold examine
  split
  · rfl
  · split
    · rfl
    · split
      · simp only
        split <;> rfl
      · rfl

/-- A step that does more to the submissions than wake a sleeper is a single change: a worker that
gives its slot back does no more to them. -/
theorem change_of_untold {e : Event τ} (hstep : p.step e = some q)
    (untold : ¬ Told p.submissions q.submissions) : ∃ c, Change p c q := by
  cases e with
  | submit task =>
    cases hstep
    exact ⟨.call, change_of_submit p task⟩
  | finish w escape => exact ⟨.move, change_of_finish hstep⟩
  | release own =>
    cases hstep
    exact ⟨.call, Change.callRelease own⟩
  | move m =>
    refine ⟨.move, change_of_single hstep ?_⟩
    rintro w alert rfl
    obtain ⟨task, submissions, at_w, told, rfl⟩ := eq_of_giveBack hstep
    rw [submissions_examine] at untold
    exact untold told

theorem Spares.live_eq (h : p.Spares s q) : q.live = p.live ∧ q.executing = p.executing := by
  rcases h.workers_eq with same | more
  · exact ⟨by rw [live, same, live], by rw [executing, same, executing]⟩
  · exact ⟨live_append p q .unstarted more, executing_append p q .unstarted more⟩

/-- A step by which a submission goes on unaccepted spares the pool. -/
theorem Reachable.spares {e : Event τ} (h : p.Reachable) (hstep : p.step e = some q)
    (acts : p.Acts s q) (unaccepted : q.hasAccepted s = false) : p.Spares s q := by
  obtain ⟨c, hc⟩ := change_of_untold hstep fun told => not_acts_of_told told acts
  exact hc.spares h.arises acts unaccepted

/-- A step by which a submission fails spares the pool, and the submission waits no longer. -/
theorem Reachable.spares_of_fails {e : Event τ} (h : p.Reachable) (hstep : p.step e = some q)
    (fails : p.FailsWith s fault q) :
    fault ∈ p.faults ∧ p.Spares s q ∧ q.waiting = p.waiting - (p.waits s).toNat := by
  obtain ⟨c, hc⟩ := change_of_untold hstep fun told =>
    fails.unsettled (returned_of_told told fails.failed)
  have unaccepted : q.hasAccepted s = false := by rw [hasAccepted, fails.failed]; rfl
  have waits_not : q.waits s = false := by rw [waits, fails.failed]; rfl
  have spares := hc.spares h.arises (fails.acts hc) unaccepted
  have waiting := spares.waiting_eq
  rw [waits_not, Bool.toNat_false, Int.natCast_zero, Int.add_zero] at waiting
  exact ⟨(fails.asked hc).1, spares, waiting⟩

end

end Pool

end TaskPools
