/-
# What becomes of a submission to a pool at rest

A pool is at rest while each task that it accepted has ended or runs, and each submission to it is
settled or sleeps.  What becomes of one more submission is decided then: by the tasks that have not
ended, by the live workers, and by whether a thread can be started (`Pool.admission`).  The pool
decides by its own counters, while workers wake for no reason and look at the queue, and comes to
the same (`Decides.move`).
-/
import TaskPools.Proofs.Pool.Journal
import TaskPools.Proofs.Pool.Answers
import TaskPools.Proofs.Pool.SlotWakeup

namespace TaskPools

variable {τ : Type}

/-- What becomes of a task that somebody hands in. -/
inductive Admission where
  | accepts
  | refuses (fault : Fault)
  /-- Whoever hands it in has to wait. -/
  | blocks
  deriving DecidableEq, Repr

/-- The task of the worker is over, and its slot is not yet given back. -/
def Worker.hasEnded : Worker τ → Bool
  | ended _ => true
  | _ => false

/-- The submission is over. -/
def Submission.isReturned : Submission τ → Bool
  | returned _ => true
  | _ => false

namespace Pool

/-- The number of accepted tasks that have not ended. -/
def unfinished (p : Pool τ) : Nat := p.accepted.length - p.ended.length

/-- Each accepted task has ended and given its slot back, or runs, and each submission is settled or
sleeps. -/
structure AtRest (p : Pool τ) : Prop where
  queue_eq : p.queue = []
  given_back : ∀ x ∈ p.workers, x.hasEnded = false
  settled : ∀ x ∈ p.submissions, x.isReturned = true ∨ x.isParked = true

instance (p : Pool τ) : Decidable p.AtRest :=
  decidable_of_iff (p.queue = [] ∧ (∀ x ∈ p.workers, x.hasEnded = false) ∧
      ∀ x ∈ p.submissions, x.isReturned = true ∨ x.isParked = true)
    ⟨fun ⟨queue_eq, given_back, settled⟩ => ⟨queue_eq, given_back, settled⟩,
      fun rest => ⟨rest.queue_eq, rest.given_back, rest.settled⟩⟩

/-- What becomes of a task, or of nothing, that is handed to a pool at rest; `starts` says whether a
thread can be started. -/
def admission (p : Pool τ) (starts : Bool) : Option τ → Admission
  | none => .refuses .emptyTask
  | some _ =>
    if p.unfinished = p.capacity then
      if p.nonBlocking then .refuses (.poolFull p.name p.capacity) else .blocks
    else if p.unfinished = p.live ∧ starts = false then .refuses (.startFailed p.name)
    else .accepts

/-- No worker expires with this move, and a thread can be started if and only if `starts` says so.
-/
def Move.isOrdinary (starts : Bool) : Move → Bool
  | .look _ late => !late
  | .enter _ start _ | .resume _ start _ => start == starts
  | _ => true

/-- Pool `p` is what the pool `p₀` at rest became, and nobody but submission `s` is about to ask for
a slot. -/
structure RestsBut (p₀ p : Pool τ) (s : Nat) : Prop where
  at_rest : p₀.AtRest
  arises : p₀.Arises
  name_eq : p.name = p₀.name
  capacity_eq : p.capacity = p₀.capacity
  nonBlocking_eq : p.nonBlocking = p₀.nonBlocking
  live_eq : p.live = p₀.live
  executing_eq : p.executing = p₀.executing
  queue_eq : p.queue = []
  given_back : ∀ x ∈ p.workers, x.hasEnded = false
  /-- Whoever else is not settled waits for a slot, and there is none. -/
  others : ∀ t x, t ≠ s → p.submissions[t]? = some x →
    x.isReturned = true ∨ (x.isWaiting = true ∧ p₀.unfinished = p₀.capacity)

/-- Submission `s`, if it was made, holds a task, and it waits for a slot only where this was
decided in the pool `p₀` at rest. -/
def Holds (p₀ : Pool τ) (task : Option τ) (starts : Bool) (s : Nat) (p : Pool τ) : Prop :=
  ∀ x, p.submissions[s]? = some x → task.isSome ∧ x.task?.isSome ∧
    (x.isWaiting = true → p₀.admission starts task = .blocks)

/-- What became of submission `s`, if it is settled, is what was decided in the pool `p₀` at rest.
-/
inductive Decides (p₀ : Pool τ) (task : Option τ) (starts : Bool) (s : Nat) (p : Pool τ) :
    Prop where
  | pending (rests : RestsBut p₀ p s) (holds : Holds p₀ task starts s p)
  | refused (fault : Fault) (at_s : p.submissions[s]? = some (.returned (some fault)))
      (decided : p₀.admission starts task = .refuses fault)
  | accepted (granted : p.hasAccepted s = true) (decided : p₀.admission starts task = .accepts)

section

variable {p₀ p q : Pool τ} {s t w : Nat} {starts start : Bool} {alert : Option Nat} {a : τ}
  {task : Option τ} {x y y' : Submission τ} {v z : Worker τ}

/-! ## Pools at rest -/

/-- The tasks that have not ended are those that the workers execute. -/
theorem AtRest.unfinished_eq (h : p.AtRest) (arises : p.Arises) : p.unfinished = p.executing := by
  have hcount := arises.accepted_count fun _ => true
  have hexecuting : p.runningCount (fun _ => true) = p.executing := by
    unfold runningCount executing
    refine List.countP_congr fun x hx => ?_
    have kept := h.given_back x hx
    cases x <;> first | exact Iff.rfl | cases kept
  simp only [List.countP_true, h.queue_eq, List.length_nil] at hcount
  rw [unfinished]
  omega

/-- Somebody sleeps in an open pool at rest only while no slot is free. -/
theorem AtRest.full (h : p.AtRest) (arises : p.Arises) (is_open : p.closed = false)
    (at_s : p.submissions[s]? = some x) (sleeps : x.isParked = true) :
    p.unfinished = p.capacity := by
  have none_told : p.told = 0 := by
    unfold told
    rw [List.countP_eq_zero]
    intro y hy
    have not_told : y.isTold = false := by
      rcases h.settled y hy with settled | asleep
      · cases y <;> first | rfl | cases settled
      · cases y <;> first | rfl | cases asleep
    rw [not_told]
    exact Bool.false_ne_true
  have asleep : 0 < p.asleep := countP_pos_of_getElem? at_s sleeps
  have hslots := arises.slotsAnnounced is_open asleep
  have hstaffed := arises.staffed
  have hin := hstaffed.inFlight_eq
  have hlive := hstaffed.live_le
  have hexecuting := executing_le_live p
  rw [h.queue_eq, List.length_nil] at hin
  rw [h.unfinished_eq arises]
  omega

theorem full_of_blocks (h : p.admission starts task = .blocks) : p.unfinished = p.capacity := by
  cases task with
  | none => cases h
  | some a =>
    by_contra free
    rw [admission, if_neg free] at h
    split at h <;> cases h

/-! ## What the counters say -/

theorem RestsBut.inFlight_eq (h : p₀.RestsBut p s) (arises : p.Arises) :
    p.inFlight = p₀.unfinished := by
  have hin := arises.staffed.inFlight_eq
  rw [h.queue_eq, List.length_nil, h.executing_eq] at hin
  rw [h.at_rest.unfinished_eq h.arises, hin]
  omega

theorem RestsBut.idle_eq (h : p₀.RestsBut p s) (arises : p.Arises) :
    p.idle + p₀.unfinished = p₀.live := by
  have hidle := arises.staffed.idle_eq
  rw [h.executing_eq, h.live_eq] at hidle
  rw [h.at_rest.unfinished_eq h.arises, hidle]

theorem RestsBut.unfinished_le (h : p₀.RestsBut p s) :
    p₀.unfinished ≤ p₀.live ∧ p₀.live ≤ p₀.capacity := by
  rw [h.at_rest.unfinished_eq h.arises]
  exact ⟨executing_le_live p₀, h.arises.staffed.live_le⟩

/-- No slot is free if and only if as many tasks as there are slots have not ended. -/
theorem RestsBut.full_iff (h : p₀.RestsBut p s) (arises : p.Arises) :
    (p.capacity : Int) ≤ p.inFlight ↔ p₀.unfinished = p₀.capacity := by
  have hle := h.unfinished_le
  rw [h.capacity_eq, h.inFlight_eq arises]
  omega

/-! ## Changes that decide nothing -/

/-- A worker that has no task wakes, or goes to sleep. -/
theorem RestsBut.setWorker (h : p₀.RestsBut p s) (at_w : p.workers[w]? = some v)
    (alive : z.isLive = v.isLive) (executes : z.isExecuting = v.isExecuting)
    (kept : z.hasEnded = false) : p₀.RestsBut (p.setWorker w z) s := by
  have hlive := live_of_set at_w (q := p.setWorker w z) rfl
  have hexecuting := executing_of_set at_w (q := p.setWorker w z) rfl
  rw [alive] at hlive
  rw [executes] at hexecuting
  refine { h with
    live_eq := (Nat.add_right_cancel hlive).trans h.live_eq
    executing_eq := (Nat.add_right_cancel hexecuting).trans h.executing_eq
    given_back := fun y hy => ?_ }
  rcases List.mem_or_eq_of_mem_set hy with before | rfl
  · exact h.given_back y before
  · exact kept

/-- A submission changes its place.  If it is another one, it waits for a slot, and there is none.
-/
theorem RestsBut.setSubmission (h : p₀.RestsBut p s) (at_t : p.submissions[t]? = some x)
    (waits : t ≠ s → y.isWaiting = true ∧ p₀.unfinished = p₀.capacity)
    (hq : q = { p with submissions := p.submissions.set t y, waiting := q.waiting
                       joined := q.joined }) : p₀.RestsBut q s := by
  rw [hq]
  refine { h with others := fun t' x' other at_t' => ?_ }
  rw [getElem?_set_at at_t] at at_t'
  split at at_t'
  · rename_i same
    cases at_t'
    exact Or.inr (waits (same ▸ other))
  · exact h.others t' x' other at_t'

/-- Whoever is neither settled nor waits is the one submission that is under way. -/
theorem RestsBut.eq_of_unsettled (h : p₀.RestsBut p s) (at_t : p.submissions[t]? = some x)
    (unsettled : x.isReturned = false) (awake : x.isWaiting = false) : t = s := by
  by_contra other
  rcases h.others t x other at_t with settled | ⟨waits, -⟩
  · rw [unsettled] at settled
    cases settled
  · rw [awake] at waits
    cases waits

/-- A submission that waits for a slot wakes or sleeps on. -/
theorem RestsBut.waits_on (h : p₀.RestsBut p s) (holds : Holds p₀ task starts s p)
    (at_t : p.submissions[t]? = some x) (hx : x.isWaiting = true) (hy : y.isWaiting = true)
    (task_eq : y.task? = x.task?) (full : p₀.unfinished = p₀.capacity) :
    p₀.Decides task starts s (p.setSubmission t y) := by
  have rests := h.setSubmission (q := p.setSubmission t y) at_t (fun _ => ⟨hy, full⟩) rfl
  refine .pending rests fun z at_s => ?_
  have at_s : (p.submissions.set t y)[s]? = some z := at_s
  rw [getElem?_set_at at_t] at at_s
  split at at_s
  · rename_i same
    cases at_s
    obtain ⟨given, unsettled, sleeps⟩ := holds x (same ▸ at_t)
    exact ⟨given, task_eq ▸ unsettled, fun _ => sleeps hx⟩
  · exact holds z at_s

/-! ## What the pool decides -/

/-- The submission is granted a free slot, unless the worker that it needs cannot be started. -/
theorem RestsBut.granted (h : p₀.RestsBut p s) (arises : p.Arises)
    (at_s : p.submissions[s]? = some (.entering a)) (free : ¬ p₀.unfinished = p₀.capacity)
    (given : task.isSome) (hgrant : p.grantSlot s a starts alert = some q) :
    p₀.Decides task starts s q := by
  obtain ⟨b, rfl⟩ := Option.isSome_iff_exists.mp given
  have hidle := h.idle_eq arises
  have hbusy := h.unfinished_le
  have granted : ((p.submissions.set s .announcing)[s]?).any Submission.isAccepted = true := by
    rw [List.getElem?_set_self (List.getElem?_eq_some_iff.mp at_s).1]
    rfl
  rw [grantSlot] at hgrant
  split at hgrant
  · rename_i enough
    cases hgrant
    refine .accepted granted ?_
    simp only [enqueue, h.queue_eq, List.nil_append, List.length_singleton] at enough
    rw [admission, if_neg free, if_neg]
    rintro ⟨all, -⟩
    omega
  · rename_i short
    split at hgrant
    · rename_i can_start
      cases hgrant
      refine .accepted granted ?_
      rw [admission, if_neg free, if_neg]
      rintro ⟨-, cannot⟩
      rw [can_start] at cannot
      cases cannot
    · rename_i cannot
      obtain ⟨m, hm, hq⟩ := Option.bind_eq_some_iff.mp hgrant
      obtain ⟨submissions, told, rfl⟩ := told_of_alertSubmitter hm
      cases hq
      have still := told.getElem? at_s rfl
      refine .refused (.startFailed p₀.name) ?_ ?_
      · show (submissions.set s (.returned (some (.startFailed p.name))))[s]? = _
        rw [getElem?_set_at still, if_pos rfl, h.name_eq]
      · simp only [enqueue, h.queue_eq, List.nil_append, List.length_singleton] at short
        rw [admission, if_neg free, if_pos]
        exact ⟨by omega, by simpa using cannot⟩

/-- A submission asks for a slot. -/
theorem RestsBut.enter (h : p₀.RestsBut p s) (holds : Holds p₀ task starts s p)
    (arises : p.Arises) (is_open : p.closed = false)
    (henter : p.enter t starts alert = some q) : p₀.Decides task starts s q := by
  rw [Pool.enter] at henter
  split at henter
  · rename_i b at_t
    obtain rfl := h.eq_of_unsettled at_t rfl rfl
    obtain ⟨given, -, -⟩ := holds _ at_t
    have in_range := (List.getElem?_eq_some_iff.mp at_t).1
    rw [if_neg (by rw [is_open]; exact Bool.false_ne_true)] at henter
    split at henter
    · rename_i full
      have full := (h.full_iff arises).mp full
      obtain ⟨a, rfl⟩ := Option.isSome_iff_exists.mp given
      split at henter
      · rename_i refuses
        cases henter
        refine .refused _ (List.getElem?_set_self in_range) ?_
        rw [admission, if_pos full, if_pos (h.nonBlocking_eq ▸ refuses), h.name_eq, h.capacity_eq]
      · rename_i blocks
        cases henter
        have rests := h.setSubmission (y := .parked b) at_t (absurd rfl) (q := {
          p.setSubmission t (.parked b) with waiting := p.waiting + 1 }) rfl
        refine .pending rests fun z at_s => ?_
        cases (List.getElem?_set_self in_range).symm.trans at_s
        refine ⟨rfl, rfl, fun _ => ?_⟩
        rw [admission, if_pos full, if_neg (h.nonBlocking_eq ▸ blocks)]
    · rename_i free
      exact h.granted arises at_t (mt (h.full_iff arises).mpr free) given henter
  · cases henter

/-- A submission waits for the next of the expired workers whose handles it took. -/
theorem RestsBut.reap (h : p₀.RestsBut p s) (holds : Holds p₀ task starts s p)
    (hreap : p.reap t = some q) : p₀.Decides task starts s q := by
  -- only submission `s` can be at this, and it does not get as far as to wait for a slot
  have goes_on {x y : Submission τ} (at_t : p.submissions[t]? = some x)
      (unsettled : x.isReturned = false) (awake : x.isWaiting = false) (hy : y.task?.isSome)
      (hy' : y.isWaiting = false)
      (hq : q = { p with submissions := p.submissions.set t y, waiting := q.waiting
                         joined := q.joined }) : p₀.Decides task starts s q := by
    obtain rfl := h.eq_of_unsettled at_t unsettled awake
    have now : q.submissions[t]? = some y := by
      rw [hq]
      exact List.getElem?_set_self (List.getElem?_eq_some_iff.mp at_t).1
    refine .pending (h.setSubmission at_t (absurd rfl) hq) fun z at_s => ?_
    cases now.symm.trans at_s
    refine ⟨(holds x at_t).1, hy, fun waits => ?_⟩
    rw [hy'] at waits
    cases waits
  rw [Pool.reap] at hreap
  split at hreap
  · rename_i b at_t
    cases hreap
    exact goes_on (y := .entering b) at_t rfl rfl rfl rfl rfl
  · rename_i b w rest at_t
    split at hreap
    · cases hreap
      refine goes_on (y := if rest = [] then .entering b else .reaping b rest)
        at_t rfl rfl ?_ ?_ rfl
      · split <;> rfl
      · split <;> rfl
    · cases hreap
  · cases hreap

/-- An ordinary move of a pool that rests but for one submission. -/
theorem RestsBut.move (h : p₀.RestsBut p s) (holds : Holds p₀ task starts s p)
    (arises : p.Arises) (is_open : p.closed = false) (unreleased : p.releases = []) {m : Move}
    (ordinary : m.isOrdinary starts = true) (hmove : p.move m = some q) :
    p₀.Decides task starts s q := by
  have full {t : Nat} {x : Submission τ} (at_t : p.submissions[t]? = some x)
      (waits : x.isWaiting = true) : p₀.unfinished = p₀.capacity := by
    by_cases same : t = s
    · subst same
      exact full_of_blocks ((holds x at_t).2.2 waits)
    · refine (h.others t x same at_t).elim (fun settled => ?_) And.right
      cases x <;> first | cases settled; done | cases waits
  cases m with
  | reap t => exact h.reap holds hmove
  | enter t start alert =>
    obtain rfl : start = starts := by simpa [Move.isOrdinary] using ordinary
    exact h.enter holds arises is_open hmove
  | resume t start alert =>
    rw [Pool.move, resume] at hmove
    split at hmove
    · rename_i b told at_t
      have no_slot := (h.full_iff arises).mpr (full at_t rfl)
      rw [if_neg (by rw [is_open]; exact Bool.false_ne_true), if_neg (by omega)] at hmove
      cases hmove
      exact h.waits_on holds at_t rfl rfl rfl (full at_t rfl)
    · cases hmove
  | stirSubmitter t =>
    rw [Pool.move, stirSubmitter] at hmove
    split at hmove
    · rename_i b at_t
      cases hmove
      exact h.waits_on holds at_t rfl rfl rfl (full at_t rfl)
    · cases hmove
  | announce t alert =>
    rw [Pool.move, Pool.announce] at hmove
    split at hmove
    · rename_i at_t
      obtain rfl := h.eq_of_unsettled at_t rfl rfl
      cases (holds _ at_t).2.1
    · cases hmove
  | stirWorker w =>
    rw [Pool.move, stirWorker] at hmove
    split at hmove
    · rename_i at_w
      cases hmove
      exact .pending (h.setWorker at_w rfl rfl rfl) holds
    · cases hmove
  | look w late =>
    obtain rfl : late = false := by simpa [Move.isOrdinary] using ordinary
    have looks {v : Worker τ} (at_w : p.workers[w]? = some v) (awake : v.isAwake = true) :
        p₀.Decides task starts s (p.examine w false) := by
      have asleep := h.setWorker (z := .parked) at_w (isLive_of_isAwake awake).1.symm
        (isLive_of_isAwake awake).2.symm rfl
      simp only [examine, h.queue_eq, is_open, Bool.false_eq_true, if_false]
      exact .pending asleep holds
    rw [Pool.move, look] at hmove
    split at hmove
    · rename_i at_w
      cases hmove
      exact looks at_w rfl
    · rename_i at_w
      cases hmove
      exact looks at_w rfl
    · cases hmove
  | giveBack w alert =>
    obtain ⟨task, submissions, at_w, -⟩ := eq_of_giveBack hmove
    have kept := h.given_back _ (List.mem_of_getElem? at_w)
    cases kept
  | close r | alertWorkers r | alertSubmitters r | join r =>
    -- nobody releases the pool
    simp only [Pool.move, close, alertWorkers, alertSubmitters, join, unreleased, List.getElem?_nil]
      at hmove
    cases hmove

theorem hasAccepted_of_move {m : Move} (hmove : p.move m = some q)
    (granted : p.hasAccepted s = true) : q.hasAccepted s = true := by
  have stays {p q : Pool τ} (hc : Change p .move q) (granted : p.hasAccepted s = true) :
      q.hasAccepted s = true := by
    rcases hc.settles with steady | ⟨s', task, accepts⟩
    · exact (steady.settled s).trans granted
    · rw [accepts.settled, granted, Bool.or_true]
  rcases change_of_move hmove with hc | ⟨n, hn, hc⟩
  · exact stays hc granted
  · exact stays hc (stays hn granted)

/-- While the pool makes ordinary moves, what was decided stays so. -/
theorem Decides.move (h : p₀.Decides task starts s p) (arises : p.Arises)
    (is_open : p.closed = false) (unreleased : p.releases = []) {m : Move}
    (ordinary : m.isOrdinary starts = true) (hmove : p.move m = some q) :
    p₀.Decides task starts s q := by
  cases h with
  | pending rests holds => exact rests.move holds arises is_open unreleased ordinary hmove
  | refused fault at_s decided =>
    exact .refused fault (step_returned (e := .move m) hmove at_s) decided
  | accepted granted decided => exact .accepted (hasAccepted_of_move hmove granted) decided

/-- An open pool at rest decides on the next submission. -/
theorem AtRest.decides (h : p.AtRest) (arises : p.Arises) (is_open : p.closed = false)
    (task : Option τ) (starts : Bool) : p.Decides task starts p.submissions.length p := by
  refine .pending ?_ fun x at_s => ?_
  · refine ⟨h, arises, rfl, rfl, rfl, rfl, rfl, h.queue_eq, h.given_back, fun t x _ at_t => ?_⟩
    refine (h.settled x (List.mem_of_getElem? at_t)).imp_right fun sleeps => ⟨?_, ?_⟩
    · cases x <;> first | rfl | cases sleeps
    · exact h.full arises is_open at_t sleeps
  · cases (List.getElem?_eq_none (Nat.le_refl _)).symm.trans at_s

/-- The submission on which the pool is to decide is made. -/
theorem Decides.submit (h : p₀.Decides task starts p.submissions.length p) :
    p₀.Decides task starts p.submissions.length (p.submit task) := by
  have absent : p.submissions[p.submissions.length]? = none :=
    List.getElem?_eq_none (Nat.le_refl _)
  cases h with
  | pending rests =>
    cases task with
    | none => exact .refused .emptyTask List.getElem?_concat_length rfl
    | some a =>
      have arrives {retired : List Nat} {y : Submission τ} (hy : y.task?.isSome)
          (hy' : y.isWaiting = false) :
          p₀.Decides (some a) starts p.submissions.length
            { p with retired, submissions := p.submissions ++ [y] } := by
        refine .pending { rests with others := fun t x other at_t => ?_ } fun x at_s => ?_
        · rw [getElem?_append_one, if_neg other] at at_t
          exact rests.others t x other at_t
        · cases List.getElem?_concat_length.symm.trans at_s
          refine ⟨rfl, hy, fun waits => ?_⟩
          rw [hy'] at waits
          cases waits
      rw [Pool.submit]
      split
      · exact arrives rfl rfl
      · exact arrives rfl rfl
  | refused fault at_s => cases absent.symm.trans at_s
  | accepted granted =>
    rw [hasAccepted, absent] at granted
    cases granted

/-- The answer to a submission is what was decided. -/
theorem Decides.of_returned (h : p₀.Decides task starts s p)
    {fault : Option Fault} (at_s : p.submissions[s]? = some (.returned fault)) :
    p₀.admission starts task = fault.elim .accepts .refuses := by
  cases h with
  | pending rests holds => cases (holds _ at_s).2.1
  | refused fault' at_s' decided =>
    cases at_s.symm.trans at_s'
    exact decided
  | accepted granted decided =>
    rw [hasAccepted, at_s] at granted
    cases fault with
    | none => exact decided
    | some fault => cases granted

/-- A submission sleeps only where that was decided. -/
theorem Decides.of_parked (h : p₀.Decides task starts s p)
    (at_s : p.submissions[s]? = some (.parked a)) : p₀.admission starts task = .blocks := by
  cases h with
  | pending rests holds => exact (holds _ at_s).2.2 rfl
  | refused fault at_s' => cases at_s.symm.trans at_s'
  | accepted granted =>
    rw [hasAccepted, at_s] at granted
    cases granted

end

end Pool

end TaskPools
