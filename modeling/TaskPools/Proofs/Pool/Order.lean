/-
# First come, first started

The history of a run is the list of its events, each with the pool to which it happened.  It tells
which submissions were accepted (`admissions`) and which workers began to run a task (`pickUps`), in
the order of the critical sections in which that happened; both are read off the places of the
threads and not off the journal.  What the run has done to the pool is then seen in these two lists
(`Chronicled`), and with the order of the queue it follows that tasks start in the order in which
they were accepted.
-/
import Mathlib.Data.List.Induction
import TaskPools.Proofs.Pool.Answers

namespace TaskPools

variable {τ : Type}

/-- The task that a worker runs. -/
def Worker.task? : Worker τ → Option τ
  | running task => some task
  | _ => none

namespace Pool

/-! ## The history of a run -/

/-- The events of a run, each with the pool to which it happens. -/
def history : Pool τ → List (Event τ) → List (Pool τ × Event τ)
  | _, [] => []
  | p, e :: es => (p, e) :: (p.step e).elim [] fun q => q.history es

/-- The task that worker `w` runs. -/
def work? (p : Pool τ) (w : Nat) : Option τ := (p.workers[w]?).bind Worker.task?

/-- The submission that a step accepts, and its task. -/
def admits? : Pool τ × Event τ → Option (Nat × τ)
  | (p, e) => do
    let q ← p.step e
    let s ← (List.range p.submissions.length).find? fun s => q.hasAccepted s && !p.hasAccepted s
    let task ← p.pending? s
    pure (s, task)

/-- The worker that begins to run a task in a step, and the task. -/
def picksUp? : Pool τ × Event τ → Option (Nat × τ)
  | (p, e) => do
    let q ← p.step e
    let w ← (List.range p.workers.length).find? fun w => (q.work? w).isSome && (p.work? w).isNone
    let task ← q.work? w
    pure (w, task)

/-- The submissions that a run accepts, each with its task, in the order of their acceptance. -/
def admissions (p : Pool τ) (es : List (Event τ)) : List (Nat × τ) :=
  (p.history es).filterMap admits?

/-- The workers that take a task in a run, each with its task, in this order. -/
def pickUps (p : Pool τ) (es : List (Event τ)) : List (Nat × τ) :=
  (p.history es).filterMap picksUp?

/-- What is submitted in a run; in the run of a new pool, submission `s` is entry `s`. -/
def submitted (es : List (Event τ)) : List (Option τ) :=
  es.filterMap fun e => match e with
    | .submit task => some task
    | _ => none

section

variable {p q m : Pool τ} {e : Event τ} {es : List (Event τ)} {s w : Nat} {task : τ}

/-- A run with one event more takes that step from where the run ended. -/
theorem run_append_one (hrun : p.run es = some m) (e : Event τ) :
    p.run (es ++ [e]) = m.step e := by
  rw [run, List.foldlM_append]
  show (p.run es).bind (fun n => [e].foldlM step n) = m.step e
  rw [hrun, Option.bind_some, List.foldlM_cons]
  cases m.step e <;> rfl

/-- The last event of a run is a step from where the run before it ended. -/
theorem run_of_append_one (hrun : p.run (es ++ [e]) = some q) :
    ∃ m, p.run es = some m ∧ m.step e = some q := by
  rw [run, List.foldlM_append] at hrun
  obtain ⟨m, hm, hq⟩ := Option.bind_eq_some_iff.mp hrun
  refine ⟨m, hm, ?_⟩
  rw [← run_append_one hm, run, List.foldlM_append]
  exact hrun

/-- One event more adds itself to the history, with the pool to which it happens. -/
theorem history_append_one (hrun : p.run es = some m) (e : Event τ) :
    p.history (es ++ [e]) = p.history es ++ [(m, e)] := by
  induction es generalizing p with
  | nil =>
    obtain rfl : p = m := by simpa [run] using hrun
    simp only [List.nil_append, history]
    cases p.step e <;> rfl
  | cons e' es ih =>
    rw [run, List.foldlM_cons] at hrun
    obtain ⟨n, hn, hrun⟩ := Option.bind_eq_some_iff.mp hrun
    simp only [List.cons_append, history, hn, Option.elim_some, ih hrun]

/-- One event more adds the task that it accepts, if it accepts one. -/
theorem admissions_append_one (hrun : p.run es = some m) (e : Event τ) :
    p.admissions (es ++ [e]) = p.admissions es ++ (admits? (m, e)).toList := by
  unfold admissions
  rw [history_append_one hrun, List.filterMap_append, List.filterMap_cons]
  cases admits? (m, e) <;> rfl

/-- One event more adds the task that it starts, if it starts one. -/
theorem pickUps_append_one (hrun : p.run es = some m) (e : Event τ) :
    p.pickUps (es ++ [e]) = p.pickUps es ++ (picksUp? (m, e)).toList := by
  unfold pickUps
  rw [history_append_one hrun, List.filterMap_append, List.filterMap_cons]
  cases picksUp? (m, e) <;> rfl

/-! ## Acceptances -/

/-- A worker that looks at the queue concerns no submission. -/
theorem steady_of_examine (p : Pool τ) (w : Nat) (late : Bool) : Steady p (p.examine w late) := by
  unfold examine
  split
  · exact Steady.same rfl (accepted_of_other rfl rfl)
  · split
    · exact Steady.same rfl rfl
    · split
      · simp only
        split
        · exact Steady.same rfl (accepted_of_other rfl rfl)
        · exact Steady.same rfl (accepted_of_other rfl rfl)
      · exact Steady.same rfl rfl

/-- Giving a slot back accepts nothing. -/
theorem steady_of_giveBack {alert : Option Nat} (h : p.giveBack w alert = some q) :
    Steady p q := by
  obtain ⟨task, submissions, at_w, told, rfl⟩ := eq_of_giveBack h
  have first : Steady p { p with
      inFlight := p.inFlight - 1
      idle := p.idle + 1
      workers := p.workers.set w .woken
      submissions } := Steady.told told rfl
  exact first.trans (steady_of_examine _ w false)

/-- In one step a submission arrives, or at most one is accepted. -/
theorem settles_of_step (h : p.step e = some q) :
    (∃ task, e = .submit task ∧ Arrival p q task) ∨
      Settles p q ∧ ∀ task, e ≠ .submit task := by
  cases e with
  | submit task =>
    cases h
    exact Or.inl ⟨task, rfl, arrival_of_submit p task⟩
  | finish w escape => exact Or.inr ⟨(change_of_finish h).settles, nofun⟩
  | release own =>
    cases h
    exact Or.inr ⟨Or.inl (Steady.same rfl rfl), nofun⟩
  | move move =>
    refine Or.inr ⟨?_, nofun⟩
    by_cases gives : ∃ w alert, move = .giveBack w alert
    · obtain ⟨w, alert, rfl⟩ := gives
      exact Or.inl (steady_of_giveBack h)
    · exact (change_of_single h fun w alert hm => gives ⟨w, alert, hm⟩).settles

/-- A step after which the same submissions are accepted as before accepts none. -/
theorem admits?_eq_none (hstep : p.step e = some q)
    (settled : ∀ s, q.hasAccepted s = p.hasAccepted s) : admits? (p, e) = none := by
  have nobody : (List.range p.submissions.length).find?
      (fun s => q.hasAccepted s && !p.hasAccepted s) = none := by
    rw [List.find?_range_eq_none]
    intro s _
    rw [settled]
    simp
  simp only [admits?, hstep, Option.bind_eq_bind, Option.bind_some, nobody, Option.bind_none]

/-- Where a task is accepted, the history says so. -/
theorem Accepts.admits? (h : Accepts p q s task) (hstep : p.step e = some q) :
    admits? (p, e) = some (s, task) := by
  have in_range : s < p.submissions.length := by
    obtain ⟨x, at_s, -⟩ := Option.bind_eq_some_iff.mp h.held
    exact (List.getElem?_eq_some_iff.mp at_s).1
  have found : (List.range p.submissions.length).find?
      (fun s => q.hasAccepted s && !p.hasAccepted s) = some s := by
    rw [List.find?_range_eq_some]
    refine ⟨?_, List.mem_range.mpr in_range, ?_⟩
    · rw [h.settled, hasAccepted_of_pending? h.held]
      simp
    · intro s' hs'
      have other : (s' == s) = false := by
        simp only [beq_eq_false_iff_ne]
        omega
      rw [h.settled, other]
      simp
  simp only [Pool.admits?, hstep, Option.bind_eq_bind, Option.bind_some, found, h.held]
  rfl

/-! ## Pick-ups -/

/-- No worker begins to run a task. -/
structure Rests (p q : Pool τ) : Prop where
  taken : q.taken = p.taken
  idle : ∀ w, p.work? w = none → q.work? w = none

/-- Worker `w` begins to run `task`. -/
structure Picks (p q : Pool τ) (w : Nat) (task : τ) : Prop where
  taken : q.taken = p.taken ++ [task]
  in_range : w < p.workers.length
  free : p.work? w = none
  busy : q.work? w = some task
  idle : ∀ w', w' ≠ w → p.work? w' = none → q.work? w' = none

theorem taken_of_other {r : Report τ} (hq : q.journal = p.journal ++ [r])
    (hr : r.taken? = none) : q.taken = p.taken := by
  rw [taken_append hq, hr]
  exact List.append_nil _

/-- Nothing is started where the workers stay as they are. -/
theorem Rests.same (hq : q.workers = p.workers) (htaken : q.taken = p.taken) : Rests p q := by
  refine ⟨htaken, ?_⟩
  intro w hw
  unfold work? at hw ⊢
  rw [hq]
  exact hw

/-- Nothing is started where one worker goes to a place without a task. -/
theorem Rests.set {x y : Worker τ} (at_w : p.workers[w]? = some x)
    (hq : q.workers = p.workers.set w y) (hy : y.task? = none) (htaken : q.taken = p.taken) :
    Rests p q := by
  refine ⟨htaken, ?_⟩
  intro w' hw'
  unfold work? at hw' ⊢
  rw [hq, getElem?_set_at at_w]
  split
  · exact hy
  · exact hw'

/-- Nothing is started where a worker comes that has no task yet. -/
theorem Rests.append {x : Worker τ} (hq : q.workers = p.workers ++ [x]) (hx : x.task? = none)
    (htaken : q.taken = p.taken) : Rests p q := by
  refine ⟨htaken, ?_⟩
  intro w' hw'
  unfold work? at hw' ⊢
  rw [hq, getElem?_append_one]
  split
  · exact hx
  · exact hw'

/-- Nothing is started where workers are only woken one by one. -/
theorem Rests.roused (h : Roused p.workers q.workers) (htaken : q.taken = p.taken) :
    Rests p q := by
  generalize hq : q.workers = l at h
  cases h with
  | nobody => exact Rests.same hq htaken
  | one w at_w => exact Rests.set at_w hq rfl htaken

/-- Nothing is started where all workers are woken. -/
theorem Rests.wake (hq : q.workers = p.workers.map wake) (htaken : q.taken = p.taken) :
    Rests p q := by
  refine ⟨htaken, ?_⟩
  intro w hw
  unfold work? at hw ⊢
  rw [hq, List.getElem?_map]
  rcases hx : p.workers[w]? with _ | x
  · rfl
  · rw [hx] at hw
    cases x <;> first | rfl | cases hw

theorem task?_of_isAwake {x : Worker τ} (h : x.isAwake = true) : x.task? = none := by
  cases x <;> first | rfl | cases h

/-- A worker that was awake and now runs a task has taken it in this step. -/
theorem picks_of_set {x : Worker τ} (at_w : p.workers[w]? = some x) (awake : x.isAwake = true)
    (hq : q.workers = p.workers.set w (.running task))
    (hjournal : q.journal = p.journal ++ [.taken w task]) : Picks p q w task := by
  constructor
  · exact taken_append hjournal
  · exact (List.getElem?_eq_some_iff.mp at_w).1
  · rw [work?, at_w]
    exact task?_of_isAwake awake
  · rw [work?, hq, getElem?_set_at at_w, if_pos rfl]
    rfl
  · intro w' other hw'
    rw [work?, hq, getElem?_set_at at_w, if_neg other]
    exact hw'

/-- What a change does to the workers that run a task. -/
theorem Change.rests_or_picks {c : Cause} (hc : Change p c q) :
    Rests p q ∨ ∃ w task, Picks p q w task := by
  cases hc with
  | take w x task rest at_w awake => exact Or.inr ⟨w, task, picks_of_set at_w awake rfl rfl⟩
  | accept => exact Or.inl (Rests.same rfl (taken_of_other rfl rfl))
  | acceptStarting => exact Or.inl (Rests.append rfl rfl (taken_of_other rfl rfl))
  | failStart => exact Or.inl (Rests.append rfl rfl (taken_of_other rfl rfl))
  | finish w task escape at_w => exact Or.inl (Rests.set at_w rfl rfl (taken_of_other rfl rfl))
  | expire w at_w => exact Or.inl (Rests.set at_w rfl rfl (taken_of_other rfl rfl))
  | leave w x at_w | park w x at_w | stirWorker w at_w | giveBack w task submissions at_w =>
    exact Or.inl (Rests.set at_w rfl rfl rfl)
  | announce s workers at_s roused => exact Or.inl (Rests.roused roused rfl)
  | alertWorkers => exact Or.inl (Rests.wake rfl rfl)
  | join r own w rest =>
    refine Or.inl (Rests.same rfl ?_)
    by_cases last : rest = []
    · exact taken_of_other (if_pos last) rfl
    · simp only [taken, if_neg last]
  | refuseEmpty | arrive | arriveReaping | reapNone | reap | refuseClosed | refuseFull | block
  | sleepOn | stirSubmitter | callRelease | close | alertSubmitters =>
    exact Or.inl (Rests.same rfl rfl)

/-- A worker that gives its slot back runs nothing, before and after that; it may then take the next
task. -/
theorem rests_or_picks_of_giveBack {alert : Option Nat} (h : p.giveBack w alert = some q) :
    Rests p q ∨ ∃ w task, Picks p q w task := by
  obtain ⟨task, submissions, at_w, told, rfl⟩ := eq_of_giveBack h
  have in_range : w < p.workers.length := (List.getElem?_eq_some_iff.mp at_w).1
  let n : Pool τ := { p with
    inFlight := p.inFlight - 1
    idle := p.idle + 1
    workers := p.workers.set w .woken
    submissions }
  have same : ∀ w', n.work? w' = p.work? w' := by
    intro w'
    show ((p.workers.set w .woken)[w']?).bind Worker.task? = (p.workers[w']?).bind Worker.task?
    rw [getElem?_set_at at_w]
    split
    · rename_i hw'
      rw [hw', at_w]
      rfl
    · rfl
  have hc : Change n .move (n.examine w false) :=
    change_of_examine (List.getElem?_set_self in_range) rfl nofun
  rcases hc.rests_or_picks with ⟨htaken, hidle⟩ | ⟨w', task', htaken, hrange, hfree, hbusy, hidle⟩
  · refine Or.inl ⟨htaken, ?_⟩
    intro w' hw'
    exact hidle w' ((same w').trans hw')
  · refine Or.inr ⟨w', task', htaken, ?_, (same w').symm.trans hfree, hbusy, ?_⟩
    · rw [List.length_set] at hrange
      exact hrange
    · intro w'' other hw''
      exact hidle w'' other ((same w'').trans hw'')

/-- In one step no worker takes a task, or exactly one does. -/
theorem rests_or_picks_of_step (h : p.step e = some q) :
    Rests p q ∨ ∃ w task, Picks p q w task := by
  cases e with
  | submit task =>
    cases h
    exact (change_of_submit p task).rests_or_picks
  | finish w escape => exact (change_of_finish h).rests_or_picks
  | release own =>
    cases h
    exact Or.inl (Rests.same rfl rfl)
  | move move =>
    by_cases gives : ∃ w alert, move = .giveBack w alert
    · obtain ⟨w, alert, rfl⟩ := gives
      exact rests_or_picks_of_giveBack h
    · exact (change_of_single h fun w alert hm => gives ⟨w, alert, hm⟩).rests_or_picks

/-- Where nothing is started, the history tells of no start. -/
theorem Rests.picksUp? (h : Rests p q) (hstep : p.step e = some q) : picksUp? (p, e) = none := by
  have nobody : (List.range p.workers.length).find?
      (fun w => (q.work? w).isSome && (p.work? w).isNone) = none := by
    rw [List.find?_range_eq_none]
    intro w _
    cases hw : p.work? w with
    | none => simp [h.idle w hw]
    | some task => simp
  simp only [Pool.picksUp?, hstep, Option.bind_eq_bind, Option.bind_some, nobody,
    Option.bind_none]

/-- Where a worker begins to run a task, the history says so. -/
theorem Picks.picksUp? (h : Picks p q w task) (hstep : p.step e = some q) :
    picksUp? (p, e) = some (w, task) := by
  have found : (List.range p.workers.length).find?
      (fun w => (q.work? w).isSome && (p.work? w).isNone) = some w := by
    rw [List.find?_range_eq_some]
    refine ⟨?_, List.mem_range.mpr h.in_range, ?_⟩
    · simp [h.busy, h.free]
    · intro w' hw'
      cases hfree : p.work? w' with
      | none => simp [h.idle w' (Nat.ne_of_lt hw') hfree]
      | some task => simp
  simp only [Pool.picksUp?, hstep, Option.bind_eq_bind, Option.bind_some, found, h.busy]
  rfl

/-! ## What a run has done -/

/-- The history of a run tells what it has done: which tasks were accepted and taken, which
submissions hold a task, and which were accepted. -/
structure Chronicled (p₀ : Pool τ) (es : List (Event τ)) (p : Pool τ) : Prop where
  accepted : p.accepted = (p₀.admissions es).map Prod.snd
  taken : p.taken = (p₀.pickUps es).map Prod.snd
  settled : ∀ s, p.hasAccepted s = true ↔ s ∈ (p₀.admissions es).map Prod.fst
  once : ((p₀.admissions es).map Prod.fst).Nodup
  length_eq : p.submissions.length = (submitted es).length
  pending : ∀ s task, p.pending? s = some task → (submitted es)[s]? = some (some task)
  own : ∀ s task, (s, task) ∈ p₀.admissions es → (submitted es)[s]? = some (some task)

theorem submitted_append_one (es : List (Event τ)) (e : Event τ) :
    submitted (es ++ [e]) = submitted es ++ submitted [e] :=
  List.filterMap_append

/-- An event that is no submission submits nothing. -/
theorem submitted_eq_nil (silent : ∀ task, e ≠ .submit task) : submitted [e] = [] := by
  cases e with
  | submit task => exact absurd rfl (silent task)
  | finish | release | move => rfl

/-- Only a submission adds to the submissions. -/
theorem length_submissions_of_step (h : p.step e = some q) (silent : ∀ task, e ≠ .submit task) :
    q.submissions.length = p.submissions.length := by
  cases e with
  | submit task => exact absurd rfl (silent task)
  | finish w escape => exact (change_of_finish h).length_submissions
  | release own =>
    cases h
    rfl
  | move move =>
    rcases change_of_move h with hc | ⟨n, hn, hc⟩
    · exact hc.length_submissions
    · exact hc.length_submissions.trans hn.length_submissions

section

variable {p₀ : Pool τ}

/-- What the history tells of starts stays complete in a step. -/
theorem Chronicled.taken_step (h : Chronicled p₀ es p) (hrun : p₀.run es = some p)
    (hstep : p.step e = some q) : q.taken = (p₀.pickUps (es ++ [e])).map Prod.snd := by
  rw [pickUps_append_one hrun, List.map_append, ← h.taken]
  rcases rests_or_picks_of_step hstep with rests | ⟨w, task, picks⟩
  · rw [rests.picksUp? hstep, rests.taken]
    simp
  · rw [picks.picksUp? hstep, picks.taken]
    rfl

/-- A new submission gets the next number, and nothing is accepted. -/
theorem Chronicled.arrive (h : Chronicled p₀ es p) (hrun : p₀.run es = some p) {task : Option τ}
    (hstep : p.step (.submit task) = some q) (arrival : Arrival p q task) :
    Chronicled p₀ (es ++ [.submit task]) q := by
  have none_admitted : p₀.admissions (es ++ [.submit task]) = p₀.admissions es := by
    rw [admissions_append_one hrun, admits?_eq_none hstep arrival.settled]
    exact List.append_nil _
  have one_more : submitted (es ++ [.submit task]) = submitted es ++ [task] :=
    submitted_append_one es _
  have still {s : Nat} {t : τ} (hs : (submitted es)[s]? = some (some t)) :
      (submitted es ++ [task])[s]? = some (some t) := by
    rw [List.getElem?_append_left (List.getElem?_eq_some_iff.mp hs).1]
    exact hs
  constructor
  · rw [none_admitted, arrival.accepted]
    exact h.accepted
  · exact h.taken_step hrun hstep
  · intro s
    rw [none_admitted, arrival.settled]
    exact h.settled s
  · rw [none_admitted]
    exact h.once
  · cases hstep
    rw [one_more, length_submissions_submit, h.length_eq, List.length_append,
      List.length_singleton]
  · intro s t hs
    rw [one_more]
    rw [arrival.pending] at hs
    split at hs
    · rename_i is_new
      rw [is_new, h.length_eq, List.getElem?_concat_length, hs]
    · exact still (h.pending s t hs)
  · intro s t hs
    rw [none_admitted] at hs
    rw [one_more]
    exact still (h.own s t hs)

/-- The history stays complete in a step that accepts nothing. -/
theorem Chronicled.steady (h : Chronicled p₀ es p) (hrun : p₀.run es = some p)
    (hstep : p.step e = some q) (silent : ∀ task, e ≠ .submit task) (steady : Steady p q) :
    Chronicled p₀ (es ++ [e]) q := by
  have none_admitted : p₀.admissions (es ++ [e]) = p₀.admissions es := by
    rw [admissions_append_one hrun, admits?_eq_none hstep steady.settled]
    exact List.append_nil _
  have same : submitted (es ++ [e]) = submitted es := by
    rw [submitted_append_one, submitted_eq_nil silent, List.append_nil]
  constructor
  · rw [none_admitted, steady.accepted]
    exact h.accepted
  · exact h.taken_step hrun hstep
  · intro s
    rw [none_admitted, steady.settled]
    exact h.settled s
  · rw [none_admitted]
    exact h.once
  · rw [same, length_submissions_of_step hstep silent]
    exact h.length_eq
  · intro s task hs
    rw [same]
    rcases steady.pending s with kept | gone
    · rw [kept] at hs
      exact h.pending s task hs
    · rw [gone] at hs
      cases hs
  · rw [none_admitted, same]
    exact h.own

/-- The submission that is accepted was not accepted before, and held the task. -/
theorem Chronicled.accept (h : Chronicled p₀ es p) (hrun : p₀.run es = some p)
    (hstep : p.step e = some q) (silent : ∀ task, e ≠ .submit task)
    (accepts : Accepts p q s task) : Chronicled p₀ (es ++ [e]) q := by
  have one_more : p₀.admissions (es ++ [e]) = p₀.admissions es ++ [(s, task)] := by
    rw [admissions_append_one hrun, accepts.admits? hstep]
    rfl
  have same : submitted (es ++ [e]) = submitted es := by
    rw [submitted_append_one, submitted_eq_nil silent, List.append_nil]
  have is_new : s ∉ (p₀.admissions es).map Prod.fst := by
    rw [← h.settled, hasAccepted_of_pending? accepts.held]
    simp
  constructor
  · rw [one_more, List.map_append, ← h.accepted, accepts.accepted]
    rfl
  · exact h.taken_step hrun hstep
  · intro s'
    rw [one_more, accepts.settled, Bool.or_eq_true, h.settled, List.map_append, List.mem_append,
      beq_iff_eq, Or.comm]
    simp
  · rw [one_more, List.map_append, List.nodup_append]
    refine ⟨h.once, List.pairwise_singleton _ _, ?_⟩
    intro s₁ hs₁ s₂ hs₂ heq
    rw [heq, List.mem_singleton.mp hs₂] at hs₁
    exact is_new hs₁
  · rw [same, length_submissions_of_step hstep silent]
    exact h.length_eq
  · intro s' task' hs'
    rw [same]
    rw [accepts.pending] at hs'
    split at hs'
    · cases hs'
    · exact h.pending s' task' hs'
  · intro s' task' hs'
    rw [same]
    rw [one_more] at hs'
    rcases List.mem_append.mp hs' with old | new
    · exact h.own s' task' old
    · cases List.mem_singleton.mp new
      exact h.pending s task accepts.held

/-- The history stays complete in every step. -/
theorem Chronicled.step (h : Chronicled p₀ es p) (hrun : p₀.run es = some p)
    (hstep : p.step e = some q) : Chronicled p₀ (es ++ [e]) q := by
  rcases settles_of_step hstep with ⟨task, rfl, arrival⟩ | ⟨steady | ⟨s, task, accepts⟩, silent⟩
  · exact h.arrive hrun hstep arrival
  · exact h.steady hrun hstep silent steady
  · exact h.accept hrun hstep silent accepts

/-- Whatever a run of a new pool has done, its history tells. -/
theorem chronicled_of_run {name : String} {capacity : Nat} {expiry : Int64} {nonBlocking : Bool}
    (created : create name capacity expiry nonBlocking = .ok p₀) (hrun : p₀.run es = some p) :
    Chronicled p₀ es p := by
  induction es using List.reverseRecOn generalizing p with
  | nil =>
    obtain rfl : p₀ = p := by simpa [run] using hrun
    obtain ⟨-, -, rfl⟩ := eq_of_create created
    constructor
    · rfl
    · rfl
    · intro s
      constructor
      · intro accepted
        cases accepted
      · intro hs
        cases hs
    · exact List.nodup_nil
    · rfl
    · intro s task hs
      cases hs
    · intro s task hs
      cases hs
  | append_singleton es e ih =>
    obtain ⟨m, hm, hstep⟩ := run_of_append_one hrun
    exact (ih hm).step hm hstep

/-! ## The order of starts -/

/-- A submission was accepted if and only if it has returned with success or is about to. -/
theorem hasAccepted_iff : p.hasAccepted s = true ↔
    p.submissions[s]? = some .announcing ∨ p.submissions[s]? = some (.returned none) := by
  unfold hasAccepted
  rcases p.submissions[s]? with _ | x
  · simp
  · cases x with
    | returned fault => cases fault <;> simp [Submission.isAccepted]
    | reaping | entering | parked | woken | announcing => simp [Submission.isAccepted]

/-- **First come, first started.**  The tasks that workers took, in this order, and then the queue
are the accepted tasks in the order of their acceptance.  A submission is accepted once at most and
with the task that was submitted; exactly the submissions that have returned with success, or are
about to, are among the accepted ones, and no submission that failed is. -/
theorem started_in_order {name : String} {capacity : Nat} {expiry : Int64} {nonBlocking : Bool}
    (created : create name capacity expiry nonBlocking = .ok p₀) (hrun : p₀.run es = some p) :
    (p₀.pickUps es).map Prod.snd ++ p.queue = (p₀.admissions es).map Prod.snd ∧
    ((p₀.admissions es).map Prod.fst).Nodup ∧
    (∀ s task, (s, task) ∈ p₀.admissions es → (submitted es)[s]? = some (some task)) ∧
    (∀ s, s ∈ (p₀.admissions es).map Prod.fst ↔
      p.submissions[s]? = some .announcing ∨ p.submissions[s]? = some (.returned none)) ∧
    ∀ s fault, p.submissions[s]? = some (.returned (some fault)) →
      s ∉ (p₀.admissions es).map Prod.fst := by
  have h := chronicled_of_run created hrun
  have in_order := ((Reachable.create created).run hrun).arises.inOrder
  have settled : ∀ s, s ∈ (p₀.admissions es).map Prod.fst ↔
      p.submissions[s]? = some .announcing ∨ p.submissions[s]? = some (.returned none) := by
    intro s
    rw [← h.settled, hasAccepted_iff]
  refine ⟨?_, h.once, h.own, settled, ?_⟩
  · rw [← h.taken, ← h.accepted]
    exact in_order.symm
  · intro s fault failed accepted
    rw [settled, failed] at accepted
    rcases accepted with accepted | accepted <;> cases accepted

end

end

/-- A pool of two slots takes a task, fails to start a worker for a second one, takes that one's
successor, turns a fourth away after a release, and runs what it took. -/
def orderedRun : List (Event Nat) :=
  [.submit (some 1), .move (.enter 0 true none), .submit (some 2), .move (.enter 1 false none),
    .submit none, .submit (some 3), .move (.enter 3 true none), .submit (some 4), .release none,
    .move (.close 0), .move (.enter 4 true none), .move (.look 2 false)]

/-- That run takes the first task first, and the failed submissions are not among the accepted. -/
theorem started_in_order_after_failures :
    ∃ p₀ p : Pool Nat, create "io" 2 1000 true = .ok p₀ ∧ p₀.run orderedRun = some p ∧
      p₀.pickUps orderedRun = [(2, 1)] ∧ p.queue = [3] ∧
      p₀.admissions orderedRun = [(0, 1), (3, 3)] ∧
      p.submissions[1]? = some (.returned (some (.startFailed "io"))) ∧
      (p₀.pickUps orderedRun).map Prod.snd ++ p.queue
        = (p₀.admissions orderedRun).map Prod.snd ∧
      1 ∉ (p₀.admissions orderedRun).map Prod.fst := by
  obtain ⟨p₀, p, hp₀, hp, hpicks, hqueue, hadmits, hfailed⟩ : ∃ p₀ p : Pool Nat,
      create "io" 2 1000 true = .ok p₀ ∧ p₀.run orderedRun = some p ∧
        p₀.pickUps orderedRun = [(2, 1)] ∧ p.queue = [3] ∧
        p₀.admissions orderedRun = [(0, 1), (3, 3)] ∧
        p.submissions[1]? = some (.returned (some (.startFailed "io"))) :=
    ⟨_, _, rfl, rfl, rfl, rfl, rfl, rfl⟩
  obtain ⟨horder, -, -, -, hout⟩ := started_in_order hp₀ hp
  exact ⟨p₀, p, hp₀, hp, hpicks, hqueue, hadmits, hfailed, horder, hout 1 _ hfailed⟩

end Pool

end TaskPools
