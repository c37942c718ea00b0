/-
# How submissions are settled

A submission holds its task until it is settled: it is accepted, and then the task goes into the
queue, or it returns with a fault, and then the task is gone.  What a change does to the submissions
of a pool is seen in three views: the task that each still holds (`pending?`), whether each was
accepted (`hasAccepted`), and the accepted tasks.  A change that the pool makes by itself leaves all
three as they are, apart from tasks that are given up (`Steady`), or it accepts one task
(`Accepts`). A new submission is an `Arrival`.
-/
import Mathlib.Logic.Relation
import TaskPools.Proofs.Pool.Journal

namespace TaskPools

variable {τ : Type}

namespace Pool

/-- The task that submission `s` still holds. -/
def pending? (p : Pool τ) (s : Nat) : Option τ := (p.submissions[s]?).bind Submission.task?

/-- Submission `s` was accepted. -/
def hasAccepted (p : Pool τ) (s : Nat) : Bool := (p.submissions[s]?).any Submission.isAccepted

/-- No task is accepted, and the submissions hold what they held, unless they give it up. -/
structure Steady (p q : Pool τ) : Prop where
  accepted : q.accepted = p.accepted
  settled : ∀ s, q.hasAccepted s = p.hasAccepted s
  pending : ∀ s, q.pending? s = p.pending? s ∨ q.pending? s = none

/-- The task that submission `s` holds is accepted. -/
structure Accepts (p q : Pool τ) (s : Nat) (task : τ) : Prop where
  held : p.pending? s = some task
  accepted : q.accepted = p.accepted ++ [task]
  settled : ∀ s', q.hasAccepted s' = (s' == s || p.hasAccepted s')
  pending : ∀ s', q.pending? s' = if s' = s then none else p.pending? s'

/-- A new submission holds `task`, if it is a submission of a task at all. -/
structure Arrival (p q : Pool τ) (task : Option τ) : Prop where
  accepted : q.accepted = p.accepted
  settled : ∀ s, q.hasAccepted s = p.hasAccepted s
  pending : ∀ s, q.pending? s = if s = p.submissions.length then task else p.pending? s

/-- What a pool can do to its submissions in one change. -/
def Settles (p q : Pool τ) : Prop :=
  Steady p q ∨ ∃ s task, Accepts p q s task

/-- What a pool can do to its submissions by itself, however long it takes. -/
abbrev SettlesOn (p q : Pool τ) : Prop :=
  Relation.ReflTransGen Settles p q

section

variable {p q m : Pool τ} {s : Nat} {x y : Submission τ}

/-! ## One submission moves -/

theorem Steady.refl (p : Pool τ) : Steady p p :=
  ⟨rfl, fun _ => rfl, fun _ => Or.inl rfl⟩

theorem Steady.trans (h₁ : Steady p m) (h₂ : Steady m q) : Steady p q := by
  refine ⟨h₂.accepted.trans h₁.accepted, fun s => (h₂.settled s).trans (h₁.settled s), fun s => ?_⟩
  rcases h₂.pending s with h | h
  · rw [h]
    exact h₁.pending s
  · exact Or.inr h

/-- Only the journal tells of acceptances, so the rest may change. -/
theorem Steady.same (hq : q.submissions = p.submissions) (haccepted : q.accepted = p.accepted) :
    Steady p q := by
  refine ⟨haccepted, fun s => ?_, fun s => Or.inl ?_⟩
  · rw [hasAccepted, hq, hasAccepted]
  · rw [pending?, hq, pending?]

/-- A submission changes its place without being accepted. -/
theorem Steady.set (at_s : p.submissions[s]? = some x) (hq : q.submissions = p.submissions.set s y)
    (haccepted : q.accepted = p.accepted) (hsettled : y.isAccepted = x.isAccepted)
    (htask : y.task? = x.task? ∨ y.task? = none) : Steady p q := by
  refine ⟨haccepted, fun s' => ?_, fun s' => ?_⟩
  · rw [hasAccepted, hq, hasAccepted, getElem?_set_at at_s]
    split
    · rename_i hs
      rw [hs, at_s]
      exact hsettled
    · rfl
  · rw [pending?, hq, pending?, getElem?_set_at at_s]
    split
    · rename_i hs
      rw [hs, at_s]
      exact htask
    · exact Or.inl rfl

theorem Steady.told (h : Told p.submissions q.submissions) (haccepted : q.accepted = p.accepted) :
    Steady p q := by
  generalize hq : q.submissions = l at h
  cases h with
  | nobody => exact Steady.same hq haccepted
  | one s task at_s => exact Steady.set at_s hq haccepted rfl (Or.inl rfl)

theorem Steady.wake (hq : q.submissions = p.submissions.map wakeSubmitter)
    (haccepted : q.accepted = p.accepted) : Steady p q := by
  refine ⟨haccepted, fun s => ?_, fun s => Or.inl ?_⟩
  · rw [hasAccepted, hq, hasAccepted, List.getElem?_map]
    rcases p.submissions[s]? with _ | x
    · rfl
    · cases x <;> rfl
  · rw [pending?, hq, pending?, List.getElem?_map]
    rcases p.submissions[s]? with _ | x
    · rfl
    · cases x <;> rfl

/-- A submission that asks for a slot holds its task. -/
theorem task?_of_asking {task : τ} (h : x.asking? = some task) :
    x.task? = some task ∧ x.isAccepted = false := by
  cases x <;> first | exact ⟨h, rfl⟩ | cases h

/-- A submission that still holds its task was not accepted. -/
theorem hasAccepted_of_pending? {task : τ} (h : p.pending? s = some task) :
    p.hasAccepted s = false := by
  obtain ⟨x, at_s, htask⟩ := Option.bind_eq_some_iff.mp h
  rw [hasAccepted, at_s]
  cases x <;> first | rfl | cases htask

theorem accepts_of_set {task : τ} (at_s : p.submissions[s]? = some x)
    (asks : x.asking? = some task) (hq : q.submissions = p.submissions.set s .announcing)
    (hjournal : q.journal = p.journal ++ [.accepted task]) : Accepts p q s task := by
  refine ⟨?_, accepted_append hjournal, fun s' => ?_, fun s' => ?_⟩
  · rw [pending?, at_s]
    exact (task?_of_asking asks).1
  · rw [hasAccepted, hq, hasAccepted, getElem?_set_at at_s]
    by_cases hs : s' = s <;> simp [hs, Submission.isAccepted]
  · rw [pending?, hq, pending?, getElem?_set_at at_s]
    split <;> rfl

/-! ## Every change settles -/

theorem accepted_of_other {r : Report τ} (hq : q.journal = p.journal ++ [r])
    (hr : r.accepted? = none) : q.accepted = p.accepted := by
  rw [accepted_append hq, hr]
  exact List.append_nil _

/-- What a change that the pool makes by itself does to its submissions. -/
theorem Change.settles (hc : Change p .move q) : Settles p q := by
  cases hc with
  | accept s x task at_s asks | acceptStarting s x task at_s asks =>
    exact Or.inr ⟨s, task, accepts_of_set at_s asks rfl rfl⟩
  | reapNone s task at_s => exact Or.inl (Steady.set at_s rfl rfl rfl (Or.inl rfl))
  | reap s task w rest at_s =>
    refine Or.inl (Steady.set at_s rfl rfl ?_ (Or.inl ?_)) <;> split <;> rfl
  | refuseClosed s x task at_s asks =>
    exact Or.inl (Steady.set at_s rfl rfl (task?_of_asking asks).2.symm (Or.inr rfl))
  | refuseFull s task at_s => exact Or.inl (Steady.set at_s rfl rfl rfl (Or.inr rfl))
  | block s task at_s | sleepOn s task told at_s | stirSubmitter s task at_s =>
    exact Or.inl (Steady.set at_s rfl rfl rfl (Or.inl rfl))
  | announce s workers at_s => exact Or.inl (Steady.set at_s rfl rfl rfl (Or.inl rfl))
  | failStart s x task submissions at_s asks is_open free short told =>
    -- first a sleeper is told, then the submission that asked gives up
    have awake := told.getElem? at_s (isParked_of_asking asks)
    have first : Steady p { p with submissions } := Steady.told told rfl
    exact Or.inl (first.trans (Steady.set awake rfl (accepted_of_other rfl rfl)
      (task?_of_asking asks).2.symm (Or.inr rfl)))
  | giveBack w task submissions at_w told => exact Or.inl (Steady.told told rfl)
  | alertSubmitters => exact Or.inl (Steady.wake rfl rfl)
  | take | expire | finish => exact Or.inl (Steady.same rfl (accepted_of_other rfl rfl))
  | join r own w rest =>
    refine Or.inl (Steady.same rfl ?_)
    by_cases last : rest = []
    · exact accepted_of_other (if_pos last) rfl
    · simp only [accepted, if_neg last]
  | stirWorker | leave | park | close | alertWorkers => exact Or.inl (Steady.same rfl rfl)

theorem arrival_of_append (y : Submission τ) (hq : q.submissions = p.submissions ++ [y])
    (haccepted : q.accepted = p.accepted) (hy : y.isAccepted = false) : Arrival p q y.task? := by
  refine ⟨haccepted, fun s => ?_, fun s => ?_⟩
  · rw [hasAccepted, hq, hasAccepted, getElem?_append_one]
    by_cases hs : s = p.submissions.length
    · rw [if_pos hs, hs, List.getElem?_eq_none (Nat.le_refl _)]
      exact hy
    · rw [if_neg hs]
  · rw [pending?, hq, pending?, getElem?_append_one]
    by_cases hs : s = p.submissions.length
    · rw [if_pos hs, if_pos hs]
      rfl
    · rw [if_neg hs, if_neg hs]

/-- A new submission holds the task that was submitted. -/
theorem arrival_of_submit (p : Pool τ) (task : Option τ) : Arrival p (p.submit task) task := by
  cases task with
  | none => exact arrival_of_append (.returned (some .emptyTask)) rfl rfl rfl
  | some task =>
    rw [submit]
    split
    · exact arrival_of_append (.entering task) rfl rfl rfl
    · exact arrival_of_append (.reaping task p.retired) rfl rfl rfl

theorem length_submissions_submit (p : Pool τ) (task : Option τ) :
    (p.submit task).submissions.length = p.submissions.length + 1 := by
  cases task with
  | none => exact List.length_append
  | some task =>
    rw [submit]
    split <;> exact List.length_append

end

end Pool

end TaskPools
