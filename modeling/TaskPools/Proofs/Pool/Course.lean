/-
# What happens to a pool for ever

A `Course` says what happens to a pool at every moment: one event, or nothing.  In a fair course no
client of the pool is held up for ever: if from some moment on there is always a step that the
client can take, it takes one.  Nothing else is asked of a course.  Clients may come at any time,
tasks may never end, workers may be late or not, sleepers may wake without a reason or never do, and
threads may fail to start.

In a fair course a client brings about what it is about to do, unless that comes about without it
(`Course.Fair.leads`).  A run after which all clients are done, and nothing happens any more, is a
fair course (`fair_ofRun`).
-/
import TaskPools.Proofs.Pool.Admission
import TaskPools.Proofs.Pool.Order

namespace TaskPools

variable {τ : Type}

namespace Pool

/-- A thread that submits to a pool or releases it. -/
inductive Client where
  | submission (s : Nat)
  | release (r : Nat)
  deriving DecidableEq, Repr

/-- The client that takes this step.  To wake up is not a step of the one who sleeps. -/
def Event.client? : Event τ → Option Client
  | .move (.reap s) | .move (.enter s _ _) | .move (.resume s _ _) | .move (.announce s _) =>
    some (.submission s)
  | .move (.close r) | .move (.alertWorkers r) | .move (.alertSubmitters r) | .move (.join r) =>
    some (.release r)
  | _ => none

/-- There is a step that the client can take. -/
def Lets (p : Pool τ) (a : Client) : Prop :=
  ∃ e q, Event.client? e = some a ∧ p.step e = some q

/-- The steps of a submission. -/
theorem move_of_submission {e : Event τ} {s : Nat} (h : e.client? = some (.submission s)) :
    e = .move (.reap s) ∨ (∃ start alert, e = .move (.enter s start alert)) ∨
      (∃ start alert, e = .move (.resume s start alert)) ∨
      ∃ alert, e = .move (.announce s alert) := by
  unfold Event.client? at h
  split at h <;> cases h
  · exact Or.inl rfl
  · exact Or.inr (Or.inl ⟨_, _, rfl⟩)
  · exact Or.inr (Or.inr (Or.inl ⟨_, _, rfl⟩))
  · exact Or.inr (Or.inr (Or.inr ⟨_, rfl⟩))

/-- The steps of a release. -/
theorem move_of_release {e : Event τ} {r : Nat} (h : e.client? = some (.release r)) :
    e = .move (.close r) ∨ e = .move (.alertWorkers r) ∨ e = .move (.alertSubmitters r) ∨
      e = .move (.join r) := by
  unfold Event.client? at h
  split at h <;> cases h
  · exact Or.inl rfl
  · exact Or.inr (Or.inl rfl)
  · exact Or.inr (Or.inr (Or.inl rfl))
  · exact Or.inr (Or.inr (Or.inr rfl))

/-- What happens to a pool at every moment. -/
structure Course (τ : Type) where
  state : Nat → Pool τ
  event : Nat → Option (Event τ)
  follows : ∀ n, (event n).elim (some (state n)) (state n).step = some (state (n + 1))

namespace Course

/-- No client is held up for ever. -/
def Fair (x : Course τ) : Prop :=
  ∀ a n, (∀ k ≥ n, (x.state k).Lets a) → ∃ k ≥ n, ∃ e, x.event k = some e ∧ e.client? = some a

variable {x : Course τ} {n k : Nat}

/-- At each moment nothing happens or a step is taken. -/
theorem stays_or_steps (x : Course τ) (n : Nat) :
    x.state (n + 1) = x.state n ∨
      ∃ e, x.event n = some e ∧ (x.state n).step e = some (x.state (n + 1)) := by
  have follows := x.follows n
  cases hevent : x.event n with
  | none =>
    rw [hevent] at follows
    exact Or.inl (Option.some.inj follows).symm
  | some e =>
    rw [hevent] at follows
    exact Or.inr ⟨e, rfl, follows⟩

/-- A part of a course is a run. -/
theorem exists_run (x : Course τ) (hle : n ≤ k) : ∃ es, (x.state n).run es = some (x.state k) := by
  induction hle with
  | refl => exact ⟨[], rfl⟩
  | @step k _ ih =>
    obtain ⟨es, hrun⟩ := ih
    rcases x.stays_or_steps k with stays | ⟨e, -, hstep⟩
    · exact ⟨es, stays ▸ hrun⟩
    · exact ⟨es ++ [e], (run_append_one hrun e).trans hstep⟩

/-- What every change keeps a course keeps. -/
theorem keeps (x : Course τ) {P : Pool τ → Prop}
    (hchange : ∀ {p q : Pool τ} {c : Cause}, P p → Change p c q → P q) (h : P (x.state n))
    (hle : n ≤ k) : P (x.state k) := by
  obtain ⟨es, hrun⟩ := x.exists_run hle
  refine run_preserves (fun h hstep => ?_) h hrun
  rcases change_of_step hstep with ⟨c, hc⟩ | ⟨m, hm, hc⟩
  · exact hchange h hc
  · exact hchange (hchange h hm) hc

/-- **Progress.**  Let `P` hold until `Q` does, and `Q` from then on.  If a client can always take a
step while `P` holds, and each such step brings `Q` about, then `P` leads to `Q` in a fair course.
-/
theorem Fair.leads (fair : x.Fair) {P Q : Pool τ → Prop} (a : Client)
    (keeps_on : ∀ {p q : Pool τ} {c : Cause}, P p → Change p c q → P q ∨ Q q)
    (stays : ∀ {p q : Pool τ} {c : Cause}, Q p → Change p c q → Q q)
    (lets : ∀ {p : Pool τ}, P p → p.Lets a)
    (serves : ∀ {p q : Pool τ} {e : Event τ}, P p → e.client? = some a → p.step e = some q → Q q)
    (h : P (x.state n)) : ∃ k ≥ n, ∀ l ≥ k, Q (x.state l) := by
  suffices ∃ k ≥ n, Q (x.state k) by
    obtain ⟨k, hle, hk⟩ := this
    exact ⟨k, hle, fun l hl => x.keeps stays hk hl⟩
  by_contra never
  push Not at never
  have still : ∀ k ≥ n, P (x.state k) := by
    intro k hle
    refine (x.keeps (P := fun p => P p ∨ Q p) ?_ (Or.inl h) hle).resolve_right (never k hle)
    rintro p q c (hp | hq) hc
    · exact keeps_on hp hc
    · exact Or.inr (stays hq hc)
  obtain ⟨k, hle, e, hevent, own⟩ := fair a n fun k hle => lets (still k hle)
  have follows := x.follows k
  rw [hevent] at follows
  exact never (k + 1) (Nat.le_succ_of_le hle) (serves (still k hle) own follows)

/-! ## Courses that come to an end -/

section

variable {p q : Pool τ} {es : List (Event τ)}

theorem exists_run_take (hrun : p.run es = some q) (n : Nat) :
    ∃ m, p.run (es.take n) = some m ∧ m.run (es.drop n) = some q := by
  rw [← List.take_append_drop n es] at hrun
  exact run_append hrun

/-- The course in which the events of a run happen one after the other, and then no more. -/
def ofRun (hrun : p.run es = some q) : Course τ where
  state n := (p.run (es.take n)).getD q
  event n := es[n]?
  follows n := by
    obtain ⟨m, hm, -⟩ := exists_run_take hrun n
    obtain ⟨m', hm', -⟩ := exists_run_take hrun (n + 1)
    rw [hm, hm', Option.getD_some, Option.getD_some]
    rw [List.take_add_one] at hm'
    cases hevent : es[n]? with
    | none =>
      rw [hevent, Option.toList_none, List.append_nil] at hm'
      exact hm.symm.trans hm'
    | some e =>
      rw [hevent, Option.toList_some] at hm'
      exact (run_append_one hm e).symm.trans hm'

theorem state_ofRun_zero (hrun : p.run es = some q) : (ofRun hrun).state 0 = p := rfl

theorem state_ofRun_of_le (hrun : p.run es = some q) (hle : es.length ≤ n) :
    (ofRun hrun).state n = q := by
  show (p.run (es.take n)).getD q = q
  rw [List.take_of_length_le hle, hrun, Option.getD_some]

/-- Whoever is done takes no step. -/
theorem not_lets_of_over (submissions : ∀ x ∈ q.submissions, x.isReturned = true)
    (releases : ∀ place ∈ q.releases, place = .returned) (a : Client) : ¬ q.Lets a := by
  have submission_over (s : Nat) :
      q.submissions[s]? = none ∨ ∃ fault, q.submissions[s]? = some (.returned fault) := by
    cases at_s : q.submissions[s]? with
    | none => exact Or.inl rfl
    | some x =>
      have returned := submissions x (List.mem_of_getElem? at_s)
      cases x with
      | returned fault => exact Or.inr ⟨fault, rfl⟩
      | reaping | entering | parked | woken | announcing => cases returned
  have release_over (r : Nat) : q.releases[r]? = none ∨ q.releases[r]? = some .returned := by
    cases at_r : q.releases[r]? with
    | none => exact Or.inl rfl
    | some place => exact Or.inr (congrArg some (releases place (List.mem_of_getElem? at_r)))
  rintro ⟨e, q', own, hstep⟩
  cases a with
  | submission s =>
    rcases move_of_submission own with
      rfl | ⟨start, alert, rfl⟩ | ⟨start, alert, rfl⟩ | ⟨alert, rfl⟩ <;>
    rcases submission_over s with at_s | ⟨fault, at_s⟩ <;>
      simp [step, move, reap, enter, resume, announce, at_s] at hstep
  | release r =>
    rcases move_of_release own with rfl | rfl | rfl | rfl <;>
    rcases release_over r with at_r | at_r <;>
      simp [step, move, close, alertWorkers, alertSubmitters, join, at_r] at hstep

/-- A run after which all clients are done is a fair course. -/
theorem fair_ofRun (hrun : p.run es = some q)
    (submissions : ∀ x ∈ q.submissions, x.isReturned = true)
    (releases : ∀ place ∈ q.releases, place = .returned) : (ofRun hrun).Fair := by
  intro a n lets
  have later := lets (max n es.length) (Nat.le_max_left _ _)
  rw [state_ofRun_of_le hrun (Nat.le_max_right _ _)] at later
  exact absurd later (not_lets_of_over submissions releases a)

end

end Course

end Pool

end TaskPools
