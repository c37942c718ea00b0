/-
# The lock of a manager

A reload that finds the manager open when it looks for the second time has the lock from then on,
and gives it back when it installs its batch.  No two calls have it at a time
(`Reachable.holder_unique`), and whoever has it can go on (`step_swap`).  The flag is set without
the lock, but no call gets the lock where the flag is set (`Change.unlocked`): what a shutdown can
still find in its way is the one reload that had the lock already.
-/
import TaskPools.Proofs.Manager.Pools

namespace TaskPools

variable {τ : Type}

namespace Work

variable {work : Work τ}

/-- Only a reload between its second look at the flag and the swap has the lock. -/
theorem eq_of_holdsLock (holds : work.holdsLock = true) :
    ∃ configs batch, work = .reload configs (.checked batch) := by
  cases work with
  | reload configs phase =>
    cases phase with
    | checked batch => exact ⟨configs, batch, rfl⟩
    | begun | assembling | built | rejecting | retiring | returned => cases holds
  | execute | shutdown | stats | list => cases holds

/-- A call that begins does not have the lock. -/
@[simp] theorem holdsLock_request (request : Request τ) : request.work.holdsLock = false := by
  cases request <;> rfl

/-- A call that releases pools does not have the lock. -/
theorem holdsLock_withRetirement {r : Retirement} (retires : work.retirement? = some r)
    (r' : Retirement) : (work.withRetirement r').holdsLock = false := by
  cases retires_of_retirement? retires <;> rfl

end Work

namespace Manager

/-- With this step call `c` gets the lock, which is free: it looks at the flag, and that is not
set. -/
structure GetsLock (c : Nat) (m : Manager τ) (e : Event τ) (m' : Manager τ) : Prop where
  own : e = .advance c
  was_open : m.closed = false
  is_open : m'.closed = false
  unlocked : m.isLocked = false

/-- No two calls have the lock. -/
def Exclusive (m : Manager τ) : Prop :=
  ∀ c c' work work', m.work? c = some work → m.work? c' = some work' →
    work.holdsLock = true → work'.holdsLock = true → c = c'

section

variable {m m' n : Manager τ} {e : Event τ} {c c' : Nat} {caller : Option (Nat × Nat)}
  {work work' : Work τ} {configs : List PoolConfig} {batch : Batch}

/-! ## Who has the lock -/

theorem isLocked_iff :
    m.isLocked = true ↔ ∃ c work, m.work? c = some work ∧ work.holdsLock = true := by
  rw [isLocked, List.any_eq_true]
  constructor
  · rintro ⟨call, among, holds⟩
    obtain ⟨c, at_c⟩ := List.mem_iff_getElem?.mp among
    exact ⟨c, call.work, work?_of_getElem? at_c, holds⟩
  · rintro ⟨c, work, hwork, holds⟩
    obtain ⟨call, at_c, rfl⟩ := Option.map_eq_some_iff.mp hwork
    exact ⟨call, List.mem_of_getElem? at_c, holds⟩

/-- Where the lock is free, no call has it. -/
theorem holdsLock_eq_false (unlocked : m.isLocked = false) (hwork : m.work? c = some work) :
    work.holdsLock = false := by
  by_contra holds
  have locked := isLocked_iff.mpr ⟨c, work, hwork, by simpa using holds⟩
  rw [unlocked] at locked
  cases locked

/-- The lock is free if no call has it. -/
theorem isLocked_eq_false
    (nobody : ∀ c work, m.work? c = some work → ¬work.holdsLock = true) : m.isLocked = false := by
  by_contra locked
  obtain ⟨c, work, hwork, holds⟩ := isLocked_iff.mp (by simpa using locked)
  exact nobody c work hwork holds

/-- A call that takes the lock finds it free. -/
theorem Change.was_unlocked (hc : Change m (.advance c) m') (hwork : m.work? c = some work)
    (takes : work.takesLock = true) : m.isLocked = false := by
  cases hc with
  | act c₁ caller _ old new n at_c acts unlocked =>
    obtain rfl : c₁ = c := by cases acts <;> rfl
    cases (work?_of_getElem? at_c).symm.trans hwork
    exact unlocked takes

/-! ## How the lock is taken -/

/-- A step that leaves its call with the lock is the second look of a reload at the flag, which is
not set. -/
theorem Act.checks (ha : Act m c caller e work work' n) (holds : work'.holdsLock = true) :
    e = .advance c ∧ n = m ∧ m.closed = false ∧ work.takesLock = true := by
  cases ha with
  | goOn _ _ follows =>
    cases follows with
    | check configs batch is_open => exact ⟨rfl, rfl, is_open, rfl⟩
    | _ => cases holds
  | launch _ _ _ _ retires | launchInline _ _ _ _ retires | collect _ _ _ _ _ retires =>
    rw [Work.holdsLock_withRetirement retires] at holds
    cases holds
  | submit | resubmit | sample | gauge | build | failReload | install | close | emptyNothing
  | emptyOut | shutDown => cases holds

/-- Who has the lock has had it before, or gets it just now. -/
theorem Change.holder (hc : Change m e m') (hwork' : m'.work? c = some work')
    (holds : work'.holdsLock = true) : m.work? c = some work' ∨ GetsLock c m e m' := by
  cases hc with
  | call caller request =>
    rw [work?_call] at hwork'
    split at hwork'
    · cases hwork'
      rw [Work.holdsLock_request] at holds
      cases holds
    · exact Or.inl hwork'
  | pool => exact Or.inl hwork'
  | act c₁ caller _ old new n at_c acts unlocked =>
    have kept := work?_of_calls acts.calls_eq
    by_cases hne : c = c₁
    · subst hne
      rw [work?_setWork_self ((kept c).trans (work?_of_getElem? at_c))] at hwork'
      cases hwork'
      obtain ⟨own, rfl, is_open, takes⟩ := acts.checks holds
      exact Or.inr ⟨own, is_open, is_open, unlocked takes⟩
    · rw [work?_setWork_ne hne, kept] at hwork'
      exact Or.inl hwork'

/-- Where the flag is set, a free lock stays free. -/
theorem Change.unlocked (hc : Change m e m') (is_closed : m.closed = true)
    (unlocked : m.isLocked = false) : m'.isLocked = false := by
  refine isLocked_eq_false fun c work hwork holds => ?_
  rcases hc.holder hwork holds with before | gets
  · rw [holdsLock_eq_false unlocked before] at holds
    cases holds
  · cases is_closed.symm.trans gets.was_open

/-- A free lock stays free in a step that does not leave its call with the lock. -/
theorem Change.still_unlocked (hc : Change m e m') (unlocked : m.isLocked = false)
    (free : ∀ c work, e = .advance c → m'.work? c = some work → work.holdsLock = false) :
    m'.isLocked = false := by
  refine isLocked_eq_false fun c work hwork holds => ?_
  rcases hc.holder hwork holds with before | gets
  · cases (holdsLock_eq_false unlocked before).symm.trans holds
  · cases (free c work gets.own hwork).symm.trans holds

/-! ## Exclusion -/

theorem Exclusive.change (h : m.Exclusive) (hc : Change m e m') : m'.Exclusive := by
  intro c c' work work' hwork hwork' holds holds'
  rcases hc.holder hwork holds with before | gets
  · rcases hc.holder hwork' holds' with before' | gets'
    · exact h c c' work work' before before' holds holds'
    · cases (holdsLock_eq_false gets'.unlocked before).symm.trans holds
  · rcases hc.holder hwork' holds' with before' | gets'
    · cases (holdsLock_eq_false gets.unlocked before').symm.trans holds'
    · -- both get the lock in this step, which is a step of one call
      exact Event.advance.inj (gets.own.symm.trans gets'.own)

theorem Reachable.exclusive (h : m.Reachable) : m.Exclusive := by
  induction h with
  | create hcreate =>
    obtain ⟨fleet, batch, -, rfl⟩ := eq_of_ofConfigs hcreate
    intro c _ work _ hwork
    cases hwork
  | step _ hstep ih => exact ih.change (change_of_step hstep)

/-- **Mutual exclusion.**  Two calls that have the lock are one. -/
theorem Reachable.holder_unique (h : m.Reachable) {configs' : List PoolConfig} {batch' : Batch}
    (hwork : m.work? c = some (.reload configs (.checked batch)))
    (hwork' : m.work? c' = some (.reload configs' (.checked batch'))) : c = c' :=
  h.exclusive c c' _ _ hwork hwork' rfl rfl

/-! ## How the lock is given back -/

/-- The call that has the lock can go on, and installs its batch. -/
theorem step_swap (hwork : m.work? c = some (.reload configs (.checked batch))) :
    ∃ m', m.step (.advance c) = some m' ∧ m'.installed = batch ∧
      m'.work? c = some (.reload configs (.retiring (.ofBatch m.installed))) := by
  obtain ⟨⟨caller, _⟩, at_c, rfl⟩ := Option.map_eq_some_iff.mp hwork
  have swaps : m.advanceWork c (.reload configs (.checked batch)) =
      some ((m.install batch).note (.reloaded batch.length m.installed.length),
        .reload configs (.retiring (.ofBatch m.installed))) := rfl
  exact ⟨_, step_advance at_c (.inl rfl) swaps, rfl, work?_setWork_self hwork⟩

/-- After the swap of the call that has the lock the lock is free. -/
theorem Reachable.unlocked_of_swap (h : m.Reachable)
    (hwork : m.work? c = some (.reload configs (.checked batch)))
    (hstep : m.step (.advance c) = some m') : m'.isLocked = false := by
  obtain ⟨n, swap, -, done⟩ := step_swap hwork
  cases swap.symm.trans hstep
  refine isLocked_eq_false fun d work at_d holds => ?_
  rcases (change_of_step hstep).holder at_d holds with before | gets
  · -- another holder would have been one before
    obtain rfl := h.exclusive c d _ _ hwork before rfl holds
    cases at_d.symm.trans done
    cases holds
  · cases holdsLock_eq_false gets.unlocked hwork

/-- Whoever has the lock gives it back with one step, in which all other calls stay where they
are. -/
theorem Reachable.exists_unlock (h : m.Reachable) (locked : m.isLocked = true) :
    ∃ c configs batch m', m.work? c = some (.reload configs (.checked batch)) ∧
      m.step (.advance c) = some m' ∧ m'.isLocked = false := by
  obtain ⟨c, work, hwork, holds⟩ := isLocked_iff.mp locked
  obtain ⟨configs, batch, rfl⟩ := Work.eq_of_holdsLock holds
  obtain ⟨m', hstep, -, -⟩ := step_swap hwork
  exact ⟨c, configs, batch, m', hwork, hstep, h.unlocked_of_swap hwork hstep⟩

end

end Manager

end TaskPools
