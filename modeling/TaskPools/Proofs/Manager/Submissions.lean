/-
# The submissions of all pools

The three views of the submissions of a pool, taken over all pools of a manager: the task that each
submission still holds (`pending?`), whether each was accepted (`hasAccepted`), and the accepted
tasks.  A change of one pool shows in them as it shows in the views of that pool, and a pool that is
built shows in none of them.  A call hands its task over as a new submission, and no other call
waits for that one (`Sited`).
-/
import TaskPools.Proofs.Manager.History

namespace TaskPools

variable {τ : Type}

/-- The submission that an execution waits for: a pool, and the number of the submission there. -/
def Work.site? : Work τ → Option (Nat × Nat)
  | .execute _ _ (.submitted _ i s) | .execute _ _ (.resubmitted i s) => some (i, s)
  | _ => none

/-- A call that sees to a retirement waits for no submission, before and after that. -/
theorem Work.site?_withRetirement {work : Work τ} {r : Retirement}
    (retires : work.retirement? = some r) (r' : Retirement) :
    (work.withRetirement r').site? = work.site? := by
  cases retires_of_retirement? retires <;> rfl

namespace Manager

/-- The task that submission `s` of pool `i` still holds. -/
def pending? (m : Manager τ) (i s : Nat) : Option (Job τ) :=
  (m.fleet.pools[i]?).bind fun g => g.pool.pending? s

/-- Submission `s` of pool `i` was accepted. -/
def hasAccepted (m : Manager τ) (i s : Nat) : Bool :=
  (m.fleet.pools[i]?).any fun g => g.pool.hasAccepted s

/-- The tasks that pools accepted, pool by pool. -/
def accepted (m : Manager τ) : List (Job τ) :=
  m.fleet.pools.flatMap fun g => g.pool.accepted

/-- No task is accepted, and the submissions hold what they held, unless they give it up. -/
structure Steady (m m' : Manager τ) : Prop where
  accepted : m'.accepted.Perm m.accepted
  settled : ∀ i s, m'.hasAccepted i s = m.hasAccepted i s
  pending : ∀ i s, m'.pending? i s = m.pending? i s ∨ m'.pending? i s = none

/-- The task that submission `s` of pool `i` holds is accepted. -/
structure Accepts (m m' : Manager τ) (i s : Nat) (job : Job τ) : Prop where
  held : m.pending? i s = some job
  accepted : m'.accepted.Perm (m.accepted ++ [job])
  settled : ∀ j s', m'.hasAccepted j s' = if (j, s') = (i, s) then true else m.hasAccepted j s'
  pending : ∀ j s', m'.pending? j s' = if (j, s') = (i, s) then none else m.pending? j s'

/-- A new submission `s` of pool `i` holds `job`, if it is a submission of a task at all. -/
structure Arrival (m m' : Manager τ) (i s : Nat) (job : Option (Job τ)) : Prop where
  fresh : m.hasAccepted i s = false
  accepted : m'.accepted.Perm m.accepted
  settled : ∀ j s', m'.hasAccepted j s' = m.hasAccepted j s'
  pending : ∀ j s', m'.pending? j s' = if (j, s') = (i, s) then job else m.pending? j s'

section

variable {m m' n : Manager τ} {e : Event τ} {c i : Nat} {caller : Option (Nat × Nat)}
  {work work' : Work τ} {g g' : GuardedPool (Job τ)}

/-! ## One pool changes -/

theorem pair_ne {i j s s' : Nat} (h : j ≠ i) : (j, s') ≠ (i, s) :=
  fun heq => h (congrArg Prod.fst heq)

/-- A step of pool `i` changes what its own submissions hold, and no other's. -/
theorem pending?_set (at_i : m.fleet.pools[i]? = some g)
    (hn : n.fleet.pools = m.fleet.pools.set i g') (j s : Nat) :
    n.pending? j s = if j = i then g'.pool.pending? s else m.pending? j s := by
  rw [pending?, hn, getElem?_set_at at_i, pending?]
  split <;> rfl

/-- A step of pool `i` changes which of its own submissions are accepted, and no other's. -/
theorem hasAccepted_set (at_i : m.fleet.pools[i]? = some g)
    (hn : n.fleet.pools = m.fleet.pools.set i g') (j s : Nat) :
    n.hasAccepted j s = if j = i then g'.pool.hasAccepted s else m.hasAccepted j s := by
  rw [hasAccepted, hn, getElem?_set_at at_i, hasAccepted]
  split <;> rfl

theorem pending?_self (at_i : m.fleet.pools[i]? = some g) (s : Nat) :
    m.pending? i s = g.pool.pending? s := by
  rw [pending?, at_i]
  rfl

theorem hasAccepted_self (at_i : m.fleet.pools[i]? = some g) (s : Nat) :
    m.hasAccepted i s = g.pool.hasAccepted s := by
  rw [hasAccepted, at_i]
  rfl

/-- What a pool accepts in addition the manager has accepted in addition. -/
theorem accepted_set (at_i : m.fleet.pools[i]? = some g)
    (hn : n.fleet.pools = m.fleet.pools.set i g') {more : List (Job τ)}
    (hg : g'.pool.accepted = g.pool.accepted ++ more) : n.accepted.Perm (m.accepted ++ more) := by
  rw [accepted, hn]
  exact flatMap_set_perm (fun g : GuardedPool (Job τ) => g.pool.accepted) at_i hg

/-- A manager accepts nothing in a step in which its pool does not. -/
theorem accepted_set_same (at_i : m.fleet.pools[i]? = some g)
    (hn : n.fleet.pools = m.fleet.pools.set i g') (hg : g'.pool.accepted = g.pool.accepted) :
    n.accepted.Perm m.accepted := by
  have hperm := accepted_set at_i hn (hg.trans (List.append_nil _).symm)
  rwa [List.append_nil] at hperm

/-- A step in which a pool accepts nothing is one in which its manager accepts nothing. -/
theorem Steady.set (at_i : m.fleet.pools[i]? = some g)
    (hn : n.fleet.pools = m.fleet.pools.set i g') (hs : Pool.Steady g.pool g'.pool) :
    Steady m n := by
  refine ⟨accepted_set_same at_i hn hs.accepted, fun j s => ?_, fun j s => ?_⟩
  · rw [hasAccepted_set at_i hn]
    split
    · rename_i hj
      rw [hj, hasAccepted_self at_i, hs.settled]
    · rfl
  · rw [pending?_set at_i hn]
    split
    · rename_i hj
      rw [hj, pending?_self at_i]
      exact hs.pending s
    · exact Or.inl rfl

/-- A task that a pool accepts is accepted by its manager. -/
theorem Accepts.set (at_i : m.fleet.pools[i]? = some g)
    (hn : n.fleet.pools = m.fleet.pools.set i g') {s : Nat} {job : Job τ}
    (ha : Pool.Accepts g.pool g'.pool s job) : Accepts m n i s job := by
  refine ⟨?_, accepted_set at_i hn ha.accepted, fun j s' => ?_, fun j s' => ?_⟩
  · rw [pending?_self at_i]
    exact ha.held
  · rw [hasAccepted_set at_i hn]
    split
    · rename_i hj
      rw [hj, hasAccepted_self at_i, ha.settled]
      by_cases hs : s' = s <;> simp [hs]
    · rename_i hj
      exact (if_neg (pair_ne hj)).symm
  · rw [pending?_set at_i hn]
    split
    · rename_i hj
      rw [hj, pending?_self at_i, ha.pending]
      simp
    · rename_i hj
      exact (if_neg (pair_ne hj)).symm

/-- A submission that arrives at a pool arrives at its manager. -/
theorem Arrival.set (at_i : m.fleet.pools[i]? = some g)
    (hn : n.fleet.pools = m.fleet.pools.set i g') {job : Option (Job τ)}
    (ha : Pool.Arrival g.pool g'.pool job) :
    Arrival m n i g.pool.submissions.length job := by
  refine ⟨?_, accepted_set_same at_i hn ha.accepted, fun j s => ?_, fun j s => ?_⟩
  · rw [hasAccepted_self at_i, Pool.hasAccepted, List.getElem?_eq_none (Nat.le_refl _)]
    rfl
  · rw [hasAccepted_set at_i hn]
    split
    · rename_i hj
      rw [hj, hasAccepted_self at_i, ha.settled]
    · rfl
  · rw [pending?_set at_i hn]
    split
    · rename_i hj
      rw [hj, pending?_self at_i, ha.pending]
      simp
    · rename_i hj
      exact (if_neg (pair_ne hj)).symm

/-! ## Calls and moves -/

theorem pending?_of_pools (h : n.fleet.pools = m.fleet.pools) (i s : Nat) :
    n.pending? i s = m.pending? i s := by
  rw [pending?, h, pending?]

theorem hasAccepted_of_pools (h : n.fleet.pools = m.fleet.pools) (i s : Nat) :
    n.hasAccepted i s = m.hasAccepted i s := by
  rw [hasAccepted, h, hasAccepted]

/-- Nothing is accepted where the pools stay as they are. -/
theorem Steady.same (h : n.fleet.pools = m.fleet.pools) : Steady m n := by
  refine ⟨?_, hasAccepted_of_pools h, fun i s => Or.inl (pending?_of_pools h i s)⟩
  rw [Manager.accepted, h]
  exact List.Perm.refl _

/-- A pool that is built has no submissions. -/
theorem Steady.build {config : PoolConfig} {watched : Bool}
    (created : GuardedPool.create config watched = .ok g)
    (h : n.fleet.pools = m.fleet.pools ++ [g]) : Steady m n := by
  obtain ⟨-, pool, hpool, rfl⟩ := GuardedPool.eq_of_create created
  obtain ⟨-, -, rfl⟩ := Pool.eq_of_create hpool
  refine ⟨?_, fun i s => ?_, fun i s => Or.inl ?_⟩
  · rw [Manager.accepted, h, List.flatMap_append]
    exact List.Perm.of_eq (List.append_nil _)
  · rw [hasAccepted, h, getElem?_append_one, hasAccepted]
    split
    · rename_i hi
      rw [hi, List.getElem?_eq_none (Nat.le_refl _)]
      rfl
    · rfl
  · rw [pending?, h, getElem?_append_one, pending?]
    split
    · rename_i hi
      rw [hi, List.getElem?_eq_none (Nat.le_refl _)]
      rfl
    · rfl

/-- A call that does not hand its task over accepts nothing and submits nothing. -/
theorem Act.steady (ha : Act m c caller e work work' n) (silent : work.handing? = none) :
    Steady m n := by
  cases ha with
  | submit | resubmit => cases silent
  | sample pool i g at_i => exact Steady.set at_i rfl (Pool.Steady.refl _)
  | gauge pool i k g g' at_i reads =>
    cases GuardedPool.change_of_step reads
    exact Steady.set at_i rfl (Pool.Steady.refl _)
  | launch _ r i g retires among free at_i
  | launchInline _ r i g retires among free at_i =>
    exact Steady.set at_i rfl (Pool.Steady.refl _)
  | build configs config rest batch batch' fleet builds =>
    obtain ⟨g, created, rfl, -⟩ := eq_of_build builds
    exact Steady.build created rfl
  | goOn | failReload | install | close | emptyNothing | emptyOut | shutDown | collect =>
    exact Steady.same rfl

/-- A call that hands its task over makes one submission of it and waits for that. -/
theorem Act.arrival (ha : Act m c caller e work work' n) {task : Option τ}
    (hands : work.handing? = some (i, task)) :
    ∃ g, m.fleet.pools[i]? = some g ∧ work'.site? = some (i, g.replies.length) ∧
      Arrival m n i g.pool.submissions.length (task.map (Job.mk c)) ∧
      ∃ job, n.fleet.pools = m.fleet.pools.set i { g with
        pool := g.pool.submit job
        replies := g.replies ++ [.pending] } := by
  cases ha with
  | goOn _ _ follows => cases follows <;> cases hands
  | submit pool task' generation j g at_j | resubmit pool task' j g at_j =>
    cases hands
    exact ⟨g, at_j, rfl, Arrival.set at_j rfl (Pool.arrival_of_submit _ _), _, rfl⟩
  | launch _ _ _ _ retires | launchInline _ _ _ _ retires | collect _ _ _ _ _ retires =>
    cases work <;> first | cases retires | cases hands
  | sample | gauge | build | failReload | install | close | emptyNothing | emptyOut | shutDown =>
    cases hands

/-! ## Who waits for a submission -/

/-- The submission that call `c` waits for. -/
def site? (m : Manager τ) (c : Nat) : Option (Nat × Nat) := (m.work? c).bind Work.site?

/-- The number of submissions to pool `i`. -/
def submissionCount (m : Manager τ) (i : Nat) : Nat :=
  (m.fleet.pools[i]?).elim 0 fun g => g.replies.length

/-- A call waits for a submission that was made, and no two calls wait for the same one. -/
structure Sited (m : Manager τ) : Prop where
  made : ∀ c i s, m.site? c = some (i, s) → s < m.submissionCount i
  once : ∀ c c' i s, m.site? c = some (i, s) → m.site? c' = some (i, s) → c = c'

theorem site?_eq (hwork : m.work? c = some work) : m.site? c = work.site? := by
  rw [site?, hwork]
  rfl

theorem site?_of_calls (h : n.calls = m.calls) (c : Nat) : n.site? c = m.site? c := by
  rw [site?, work?_of_calls h, site?]

/-- A call that goes to another place changes what it waits for itself, and no other call does. -/
theorem site?_setWork (hwork : n.work? c = some work) (c' : Nat) :
    (n.setWork c work').site? c' = if c' = c then work'.site? else n.site? c' := by
  by_cases hc : c' = c
  · rw [if_pos hc, hc, site?, work?_setWork_self hwork]
    rfl
  · rw [if_neg hc, site?, work?_setWork_ne hc, site?]

/-- A call that begins waits for no submission yet. -/
theorem site?_call (caller : Option (Nat × Nat)) (request : Request τ) (c : Nat) :
    ({ m with calls := m.calls ++ [⟨caller, request.work⟩] } : Manager τ).site? c = m.site? c := by
  rw [site?, work?_call, site?]
  split
  · rename_i hc
    rw [hc, work?, List.getElem?_eq_none (Nat.le_refl _)]
    cases request <;> rfl
  · rfl

/-- A call that does not hand its task over begins to wait for nothing. -/
theorem Act.site?_eq (ha : Act m c caller e work work' n) (silent : work.handing? = none) :
    work'.site? = work.site? ∨ work'.site? = none := by
  cases ha with
  | goOn _ _ follows => cases follows <;> exact Or.inr rfl
  | submit | resubmit => cases silent
  | launch _ _ _ _ retires | launchInline _ _ _ _ retires | collect _ _ _ _ _ retires =>
    exact Or.inl (Work.site?_withRetirement retires _)
  | sample | gauge | build | failReload | install | close | emptyNothing | emptyOut | shutDown =>
    exact Or.inl rfl

/-- Answers are never taken back. -/
theorem length_replies_le {e : GuardedPool.Event (Job τ)} (h : g.step e = some g') :
    g.replies.length ≤ g'.replies.length := by
  cases GuardedPool.change_of_step h with
  | submit =>
    rw [List.length_append]
    exact Nat.le_add_right _ _
  | answer s fault => exact Nat.le_of_eq List.length_set.symm
  | release | sample | gauge | pool | returns | panics | launch | launchInline | complete
  | elapse => exact Nat.le_refl _

/-- Submissions are never taken back. -/
theorem Change.submissionCount_le (hc : Change m e m') (i : Nat) :
    m.submissionCount i ≤ m'.submissionCount i := by
  rw [submissionCount, submissionCount]
  generalize hps : m'.fleet.pools = qs
  have hpools := hps ▸ hc.pools
  cases hpools with
  | same => exact Nat.le_refl _
  | step j g g' e at_j steps =>
    rw [getElem?_set_at at_j]
    split
    · rename_i hi
      rw [hi, at_j]
      exact length_replies_le steps
    · exact Nat.le_refl _
  | build config watched g created =>
    rw [getElem?_append_one]
    split
    · rename_i hi
      rw [hi, List.getElem?_eq_none (Nat.le_refl _)]
      exact Nat.zero_le _
    · exact Nat.le_refl _

/-- Calls go on waiting for what they waited for, or for nothing. -/
theorem Sited.keep (h : m.Sited) (hcount : ∀ i, m.submissionCount i ≤ m'.submissionCount i)
    (hsite : ∀ c, m'.site? c = m.site? c ∨ m'.site? c = none) : m'.Sited := by
  have before {c : Nat} {site : Nat × Nat} (hc : m'.site? c = some site) :
      m.site? c = some site := by
    rcases hsite c with hsame | hnone
    · rw [← hsame]
      exact hc
    · rw [hnone] at hc
      cases hc
  exact ⟨fun c i s hc => Nat.lt_of_lt_of_le (h.made c i s (before hc)) (hcount i),
    fun c c' i s hc hc' => h.once c c' i s (before hc) (before hc')⟩

/-- Only one call waits for a submission that it just made. -/
theorem Sited.add (h : m.Sited) (hcount : ∀ i, m.submissionCount i ≤ m'.submissionCount i)
    {s : Nat} (new : s = m.submissionCount i) (made : s < m'.submissionCount i)
    (mover : m'.site? c = some (i, s)) (others : ∀ c', c' ≠ c → m'.site? c' = m.site? c') :
    m'.Sited := by
  have unclaimed {c' : Nat} (hne : c' ≠ c) : m'.site? c' ≠ some (i, s) := by
    intro hsite
    rw [others c' hne] at hsite
    exact Nat.ne_of_lt (h.made c' i s hsite) new
  refine ⟨fun c' j s' hc' => ?_, fun c' c'' j s' hc' hc'' => ?_⟩
  · by_cases hne : c' = c
    · rw [hne, mover] at hc'
      cases hc'
      exact made
    · rw [others c' hne] at hc'
      exact Nat.lt_of_lt_of_le (h.made c' j s' hc') (hcount j)
  · by_cases hne : c' = c
    · by_cases hne' : c'' = c
      · exact hne.trans hne'.symm
      · rw [hne, mover] at hc'
        exact absurd (hc''.trans hc'.symm) (unclaimed hne')
    · by_cases hne' : c'' = c
      · rw [hne', mover] at hc''
        exact absurd (hc'.trans hc''.symm) (unclaimed hne)
      · rw [others c' hne] at hc'
        rw [others c'' hne'] at hc''
        exact h.once c' c'' j s' hc' hc''

/-- In every step calls wait for submissions that were made, each for one of its own. -/
theorem Sited.change (h : m.Sited) (hc : Change m e m') : m'.Sited := by
  have grows := hc.submissionCount_le
  cases hc with
  | call caller request => exact h.keep grows fun c => Or.inl (site?_call caller request c)
  | pool => exact h.keep grows fun c => Or.inl rfl
  | act c caller _ work work' n at_c acts =>
    have kept := acts.calls_eq
    have hwork := work?_of_getElem? at_c
    have hwork_n := (work?_of_calls kept c).trans hwork
    have others (c' : Nat) (hne : c' ≠ c) : (n.setWork c work').site? c' = m.site? c' := by
      rw [site?_setWork hwork_n, if_neg hne, site?_of_calls kept]
    have mover : (n.setWork c work').site? c = work'.site? := by
      rw [site?_setWork hwork_n, if_pos rfl]
    cases hands : work.handing? with
    | none =>
      refine h.keep grows fun c' => ?_
      by_cases hne : c' = c
      · rw [hne, mover, site?_eq hwork]
        exact acts.site?_eq hands
      · exact Or.inl (others c' hne)
    | some handing =>
      obtain ⟨i, task⟩ := handing
      obtain ⟨g, at_i, hsite, -, job, hpools⟩ := acts.arrival hands
      have before : m.submissionCount i = g.replies.length := by
        rw [submissionCount, at_i]
        rfl
      have after : n.submissionCount i = g.replies.length + 1 := by
        rw [submissionCount, hpools, getElem?_set_at at_i, if_pos rfl]
        exact List.length_append
      exact h.add grows before.symm (Nat.lt_of_lt_of_eq (Nat.lt_succ_self _) after.symm)
        (mover.trans hsite) others

/-- In every reachable manager calls wait for submissions that were made, each for one of its own.
-/
theorem Reachable.sited (h : m.Reachable) : m.Sited := by
  induction h with
  | create hcreate =>
    obtain ⟨fleet, batch, fresh, rfl⟩ := eq_of_ofConfigs hcreate
    exact ⟨nofun, nofun⟩
  | step _ hstep ih => exact ih.change (change_of_step hstep)

end

end Manager

end TaskPools
