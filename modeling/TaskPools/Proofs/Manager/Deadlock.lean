/-
# Calls that wait for themselves

A release for which no thread could be started runs on the thread of its caller and waits there for
the workers of its pool, without a bound.  Where one of them runs the very task that made the call
which sees to the release, the task waits for the call, the call for the release and the release for
the task: none of them ever goes on, whatever else happens (`Deadlocked.never_returns`).
-/
import TaskPools.Proofs.GuardedPool.Waits
import TaskPools.Proofs.Manager.Owners

namespace TaskPools

variable {τ : Type}

namespace Manager

/-- Release `t` of pool `i` waits without a bound for worker `w`, which runs a task. -/
def AwaitsTask (m : Manager τ) (i t w : Nat) : Prop :=
  ∃ g task, m.fleet.pools[i]? = some g ∧ g.Stuck t w task

/-- The task on worker `w` of pool `i` waits for call `c`, and that call waits for a release of the
pool, which waits for the task. -/
structure Deadlocked (m : Manager τ) (c i t w : Nat) : Prop where
  sees : ∃ work, m.calls[c]? = some ⟨some (i, w), work⟩ ∧ (i, t) ∈ work.attends
  awaits : m.AwaitsTask i t w

section

variable {m m' n : Manager τ} {e : Event τ} {es : List (Event τ)} {c i j t w : Nat}
  {caller : Option (Nat × Nat)} {work work' : Work τ} {g g' : GuardedPool (Job τ)}

/-! ## Waits for a task -/

theorem AwaitsTask.same (h : m.AwaitsTask i t w) (hn : n.fleet.pools = m.fleet.pools) :
    n.AwaitsTask i t w := by
  obtain ⟨g, task, at_i, stuck⟩ := h
  exact ⟨g, task, by rw [hn, at_i], stuck⟩

theorem AwaitsTask.step (h : m.AwaitsTask i t w) {event : GuardedPool.Event (Job τ)}
    (at_j : m.fleet.pools[j]? = some g) (steps : g.step event = some g')
    (goes_on : j = i → ∀ panic escape, event ≠ .move (.conclude w panic escape))
    (hn : n.fleet.pools = m.fleet.pools.set j g') : n.AwaitsTask i t w := by
  obtain ⟨k, task, at_i, stuck⟩ := h
  by_cases hij : j = i
  · subst hij
    cases at_j.symm.trans at_i
    refine ⟨g', task, ?_, stuck.change (GuardedPool.change_of_step steps) (goes_on rfl)⟩
    rw [hn]
    exact List.getElem?_set_self (List.getElem?_eq_some_iff.mp at_j).1
  · refine ⟨k, task, ?_, stuck⟩
    rw [hn, List.getElem?_set_ne hij, at_i]

/-- As long as the task does not end, neither does the wait for it. -/
theorem AwaitsTask.change (h : m.AwaitsTask i t w) (hc : Change m e m')
    (goes_on : ∀ panic escape, e ≠ .pool i (.conclude w panic escape)) : m'.AwaitsTask i t w := by
  cases hc with
  | call caller request => exact h.same rfl
  | pool j move g g' at_j moves =>
    refine h.step at_j moves ?_ (n := m.withPool j g') rfl
    rintro rfl panic escape same
    cases same
    exact goes_on panic escape rfl
  | act c caller _ work work' n at_c acts =>
    have asks := acts.asks
    generalize hps : n.fleet.pools = ps at asks
    cases asks with
    | nothing => exact h.same hps
    | ask j g g' event at_j steps no_move in_time =>
      exact h.step at_j steps (fun _ panic escape => no_move _) hps
    | build config watched g created =>
      obtain ⟨k, task, at_i, stuck⟩ := h
      refine ⟨k, task, ?_, stuck⟩
      show n.fleet.pools[i]? = some k
      rw [hps, List.getElem?_append_left (List.getElem?_eq_some_iff.mp at_i).1]
      exact at_i

theorem AwaitsTask.outstanding (h : m.AwaitsTask i t w) : m.Outstanding i t := by
  obtain ⟨g, task, at_i, r, at_t, -⟩ := h
  exact ⟨g, _, at_i, at_t, rfl⟩

/-! ## Deadlocks -/

/-- A call that sees to a release has not returned. -/
theorem not_over_of_attends (sees : (i, t) ∈ work.attends) : work.isOver = false := by
  cases retires : work.retirement? with
  | none =>
    rw [Work.attends, retires] at sees
    cases sees
  | some r => cases retires_of_retirement? retires <;> rfl

/-- A call stays that of its caller. -/
theorem Change.same_caller (hc : Change m e m') (at_c : m.calls[c]? = some ⟨caller, work⟩) :
    ∃ work', m'.calls[c]? = some ⟨caller, work'⟩ := by
  cases hc with
  | call caller' request =>
    refine ⟨work, ?_⟩
    rw [List.getElem?_append_left (List.getElem?_eq_some_iff.mp at_c).1]
    exact at_c
  | pool => exact ⟨work, at_c⟩
  | act c' caller' _ old new n at_c' acts =>
    have at_c : n.calls[c]? = some ⟨caller, work⟩ := acts.calls_eq ▸ at_c
    simp only [setWork, List.getElem?_modify, at_c]
    split
    · exact ⟨new, rfl⟩
    · exact ⟨work, rfl⟩

theorem Deadlocked.isCalling (h : m.Deadlocked c i t w) : m.isCalling i w = true := by
  obtain ⟨work, at_c, sees⟩ := h.sees
  rw [Manager.isCalling, List.any_eq_true]
  refine ⟨_, List.mem_of_getElem? at_c, ?_⟩
  simp only [beq_self_eq_true, Bool.true_and, not_over_of_attends sees, Bool.not_false]

/-- A deadlock lasts. -/
theorem Deadlocked.step (h : m.Deadlocked c i t w) (hstep : m.step e = some m') :
    m'.Deadlocked c i t w := by
  -- the task cannot end, because it waits for the call
  have goes_on : ∀ panic escape, e ≠ .pool i (.conclude w panic escape) := by
    rintro panic escape rfl
    rw [Manager.step, movePool, h.isCalling, if_pos rfl] at hstep
    cases hstep
  have hc := change_of_step hstep
  obtain ⟨work, at_c, sees⟩ := h.sees
  obtain ⟨work', hwork', sees'⟩ :=
    hc.still_attended (work?_of_getElem? at_c) sees h.awaits.outstanding
  obtain ⟨work'', at_c'⟩ := hc.same_caller at_c
  obtain rfl := Option.some.inj ((work?_of_getElem? at_c').symm.trans hwork')
  exact ⟨⟨work'', at_c', sees'⟩, h.awaits.change hc goes_on⟩

/-- The call never returns. -/
theorem Deadlocked.never_returns (h : m.Deadlocked c i t w) (hrun : m.run es = some m') :
    ∃ work, m'.work? c = some work ∧ work.isOver = false := by
  have still : m'.Deadlocked c i t w := run_preserves Deadlocked.step h hrun
  obtain ⟨work, at_c, sees⟩ := still.sees
  exact ⟨work, work?_of_getElem? at_c, not_over_of_attends sees⟩

end

end Manager

end TaskPools
