/-
# What is accepted after a shutdown

Once a shutdown has returned, nothing is installed any more (`Reachable.shutDown_of_returned`).  An
execution that found its pool before that may still hand its task over, and the pool takes the task
if it is open.  A pool that is closed takes nothing for ever, and neither does one that was never
installed, for nobody can find it (`Barred`).

So what is accepted after all is accepted by a pool that was taken out and is still open
(`Lingers`): the call that took it out is not done with its release, or the release was given up
after its time before it closed the pool (`late_acceptance_explained`).  Both happen
(`accepted_after_shutdown`): a shutdown that finds nothing installed returns although an earlier one
still releases the pools, and the wait for a release begins before the release does.
-/
import TaskPools.Proofs.GuardedPool.Closing
import TaskPools.Proofs.Manager.Swaps
import TaskPools.Proofs.Manager.Untouched

namespace TaskPools

variable {τ : Type}

/-- The shutdown has installed the empty batch. -/
def ShutdownPhase.hasEmptied : ShutdownPhase → Bool
  | .begun | .closed => false
  | .retiring _ | .returned => true

/-- The work releases pools that it took out of service. -/
def Work.drains : Work τ → Bool
  | .reload _ (.retiring _) | .shutdown (.retiring _) => true
  | _ => false

namespace Manager

/-- The tasks that pool `i` accepted, in this order. -/
def acceptedBy (m : Manager τ) (i : Nat) : List (Job τ) :=
  (m.fleet.pools[i]?).elim [] fun g => g.pool.accepted

/-- Pool `i` is closed. -/
def IsClosed (m : Manager τ) (i : Nat) : Prop :=
  ∃ g, m.fleet.pools[i]? = some g ∧ g.pool.closed = true

/-- The manager is shut down, and pool `i` is closed or was never installed. -/
structure Barred (m : Manager τ) (i : Nat) : Prop where
  shutDown : m.ShutDown
  refuses : m.IsClosed i ∨ m.Untouched i

/-- A shutdown that went beyond its swap has emptied the manager. -/
def EmptiedFirst (m : Manager τ) : Prop :=
  ∀ c phase, m.work? c = some (.shutdown phase) → phase.hasEmptied = true → m.ShutDown

section

variable {m m' n : Manager τ} {e : Event τ} {es es' : List (Event τ)} {c i : Nat}
  {caller : Option (Nat × Nat)} {work work' : Work τ}

/-! ## A shutdown that has returned -/

theorem EmptiedFirst.change (h : m.EmptiedFirst) (hm : m.Reachable) (hc : Change m e m') :
    m'.EmptiedFirst := by
  intro c phase hwork later
  rcases hc.origin hwork with ⟨request, hrequest⟩ | same | ⟨caller, old, n, hold, acts⟩
  · cases request <;> cases hrequest
    cases later
  · exact (h c phase same later).change hc
  · have emptied_before {r : Retirement} (was : old = .shutdown (.retiring r)) : m'.ShutDown :=
      (h c (.retiring r) (was ▸ hold) rfl).change hc
    generalize hnew : Work.shutdown phase = work' at acts
    cases acts with
    | goOn _ _ follows => exact absurd hnew.symm follows.not_shutdown
    | close =>
      cases hnew
      cases later
    | emptyNothing | emptyOut =>
      exact hm.shutDown_of_emptiesOut hc (emptiesOut_of_work hold)
    | shutDown r => exact emptied_before rfl
    | launch _ r _ _ retires | launchInline _ r _ _ retires | collect _ _ r _ _ retires =>
      exact emptied_before (shutdown_of_withRetirement retires hnew.symm)
    | submit | resubmit | sample | gauge | build | failReload | install => cases hnew

theorem Reachable.emptiedFirst (h : m.Reachable) : m.EmptiedFirst := by
  induction h with
  | create hcreate =>
    obtain ⟨fleet, batch, fresh, rfl⟩ := eq_of_ofConfigs hcreate
    exact nofun
  | step hm hstep ih => exact ih.change hm (change_of_step hstep)

/-- Once a shutdown has returned, nothing is installed any more. -/
theorem Reachable.shutDown_of_returned (h : m.Reachable)
    (returned : m.work? c = some (.shutdown .returned)) : m.ShutDown :=
  h.emptiedFirst c .returned returned rfl

/-! ## Pools that accept nothing more -/

/-- Nobody ever submitted anything to an untouched pool. -/
theorem Reachable.submissions_of_untouched (h : m.Reachable) (untouched : m.Untouched i)
    {g : GuardedPool (Job τ)} (at_i : m.fleet.pools[i]? = some g) : g.pool.submissions = [] := by
  have unused := untouched.unused
  rw [submissionCount, at_i] at unused
  rw [← List.length_eq_zero_iff, ← (h.pool at_i).answered.length_eq]
  exact unused

theorem IsClosed.change (h : m.IsClosed i) (hc : Change m e m') : m'.IsClosed i := by
  obtain ⟨g, at_i, is_closed⟩ := h
  rw [IsClosed]
  generalize hps : m'.fleet.pools = qs
  have hpools := hps ▸ hc.pools
  cases hpools with
  | same => exact ⟨g, at_i, is_closed⟩
  | step j old new e at_j steps =>
    rw [getElem?_set_at at_j]
    split
    · rename_i same
      obtain rfl : old = g := Option.some.inj (at_j.symm.trans (same ▸ at_i))
      exact ⟨new, rfl, (GuardedPool.change_of_step steps).closed_mono is_closed⟩
    · exact ⟨g, at_i, is_closed⟩
  | build config watched new created =>
    exact ⟨g, (List.getElem?_append_left (List.getElem?_eq_some_iff.mp at_i).1).trans at_i,
      is_closed⟩

/-- Only an open pool that somebody submitted to accepts a task. -/
theorem Reachable.acceptedBy_eq (h : m.Reachable) (refuses : m.IsClosed i ∨ m.Untouched i)
    (hc : Change m e m') : m'.acceptedBy i = m.acceptedBy i := by
  rw [acceptedBy, acceptedBy]
  generalize hps : m'.fleet.pools = qs
  have hpools := hps ▸ hc.pools
  cases hpools with
  | same => rfl
  | step j old new e at_j steps =>
    rw [getElem?_set_at at_j]
    split
    · rename_i same
      rw [same, at_j]
      refine (GuardedPool.change_of_step steps).accepted_eq (refuses.imp ?_ fun untouched => ?_)
      · rintro ⟨g, at_i, is_closed⟩
        rw [same, at_j] at at_i
        cases at_i
        exact is_closed
      · exact h.submissions_of_untouched untouched (same ▸ at_j)
    · rfl
  | build config watched new created =>
    rw [getElem?_append_one]
    split
    · rename_i same
      rw [same, List.getElem?_eq_none (Nat.le_refl _)]
      exact GuardedPool.accepted_of_create created
    · rfl

theorem Barred.change (h : m.Barred i) (hc : Change m e m') : m'.Barred i := by
  have shut : m'.ShutDown := h.shutDown.change hc
  refine ⟨shut, h.refuses.imp (fun is_closed => is_closed.change hc) fun untouched => ?_⟩
  refine untouched.change hc ?_
  rw [shut.installed]
  exact List.not_mem_nil

/-- From then on it accepts nothing. -/
theorem Barred.acceptedBy_eq (h : m.Barred i) (hm : m.Reachable) (hrun : m.run es = some m') :
    m'.acceptedBy i = m.acceptedBy i := by
  induction es generalizing m with
  | nil => rw [run_nil hrun]
  | cons e es ih =>
    obtain ⟨k, hstep, hrun⟩ := run_cons hrun
    have hc := change_of_step hstep
    rw [ih (h.change hc) (hm.step hstep) hrun, hm.acceptedBy_eq h.refuses hc]

/-! ## Pools that may still accept -/

/-- Pool `i` was taken out of service and is still open: a call is not done with its release, or the
release was given up after its time. -/
structure Lingers (m : Manager τ) (i : Nat) (g : GuardedPool (Job τ)) : Prop where
  built : m.fleet.pools[i]? = some g
  is_open : g.pool.closed = false
  retired : (∃ c work, m.work? c = some work ∧ work.drains = true ∧ m.Owns (.retired c) i) ∨
    g.releases = [.returned (some (.shutdownTimeout g.config.name))]

theorem unlisted_of_batched (hi : i ∈ work.batched) : i ∈ work.unlisted := by
  cases work with
  | reload configs phase =>
    cases phase with
    | assembling assembly =>
      rcases assembly with ⟨todo, batch⟩ | ⟨fault, r⟩ | ⟨fault | batch⟩
      · exact hi
      · cases hi
      · exact hi
      · exact hi
    | built | checked => exact hi
    | begun | rejecting | retiring | returned => cases hi
  | execute | shutdown | stats | list => cases hi

/-- What a call is to release, or sees to, was taken out of service or was never in it. -/
theorem drains_or_unlisted (busy : i ∈ work.condemned ∨ ∃ t, (i, t) ∈ work.attends) :
    work.drains = true ∨ i ∈ work.unlisted := by
  cases retires : work.retirement? with
  | none =>
    rw [Work.condemned, Work.attends, retires] at busy
    rcases busy with condemned | ⟨t, sees⟩
    · cases condemned
    · cases sees
  | some r =>
    have listed : i ∈ r.todo ++ r.underWay.map Prod.fst := by
      rw [Work.condemned, attends_of_retirement retires, retires] at busy
      rcases busy with condemned | ⟨t, sees⟩
      · exact List.mem_append_left _ condemned
      · exact List.mem_append_right _ (List.mem_map.mpr ⟨(i, t), sees, rfl⟩)
    cases retires_of_retirement? retires with
    | discarding | rejecting => exact Or.inr listed
    | retiring | shutdown => exact Or.inl rfl

/-- An open pool that was in service and is not installed any more lingers. -/
theorem Reachable.lingers (h : m.Reachable) (built : i < m.fleet.pools.length)
    (out : i ∉ m.installed.pools) (touched : ¬ m.Untouched i) {g : GuardedPool (Job τ)}
    (at_i : m.fleet.pools[i]? = some g) (is_open : g.pool.closed = false) : m.Lingers i g := by
  refine ⟨at_i, is_open, ?_⟩
  obtain ⟨o, owns⟩ := h.exists_owner built
  cases o with
  | installed => exact absurd owns out
  | batch c =>
    obtain ⟨work, hwork, batched⟩ := owns
    exact absurd (h.untouched hwork (unlisted_of_batched batched)) touched
  | retired c =>
    obtain ⟨work, hwork, busy⟩ := id owns
    have listed := drains_or_unlisted (busy.imp_right (Exists.imp fun _ => And.left))
    have drains := listed.resolve_right fun hi => touched (h.untouched hwork hi)
    exact Or.inl ⟨c, work, hwork, drains, owns⟩
  | released =>
    obtain ⟨g', fault, at_i', releases_eq⟩ := owns
    obtain rfl : g = g' := Option.some.inj (at_i.symm.trans at_i')
    have hmem : .returned fault ∈ g.releases := by
      rw [releases_eq]
      exact List.mem_singleton_self _
    cases fault with
    | none =>
      -- a release that succeeded has closed the pool
      rw [(h.pool at_i).closed_of_success hmem] at is_open
      cases is_open
    | some fault =>
      rw [(h.pool at_i).failsByTimeout fault hmem] at releases_eq
      exact Or.inr releases_eq

/-- When nothing is installed, a pool accepts nothing more unless it lingers. -/
theorem Reachable.barred_or_lingers (h : m.Reachable) (shut : m.ShutDown) (i : Nat) :
    m.Barred i ∨ ∃ g, m.Lingers i g := by
  by_cases untouched : m.Untouched i
  · exact Or.inl ⟨shut, Or.inr untouched⟩
  · have built : i < m.fleet.pools.length := by
      by_contra unbuilt
      exact untouched (h.fresh.unbuilt i (Nat.not_lt.mp unbuilt))
    have at_i : m.fleet.pools[i]? = some m.fleet.pools[i] := List.getElem?_eq_getElem built
    have out : i ∉ m.installed.pools := by
      rw [shut.installed]
      exact List.not_mem_nil
    cases hclosed : m.fleet.pools[i].pool.closed with
    | true => exact Or.inl ⟨shut, Or.inl ⟨_, at_i, hclosed⟩⟩
    | false => exact Or.inr ⟨_, h.lingers built out untouched at_i hclosed⟩

/-- A pool that lingers is with a call that drains pools, or its release failed. -/
theorem Lingers.cause {g : GuardedPool (Job τ)} (h : m.Lingers i g) :
    (∃ c work, m.work? c = some work ∧ work.drains = true) ∨
      ∃ fault, .returned (some fault) ∈ g.releases := by
  rcases h.retired with ⟨c, work, hwork, drains, -⟩ | timed_out
  · exact Or.inl ⟨c, work, hwork, drains⟩
  · refine Or.inr ⟨.shutdownTimeout g.config.name, ?_⟩
    rw [timed_out]
    exact List.mem_singleton_self _

/-- **What is accepted after a shutdown has returned.**  Whatever happens after that, a pool accepts
a task only if it was still open when the shutdown returned, though it had been taken out of
service: another call was not done with its release, or that release had been given up after its
time.  So if no call was draining pools any more and no release had failed, no pool accepts
anything, not even from an execution that found it long before. -/
theorem late_acceptance_explained {configs : List PoolConfig} {options : FleetOptions}
    {m₀ : Manager τ} (hcreate : ofConfigs configs options = .ok m₀) (hrun : m₀.run es = some n)
    (returned : n.work? c = some (.shutdown .returned)) (hrun' : n.run es' = some m) :
    (∀ i, m.acceptedBy i ≠ n.acceptedBy i → ∃ g, n.Lingers i g) ∧
    ((∀ c work, n.work? c = some work → work.drains = false) →
      (∀ g ∈ n.fleet.pools, ∀ fault, .returned (some fault) ∉ g.releases) →
        ∀ i, m.acceptedBy i = n.acceptedBy i) := by
  have h : n.Reachable := (Reachable.create hcreate).run hrun
  have shut : n.ShutDown := h.shutDown_of_returned returned
  have explained (i : Nat) : m.acceptedBy i = n.acceptedBy i ∨ ∃ g, n.Lingers i g :=
    (h.barred_or_lingers shut i).imp_left fun barred => barred.acceptedBy_eq h hrun'
  refine ⟨fun i more => (explained i).resolve_left more, fun idle drained i => ?_⟩
  rcases explained i with same | ⟨g, lingers⟩
  · exact same
  · rcases lingers.cause with ⟨c, work, hwork, drains⟩ | ⟨fault, failed⟩
    · rw [idle c work hwork] at drains
      cases drains
    · exact absurd failed (drained g (List.mem_of_getElem? lingers.built) fault)

end

/-- Execution 0 finds its pool, and shutdown 1 empties the manager. -/
def overtakenExecution : List (Event Nat) :=
  [.call none (.execute "io" (some 7)), .advance 0, .advance 0, .call none .shutdown, .advance 1,
    .advance 1]

/-- The shutdown releases the pool, which closes, and returns. -/
def releasedInTime : List (Event Nat) :=
  [.launch 1 0 true, .pool 0 (.launch 0 true), .pool 0 (.pool (.close 0)),
    .pool 0 (.pool (.alertWorkers 0)), .pool 0 (.pool (.alertSubmitters 0)), .pool 0 (.complete 0),
    .collect 1 (some 0), .advance 1]

/-- The shutdown gives the release up before the pool closes, and returns. -/
def givenUp : List (Event Nat) :=
  [.launch 1 0 true, .pool 0 (.launch 0 true), .pool 0 (.elapse 0), .collect 1 (some 0), .advance 1]

/-- A second shutdown finds nothing installed and returns. -/
def secondShutdown : List (Event Nat) :=
  [.call none .shutdown, .advance 2, .advance 2]

/-- Execution 0 hands its task over, and the pool looks at it. -/
def lateSubmission : List (Event Nat) :=
  [.advance 0, .pool 0 (.pool (.enter 0 true none))]

/-- The execution comes too late if the pool was released in time, and if it does not, the pool is
one that lingers. -/
theorem late_submission_refused :
    ∃ m₀ n m k l : Manager Nat, ofConfigs [{ name := "io", size := 1 }] {} = .ok m₀ ∧
      m₀.run (overtakenExecution ++ releasedInTime) = some n ∧
      n.work? 0 = some (.execute "io" (some 7) (.found 0 0)) ∧
      n.run lateSubmission = some m ∧ (∀ i, m.acceptedBy i = n.acceptedBy i) ∧
      m₀.run (overtakenExecution ++ givenUp) = some k ∧ k.run lateSubmission = some l ∧
      ∃ g, k.Lingers 0 g := by
  obtain ⟨m₀, n, m, k, l, hm₀, hn, hfound, hreturned, hm, hidle, hdrained, hk, hreturned', hl, hold,
      hnew⟩ : ∃ m₀ n m k l : Manager Nat,
      ofConfigs [{ name := "io", size := 1 }] {} = .ok m₀ ∧
      m₀.run (overtakenExecution ++ releasedInTime) = some n ∧
      n.work? 0 = some (.execute "io" (some 7) (.found 0 0)) ∧
      n.work? 1 = some (.shutdown .returned) ∧ n.run lateSubmission = some m ∧
      (n.calls.all fun call => !call.work.drains) = true ∧
      (n.fleet.pools.map fun g => g.releases) = [[.returned none]] ∧
      m₀.run (overtakenExecution ++ givenUp) = some k ∧
      k.work? 1 = some (.shutdown .returned) ∧ k.run lateSubmission = some l ∧
      k.acceptedBy 0 = [] ∧ l.acceptedBy 0 = [⟨0, 7⟩] :=
    ⟨_, _, _, _, _, rfl, rfl, rfl, rfl, rfl, rfl, rfl, rfl, rfl, rfl, rfl, rfl⟩
  refine ⟨m₀, n, m, k, l, hm₀, hn, hfound, hm, ?_, hk, hl, ?_⟩
  · refine (late_acceptance_explained hm₀ hn hreturned hm).2 (fun c work hwork => ?_)
      fun g hg fault failed => ?_
    · obtain ⟨call, at_c, rfl⟩ := Option.map_eq_some_iff.mp hwork
      simpa using List.all_eq_true.mp hidle call (List.mem_of_getElem? at_c)
    · have only : g.releases ∈ [[TimedRelease.returned none]] :=
        hdrained ▸ List.mem_map_of_mem hg
      rw [List.mem_singleton.mp only] at failed
      cases List.mem_singleton.mp failed
  · refine (late_acceptance_explained hm₀ hk hreturned' hl).1 0 ?_
    rw [hold, hnew]
    exact nofun

/-- A pool accepts a task after a shutdown has returned: because the shutdown gave the release of
the pool up, or because it is another shutdown that still releases the pool. -/
theorem accepted_after_shutdown :
    ∃ m₀ n n' m m' : Manager Nat, ofConfigs [{ name := "io", size := 1 }] {} = .ok m₀ ∧
      m₀.run (overtakenExecution ++ givenUp) = some n ∧
      n.work? 1 = some (.shutdown .returned) ∧ n.acceptedBy 0 = [] ∧
      n.run lateSubmission = some m ∧ m.acceptedBy 0 = [⟨0, 7⟩] ∧
      m₀.run (overtakenExecution ++ secondShutdown) = some n' ∧
      n'.work? 2 = some (.shutdown .returned) ∧ n'.acceptedBy 0 = [] ∧
      n'.run lateSubmission = some m' ∧ m'.acceptedBy 0 = [⟨0, 7⟩] :=
  ⟨_, _, _, _, _, rfl, rfl, rfl, rfl, rfl, rfl, rfl, rfl, rfl, rfl, rfl⟩

end Manager

end TaskPools
