/-
# A shutdown is final

Once a shutdown has emptied the manager, nothing is installed ever again.  A reload that looks at
the flag after that, or at any time after it was set, gives its batch up and releases every pool of
it.  One that found the flag unset has the lock, so its swap comes before that of the shutdown
(`swap_before_shutdown`), and what a reload has installed was taken out by a later swap.  A call
that begins after the flag was set is turned away (`shutdown_is_final`).
-/
import TaskPools.Proofs.Manager.Reloading
import TaskPools.Proofs.Manager.Swaps

namespace TaskPools

variable {τ : Type}

/-- Where a call stands once it was turned away because the manager is closed, if it is one that can
be. -/
def Request.turnedAway? : Request τ → Option (Work τ)
  | .execute pool task => some (.execute pool task (.returned (some .managerClosed)))
  | .reload configs => some (.reload configs (.returned (some .managerClosed)))
  | .stats pool => some (.stats pool (.returned (.error .managerClosed)))
  | .shutdown | .list => none

namespace Manager

/-- One of these events takes the batch out of service: until then it was installed, and the call
that puts another one in its place is to release all its pools. -/
def TakenOut (m : Manager τ) (batch : Batch) (es : List (Event τ)) : Prop :=
  ∃ es₁ es₂ c k k' work, es = es₁ ++ .advance c :: es₂ ∧ m.run es₁ = some k ∧
    k.installed = batch ∧ k.Swaps c ∧ k.step (.advance c) = some k' ∧ k'.past = batch :: k.past ∧
    k'.work? c = some work ∧ work.condemned.Perm batch.pools

section

variable {m m' m₀ n n' : Manager τ} {e : Event τ} {es : List (Event τ)} {c i : Nat}
  {caller : Option (Nat × Nat)} {work work' answer : Work τ} {request : Request τ}
  {configs configs' : List PoolConfig} {options : FleetOptions} {batch : Batch}

/-! ## Calls that begin too late -/

theorem Act.advances_of_idle (ha : Act m c caller e work work' n) (idle : work.retirement? = none) :
    e = .advance c := by
  cases ha with
  | launch _ _ _ _ retires | launchInline _ _ _ _ retires | collect _ _ _ _ _ retires =>
    rw [idle] at retires
    cases retires
  | goOn | submit | resubmit | sample | gauge | build | failReload | install | close | emptyNothing
  | emptyOut | shutDown => rfl

/-- A call of a closed manager takes one step, in which it is turned away. -/
theorem turned_away_of_begun (is_closed : m.closed = true)
    (begun : m.work? c = some request.work) (away : request.turnedAway? = some answer) :
    ∃ m', m.step (.advance c) = some m' ∧ m'.work? c = some answer := by
  obtain ⟨⟨caller, _⟩, at_c, rfl⟩ := Option.map_eq_some_iff.mp begun
  refine ⟨m.setWork c answer, ?_, work?_setWork_self begun⟩
  cases request with
  | execute | reload | stats =>
    cases away
    -- the flag is read without the lock
    refine step_advance at_c (.inl rfl) ?_
    simp only [advanceWork, advanceExecute, advanceReload, advanceStats, is_closed, if_true]
    rfl
  | shutdown | list => cases away

theorem isOver_of_turnedAway (away : request.turnedAway? = some answer) :
    answer.isOver = true := by
  cases request <;> cases away <;> rfl

/-- A call of a closed manager is turned away, or it has not taken a step yet. -/
theorem begun_or_turned_away (is_closed : m.closed = true)
    (away : request.turnedAway? = some answer)
    (hwork : m.work? c = some request.work ∨ m.work? c = some answer)
    (hrun : m.run es = some m') : m'.work? c = some request.work ∨ m'.work? c = some answer := by
  induction es generalizing m with
  | nil =>
    rw [run_nil hrun]
    exact hwork
  | cons e es ih =>
    obtain ⟨n, hstep, hrun⟩ := run_cons hrun
    have hc := change_of_step hstep
    refine ih (hc.closed_mono is_closed) ?_ hrun
    rcases hwork with begun | hover
    · rcases hc.own_or_other begun with ⟨same, -⟩ | ⟨_, work', _, acts, -, new⟩
      · exact Or.inl same
      · -- the one step that the call can take turns it away
        have idle : request.work.retirement? = none := by cases request <;> rfl
        obtain rfl := acts.advances_of_idle idle
        obtain ⟨n', hstep', hover⟩ := turned_away_of_begun is_closed begun away
        obtain rfl : n = n' := Option.some.inj (hstep.symm.trans hstep')
        exact Or.inr hover
    · exact Or.inr (hc.stays_over hover (isOver_of_turnedAway away))

/-! ## Reloads that come too late -/

/-- A reload that finds the flag set installs nothing and begins to give its batch up. -/
theorem rejects_of_closed (is_closed : n.closed = true)
    (hwork : n.work? c = some (.reload configs (.built batch)))
    (hstep : n.step (.advance c) = some n') :
    n'.installed = n.installed ∧
      n'.work? c = some (.reload configs (.rejecting (.ofBatch batch))) := by
  rcases (change_of_step hstep).own_or_other hwork with ⟨-, other⟩ | ⟨_, _, k, acts, rfl, next⟩
  · exact absurd rfl other
  · cases acts with
    | goOn _ _ follows =>
      cases follows with
      | reject => exact ⟨rfl, next⟩
      | check _ _ is_open => cases is_closed.symm.trans is_open

/-- A pool that is released was released once. -/
theorem begun_once_of_released (hcreate : ofConfigs configs options = .ok m₀)
    (hrun : m₀.run es = some m) (released : m.Owns .released i) :
    (m₀.releasesBegun es).count i = 1 := by
  obtain ⟨g, fault, at_i, only⟩ := released
  obtain ⟨fleet, batch, fresh, rfl⟩ := eq_of_ofConfigs hcreate
  have none_before : releaseCount (ofBatch fleet batch : Manager τ).fleet.pools i = 0 :=
    fresh.releaseCount_eq i
  have hcount := releaseCount_of_run hrun i
  rw [releaseCount_self at_i, only, none_before, Nat.zero_add] at hcount
  exact hcount.symm

/-- A reload that found the flag set is giving its batch up, or it has returned and every pool of
the batch was released once; and it can always go on to return. -/
theorem gives_up_of_closed {es₁ es₂ : List (Event τ)}
    (hcreate : ofConfigs configs options = .ok m₀)
    (hrun : m₀.run (es₁ ++ .advance c :: es₂) = some m) (hn : m₀.run es₁ = some n)
    (hwork : n.work? c = some (.reload configs' (.built batch))) (is_closed : n.closed = true) :
    (∃ n', n.step (.advance c) = some n' ∧ n'.installed = n.installed) ∧
    ((∃ r, m.work? c = some (.reload configs' (.rejecting r))) ∨
      (m.work? c = some (.reload configs' (.returned (some .managerClosed))) ∧
        ∀ i ∈ batch.pools,
          (m₀.releasesBegun (es₁ ++ .advance c :: es₂)).count i = 1 ∧ m.Owns .released i)) ∧
    ∃ es' m', m.run es' = some m' ∧
      m'.work? c = some (.reload configs' (.returned (some .managerClosed))) := by
  have h₀ : m₀.Reachable := Reachable.create hcreate
  obtain ⟨n', hstep, hrest⟩ := run_cons (run_after_run hn hrun)
  obtain ⟨hinstalled, hwork'⟩ := rejects_of_closed is_closed hwork hstep
  have h' : n'.Reachable := (h₀.run hn).step hstep
  have begins : n'.Reloading c configs' batch.pools (.rejecting (.ofBatch batch)) :=
    ⟨hwork', (change_of_step hstep).closed_mono is_closed, fun _ hi =>
      Or.inl hi⟩
  obtain ⟨phase, ends, settled⟩ := begins.run h' hrest
  have settled := settled.resolve_left (Option.some_ne_none _)
  refine ⟨⟨n', hstep, hinstalled⟩, ?_⟩
  cases phase with
  | rejecting r =>
    obtain ⟨⟨caller, _⟩, at_c, rfl⟩ := Option.map_eq_some_iff.mp ends.work
    obtain ⟨m', ⟨es', hrun', -⟩, returned⟩ := (h₀.run hrun).giving_up_returns .rejecting at_c
    exact ⟨Or.inl ⟨r, ends.work⟩, es', m', hrun', returned⟩
  | returned answer =>
    cases settled
    have each := fun i hi => ends.built i (List.mem_append_left _ hi)
    refine ⟨Or.inr ⟨ends.work, fun i hi => ⟨?_, each i hi⟩⟩, [], m, rfl, ends.work⟩
    exact begun_once_of_released hcreate hrun (each i hi)
  | assembling assembly => rcases assembly with _ | _ | ⟨_ | _⟩ <;> cases settled
  | begun | built | checked | retiring => cases settled

/-! ## Batches that were installed in time -/

/-- A reload that finds the flag unset has the lock. -/
theorem checks_of_open (is_open : n.closed = false)
    (hwork : n.work? c = some (.reload configs (.built batch)))
    (hstep : n.step (.advance c) = some n') :
    n'.work? c = some (.reload configs (.checked batch)) := by
  rcases (change_of_step hstep).own_or_other hwork with ⟨-, other⟩ | ⟨_, _, k, acts, rfl, next⟩
  · exact absurd rfl other
  · cases acts with
    | goOn _ _ follows =>
      cases follows with
      | reject _ _ is_closed => cases is_closed.symm.trans is_open
      | check => exact next

/-- While a reload has the lock no shutdown empties the manager. -/
theorem not_emptiesOut_of_checked (hwork : n.work? c = some (.reload configs (.checked batch)))
    (hstep : n.step e = some n') : emptiesOut (n, e) = false := by
  have locked : n.isLocked = true := isLocked_iff.mpr ⟨c, _, hwork, rfl⟩
  cases change_of_step hstep with
  | call | pool => rfl
  | act d caller _ work work' k at_d acts unlocked =>
    cases acts with
    | emptyNothing | emptyOut => cases (unlocked rfl).symm.trans locked
    | goOn _ _ follows =>
      rw [emptiesOut_of_work (work?_of_getElem? at_d)]
      cases follows <;> rfl
    | launch | launchInline | collect => rfl
    | submit | resubmit | sample | gauge | build | failReload | install | close | shutDown =>
      exact emptiesOut_of_work (work?_of_getElem? at_d)

/-- Before a shutdown can empty the manager, the reload that has the lock installs its batch. -/
theorem swap_before_shutdown (hwork : n.work? c = some (.reload configs (.checked batch)))
    (hrun : n.run es = some m) (swapped : 0 < n.shutdownSwaps es) :
    ∃ es₁ es₂ k, es = es₁ ++ es₂ ∧ n.run es₁ = some k ∧ k.installed = batch ∧
      0 < k.shutdownSwaps es₂ := by
  induction es generalizing n with
  | nil => cases swapped
  | cons e es ih =>
    obtain ⟨n', hstep, hrun⟩ := run_cons hrun
    rw [shutdownSwaps_cons hstep, not_emptiesOut_of_checked hwork hstep] at swapped
    by_cases own : e = .advance c
    · subst own
      obtain ⟨k, swap, installed_eq, -⟩ := step_swap hwork
      cases swap.symm.trans hstep
      exact ⟨[.advance c], es, n', rfl, run_one hstep, installed_eq, swapped⟩
    · have still : n'.work? c = some (.reload configs (.checked batch)) := by
        rcases (change_of_step hstep).own_or_other hwork with ⟨same, -⟩ | ⟨_, _, _, acts, -, -⟩
        · exact same
        · exact absurd (acts.advances_of_idle rfl) own
      obtain ⟨es₁, es₂, k, rfl, hk, rest⟩ := ih still hrun swapped
      exact ⟨e :: es₁, es₂, k, rfl, run_of_step hstep hk, rest⟩

/-- What is installed before a shutdown empties the manager is taken out, by this shutdown or
earlier. -/
theorem taken_out_of_shutdownSwaps (hrun : n.run es = some m) (installed_eq : n.installed = batch)
    (swapped : 0 < n.shutdownSwaps es) : n.TakenOut batch es := by
  obtain ⟨fs₁, fs₂, d, k, hes, hk, empties⟩ := exists_swap_of_shutdownSwaps hrun swapped
  obtain ⟨es₁, es₂, c, k, rfl, hk, swaps, same⟩ := first_swap hrun hes hk (Or.inr empties)
  obtain ⟨k', hstep, -⟩ := run_cons (run_after_run hk hrun)
  obtain ⟨hpast, work, hwork', hcondemned⟩ := (change_of_step hstep).handed_over swaps
  rw [same, installed_eq] at hpast hcondemned
  exact ⟨es₁, es₂, c, k, k', work, rfl, hk, same.trans installed_eq, swaps, hstep, hpast, hwork',
    hcondemned⟩

theorem TakenOut.after_run {es' : List (Event τ)} (hrun : m.run es = some n)
    (h : n.TakenOut batch es') : m.TakenOut batch (es ++ es') := by
  obtain ⟨es₁, es₂, c, k, k', work, rfl, hk, rest⟩ := h
  exact ⟨es ++ es₁, es₂, c, k, k', work, by rw [List.append_assoc], run_trans hrun hk, rest⟩

/-- A reload that has the lock installs its batch before a shutdown empties the manager, and so the
batch is taken out. -/
theorem taken_out_of_checked (hwork : n.work? c = some (.reload configs (.checked batch)))
    (hrun : n.run es = some m) (swapped : 0 < n.shutdownSwaps es) : n.TakenOut batch es := by
  obtain ⟨es₁, es₂, k, rfl, hk, installed_eq, later⟩ := swap_before_shutdown hwork hrun swapped
  exact (taken_out_of_shutdownSwaps (run_after_run hk hrun) installed_eq later).after_run hk

/-- Where the manager is not shut down yet, all swaps by shutdowns are still to come. -/
theorem Reachable.swaps_to_come {es₁ es₂ : List (Event τ)} (h₀ : m₀.Reachable)
    (hn : m₀.run es₁ = some n) (serving : ¬ n.ShutDown) :
    m₀.shutdownSwaps (es₁ ++ es₂) = n.shutdownSwaps es₂ := by
  have none_before : m₀.shutdownSwaps es₁ = 0 := by
    by_contra before
    exact serving (h₀.shutDown_of_shutdownSwaps hn (Nat.pos_of_ne_zero before))
  rw [shutdownSwaps_append hn, none_before, Nat.zero_add]

/-- A reload that finds the flag unset installs its batch, and a swap takes it out, if a shutdown
empties the manager. -/
theorem taken_out_of_open {es₁ es₂ : List (Event τ)} (h₀ : m₀.Reachable)
    (hrun : m₀.run (es₁ ++ .advance c :: es₂) = some m) (hn : m₀.run es₁ = some n)
    (hwork : n.work? c = some (.reload configs (.built batch))) (is_open : n.closed = false)
    (swapped : 0 < m₀.shutdownSwaps (es₁ ++ .advance c :: es₂)) :
    ∃ n', n.step (.advance c) = some n' ∧ n'.TakenOut batch es₂ := by
  obtain ⟨n', hstep, hrest⟩ := run_cons (run_after_run hn hrun)
  have serving : ¬ n.ShutDown := fun shut => by cases shut.is_closed.symm.trans is_open
  rw [h₀.swaps_to_come hn serving, shutdownSwaps_cons hstep, emptiesOut_of_work hwork] at swapped
  exact ⟨n', hstep, taken_out_of_checked (checks_of_open is_open hwork hstep) hrest swapped⟩

/-- A reload that has the lock installs its batch, and a swap takes it out, if a shutdown empties
the manager. -/
theorem taken_out_of_swap {es₁ es₂ : List (Event τ)} (h₀ : m₀.Reachable)
    (hrun : m₀.run (es₁ ++ .advance c :: es₂) = some m) (hn : m₀.run es₁ = some n)
    (hwork : n.work? c = some (.reload configs (.checked batch))) :
    ∃ n', n.step (.advance c) = some n' ∧ n'.installed = batch ∧
      (0 < m₀.shutdownSwaps (es₁ ++ .advance c :: es₂) → n'.TakenOut batch es₂) := by
  obtain ⟨n', hstep, installed_eq, -⟩ := step_swap hwork
  have hrest := run_after_step hstep (run_after_run hn hrun)
  refine ⟨n', hstep, installed_eq, fun swapped => ?_⟩
  have serving : ¬ n.ShutDown := fun shut => by cases holdsLock_eq_false shut.unlocked hwork
  rw [h₀.swaps_to_come hn serving, shutdownSwaps_cons hstep, emptiesOut_of_work hwork] at swapped
  exact taken_out_of_shutdownSwaps hrest installed_eq swapped

/-- **A shutdown is final.**  After the swap of a shutdown the manager has nothing installed and is
closed, for ever.  A reload that looks at the flag for the second time when it is set installs
nothing: it returns that the manager is closed, after each pool of its batch was released once, and
nothing can keep it from returning.  A reload that finds the flag unset installs its batch, and what
a reload installs is taken out again by a later reload or by a shutdown, which is to release all its
pools.  A call that begins after the flag was set is turned away in its first step. -/
theorem shutdown_is_final (hcreate : ofConfigs configs options = .ok m₀)
    (hrun : m₀.run es = some m) :
    (0 < m₀.shutdownSwaps es →
      ∀ es' m', m.run es' = some m' → m'.installed = [] ∧ m'.closed = true) ∧
    (∀ es₁ es₂ n c configs batch, es = es₁ ++ .advance c :: es₂ → m₀.run es₁ = some n →
      n.work? c = some (.reload configs (.built batch)) →
        (n.closed = true →
          (∃ n', n.step (.advance c) = some n' ∧ n'.installed = n.installed) ∧
          ((∃ r, m.work? c = some (.reload configs (.rejecting r))) ∨
            (m.work? c = some (.reload configs (.returned (some .managerClosed))) ∧
              ∀ i ∈ batch.pools, (m₀.releasesBegun es).count i = 1 ∧ m.Owns .released i)) ∧
          ∃ es' m', m.run es' = some m' ∧
            m'.work? c = some (.reload configs (.returned (some .managerClosed)))) ∧
        (n.closed = false → 0 < m₀.shutdownSwaps es →
          ∃ n', n.step (.advance c) = some n' ∧ n'.TakenOut batch es₂)) ∧
    (∀ es₁ es₂ n c configs batch, es = es₁ ++ .advance c :: es₂ → m₀.run es₁ = some n →
      n.work? c = some (.reload configs (.checked batch)) →
        ∃ n', n.step (.advance c) = some n' ∧ n'.installed = batch ∧
          (0 < m₀.shutdownSwaps es → n'.TakenOut batch es₂)) ∧
    (∀ es₁ es₂ n caller request answer, es = es₁ ++ .call caller request :: es₂ →
      m₀.run es₁ = some n → n.closed = true → request.turnedAway? = some answer →
        m.work? n.calls.length = some answer ∨
        (m.work? n.calls.length = some request.work ∧
          ∃ m', m.step (.advance n.calls.length) = some m' ∧
            m'.work? n.calls.length = some answer)) := by
  have h₀ : m₀.Reachable := Reachable.create hcreate
  refine ⟨fun swapped es' m' hrun' => ?_, ?_, ?_, ?_⟩
  · have shut := (h₀.shutDown_of_shutdownSwaps hrun swapped).run hrun'
    exact ⟨shut.installed, shut.is_closed⟩
  · rintro es₁ es₂ n c configs batch rfl hn hwork
    exact ⟨gives_up_of_closed hcreate hrun hn hwork, taken_out_of_open h₀ hrun hn hwork⟩
  · rintro es₁ es₂ n c configs batch rfl hn hwork
    exact taken_out_of_swap h₀ hrun hn hwork
  · rintro es₁ es₂ n caller request answer rfl hn is_closed away
    obtain ⟨n', hstep, hrest⟩ := run_cons (run_after_run hn hrun)
    have hc := change_of_step hstep
    have begun : n'.work? n.calls.length = some request.work := by
      cases hc with
      | call =>
        rw [work?_call, if_pos rfl]
      | act _ _ _ _ _ _ _ acts => cases acts
    rcases begun_or_turned_away (hc.closed_mono is_closed) away (Or.inl begun) hrest with
      still | hover
    · have closed' : m.closed = true := closed_of_run (hc.closed_mono is_closed) hrest
      exact Or.inr ⟨still, turned_away_of_begun closed' still away⟩
    · exact Or.inl hover

end

/-- Reload 0 installs its batch.  Reload 1 builds its own and is overtaken by shutdown 2, which sets
the flag. -/
def overtaken : List (Event Nat) :=
  [.call none (.reload [{ name := "db", size := 1 }]), .advance 0, .advance 0, .advance 0,
    .advance 0, .advance 0, .advance 0, .call none (.reload [{ name := "io", size := 1 }]),
    .advance 1, .advance 1, .advance 1, .advance 1, .call none .shutdown, .advance 2]

/-- Reload 1 looks at the flag again, shutdown 2 empties the manager, an execution begins, and
reload 1 releases the pool that it built. -/
def sinceOvertaken : List (Event Nat) :=
  [.advance 1, .advance 2, .call none (.execute "db" (some 7)), .launch 1 2 true,
    .pool 2 (.launch 0 true), .pool 2 (.pool (.close 0)), .pool 2 (.pool (.alertWorkers 0)),
    .pool 2 (.pool (.alertSubmitters 0)), .pool 2 (.complete 0), .collect 1 (some 0), .advance 1]

/-- What the four calls come to: pool 1 of reload 0 is handed to the shutdown, pool 2 of reload 1 is
released, and the execution is turned away. -/
theorem overtaken_reload_gives_up :
    ∃ m₀ m : Manager Nat, ofConfigs [{ name := "io", size := 1 }] {} = .ok m₀ ∧
      m₀.run (overtaken ++ sinceOvertaken) = some m ∧ m.installed = [] ∧ m.closed = true ∧
      m.work? 1 = some (.reload [{ name := "io", size := 1 }] (.returned (some .managerClosed))) ∧
      (m₀.releasesBegun (overtaken ++ sinceOvertaken)).count 2 = 1 ∧ m.Owns .released 2 ∧
      (∃ c work, ∃ k k' : Manager Nat, k.installed = [("db", 1)] ∧
        k.step (.advance c) = some k' ∧ k'.work? c = some work ∧ work.condemned = [1]) ∧
      ∃ m', m.step (.advance 3) = some m' ∧
        m'.work? 3 = some (.execute "db" (some 7) (.returned (some .managerClosed))) := by
  obtain ⟨m₀, n₀, n₁, n₃, m, hm₀, hn₀, hn₁, hn₃, hm, hbuilt₀, hopen₀, hbuilt₁, hclosed₁, hclosed₃,
      hlength₃, hswaps, hreturned, hbegun⟩ : ∃ m₀ n₀ n₁ n₃ m : Manager Nat,
      ofConfigs [{ name := "io", size := 1 }] {} = .ok m₀ ∧
      m₀.run (overtaken.take 5) = some n₀ ∧ m₀.run overtaken = some n₁ ∧
      m₀.run (overtaken ++ sinceOvertaken.take 2) = some n₃ ∧
      m₀.run (overtaken ++ sinceOvertaken) = some m ∧
      n₀.work? 0 = some (.reload [{ name := "db", size := 1 }] (.built [("db", 1)])) ∧
      n₀.closed = false ∧
      n₁.work? 1 = some (.reload [{ name := "io", size := 1 }] (.built [("io", 2)])) ∧
      n₁.closed = true ∧ n₃.closed = true ∧ n₃.calls.length = 3 ∧
      m₀.shutdownSwaps (overtaken ++ sinceOvertaken) = 1 ∧
      m.work? 1 = some (.reload [{ name := "io", size := 1 }]
        (.returned (some .managerClosed))) ∧
      m.work? 3 = some (.execute "db" (some 7) .begun) :=
    ⟨_, _, _, _, _, rfl, rfl, rfl, rfl, rfl, rfl, rfl, rfl, rfl, rfl, rfl, rfl, rfl, rfl⟩
  obtain ⟨hfinal, hreloads, -, hlate⟩ := shutdown_is_final hm₀ hm
  have swapped : 0 < m₀.shutdownSwaps (overtaken ++ sinceOvertaken) := by
    rw [hswaps]
    exact Nat.one_pos
  obtain ⟨hempty, hclosed⟩ := hfinal swapped [] m rfl
  obtain ⟨-, hgave, -⟩ := (hreloads _ _ n₁ 1 _ _ rfl hn₁ hbuilt₁).1 hclosed₁
  have hreleased : (m₀.releasesBegun (overtaken ++ sinceOvertaken)).count 2 = 1 ∧
      m.Owns .released 2 := by
    rcases hgave with ⟨r, hstill⟩ | ⟨-, each⟩
    · rw [hreturned] at hstill
      cases hstill
    · exact each 2 (by decide)
  obtain ⟨-, -, es₃, es₄, c', k, k', work, -, -, hinstalled, -, hstep, -, hwork, hcondemned⟩ :=
    (hreloads (overtaken.take 5) _ n₀ 0 _ _ rfl hn₀ hbuilt₀).2 hopen₀ swapped
  have haway := hlate (overtaken ++ sinceOvertaken.take 2) _ n₃ none (.execute "db" (some 7)) _ rfl
    hn₃ hclosed₃ rfl
  rw [hlength₃, hbegun] at haway
  refine ⟨m₀, m, hm₀, hm, hempty, hclosed, hreturned, hreleased.1, hreleased.2,
    ⟨c', work, k, k', hinstalled, hstep, hwork, List.perm_singleton.mp hcondemned⟩, ?_⟩
  rcases haway with hover | ⟨-, hnext⟩
  · cases hover
  · exact hnext

end Manager

end TaskPools
