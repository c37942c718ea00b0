/-
# When a pool is not found

A call reads the flag first and looks its pool up after that, and between the two anything may
happen.  A call that says that its pool is not installed has looked it up in a batch without such a
pool, and had found the flag unset before.  Between these two readings there was a moment at which
the manager was open and no such pool was installed, with two exceptions (`not_found_explained`): a
shutdown both set the flag and emptied the manager (`not_found_while_shut_down`), or it set the flag
while a reload, which had found it unset, was about to install its batch
(`not_found_after_overtaken_reload`).
-/
import TaskPools.Proofs.Manager.Swaps

namespace TaskPools

variable {τ : Type}

namespace Work

/-- The call was asked for `pool` and says that it found none of some name. -/
inductive SaysNotFound (pool : String) : Work τ → Prop where
  | execute (task : Option τ) (name : String) :
      SaysNotFound pool (.execute pool task (.returned (some (.poolNotFound name))))
  | stats (name : String) :
      SaysNotFound pool (.stats pool (.returned (.error (.poolNotFound name))))

/-- The next step of the call reads the flag. -/
def readsFlag : Work τ → Bool
  | .execute _ _ .begun | .execute _ _ (.refused _) | .stats _ .begun => true
  | _ => false

/-- The name that the next step of the call looks up, which has read the flag. -/
def looksUp? : Work τ → Option String
  | .execute pool _ .open | .execute pool _ (.rerouting _) | .stats pool .open => some pool
  | _ => none

end Work

namespace Manager

/-- In the course of this run a shutdown sets the flag while a reload has the lock, which had found
the flag unset, and after that the reload installs this batch. -/
def OvertakesReload (m : Manager τ) (es : List (Event τ)) (batch : Batch) : Prop :=
  ∃ es₁ es₂ n c d configs, es = es₁ ++ .advance c :: es₂ ∧ m.run es₁ = some n ∧
    n.closed = false ∧ setsFlag (n, .advance c) = true ∧
    n.work? d = some (.reload configs (.checked batch)) ∧ .advance d ∈ es₂

section

variable {m m' n : Manager τ} {e : Event τ} {es : List (Event τ)} {c : Nat}
  {caller : Option (Nat × Nat)} {work work' : Work τ} {pool : String}

/-! ## The lookup -/

/-- No pool says that a pool is not found. -/
theorem Reachable.reply_ne_notFound (h : m.Reachable) {i s : Nat} {name : String} :
    m.reply? i s ≠ some (some (.poolNotFound name)) := by
  intro reply
  obtain ⟨g, at_i, hreply⟩ := Option.bind_eq_some_iff.mp reply
  split at hreply
  · rename_i given
    cases hreply
    obtain ⟨fault, settled, htranslate⟩ := (h.pool at_i).answered.settled s _ given
    obtain ⟨fault, rfl, htranslate⟩ := Option.map_eq_some_iff.mp htranslate.symm
    have explained := (h.pool at_i).pool.arises.faultsExplained s fault settled
    cases fault <;> first | exact explained.elim | cases htranslate
  · cases hreply

theorem notFound_of_nameOverload {answer : Option Fault} {name : String}
    (h : nameOverload pool answer = some (.poolNotFound name)) :
    answer = some (.poolNotFound name) := by
  rcases answer with _ | fault
  · cases h
  · cases fault <;> first | exact h | cases h

/-- A call says that its pool is not found only after a lookup that did not find it. -/
theorem Reachable.missing_of_saysNotFound (h : m.Reachable) (hc : Change m (.advance c) m')
    (hwork' : m'.work? c = some work') (answers : work'.SaysNotFound pool) :
    m.find? pool = none ∧ ∃ work, m.work? c = some work ∧ work.looksUp? = some pool := by
  obtain ⟨caller, work, new, n, hwork, acts, hnew⟩ := hc.advances
  obtain rfl := Option.some.inj (hwork'.symm.trans hnew)
  cases acts with
  | goOn _ _ follows =>
    generalize hsaid : work' = said at answers
    cases answers with
    | execute task name =>
      subst hsaid
      generalize hfault : some (Fault.poolNotFound name) = fault at follows
      cases follows with
      | notFound _ _ missing => exact ⟨missing, _, hwork, rfl⟩
      | notFoundAgain _ _ generation _ missing => exact ⟨missing, _, hwork, rfl⟩
      | answered _ _ _ _ _ fault reply =>
        rw [notFound_of_nameOverload hfault.symm] at reply
        exact absurd reply h.reply_ne_notFound
      | answeredAgain _ _ _ _ fault reply =>
        rw [notFound_of_nameOverload hfault.symm] at reply
        exact absurd reply h.reply_ne_notFound
      | executeClosed | refusedClosed | sameBatch => cases hfault
    | stats name =>
      subst hsaid
      generalize hanswer : Except.error (Fault.poolNotFound name) = answer at follows
      cases follows with
      | statsNotFound _ missing => exact ⟨missing, _, hwork, rfl⟩
      | statsClosed | statsComplete => cases hanswer
  | submit | resubmit | sample | gauge | build | failReload | install | close | emptyNothing
  | emptyOut | shutDown => cases answers

/-! ## The flag -/

/-- A call that is about to look its pool up has read the flag before, and found it unset. -/
theorem reads_before {m₀ : Manager τ} (absent : m₀.work? c = none) (hrun : m₀.run es = some m)
    (hwork : m.work? c = some work) (looks : work.looksUp? = some pool) :
    ∃ es₁ es₂ m₁ work₁, es = es₁ ++ .advance c :: es₂ ∧ m₀.run es₁ = some m₁ ∧
      m₁.work? c = some work₁ ∧ work₁.readsFlag = true ∧ m₁.closed = false := by
  rcases arrived_of_run absent hrun hwork with
    ⟨request, rfl⟩ | ⟨es₁, e, es₂, n, caller, old, n', rfl, hn, hold, acts⟩
  · -- a call that has only begun does not look anything up
    cases request <;> cases looks
  · cases acts with
    | goOn _ _ follows =>
      cases follows with
      | executeOpen _ _ is_open | reroute _ _ _ is_open | statsOpen _ is_open =>
        exact ⟨es₁, es₂, n, _, rfl, hn, hold, rfl, is_open⟩
      | _ => cases looks
    | launch _ _ _ _ retires | launchInline _ _ _ _ retires
    | collect _ _ _ _ _ retires =>
      cases retires_of_retirement? retires <;> cases looks
    | submit | resubmit | sample | gauge | build | failReload | install | close | emptyNothing
    | emptyOut | shutDown => cases looks

/-- What a shutdown overtakes in a run it overtakes in a longer one as well. -/
theorem OvertakesReload.cons {batch : Batch} (hstep : m.step e = some n)
    (h : n.OvertakesReload es batch) : m.OvertakesReload (e :: es) batch := by
  obtain ⟨es₁, es₂, k, c, d, configs, rfl, hk, rest⟩ := h
  exact ⟨e :: es₁, es₂, k, c, d, configs, rfl, run_of_step hstep hk, rest⟩

/-- A shutdown that overtakes a reload has closed the manager. -/
theorem OvertakesReload.is_closed {batch : Batch} (h : m.OvertakesReload es batch)
    (hrun : m.run es = some m') : m'.closed = true := by
  obtain ⟨es₁, es₂, k, c, d, configs, rfl, hk, -, sets, -⟩ := h
  obtain ⟨n, hstep, hrest⟩ := run_cons (run_after_run hk hrun)
  exact closed_of_run ((change_of_step hstep).closed_of_setsFlag sets) hrest

/-- Where a pool is missing at the end of a run that began open, it was missing at a moment at which
the manager was open, or a shutdown has emptied the manager in between, or one has overtaken a
reload whose batch is the one without the pool. -/
theorem missing_or_emptied (is_open : m.closed = false) (hrun : m.run es = some m')
    (missing : m'.find? pool = none) :
    (∃ es₁ es₂ n, es = es₁ ++ es₂ ∧ m.run es₁ = some n ∧ n.closed = false ∧
      n.find? pool = none) ∨
    (0 < m.shutdownStarts es ∧ 0 < m.shutdownSwaps es) ∨ m.OvertakesReload es m'.installed := by
  induction es generalizing m with
  | nil =>
    rw [run_nil hrun] at missing
    exact Or.inl ⟨[], [], m, rfl, rfl, is_open, missing⟩
  | cons e es ih =>
    obtain ⟨n, hstep, hrun⟩ := run_cons hrun
    have hc := change_of_step hstep
    rw [shutdownStarts_cons hstep, shutdownSwaps_cons hstep]
    cases hclosed : n.closed with
    | false =>
      rcases ih hclosed hrun with ⟨es₁, es₂, k, rfl, hk, at_k⟩ | ⟨starts, swaps⟩ | overtakes
      · exact Or.inl ⟨e :: es₁, es₂, k, rfl, run_of_step hstep hk, at_k⟩
      · exact Or.inr (Or.inl ⟨by omega, by omega⟩)
      · exact Or.inr (Or.inr (overtakes.cons hstep))
    | true =>
      -- the flag was set in this step, which then changed nothing else
      have sets : setsFlag (m, e) = true := by
        by_contra unset
        rw [hc.closed_eq (Bool.eq_false_iff.mpr unset), is_open] at hclosed
        cases hclosed
      have kept : n.installed = m.installed := by
        refine hc.installed_eq fun c he swaps => ?_
        subst he
        exact not_swaps_of_setsFlag sets swaps
      by_cases swapped : 0 < n.shutdownSwaps es
      · refine Or.inr (Or.inl ⟨?_, by omega⟩)
        rw [sets]
        exact Nat.succ_pos _
      · rcases installed_of_closed hclosed hrun (by omega) with
          same | ⟨d, configs, batch, later, at_n, rfl⟩
        · refine Or.inl ⟨[], e :: es, m, rfl, rfl, is_open, ?_⟩
          rw [Manager.find?, ← kept, ← same]
          exact missing
        · -- the reload did not get the lock in this step, which leaves the flag set
          have before : m.work? d = some (.reload configs (.checked m'.installed)) :=
            (hc.holder at_n rfl).resolve_right fun gets => by
              cases hclosed.symm.trans gets.is_open
          cases e with
          | advance c =>
            exact Or.inr (Or.inr ⟨[], es, m, c, d, configs, rfl, rfl, is_open, sets, before, later⟩)
          | call | launch | collect | pool => cases sets

/-- **What it means that a pool is not found.**  A call that says so has just looked its pool up in
a batch that has no pool of this name.  It read the flag before that and found it unset; and at some
moment since then the manager was open and no such pool was installed, unless since then a shutdown
set the flag, and either emptied the manager as well or overtook a reload, whose batch then was the
one without the pool. -/
theorem not_found_explained {configs : List PoolConfig} {options : FleetOptions}
    {m₀ : Manager τ} (hcreate : ofConfigs configs options = .ok m₀) (hrun : m₀.run es = some m)
    (hstep : m.step (.advance c) = some m') (hwork : m'.work? c = some work)
    (answers : work.SaysNotFound pool) :
    m.find? pool = none ∧
    ∃ es₁ es₂ m₁ work₁, es = es₁ ++ .advance c :: es₂ ∧ m₀.run es₁ = some m₁ ∧
      m₁.work? c = some work₁ ∧ work₁.readsFlag = true ∧ m₁.closed = false ∧
      ((∃ fs fs' n, .advance c :: es₂ = fs ++ fs' ∧ m₁.run fs = some n ∧ n.closed = false ∧
          n.find? pool = none) ∨
        (0 < m₁.shutdownStarts (.advance c :: es₂) ∧ 0 < m₁.shutdownSwaps (.advance c :: es₂) ∧
          m.installed = []) ∨
        m₁.OvertakesReload (.advance c :: es₂) m.installed) := by
  have h₀ : m₀.Reachable := Reachable.create hcreate
  obtain ⟨missing, old, hold, looks⟩ :=
    (h₀.run hrun).missing_of_saysNotFound (change_of_step hstep) hwork answers
  have absent : m₀.work? c = none := by
    obtain ⟨fleet, batch, -, rfl⟩ := eq_of_ofConfigs hcreate
    rfl
  obtain ⟨es₁, es₂, m₁, work₁, rfl, hm₁, hwork₁, reads, is_open⟩ :=
    reads_before absent hrun hold looks
  have hrest := run_after_run hm₁ hrun
  refine ⟨missing, es₁, es₂, m₁, work₁, rfl, hm₁, hwork₁, reads, is_open, ?_⟩
  refine (missing_or_emptied is_open hrest missing).imp_right (Or.imp_left ?_)
  rintro ⟨starts, swaps⟩
  exact ⟨starts, swaps, ((h₀.run hm₁).shutDown_of_shutdownSwaps hrest swaps).installed⟩

end

/-- An execution finds the manager open, a reload replaces the pool "io" by one of another name, and
the execution looks "io" up. -/
def droppedByReload : List (Event Nat) :=
  [.call none (.execute "io" (some 7)), .advance 0,
    .call none (.reload [{ name := "db", size := 1 }]), .advance 1, .advance 1, .advance 1,
    .advance 1, .advance 1, .advance 1]

/-- That execution says that its pool is not found, and there was an open moment without it. -/
theorem not_found_after_reload :
    ∃ m₀ m m' : Manager Nat, ofConfigs [{ name := "io", size := 1 }] {} = .ok m₀ ∧
      m₀.run droppedByReload = some m ∧ m.step (.advance 0) = some m' ∧
      m'.work? 0 = some (.execute "io" (some 7) (.returned (some (.poolNotFound "io")))) ∧
      m.find? "io" = none ∧
      ∃ fs n, m₀.run fs = some n ∧ n.closed = false ∧ n.find? "io" = none := by
  obtain ⟨m₀, m, m', hm₀, hm, hm', hwork, hopen⟩ : ∃ m₀ m m' : Manager Nat,
      ofConfigs [{ name := "io", size := 1 }] {} = .ok m₀ ∧ m₀.run droppedByReload = some m ∧
      m.step (.advance 0) = some m' ∧
      m'.work? 0 = some (.execute "io" (some 7) (.returned (some (.poolNotFound "io")))) ∧
      m.closed = false := ⟨_, _, _, rfl, rfl, rfl, rfl, rfl⟩
  obtain ⟨missing, es₁, es₂, m₁, work₁, hes, hm₁, -, -, -, explained⟩ :=
    not_found_explained hm₀ hm hm' hwork (Work.SaysNotFound.execute (some 7) "io")
  refine ⟨m₀, m, m', hm₀, hm, hm', hwork, missing, ?_⟩
  have hrest : m₁.run (.advance 0 :: es₂) = some m := run_after_run hm₁ (hes ▸ hm)
  -- the manager is open in the end, so no shutdown had a part in it
  rcases explained with ⟨fs, fs', n, -, hn, is_open, missing'⟩ | ⟨-, swaps, -⟩ | overtakes
  · exact ⟨es₁ ++ fs, n, run_trans hm₁ hn, is_open, missing'⟩
  · have reachable := (Reachable.create hm₀).run hm₁
    cases (reachable.shutDown_of_shutdownSwaps hrest swaps).is_closed.symm.trans hopen
  · cases (overtakes.is_closed hrest).symm.trans hopen

/-- An execution and a call for statistics find the manager open, a shutdown sets the flag and
empties the manager, and then the two look their pool up. -/
def emptiedBetween : List (Event Nat) :=
  [.call none (.execute "io" (some 7)), .call none (.stats "io"), .call none .shutdown,
    .advance 0, .advance 1, .advance 2, .advance 2, .advance 0, .advance 1]

/-- The pool "io" is installed at each moment of this run at which the manager is open. -/
def servesWhileOpen (m : Manager Nat) (es : List (Event Nat)) : Bool :=
  (m.history es).all fun x => x.1.closed || (x.1.find? "io").isSome

theorem installed_of_servesWhileOpen {m n : Manager Nat} {e : Event Nat} {es : List (Event Nat)}
    (serves : m.servesWhileOpen es = true) (passed : (n, e) ∈ m.history es) :
    n.closed = true ∨ n.find? "io" ≠ none := by
  have hn := List.all_eq_true.mp serves (n, e) passed
  simpa only [Bool.or_eq_true, Option.isSome_iff_ne_none] using hn

/-- Both say that their pool is not found, though it was installed at every moment at which the
manager was open. -/
theorem not_found_while_shut_down :
    ∃ m₀ m : Manager Nat, ofConfigs [{ name := "io", size := 1 }] {} = .ok m₀ ∧
      m₀.run emptiedBetween = some m ∧
      m.work? 0 = some (.execute "io" (some 7) (.returned (some (.poolNotFound "io")))) ∧
      m.work? 1 = some (.stats "io" (.returned (.error (.poolNotFound "io")))) ∧
      m.closed = true ∧
      ∀ n e, (n, e) ∈ m₀.history emptiedBetween → n.closed = true ∨ n.find? "io" ≠ none := by
  obtain ⟨m₀, m, hm₀, hm, hexecute, hstats, is_closed, serves⟩ : ∃ m₀ m : Manager Nat,
      ofConfigs [{ name := "io", size := 1 }] {} = .ok m₀ ∧ m₀.run emptiedBetween = some m ∧
      m.work? 0 = some (.execute "io" (some 7) (.returned (some (.poolNotFound "io")))) ∧
      m.work? 1 = some (.stats "io" (.returned (.error (.poolNotFound "io")))) ∧
      m.closed = true ∧ m₀.servesWhileOpen emptiedBetween = true :=
    ⟨_, _, rfl, rfl, rfl, rfl, rfl, rfl⟩
  exact ⟨m₀, m, hm₀, hm, hexecute, hstats, is_closed,
    fun n e => installed_of_servesWhileOpen serves⟩

/-- An execution and a call for statistics find the manager open, and so does a reload when it looks
for the second time.  A shutdown sets the flag, the reload installs a batch without the pool "io",
and the two look their pool up. -/
def overtakenReload : List (Event Nat) :=
  [.call none (.execute "io" (some 7)), .call none (.stats "io"),
    .call none (.reload [{ name := "db", size := 1 }]), .call none .shutdown, .advance 0,
    .advance 1, .advance 2, .advance 2, .advance 2, .advance 2, .advance 2, .advance 3, .advance 2,
    .advance 0, .advance 1]

/-- Both say that their pool is not found, though it was installed at every moment at which the
manager was open and no shutdown has emptied the manager. -/
theorem not_found_after_overtaken_reload :
    ∃ m₀ m : Manager Nat, ofConfigs [{ name := "io", size := 1 }] {} = .ok m₀ ∧
      m₀.run overtakenReload = some m ∧
      m.work? 0 = some (.execute "io" (some 7) (.returned (some (.poolNotFound "io")))) ∧
      m.work? 1 = some (.stats "io" (.returned (.error (.poolNotFound "io")))) ∧
      m.installed = [("db", 1)] ∧ m₀.shutdownSwaps overtakenReload = 0 ∧
      ∀ n e, (n, e) ∈ m₀.history overtakenReload → n.closed = true ∨ n.find? "io" ≠ none := by
  obtain ⟨m₀, m, hm₀, hm, hexecute, hstats, hinstalled, no_swap, serves⟩ : ∃ m₀ m : Manager Nat,
      ofConfigs [{ name := "io", size := 1 }] {} = .ok m₀ ∧ m₀.run overtakenReload = some m ∧
      m.work? 0 = some (.execute "io" (some 7) (.returned (some (.poolNotFound "io")))) ∧
      m.work? 1 = some (.stats "io" (.returned (.error (.poolNotFound "io")))) ∧
      m.installed = [("db", 1)] ∧ m₀.shutdownSwaps overtakenReload = 0 ∧
      m₀.servesWhileOpen overtakenReload = true :=
    ⟨_, _, rfl, rfl, rfl, rfl, rfl, rfl, rfl⟩
  exact ⟨m₀, m, hm₀, hm, hexecute, hstats, hinstalled, no_swap, fun n e =>
    installed_of_servesWhileOpen serves⟩

end Manager

end TaskPools
