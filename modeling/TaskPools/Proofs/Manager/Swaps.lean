/-
# The swaps of the installed batch

Two things replace the installed batch: a reload that found the flag unset and has the lock since
installs its own (`installsBatch`), and a shutdown that has set the flag installs the empty one
(`emptiesOut`).  Whoever swaps is to release what was installed (`Change.handed_over`).  After the
swap of a shutdown nothing is installed any more, for good (`Reachable.shutDown_of_shutdownSwaps`),
so each batch that a reload installed before it was swapped out again (`first_swap`).  Between the
moment when the flag is set and that swap at most the batch of the reload comes in that had the lock
at that moment (`installed_of_closed`).
-/
import TaskPools.Proofs.Manager.Owners
import TaskPools.Proofs.Manager.Routing

namespace TaskPools

variable {τ : Type}

/-- A shutdown is about to install the empty batch. -/
def Work.empties : Work τ → Bool
  | .shutdown .closed => true
  | _ => false

namespace Manager

/-- A shutdown installs the empty batch. -/
def emptiesOut : Manager τ × Event τ → Bool
  | (m, .advance c) => (m.work? c).any Work.empties
  | _ => false

/-- The number of swaps by shutdowns. -/
def shutdownSwaps (m : Manager τ) (es : List (Event τ)) : Nat :=
  (m.history es).countP emptiesOut

/-- Call `c` is about to put another batch in the place of the installed one. -/
def Swaps (m : Manager τ) (c : Nat) : Prop :=
  installsBatch (m, .advance c) = true ∨ emptiesOut (m, .advance c) = true

/-- Nothing is installed, the flag is set, and no reload has the lock. -/
structure ShutDown (m : Manager τ) : Prop where
  installed : m.installed = []
  is_closed : m.closed = true
  unlocked : m.isLocked = false

section

variable {m m' n : Manager τ} {e : Event τ} {es : List (Event τ)} {c : Nat}
  {caller : Option (Nat × Nat)} {work work' : Work τ}

theorem emptiesOut_of_work (hwork : m.work? c = some work) :
    emptiesOut (m, .advance c) = work.empties := by
  rw [emptiesOut, hwork, Option.any_some]

theorem shutdownSwaps_cons (hstep : m.step e = some n) (es : List (Event τ)) :
    m.shutdownSwaps (e :: es) = n.shutdownSwaps es + (emptiesOut (m, e)).toNat := by
  rw [shutdownSwaps, history_cons hstep, List.countP_cons, shutdownSwaps]
  cases emptiesOut (m, e) <;> rfl

theorem shutdownSwaps_append {es' : List (Event τ)} (hrun : m.run es = some n) :
    m.shutdownSwaps (es ++ es') = m.shutdownSwaps es + n.shutdownSwaps es' := by
  rw [shutdownSwaps, history_append hrun, List.countP_append, shutdownSwaps, shutdownSwaps]

/-- Where a swap by a shutdown is counted, there is one. -/
theorem exists_swap_of_shutdownSwaps (hrun : m.run es = some m')
    (swapped : 0 < m.shutdownSwaps es) :
    ∃ es₁ es₂ c k, es = es₁ ++ .advance c :: es₂ ∧ m.run es₁ = some k ∧
      emptiesOut (k, .advance c) = true := by
  induction es generalizing m with
  | nil => cases swapped
  | cons e es ih =>
    obtain ⟨n, hstep, hrun⟩ := run_cons hrun
    by_cases first : emptiesOut (m, e) = true
    · cases e with
      | advance c => exact ⟨[], es, c, m, rfl, rfl, first⟩
      | call | launch | collect | pool => cases first
    · rw [shutdownSwaps_cons hstep, Bool.eq_false_iff.mpr first] at swapped
      obtain ⟨es₁, es₂, c, k, rfl, hk, empties⟩ := ih hrun swapped
      exact ⟨e :: es₁, es₂, c, k, rfl, run_of_step hstep hk, empties⟩

/-! ## What a swap does -/

/-- A step that swaps nothing leaves the installed batch where it is. -/
theorem Change.installed_eq (hc : Change m e m')
    (no_swap : ∀ c, e = .advance c → ¬ m.Swaps c) : m'.installed = m.installed := by
  cases hc with
  | call | pool => rfl
  | act c caller _ work work' n at_c acts =>
    have hwork := work?_of_getElem? at_c
    cases acts with
    | install configs batch =>
      have swaps : m.Swaps c := Or.inl (installsBatch_of_work hwork)
      exact absurd swaps (no_swap c rfl)
    | emptyNothing | emptyOut =>
      have swaps : m.Swaps c := Or.inr (emptiesOut_of_work hwork)
      exact absurd swaps (no_swap c rfl)
    | _ => rfl

/-- The step that sets the flag swaps nothing. -/
theorem not_swaps_of_setsFlag (sets : setsFlag (m, .advance c) = true) : ¬ m.Swaps c := by
  rw [setsFlag] at sets
  rw [Swaps, installsBatch, emptiesOut]
  generalize m.work? c = place at sets ⊢
  rcases place with _ | work
  · cases sets
  · cases work with
    | shutdown phase =>
      cases phase with
      | begun =>
        rintro (installs | empties)
        · cases installs
        · cases empties
      | closed | retiring | returned => cases sets
    | execute | reload | stats | list => cases sets

/-- A call that swaps is to release the pools that were installed, in whatever order. -/
theorem Change.handed_over (hc : Change m (.advance c) m') (swaps : m.Swaps c) :
    m'.past = m.installed :: m.past ∧
      ∃ work, m'.work? c = some work ∧ work.condemned.Perm m.installed.pools := by
  cases hc with
  | act c' caller _ work work' n at_c acts =>
    obtain rfl : c' = c := by cases acts <;> rfl
    have hwork := work?_of_getElem? at_c
    have hwork' : (n.setWork c' work').work? c' = some work' :=
      work?_setWork_self ((work?_of_calls acts.calls_eq c').trans hwork)
    rw [Swaps, installsBatch_of_work hwork, emptiesOut_of_work hwork] at swaps
    cases acts with
    | install | emptyOut => exact ⟨rfl, _, hwork', List.Perm.refl _⟩
    | emptyNothing nothing =>
      refine ⟨rfl, _, hwork', ?_⟩
      rw [nothing]
      exact List.Perm.refl []
    | goOn _ _ follows => cases follows <;> rcases swaps with swaps | swaps <;> cases swaps
    | submit | resubmit | sample | gauge | build | failReload | close | shutDown =>
      rcases swaps with swaps | swaps <;> cases swaps

/-- The first swap of a run that has one takes out what is installed at its beginning. -/
theorem first_swap {es₁ es₂ : List (Event τ)} {k : Manager τ} (hrun : m.run es = some m')
    (hes : es = es₁ ++ .advance c :: es₂) (hk : m.run es₁ = some k) (swaps : k.Swaps c) :
    ∃ es₁ es₂ c k, es = es₁ ++ .advance c :: es₂ ∧ m.run es₁ = some k ∧ k.Swaps c ∧
      k.installed = m.installed := by
  induction es₁ generalizing m es with
  | nil =>
    obtain rfl := run_nil hk
    exact ⟨[], es₂, c, k, hes, rfl, swaps, rfl⟩
  | cons e es₁ ih =>
    by_cases first : ∃ c, e = .advance c ∧ m.Swaps c
    · obtain ⟨c', rfl, swaps'⟩ := first
      exact ⟨[], es₁ ++ .advance c :: es₂, c', m, hes, rfl, swaps', rfl⟩
    · subst hes
      obtain ⟨n, hstep, hk⟩ := run_cons hk
      have kept : n.installed = m.installed :=
        (change_of_step hstep).installed_eq fun c he swaps => first ⟨c, he, swaps⟩
      obtain ⟨es₃, es₄, c', k', hes, hk', swaps', hinstalled⟩ :=
        ih (run_after_step hstep hrun) rfl hk
      exact ⟨e :: es₃, es₄, c', k', congrArg (e :: ·) hes, run_of_step hstep hk', swaps',
        hinstalled.trans kept⟩

/-! ## After a shutdown -/

/-- A shutdown that installs the empty batch has set the flag, and finds the lock free. -/
theorem Reachable.shutDown_of_emptiesOut (h : m.Reachable) (hc : Change m e m')
    (empties : emptiesOut (m, e) = true) : m'.ShutDown := by
  have still_free := hc.unlocked
  cases hc with
  | call | pool => cases empties
  | act c caller _ work work' n at_c acts unlocked =>
    have hwork := work?_of_getElem? at_c
    cases acts with
    | emptyNothing | emptyOut =>
      have is_closed : m.closed = true := h.flagFirst c .closed hwork nofun
      exact ⟨rfl, is_closed, still_free is_closed (unlocked rfl)⟩
    | goOn _ _ follows =>
      rw [emptiesOut_of_work hwork] at empties
      cases follows <;> cases empties
    | submit | resubmit | sample | gauge | build | failReload | install | close | shutDown =>
      rw [emptiesOut_of_work hwork] at empties
      cases empties
    | launch | launchInline | collect => cases empties

theorem ShutDown.change (h : m.ShutDown) (hc : Change m e m') : m'.ShutDown := by
  refine ⟨?_, hc.closed_mono h.is_closed, hc.unlocked h.is_closed h.unlocked⟩
  cases hc with
  | call | pool => exact h.installed
  | act c caller _ work work' n at_c acts =>
    cases acts with
    | install configs batch =>
      -- this reload would have the lock
      cases holdsLock_eq_false h.unlocked (work?_of_getElem? at_c)
    | emptyNothing | emptyOut => rfl
    | _ => exact h.installed

/-- A manager that is shut down stays so for ever. -/
theorem ShutDown.run (h : m.ShutDown) (hrun : m.run es = some m') : m'.ShutDown :=
  run_preserves (fun h hstep => ShutDown.change h (change_of_step hstep)) h hrun

/-- After the swap of a shutdown nothing is installed any more. -/
theorem Reachable.shutDown_of_shutdownSwaps (h : m.Reachable) (hrun : m.run es = some m')
    (swapped : 0 < m.shutdownSwaps es) : m'.ShutDown := by
  induction es generalizing m with
  | nil => cases swapped
  | cons e es ih =>
    obtain ⟨n, hstep, hrun⟩ := run_cons hrun
    by_cases first : emptiesOut (m, e) = true
    · exact (h.shutDown_of_emptiesOut (change_of_step hstep) first).run hrun
    · rw [shutdownSwaps_cons hstep, Bool.eq_false_iff.mpr first] at swapped
      exact ih (h.step hstep) hrun swapped

/-- A reload that installs its batch has the lock, and a step in which neither that happens nor a
shutdown empties the manager leaves the installed batch where it is. -/
theorem Change.installed_or_swapped (hc : Change m e m') (no_swap : emptiesOut (m, e) = false) :
    m'.installed = m.installed ∨
      ∃ c configs batch, e = .advance c ∧ m.work? c = some (.reload configs (.checked batch)) ∧
        m'.installed = batch := by
  cases hc with
  | call | pool => exact Or.inl rfl
  | act c caller _ work work' n at_c acts =>
    have hwork := work?_of_getElem? at_c
    cases acts with
    | install configs batch => exact Or.inr ⟨c, configs, batch, rfl, hwork, rfl⟩
    | emptyNothing | emptyOut =>
      rw [emptiesOut_of_work hwork] at no_swap
      cases no_swap
    | _ => exact Or.inl rfl

/-- Where the flag is set and no shutdown empties the manager, what is installed stays, or the
reload that has the lock puts its batch there. -/
theorem installed_of_closed (is_closed : m.closed = true) (hrun : m.run es = some m')
    (no_swap : m.shutdownSwaps es = 0) :
    m'.installed = m.installed ∨
      ∃ c configs batch, .advance c ∈ es ∧ m.work? c = some (.reload configs (.checked batch)) ∧
        m'.installed = batch := by
  induction es generalizing m with
  | nil =>
    rw [run_nil hrun]
    exact Or.inl rfl
  | cons e es ih =>
    obtain ⟨n, hstep, hrun⟩ := run_cons hrun
    have hc := change_of_step hstep
    rw [shutdownSwaps_cons hstep, Nat.add_eq_zero_iff, Bool.toNat_eq_zero] at no_swap
    rcases ih (hc.closed_mono is_closed) hrun no_swap.1 with
      same | ⟨c, configs, batch, later, at_n, put⟩
    · rw [same]
      refine (hc.installed_or_swapped no_swap.2).imp_right ?_
      rintro ⟨c, configs, batch, rfl, before, put⟩
      exact ⟨c, configs, batch, List.mem_cons_self, before, put⟩
    · -- nobody takes the lock where the flag is set, so this reload had it before
      rcases hc.holder at_n rfl with before | gets
      · exact Or.inr ⟨c, configs, batch, List.mem_cons_of_mem e later, before, put⟩
      · cases is_closed.symm.trans gets.was_open

end

end Manager

end TaskPools
