/-
# The history of a manager

The history of a run is the list of its events, each with the manager to which it happened.  It
tells which steps of reloads replaced the installed batch, which steps of shutdowns set the flag,
and which tasks a call handed to pools.  As long as the manager is open, only reloads replace the
batch, and the number of batches replaced grows by the number of their swaps
(`Reachable.generation_of_run`).
-/
import TaskPools.Proofs.Manager.Lock

namespace TaskPools

variable {τ : Type}

/-- A task that is handed to a pool, and the number of the submission there. -/
structure HandOver (τ : Type) where
  pool : Nat
  submission : Nat
  job : Option (Job τ)
  deriving DecidableEq, Repr

/-- A shutdown is about to set the flag. -/
def Work.shutsDown : Work τ → Bool
  | .shutdown .begun => true
  | _ => false

/-- The pool to which a piece of work hands its task next, and the task. -/
def Work.handing? : Work τ → Option (Nat × Option τ)
  | .execute _ task (.found _ i) | .execute _ task (.refound i) => some (i, task)
  | _ => none

namespace Manager

/-- The events of a run, each with the manager to which it happens. -/
def history : Manager τ → List (Event τ) → List (Manager τ × Event τ)
  | _, [] => []
  | m, e :: es => (m, e) :: (m.step e).elim [] fun n => n.history es

/-- A reload installs its batch, which is what a call that has the lock does next. -/
def installsBatch : Manager τ × Event τ → Bool
  | (m, .advance c) => (m.work? c).any Work.holdsLock
  | _ => false

/-- A shutdown takes its first step, which sets the flag. -/
def setsFlag : Manager τ × Event τ → Bool
  | (m, .advance c) => (m.work? c).any Work.shutsDown
  | _ => false

/-- What call `c` hands over, if this is a step in which it does. -/
def handsOver? (c : Nat) : Manager τ × Event τ → Option (HandOver τ)
  | (m, .advance c') =>
    if c' = c then do
      let (i, task) ← (← m.work? c).handing?
      let g ← m.fleet.pools[i]?
      pure ⟨i, g.replies.length, task.map (Job.mk c)⟩
    else none
  | _ => none

/-- The number of swaps by reloads. -/
def reloadSwaps (m : Manager τ) (es : List (Event τ)) : Nat :=
  (m.history es).countP installsBatch

/-- The number of shutdowns that start. -/
def shutdownStarts (m : Manager τ) (es : List (Event τ)) : Nat :=
  (m.history es).countP setsFlag

/-- What call `c` hands over, in this order. -/
def handOvers (c : Nat) (m : Manager τ) (es : List (Event τ)) : List (HandOver τ) :=
  (m.history es).filterMap (handsOver? c)

section

variable {m m' n : Manager τ} {e : Event τ} {es : List (Event τ)} {c : Nat}
  {caller : Option (Nat × Nat)} {work work' : Work τ}

/-- The history of a run begins with its first event. -/
theorem history_cons (hstep : m.step e = some n) (es : List (Event τ)) :
    m.history (e :: es) = (m, e) :: n.history es := by
  rw [history, hstep]
  rfl

/-- The history of a run of two parts is that of the first, followed by that of the second. -/
theorem history_append {es' : List (Event τ)} (hrun : m.run es = some n) :
    m.history (es ++ es') = m.history es ++ n.history es' := by
  induction es generalizing m with
  | nil =>
    rw [run_nil hrun]
    rfl
  | cons e es ih =>
    obtain ⟨k, hstep, hrun⟩ := run_cons hrun
    rw [List.cons_append, history_cons hstep, history_cons hstep, ih hrun, List.cons_append]

/-- A run passes through reachable managers only. -/
theorem reachable_of_history (h : m.Reachable) (passed : (n, e) ∈ m.history es) :
    n.Reachable := by
  induction es generalizing m with
  | nil => cases passed
  | cons e' es ih =>
    rw [history] at passed
    rcases List.mem_cons.mp passed with here | later
    · cases here
      exact h
    · cases hstep : m.step e' with
      | none =>
        rw [hstep] at later
        cases later
      | some m' =>
        rw [hstep] at later
        exact ih (h.step hstep) later

/-- A swap counts from the step on in which it happens. -/
theorem reloadSwaps_cons (hstep : m.step e = some n) (es : List (Event τ)) :
    m.reloadSwaps (e :: es) = n.reloadSwaps es + (installsBatch (m, e)).toNat := by
  rw [reloadSwaps, history_cons hstep, List.countP_cons, reloadSwaps]
  cases installsBatch (m, e) <;> rfl

/-- A shutdown counts from the step on in which it sets the flag. -/
theorem shutdownStarts_cons (hstep : m.step e = some n) (es : List (Event τ)) :
    m.shutdownStarts (e :: es) = n.shutdownStarts es + (setsFlag (m, e)).toNat := by
  rw [shutdownStarts, history_cons hstep, List.countP_cons, shutdownStarts]
  cases setsFlag (m, e) <;> rfl

/-- The shutdowns of a run of two parts are those of the first and those of the second. -/
theorem shutdownStarts_append {es' : List (Event τ)} (hrun : m.run es = some n) :
    m.shutdownStarts (es ++ es') = m.shutdownStarts es + n.shutdownStarts es' := by
  rw [shutdownStarts, history_append hrun, List.countP_append, shutdownStarts, shutdownStarts]

/-- A hand-over counts from the step on in which it happens. -/
theorem handOvers_cons (hstep : m.step e = some n) (c : Nat) (es : List (Event τ)) :
    handOvers c m (e :: es) = (handsOver? c (m, e)).toList ++ handOvers c n es := by
  rw [handOvers, history_cons hstep, List.filterMap_cons, handOvers]
  cases handsOver? c (m, e) <;> rfl

/-! ## The flag -/

/-- Once set, the flag stays set. -/
theorem Change.closed_mono (hc : Change m e m') (is_closed : m.closed = true) :
    m'.closed = true := by
  cases hc with
  | call | pool => exact is_closed
  | act c caller _ work work' n at_c acts =>
    cases acts with
    | close => rfl
    | _ => exact is_closed

/-- Nobody opens a manager again, in one step. -/
theorem Change.was_open (hc : Change m e m') (is_open : m'.closed = false) : m.closed = false := by
  by_contra set
  rw [hc.closed_mono (by simpa using set)] at is_open
  cases is_open

/-- A manager that is closed stays so. -/
theorem closed_of_run (is_closed : m.closed = true) (hrun : m.run es = some m') :
    m'.closed = true := by
  exact run_preserves (fun is_closed hstep => (change_of_step hstep).closed_mono is_closed)
    is_closed hrun

/-- A manager that is open has been so all the time. -/
theorem was_open_of_run (is_open : m'.closed = false) (hrun : m.run es = some m') :
    m.closed = false := by
  by_contra set
  rw [closed_of_run (by simpa using set) hrun] at is_open
  cases is_open

/-- Only the first step of a shutdown sets the flag. -/
theorem Change.closed_eq (hc : Change m e m') (no_start : setsFlag (m, e) = false) :
    m'.closed = m.closed := by
  cases hc with
  | call | pool => rfl
  | act c caller _ work work' n at_c acts =>
    cases acts with
    | close =>
      rw [setsFlag, work?_of_getElem? at_c] at no_start
      cases no_start
    | _ => rfl

/-- The first step of a shutdown sets the flag. -/
theorem Change.closed_of_setsFlag (hc : Change m e m') (sets : setsFlag (m, e) = true) :
    m'.closed = true := by
  cases hc with
  | call | pool => cases sets
  | act c caller _ work work' n at_c acts =>
    cases acts with
    | close => rfl
    | goOn _ _ follows =>
      rw [setsFlag, work?_of_getElem? at_c] at sets
      cases follows <;> cases sets
    | launch | launchInline | collect => cases sets
    | submit | resubmit | sample | gauge | build | failReload | install | emptyNothing | emptyOut
    | shutDown =>
      rw [setsFlag, work?_of_getElem? at_c] at sets
      cases sets

/-- Where no shutdown starts, the flag stays as it is. -/
theorem closed_eq_of_run (hrun : m.run es = some m') (no_start : m.shutdownStarts es = 0) :
    m'.closed = m.closed := by
  induction es generalizing m with
  | nil => rw [run_nil hrun]
  | cons e es ih =>
    obtain ⟨n, hstep, hrun⟩ := run_cons hrun
    rw [shutdownStarts_cons hstep] at no_start
    have first : setsFlag (m, e) = false := by
      cases hsets : setsFlag (m, e) with
      | false => rfl
      | true =>
        rw [hsets] at no_start
        exact absurd no_start (Nat.succ_ne_zero _)
    rw [ih hrun (Nat.eq_zero_of_add_eq_zero_right no_start)]
    exact (change_of_step hstep).closed_eq first

theorem installsBatch_of_work (hwork : m.work? c = some work) :
    installsBatch (m, .advance c) = work.holdsLock := by
  rw [installsBatch, hwork, Option.any_some]

/-- Where the lock is free no step is a swap by a reload. -/
theorem installsBatch_of_unlocked (unlocked : m.isLocked = false) (e : Event τ) :
    installsBatch (m, e) = false := by
  cases e with
  | advance c =>
    cases hwork : m.work? c with
    | none =>
      rw [installsBatch, hwork]
      rfl
    | some work => rw [installsBatch_of_work hwork, holdsLock_eq_false unlocked hwork]
  | call | launch | collect | pool => rfl

/-- Where the flag is set and the lock is free, no reload installs its batch any more. -/
theorem reloadSwaps_of_closed (is_closed : m.closed = true) (unlocked : m.isLocked = false)
    (hrun : m.run es = some m') : m.reloadSwaps es = 0 := by
  induction es generalizing m with
  | nil => rfl
  | cons e es ih =>
    obtain ⟨n, hstep, hrun⟩ := run_cons hrun
    have hc := change_of_step hstep
    rw [reloadSwaps_cons hstep, installsBatch_of_unlocked unlocked,
      ih (hc.closed_mono is_closed) (hc.unlocked is_closed unlocked) hrun]
    rfl

/-- A shutdown that went beyond its first step has set the flag. -/
def FlagFirst (m : Manager τ) : Prop :=
  ∀ c phase, m.work? c = some (.shutdown phase) → phase ≠ .begun → m.closed = true

/-- Every step of a shutdown does something more than go on. -/
theorem Follows.not_shutdown {phase : ShutdownPhase} (hf : Follows m work work') :
    work' ≠ .shutdown phase := by
  cases hf <;> nofun

/-- A retirement belongs to the same shutdown before and after its step. -/
theorem shutdown_of_withRetirement {r r' : Retirement} {phase : ShutdownPhase}
    (retires : work.retirement? = some r) (h : work.withRetirement r' = .shutdown phase) :
    work = .shutdown (.retiring r) := by
  cases retires_of_retirement? retires with
  | shutdown => rfl
  | discarding | rejecting | retiring => cases h

/-- The step that brings a shutdown beyond its first place sets the flag or finds it set. -/
theorem FlagFirst.act (h : m.FlagFirst) (at_c : m.work? c = some work)
    (ha : Act m c caller e work work' n) {phase : ShutdownPhase}
    (work_eq : work' = .shutdown phase) : n.closed = true := by
  cases ha with
  | goOn _ _ follows => exact absurd work_eq follows.not_shutdown
  | close => rfl
  | emptyNothing | emptyOut => exact h c .closed at_c nofun
  | shutDown r => exact h c (.retiring r) at_c nofun
  | launch _ r _ _ retires | launchInline _ r _ _ retires | collect _ _ r _ _ retires =>
    rw [shutdown_of_withRetirement retires work_eq] at at_c
    exact h c (.retiring r) at_c nofun
  | submit | resubmit | sample | gauge | build | failReload | install => cases work_eq

/-- In every step shutdowns set the flag before they do anything else. -/
theorem FlagFirst.change (h : m.FlagFirst) (hc : Change m e m') : m'.FlagFirst := by
  intro c phase hwork later
  cases hc with
  | call caller request =>
    rw [work?_call] at hwork
    split at hwork
    · cases request <;> cases hwork
      exact absurd rfl later
    · exact h c phase hwork later
  | pool => exact h c phase hwork later
  | act c' caller _ work work' n at_c acts unlocked =>
    have kept := work?_of_calls acts.calls_eq
    by_cases hne : c = c'
    · subst hne
      rw [work?_setWork_self ((kept c).trans (work?_of_getElem? at_c))] at hwork
      have set := h.act (work?_of_getElem? at_c) acts (Option.some.inj hwork)
      exact set
    · rw [work?_setWork_ne hne, kept] at hwork
      have hc := Change.act c' caller _ work work' n at_c acts unlocked
      exact hc.closed_mono (h c phase hwork later)

/-- In every reachable manager the flag is set where a shutdown went beyond its first step. -/
theorem Reachable.flagFirst (h : m.Reachable) : m.FlagFirst := by
  induction h with
  | create hcreate =>
    obtain ⟨fleet, batch, fresh, rfl⟩ := eq_of_ofConfigs hcreate
    exact nofun
  | step _ hstep ih => exact ih.change (change_of_step hstep)

/-! ## Swaps -/

/-- A call that has the lock does not merely read. -/
theorem Follows.not_holder (hf : Follows m work work') : work.holdsLock = false := by
  cases hf <;> rfl

/-- While the manager is open, its batch is replaced by reloads and by nothing else. -/
theorem FlagFirst.generation (h : m.FlagFirst) (hc : Change m e m') (is_open : m'.closed = false) :
    m'.generation = m.generation + (installsBatch (m, e)).toNat := by
  have was_open : m.closed = false := hc.was_open is_open
  cases hc with
  | call | pool => rfl
  | act c caller _ work work' n at_c acts =>
    have hwork := work?_of_getElem? at_c
    cases acts with
    | goOn _ _ follows =>
      rw [installsBatch_of_work hwork, follows.not_holder]
      rfl
    | close => cases is_open
    -- a shutdown that empties the manager has closed it before
    | emptyNothing | emptyOut =>
      rw [h c .closed hwork nofun] at was_open
      cases was_open
    | launch | launchInline | collect => rfl
    | submit | resubmit | sample | gauge | build | failReload | install | shutDown =>
      rw [installsBatch_of_work hwork]
      rfl

/-- As long as the manager is open, exactly the swaps by reloads replace its batch. -/
theorem Reachable.generation_of_run (h : m.Reachable) (hrun : m.run es = some m')
    (is_open : m'.closed = false) : m'.generation = m.generation + m.reloadSwaps es := by
  induction es generalizing m with
  | nil =>
    rw [run_nil hrun]
    rfl
  | cons e es ih =>
    obtain ⟨n, hstep, hrun⟩ := run_cons hrun
    rw [ih (h.step hstep) hrun, reloadSwaps_cons hstep,
      h.flagFirst.generation (change_of_step hstep) (was_open_of_run is_open hrun)]
    omega

end

end Manager

end TaskPools
