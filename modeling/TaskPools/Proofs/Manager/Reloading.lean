/-
# Where a reload stands

A reload builds a pool for each configuration of its list, and then installs them; or it fails, and
gives the pools up that it has built.  Each of its places tells something of the list
(`ReloadPhase.Tells`) and of the pools that it has built (`HasBuilt`), and every step of the manager
keeps to that (`Reloading.step`).  From the moment when a reload begins to release pools, or is the
one that has the lock, its answer is settled (`ReloadPhase.settled?`, `Reloading.answer_eq`).
-/
import TaskPools.Proofs.Fleet.Assembly
import TaskPools.Proofs.Manager.Rejection

namespace TaskPools

variable {τ : Type}

/-- What the place of a reload that has built so many pools tells of its list, in a manager that is
`closed` or not. -/
def ReloadPhase.Tells (configs : List PoolConfig) (built : Nat) (closed : Bool) :
    ReloadPhase → Prop
  | .begun => True
  | .assembling a => ∃ ready, ready.length = built ∧ a.Tells configs ready
  | .built _ | .checked _ | .retiring _ | .returned none => PoolConfig.Usable configs
  | .rejecting _ => closed = true
  | .returned (some fault) =>
    (∃ cause, PoolConfig.FirstOffence configs built cause ∧ fault = .reloadFailed cause) ∨
      (fault = .managerClosed ∧ closed = true)

theorem ReloadPhase.Tells.mono {configs : List PoolConfig} {built : Nat} {closed closed' : Bool}
    {phase : ReloadPhase} (h : phase.Tells configs built closed)
    (set : closed = true → closed' = true) : phase.Tells configs built closed' := by
  cases phase with
  | rejecting r => exact set h
  | returned fault =>
    cases fault with
    | none => exact h
    | some fault => exact h.imp_right (And.imp_right set)
  | begun | assembling | built | checked | retiring => exact h

/-- What a reload will answer, where that is settled. -/
def ReloadPhase.settled? : ReloadPhase → Option (Option Fault)
  | .assembling (.discarding fault _) | .assembling (.done (.error fault)) =>
    some (some (.reloadFailed fault))
  | .rejecting _ => some (some .managerClosed)
  | .checked _ | .retiring _ => some none
  | .returned fault => some fault
  | .begun | .assembling _ | .built _ => none

namespace Manager

/-- The pool that call `c` builds in a step, if it does. -/
def builds? (c : Nat) : Manager τ × Event τ → Option Nat
  | (m, .advance c') =>
    let built := m.fleet.pools.length
    if c' = c ∧ (m.step (.advance c')).any (fun n => built < n.fleet.pools.length) then some built
    else none
  | _ => none

/-- The pools that call `c` built in the course of a run, in this order. -/
def builtBy (c : Nat) (m : Manager τ) (es : List (Event τ)) : List Nat :=
  (m.history es).filterMap (builds? c)

/-- What has become of the pools that a reload has built. -/
def HasBuilt (m : Manager τ) (pools : List Nat) : ReloadPhase → Prop
  | .begun => pools = []
  | .assembling (.building _ batch) | .assembling (.done (.ok batch)) | .built batch
  | .checked batch => pools = batch.pools
  | .assembling (.discarding _ r) | .rejecting r => m.SeesTo r pools
  | .assembling (.done (.error _)) | .returned (some _) => ∀ i ∈ pools, m.Owns .released i
  | .retiring _ | .returned none => True

/-- Call `c` reloads this list, has built these pools, and stands at this place. -/
structure Reloading (m : Manager τ) (c : Nat) (configs : List PoolConfig) (pools : List Nat)
    (phase : ReloadPhase) : Prop where
  work : m.work? c = some (.reload configs phase)
  tells : phase.Tells configs pools.length m.closed
  built : m.HasBuilt pools phase

section

variable {m m' n : Manager τ} {e : Event τ} {es : List (Event τ)} {c i : Nat}
  {caller : Option (Nat × Nat)} {work work' : Work τ} {configs : List PoolConfig}
  {pools pools' : List Nat} {phase phase' : ReloadPhase} {answer : Option Fault} {fault : Fault}

/-! ## Pools that are built -/

theorem builds?_of_ne (other : e ≠ .advance c) : builds? c (m, e) = none := by
  cases e with
  | advance c' => exact if_neg fun builds => other (congrArg _ builds.1)
  | call | launch | collect | pool => rfl

theorem builds?_of_length (hstep : m.step e = some m')
    (same : m'.fleet.pools.length = m.fleet.pools.length) : builds? c (m, e) = none := by
  cases e with
  | advance c' =>
    refine if_neg fun builds => ?_
    rw [hstep, Option.any_some, same, decide_eq_true_eq] at builds
    exact Nat.lt_irrefl _ builds.2
  | call | launch | collect | pool => rfl

theorem builds?_of_longer (hstep : m.step (.advance c) = some m')
    (longer : m.fleet.pools.length < m'.fleet.pools.length) :
    builds? c (m, .advance c) = some m.fleet.pools.length := by
  refine if_pos ⟨rfl, ?_⟩
  rw [hstep, Option.any_some, decide_eq_true longer]

theorem builtBy_cons (hstep : m.step e = some n) (es : List (Event τ)) :
    builtBy c m (e :: es) = (builds? c (m, e)).toList ++ builtBy c n es := by
  rw [builtBy, history_cons hstep, List.filterMap_cons, builtBy]
  cases builds? c (m, e) <;> rfl

/-! ## A reload keeps to its places -/

theorem HasBuilt.still (h : m.HasBuilt pools phase) (reachable : m.Reachable)
    (hstep : m.step e = some m') : m'.HasBuilt pools phase := by
  have still (released : ∀ i ∈ pools, m.Owns .released i) : ∀ i ∈ pools, m'.Owns .released i :=
    fun i hi => reachable.still_released hstep (released i hi)
  rcases phase with _ | ⟨⟨todo, batch⟩ | ⟨fault, r⟩ | ⟨fault | batch⟩⟩ | batch | batch | r | r |
    ⟨_ | fault⟩
  · exact h
  · exact h
  · exact SeesTo.still h reachable hstep
  · exact still h
  · exact h
  · exact h
  · exact h
  · exact SeesTo.still h reachable hstep
  · exact h
  · exact h
  · exact still h

theorem Reloading.step (h : m.Reloading c configs pools phase) (reachable : m.Reachable)
    (hstep : m.step e = some m') :
    ∃ phase', m'.Reloading c configs (pools ++ (builds? c (m, e)).toList) phase' ∧
      (phase.settled? = none ∨ phase'.settled? = phase.settled?) := by
  have hc := change_of_step hstep
  have built := h.built.still reachable hstep
  rcases hc.own_or_other h.work with ⟨same, other⟩ | ⟨_, work', n, acts, rfl, new⟩
  · rw [builds?_of_ne other, Option.toList_none, List.append_nil]
    exact ⟨phase, ⟨same, h.tells.mono hc.closed_mono, built⟩, Or.inr rfl⟩
  · -- a step of its own, and the place of the reload leaves only the acts that start there
    obtain ⟨hwork, tells, held⟩ := h
    cases acts with
    | goOn _ _ follows =>
      rw [builds?_of_length hstep rfl, Option.toList_none, List.append_nil]
      cases follows with
      | reloadClosed _ is_closed =>
        refine ⟨_, ⟨new, Or.inr ⟨rfl, is_closed⟩, fun i hi => ?_⟩, Or.inl rfl⟩
        rw [show pools = [] from built] at hi
        cases hi
      | reloadOpen =>
        have nothing : pools = [] := built
        have tells' := Assembly.tells_ofConfigs configs
        exact ⟨_, ⟨new, ⟨[], nothing ▸ rfl, tells'⟩, built⟩, Or.inl rfl⟩
      | allBuilt _ batch =>
        obtain ⟨ready, length_eq, tells⟩ := tells
        obtain ⟨ready', change, tells'⟩ := tells.advance (f := m.fleet) rfl
        have same := (Nat.add_right_cancel change.length_eq).trans length_eq
        exact ⟨_, ⟨new, ⟨ready', same, tells'⟩, built⟩, Or.inl rfl⟩
      | discard _ config rest batch fault unusable =>
        obtain ⟨ready, length_eq, tells⟩ := tells
        have advances : (Assembly.building (config :: rest) batch).advance m.fleet
            = some (m.fleet, .discarding fault (.ofBatch batch)) := by
          rw [Assembly.advance, unusable]
        obtain ⟨ready', change, tells'⟩ := tells.advance advances
        have same := (Nat.add_right_cancel change.length_eq).trans length_eq
        refine ⟨_, ⟨new, ⟨ready', same, tells'⟩, fun i hi => Or.inl ?_⟩, Or.inl rfl⟩
        rw [show pools = batch.pools from built] at hi
        exact hi
      | discarded _ fault r is_over =>
        obtain ⟨ready, length_eq, tells⟩ := tells
        obtain ⟨ready', change, tells'⟩ := tells.advance (f := m.fleet) (if_pos is_over)
        have same := (Nat.add_right_cancel change.length_eq).trans length_eq
        exact ⟨_, ⟨new, ⟨ready', same, tells'⟩, SeesTo.released built is_over⟩, Or.inr rfl⟩
      | assembled _ batch =>
        obtain ⟨ready, -, tells⟩ := tells
        cases tells with
        | built _ complete usable => exact ⟨_, ⟨new, complete ▸ usable, built⟩, Or.inl rfl⟩
      | reject _ batch is_closed =>
        refine ⟨_, ⟨new, is_closed, fun i hi => Or.inl ?_⟩, Or.inl rfl⟩
        rw [show pools = batch.pools from built] at hi
        exact hi
      | check => exact ⟨_, ⟨new, tells, built⟩, Or.inl rfl⟩
      | rejected _ r is_over =>
        exact ⟨_, ⟨new, Or.inr ⟨rfl, tells⟩, SeesTo.released built is_over⟩, Or.inr rfl⟩
      | reloaded _ r is_over => exact ⟨_, ⟨new, tells, trivial⟩, Or.inr rfl⟩
    | build _ config rest batch batch' fleet builds =>
      obtain ⟨ready, length_eq, tells⟩ := tells
      have advances : (Assembly.building (config :: rest) batch).advance m.fleet
          = some (fleet, .building rest batch') := by
        rw [Assembly.advance, builds]
      obtain ⟨_, change, tells'⟩ := tells.advance advances
      cases change with
      | build _ _ _ g created =>
        -- the only step in which the list of its pools grows
        rw [builds?_of_longer hstep]
        · refine ⟨_, ⟨new, ⟨ready ++ [config], ?_, tells'⟩, ?_⟩, Or.inl rfl⟩
          · rw [List.length_append, length_eq, List.length_append]
            rfl
          · show _ = Batch.pools _
            rw [show pools = batch.pools from built, Batch.pools, Batch.pools, List.map_append]
            rfl
        · show _ < (m.fleet.pools ++ [g]).length
          rw [List.length_append]
          exact Nat.lt_succ_self _
    | failReload _ fault =>
      rw [builds?_of_length hstep rfl, Option.toList_none, List.append_nil]
      obtain ⟨ready, length_eq, tells⟩ := tells
      cases tells with
      | failed _ first =>
        exact ⟨_, ⟨new, Or.inl ⟨fault, length_eq ▸ first, rfl⟩, built⟩, Or.inr rfl⟩
    | install =>
      rw [builds?_of_length hstep rfl, Option.toList_none, List.append_nil]
      exact ⟨_, ⟨new, tells, trivial⟩, Or.inr rfl⟩
    | launch _ _ _ _ retires | launchInline _ _ _ _ retires | collect _ _ _ _ _ retires =>
      rw [builds?_of_length hstep (by simp [setWork, withPool, note, Fleet.note]),
        Option.toList_none, List.append_nil]
      cases retires_of_retirement? retires with
      | discarding _ fault =>
        obtain ⟨ready, length_eq, tells⟩ := tells
        cases tells with
        | discarding _ _ first =>
          exact ⟨_, ⟨new, ⟨ready, length_eq, .discarding fault _ first⟩,
            SeesTo.change held reachable hwork rfl hstep new rfl⟩, Or.inr rfl⟩
      | rejecting =>
        exact ⟨_, ⟨new, tells, SeesTo.change held reachable hwork rfl hstep new rfl⟩,
          Or.inr rfl⟩
      | retiring => exact ⟨_, ⟨new, tells, trivial⟩, Or.inr rfl⟩

/-- A reload keeps to its places through a whole run, and once its answer is settled it stays. -/
theorem Reloading.run (h : m.Reloading c configs pools phase) (reachable : m.Reachable)
    (hrun : m.run es = some m') :
    ∃ phase', m'.Reloading c configs (pools ++ builtBy c m es) phase' ∧
      (phase.settled? = none ∨ phase'.settled? = phase.settled?) := by
  induction es generalizing m pools phase with
  | nil =>
    rw [run_nil hrun]
    refine ⟨phase, ?_, Or.inr rfl⟩
    rw [builtBy, history, List.filterMap_nil, List.append_nil]
    exact h
  | cons e es ih =>
    obtain ⟨n, hstep, hrun⟩ := run_cons hrun
    obtain ⟨phase₁, next, first⟩ := h.step reachable hstep
    obtain ⟨phase', last, rest⟩ := ih next (reachable.step hstep) hrun
    rw [List.append_assoc, ← builtBy_cons hstep] at last
    refine ⟨phase', last, ?_⟩
    rcases first with unsettled | same
    · exact Or.inl unsettled
    · exact rest.imp same.symm.trans (Eq.trans · same)

/-- Once settled, the answer of a reload is what it returns. -/
theorem Reloading.answer_eq (h : m.Reloading c configs pools phase) (reachable : m.Reachable)
    (hrun : m.run es = some m') (settled : phase.settled? = some answer)
    {answer' : Option Fault} (returned : m'.work? c = some (.reload configs (.returned answer'))) :
    answer' = answer := by
  obtain ⟨phase', last, kept⟩ := h.run reachable hrun
  cases last.work.symm.trans returned
  rw [settled] at kept
  rcases kept with unsettled | same
  · cases unsettled
  · exact Option.some.inj same

/-- A reload that returns a fault was never bound to succeed. -/
theorem Reloading.fails (h : m.Reloading c configs pools phase) (reachable : m.Reachable)
    (hrun : m.run es = some m')
    (failed : m'.work? c = some (.reload configs (.returned (some fault)))) :
    phase.settled? ≠ some none := by
  intro settled
  have same := h.answer_eq reachable hrun settled failed
  cases same

/-- New pools have new numbers. -/
theorem le_of_mem_builtBy (hrun : m.run es = some m') (built : i ∈ builtBy c m es) :
    m.fleet.pools.length ≤ i := by
  induction es generalizing m with
  | nil => cases built
  | cons e es ih =>
    obtain ⟨n, hstep, hrun⟩ := run_cons hrun
    rw [builtBy_cons hstep] at built
    rcases List.mem_append.mp built with now | later
    · cases e with
      | advance c' =>
        rw [builds?] at now
        split at now
        · exact Nat.le_of_eq (List.mem_singleton.mp now).symm
        · cases now
      | call | launch | collect | pool => cases now
    · exact Nat.le_trans (change_of_step hstep).pools.length_le (ih hrun later)

/-- No pool that a reload has built is installed, unless the reload is bound to succeed. -/
theorem Reloading.not_installed (h : m.Reloading c configs pools phase) (reachable : m.Reachable)
    (fails : phase.settled? ≠ some none) (built : i ∈ pools) : i ∉ m.installed.pools := by
  obtain ⟨hwork, -, held⟩ := h
  have batched {batch : Batch} (all : pools = batch.pools) (keeps : batch.pools ⊆
      (Work.reload configs phase : Work τ).unlisted) : i ∉ m.installed.pools :=
    reachable.not_installed_of_unlisted hwork (keeps (all ▸ built))
  rcases phase with _ | ⟨⟨todo, batch⟩ | ⟨fault, r⟩ | ⟨fault | batch⟩⟩ | batch | batch | r | r |
    ⟨_ | fault⟩
  · rw [show pools = [] from held] at built
    cases built
  · exact batched held fun _ => id
  · exact SeesTo.not_installed held reachable (.discarding fault) hwork built
  · exact reachable.not_installed_of_released (held i built)
  · exact batched held fun _ => id
  · exact batched held fun _ => id
  · exact absurd rfl fails
  · exact SeesTo.not_installed held reachable .rejecting hwork built
  · exact absurd rfl fails
  · exact absurd rfl fails
  · exact reachable.not_installed_of_released (held i built)

/-! ## What a reload answers -/

/-- On an open manager a reload fails for the first offence of its list, and for nothing else. -/
theorem Reloading.answer_of_open (h : m.Reloading c configs pools (.returned answer))
    (is_open : m.closed = false) :
    (answer = none ↔ PoolConfig.Usable configs) ∧ ∀ fault, answer = some fault →
      ∃ cause, PoolConfig.FirstOffence configs pools.length cause ∧
        fault = .reloadFailed cause := by
  have tells := h.tells
  cases answer with
  | none => exact ⟨iff_of_true rfl tells, nofun⟩
  | some fault =>
    rcases tells with ⟨cause, first, rfl⟩ | ⟨-, is_closed⟩
    · refine ⟨iff_of_false nofun first.not_usable, fun fault same => ?_⟩
      cases same
      exact ⟨cause, first, rfl⟩
    · rw [is_open] at is_closed
      cases is_closed

/-- A call that retires pools has its answer already. -/
theorem settled_of_retirement {r : Retirement}
    (retires : (Work.reload configs phase : Work τ).retirement? = some r) :
    ∃ answer, phase.settled? = some answer := by
  cases retires_of_retirement? retires with
  | discarding _ fault => exact ⟨_, rfl⟩
  | rejecting | retiring => exact ⟨_, rfl⟩

end

end Manager

end TaskPools
