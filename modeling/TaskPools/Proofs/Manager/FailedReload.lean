/-
# A reload that fails changes nothing

For those who use a manager a reload that fails might as well not have happened.  None of its steps
changes which batch is installed, the flag or an installed pool (`Reloading.same_service`), for the
pools that it builds and releases are its own.  Which fault it returns depends on its list, unless
somebody shuts the manager down meanwhile, and not on the pools for which it waits
(`failed_reload_changes_nothing`).
-/
import TaskPools.Proofs.Fleet.Construction
import TaskPools.Proofs.Manager.Reloading
import TaskPools.Proofs.Manager.Waits

namespace TaskPools

variable {τ : Type}

namespace Manager

/-- The event is a step of call `c`, or a move of one of these pools. -/
def Event.isDoneBy (c : Nat) (pools : List Nat) : Event τ → Bool
  | .pool i _ => decide (i ∈ pools)
  | e => e.isOf c

/-- The same batch is installed, the flag is as it was, and the installed pools are as they were. -/
structure SameService (m m' : Manager τ) : Prop where
  installed_eq : m'.installed = m.installed
  past_eq : m'.past = m.past
  closed_eq : m'.closed = m.closed
  pools_eq : ∀ i ∈ m.installed.pools, m'.fleet.pools[i]? = m.fleet.pools[i]?

/-- What holds of the reload for this list that began as call `c` of the manager `m₀`, after the
events `es`. -/
structure SafeReload (m₀ : Manager τ) (c : Nat) (configs : List PoolConfig) (es : List (Event τ))
    (m : Manager τ) : Prop where
  /-- If it has failed, neither a step of it nor a move of a pool that it built has changed anything
  for those who use the manager. -/
  unchanged : ∀ fault, m.work? c = some (.reload configs (.returned (some fault))) →
    ∀ n e n', (n, e) ∈ m₀.history es → e.isDoneBy c (builtBy c m₀ es) = true →
      n.step e = some n' → SameService n n'
  /-- If it has failed, each pool that it built was released once. -/
  released : ∀ fault, m.work? c = some (.reload configs (.returned (some fault))) →
    ∀ i ∈ builtBy c m₀ es, m.Owns .released i
  /-- Unless somebody shuts the manager down, it fails for the first configuration that offends,
  with the message of the construction that fails for it, and for nothing else. -/
  answers : m₀.closed = false → m₀.shutdownStarts es = 0 →
    ∀ answer, m.work? c = some (.reload configs (.returned answer)) →
      (answer = none ↔ PoolConfig.Usable configs) ∧ ∀ fault, answer = some fault →
        ∃ cause, PoolConfig.FirstOffence configs (builtBy c m₀ es).length cause ∧
          fault.status = .coded Code.invalidConfig ("failed to reload: " ++ cause.message) ∧
          ∀ (f₀ : Fleet τ) (hand : Batch) (es' : List Construction.Event) (d : Construction τ)
            (cause' : Fault), (Construction.ofConfigs f₀ configs hand).run es' = some d →
            d.assembly = .done (.error cause') → cause' = cause
  /-- If somebody does, it may fail for that as well. -/
  overtaken : ∀ fault, m.work? c = some (.reload configs (.returned (some fault))) →
    (∃ cause, PoolConfig.FirstOffence configs (builtBy c m₀ es).length cause ∧
      fault = .reloadFailed cause) ∨ (fault = .managerClosed ∧ m.closed = true)
  /-- When it begins to release pools, it is settled what it will return, whatever happens then. -/
  settled : ∀ work r, m.work? c = some work → work.retirement? = some r →
    ∃ answer, ∀ es' m' answer', m.run es' = some m' →
      m'.work? c = some (.reload configs (.returned answer')) → answer' = answer
  /-- It can go on until it returns, unless it has installed its batch and a release of a pool that
  was installed before runs on the thread of its caller. -/
  returns : (∀ r, m.work? c = some (.reload configs (.retiring r)) →
      ∀ i t k, (i, t) ∈ r.underWay → m.release? i t ≠ some (.inline k)) →
    ∃ es' m' answer, m.run es' = some m' ∧ m.shutdownStarts es' = 0 ∧
      m'.work? c = some (.reload configs (.returned answer))

section

variable {m m' n : Manager τ} {e : Event τ} {es : List (Event τ)} {c i : Nat}
  {caller : Option (Nat × Nat)} {work work' : Work τ} {configs : List PoolConfig}
  {pools : List Nat} {phase : ReloadPhase} {answer : Option Fault} {fault : Fault}

/-! ## What a failing reload leaves alone -/

theorem reloading_of_call (called : m.step (.call caller (.reload configs)) = some m') :
    SameService m m' ∧ m'.Reloading m.calls.length configs [] .begun := by
  have hc := change_of_step called
  cases hc with
  | call =>
    refine ⟨⟨rfl, rfl, rfl, fun _ _ => rfl⟩, ?_, trivial, rfl⟩
    rw [work?_call, if_pos rfl]
    rfl
  | act _ _ _ _ _ _ _ acts => cases acts

theorem sameService_of_set (out : i ∉ m.installed.pools) {g : GuardedPool (Job τ)}
    (pools_eq : n.fleet.pools = m.fleet.pools.set i g) (installed_eq : n.installed = m.installed)
    (past_eq : n.past = m.past) (closed_eq : n.closed = m.closed) : SameService m n := by
  refine ⟨installed_eq, past_eq, closed_eq, fun j installed => ?_⟩
  rw [pools_eq]
  refine List.getElem?_set_ne ?_
  rintro rfl
  exact out installed

/-- A step of a reload that never succeeds, or of a pool that it builds, changes nothing for those
who use the manager. -/
theorem Reloading.same_service (h : m.Reloading c configs pools phase) (reachable : m.Reachable)
    (hstep : m.step e = some m') (fails : phase.settled? ≠ some none) {built : List Nat}
    (own : e.isDoneBy c built = true)
    (only : ∀ i ∈ built, i ∈ pools ∨ m.fleet.pools.length ≤ i) : SameService m m' := by
  have hc := change_of_step hstep
  cases hc with
  | call => cases own
  | pool i move g g' at_i moves =>
    refine sameService_of_set ?_ rfl rfl rfl rfl
    rcases only i (of_decide_eq_true own) with before | later
    · exact h.not_installed reachable fails before
    · exact fun installed =>
        Nat.not_lt.mpr later (lt_of_owns reachable (o := .installed) installed)
  | act c₁ caller _ work work' n at_c acts =>
    obtain rfl : c₁ = c := by cases acts <;> exact eq_of_beq own
    have hwork := work?_of_getElem? at_c
    cases hwork.symm.trans h.work
    cases acts with
    | goOn | failReload | collect => exact ⟨rfl, rfl, rfl, fun _ _ => rfl⟩
    | build _ config rest batch batch' fleet builds =>
      obtain ⟨g, -, rfl, -⟩ := eq_of_build builds
      refine ⟨rfl, rfl, rfl, fun i installed => List.getElem?_append_left ?_⟩
      exact lt_of_owns reachable (o := .installed) installed
    | install =>
      -- the one act that changes the service, and a reload that comes to it succeeds
      exact absurd rfl fails
    | launch _ r i g retires among free at_i
    | launchInline _ r i g retires among free at_i =>
      have out : i ∉ m.installed.pools := by
        cases retires_of_retirement? retires with
        | discarding | rejecting =>
          exact reachable.not_installed_of_unlisted hwork (List.mem_append_left _ among)
        | retiring => exact absurd rfl fails
      exact sameService_of_set out rfl rfl rfl rfl

/-- None of the steps of a reload that fails changes anything for those who use the manager. -/
theorem Reloading.unchanged (h : m.Reloading c configs pools phase) (reachable : m.Reachable)
    (hrun : m.run es = some m')
    (failed : m'.work? c = some (.reload configs (.returned (some fault)))) {n' : Manager τ}
    (passed : (n, e) ∈ m.history es)
    (own : e.isDoneBy c (pools ++ builtBy c m es) = true) (hstep : n.step e = some n') :
    SameService n n' := by
  induction es generalizing m pools phase with
  | nil => cases passed
  | cons e₀ es ih =>
    have fails := h.fails reachable hrun failed
    obtain ⟨k, hk, hrun⟩ := run_cons hrun
    obtain ⟨phase₁, next, -⟩ := h.step reachable hk
    have reachable₁ := reachable.step hk
    rw [history_cons hk] at passed
    rw [builtBy_cons hk, ← List.append_assoc] at own
    rcases List.mem_cons.mp passed with here | later
    · cases here
      cases hk.symm.trans hstep
      refine h.same_service reachable hstep fails own fun i among => ?_
      -- a pool that is built now or later has a number that none has yet
      rw [List.append_assoc, ← builtBy_cons hk] at among
      exact (List.mem_append.mp among).imp_right (le_of_mem_builtBy (run_of_step hk hrun))
    · exact ih next reachable₁ hrun later own

/-! ## A reload can go on to return -/

theorem Unaided.brings {starts : List Bool} (h : Unaided c starts m m') : Brings c m m' := by
  obtain ⟨es, hrun, unaided, -⟩ := h
  refine ⟨es, hrun, fun e he => ?_⟩
  have own := unaided e he
  cases e with
  | pool => rfl
  | call => cases own
  | advance | launch | collect => exact own

/-- Through a whole run a call asks for the same. -/
theorem request_eq_of_run (hwork : m.work? c = some work) (hrun : m.run es = some m') :
    ∃ work', m'.work? c = some work' ∧ work'.request = work.request := by
  refine run_preserves (P := fun n => ∃ work', n.work? c = some work' ∧
    work'.request = work.request) ?_ ⟨work, hwork, rfl⟩ hrun
  rintro n n' e ⟨work', hwork', same⟩ hstep
  rcases (change_of_step hstep).own_or_other hwork' with ⟨still, -⟩ | ⟨_, _, _, acts, -, new⟩
  · exact ⟨work', still, same⟩
  · exact ⟨_, new, acts.request_eq.trans same⟩

/-- A call that is no shutdown, and pools that move, set no flag. -/
theorem no_start_of_own (hwork : m.work? c = some work) (other : work.request ≠ .shutdown)
    (hrun : m.run es = some m') (own : ∀ e ∈ es, e.isOf c = true) : m.shutdownStarts es = 0 := by
  induction es generalizing m work with
  | nil => rfl
  | cons e es ih =>
    obtain ⟨n, hstep, hrun⟩ := run_cons hrun
    obtain ⟨first, later⟩ := List.forall_mem_cons.mp own
    obtain ⟨work', hwork', same⟩ := request_eq_of_run hwork (run_one hstep)
    rw [shutdownStarts_cons hstep, ih hwork' (same ▸ other) hrun later]
    cases e with
    | advance c' =>
      obtain rfl : c' = c := eq_of_beq first
      rw [setsFlag, hwork]
      cases work with
      | shutdown => exact absurd rfl other
      | execute | reload | stats | list => rfl
    | call | launch | collect | pool => rfl

/-- The reload can be brought to its return, with no need of a shutdown. -/
def CanReturn (c : Nat) (configs : List PoolConfig) (m : Manager τ) : Prop :=
  ∃ es m' answer, m.run es = some m' ∧ m.shutdownStarts es = 0 ∧
    m'.work? c = some (.reload configs (.returned answer))

theorem CanReturn.before (hrun : m.run es = some n) (no_start : m.shutdownStarts es = 0)
    (returns : CanReturn c configs n) : CanReturn c configs m := by
  obtain ⟨es', m', answer, hrun', no_start', returned⟩ := returns
  refine ⟨es ++ es', m', answer, run_trans hrun hrun', ?_, returned⟩
  rw [shutdownStarts_append hrun, no_start, no_start']

theorem canReturn_of_returned
    (at_c : m.calls[c]? = some ⟨caller, .reload configs (.returned answer)⟩) :
    CanReturn c configs m :=
  ⟨[], m, answer, rfl, rfl, work?_of_getElem? at_c⟩

/-- What steps of a reload itself and moves of the pools bring about needs no shutdown. -/
theorem Brings.canReturn (h : Brings c m n)
    (at_c : m.calls[c]? = some ⟨caller, .reload configs phase⟩)
    (returns : CanReturn c configs n) : CanReturn c configs m := by
  obtain ⟨es, hrun, own⟩ := h
  exact returns.before hrun (no_start_of_own (work?_of_getElem? at_c) nofun hrun own)

theorem Reachable.canReturn_of_givingUp {r : Retirement} (h : m.Reachable)
    (gives : GivesUp r configs fault (.reload configs phase : Work τ))
    (at_c : m.calls[c]? = some ⟨caller, .reload configs phase⟩) : CanReturn c configs m := by
  obtain ⟨m', brings, returned⟩ := h.giving_up_returns gives at_c
  exact brings.canReturn at_c ⟨[], m', _, rfl, rfl, returned⟩

/-- Once its batch is installed, a reload can return, unless a release that it sees to runs on the
thread of its caller. -/
theorem Reachable.canReturn_of_retiring {r : Retirement} (h : m.Reachable)
    (at_c : m.calls[c]? = some ⟨caller, .reload configs (.retiring r)⟩)
    (timed : ∀ i t k, (i, t) ∈ r.underWay → m.release? i t ≠ some (.inline k)) :
    CanReturn c configs m := by
  obtain ⟨m', work', unaided, hwork', is_over⟩ := h.returns_unaided at_c rfl timed
    (List.length_replicate (n := r.todo.length) (a := true))
  obtain ⟨es, hrun, -⟩ := unaided.brings
  obtain ⟨_, hwork'', same⟩ := request_eq_of_run (work?_of_getElem? at_c) hrun
  cases hwork'.symm.trans hwork''
  cases work' with
  | reload configs' phase' =>
    cases same
    cases phase' with
    | returned answer => exact unaided.brings.canReturn at_c ⟨[], m', answer, rfl, rfl, hwork'⟩
    | begun | assembling | built | checked | rejecting | retiring => cases is_over
  | execute | shutdown | stats | list => cases same

/-- A reload that has the lock can return. -/
theorem Reachable.canReturn_of_checked {batch : Batch} (h : m.Reachable)
    (at_c : m.calls[c]? = some ⟨caller, .reload configs (.checked batch)⟩) :
    CanReturn c configs m := by
  obtain ⟨first, at_c₁⟩ := brings_of_advance at_c (.inl rfl) rfl rfl
  have begun := (first.reachable h).canReturn_of_retiring at_c₁
  exact first.canReturn at_c (begun fun i t k among => absurd among List.not_mem_nil)

theorem Reachable.canReturn_of_unlocked {batch : Batch} (h : m.Reachable)
    (at_c : m.calls[c]? = some ⟨caller, .reload configs (.built batch)⟩)
    (unlocked : m.isLocked = false) : CanReturn c configs m := by
  cases closed_eq : m.closed with
  | true =>
    have rejects : m.advanceWork c (.reload configs (.built batch))
        = some (m, .reload configs (.rejecting (.ofBatch batch))) := by
      simp only [advanceWork, advanceReload, closed_eq, if_true]
      rfl
    obtain ⟨first, at_c₁⟩ := brings_of_advance at_c (.inr unlocked) rejects rfl
    exact first.canReturn at_c ((first.reachable h).canReturn_of_givingUp .rejecting at_c₁)
  | false =>
    have checks : m.advanceWork c (.reload configs (.built batch))
        = some (m, .reload configs (.checked batch)) := by
      simp only [advanceWork, advanceReload, closed_eq]
      rfl
    obtain ⟨first, at_c₁⟩ := brings_of_advance at_c (.inr unlocked) checks rfl
    exact first.canReturn at_c ((first.reachable h).canReturn_of_checked at_c₁)

/-- A reload that is to take the lock can return: whoever has it can give it back first. -/
theorem Reachable.canReturn_of_built {batch : Batch} (h : m.Reachable)
    (at_c : m.calls[c]? = some ⟨caller, .reload configs (.built batch)⟩) :
    CanReturn c configs m := by
  cases locked : m.isLocked with
  | false => exact h.canReturn_of_unlocked at_c locked
  | true =>
    obtain ⟨d, configs', batch', n, holds, hstep, unlocked⟩ := h.exists_unlock locked
    have hwork := work?_of_getElem? at_c
    have still : n.work? c = some (.reload configs (.built batch)) := by
      rcases (change_of_step hstep).own_or_other hwork with ⟨same, -⟩ | ⟨_, _, _, acts, -, -⟩
      · exact same
      · obtain rfl : d = c := by cases acts; rfl
        cases holds.symm.trans hwork
    obtain ⟨⟨caller', _⟩, at_c', rfl⟩ := Option.map_eq_some_iff.mp still
    have no_start : m.shutdownStarts [.advance d] = 0 := by
      rw [shutdownStarts_cons hstep, setsFlag, holds]
      rfl
    exact ((h.step hstep).canReturn_of_unlocked at_c' unlocked).before (run_one hstep) no_start

theorem Reachable.canReturn_of_building {todo : List PoolConfig} {batch : Batch} (h : m.Reachable)
    (at_c : m.calls[c]? = some ⟨caller, .reload configs (.assembling (.building todo batch))⟩) :
    CanReturn c configs m := by
  induction todo generalizing m batch with
  | nil =>
    obtain ⟨first, at_c₁⟩ := brings_of_advance at_c (.inl rfl) rfl rfl
    obtain ⟨second, at_c₂⟩ := brings_of_advance at_c₁ (.inl rfl) rfl rfl
    have both := first.trans second
    exact both.canReturn at_c ((both.reachable h).canReturn_of_built at_c₂)
  | cons config rest ih =>
    cases built : m.fleet.build batch config with
    | ok made =>
      have builds : m.advanceWork c
            (.reload configs (.assembling (.building (config :: rest) batch)))
          = some ({ m with fleet := made.1 },
            .reload configs (.assembling (.building rest made.2))) := by
        simp only [advanceWork, advanceReload, Assembly.advance, built]
        rfl
      obtain ⟨first, at_c₁⟩ := brings_of_advance at_c (.inl rfl) builds rfl
      exact first.canReturn at_c (ih (first.reachable h) at_c₁)
    | error fault =>
      have stops : m.advanceWork c
            (.reload configs (.assembling (.building (config :: rest) batch)))
          = some (m, .reload configs (.assembling (.discarding fault (.ofBatch batch)))) := by
        simp only [advanceWork, advanceReload, Assembly.advance, built]
        rfl
      obtain ⟨first, at_c₁⟩ := brings_of_advance at_c (.inl rfl) stops rfl
      have gives_up := (first.reachable h).canReturn_of_givingUp (.discarding fault) at_c₁
      exact first.canReturn at_c gives_up

/-- However far it has come, a reload can go on until it returns, unless a release of a pool that
was installed before runs on the thread of its caller. -/
theorem Reachable.reload_canReturn (h : m.Reachable)
    (at_c : m.calls[c]? = some ⟨caller, .reload configs phase⟩)
    (timed : ∀ r, phase = .retiring r → ∀ i t k, (i, t) ∈ r.underWay →
      m.release? i t ≠ some (.inline k)) : CanReturn c configs m := by
  rcases phase with _ | ⟨⟨todo, batch⟩ | ⟨fault, r⟩ | ⟨fault | batch⟩⟩ | batch | batch | r | r |
    answer
  · cases closed_eq : m.closed with
    | true =>
      have refuses : m.advanceWork c (.reload configs .begun)
          = some (m, .reload configs (.returned (some .managerClosed))) := by
        simp only [advanceWork, advanceReload, closed_eq, if_true]
        rfl
      obtain ⟨first, at_c₁⟩ := brings_of_advance at_c (.inl rfl) refuses rfl
      exact first.canReturn at_c (canReturn_of_returned at_c₁)
    | false =>
      have begins : m.advanceWork c (.reload configs .begun)
          = some (m, .reload configs (.assembling (.ofConfigs configs))) := by
        simp only [advanceWork, advanceReload, closed_eq]
        rfl
      obtain ⟨first, at_c₁⟩ := brings_of_advance at_c (.inl rfl) begins rfl
      exact first.canReturn at_c ((first.reachable h).canReturn_of_building at_c₁)
  · exact h.canReturn_of_building at_c
  · exact h.canReturn_of_givingUp (.discarding fault) at_c
  · obtain ⟨first, at_c₁⟩ := brings_of_advance at_c (.inl rfl) rfl rfl
    exact first.canReturn at_c (canReturn_of_returned at_c₁)
  · obtain ⟨first, at_c₁⟩ := brings_of_advance at_c (.inl rfl) rfl rfl
    exact first.canReturn at_c ((first.reachable h).canReturn_of_built at_c₁)
  · exact h.canReturn_of_built at_c
  · exact h.canReturn_of_checked at_c
  · exact h.canReturn_of_givingUp .rejecting at_c
  · exact h.canReturn_of_retiring at_c (timed r rfl)
  · exact canReturn_of_returned at_c

/-- **A reload that fails changes nothing.**  Whatever a manager is doing when a reload begins and
whatever happens meanwhile, a reload that returns a fault has left alone which batch is installed,
the flag and every installed pool with all that goes on in it, and has released each pool that it
built once.  On an open manager that nobody shuts down it returns no fault if and only if all names
of its list are given and different.  What it returns is settled before it begins to wait for pools,
and does not depend on how long they take. -/
theorem failed_reload_changes_nothing (h : m.Reachable)
    (called : m.step (.call caller (.reload configs)) = some n) :
    SameService m n ∧
      ∀ es m', n.run es = some m' → n.SafeReload m.calls.length configs es m' := by
  obtain ⟨same, begun⟩ := reloading_of_call called
  have reachable := h.step called
  refine ⟨same, fun es m' hrun => ?_⟩
  obtain ⟨phase, now, -⟩ := begun.run reachable hrun
  rw [List.nil_append] at now
  have reachable' := reachable.run hrun
  refine ⟨fun fault failed n e n' passed own hstep => ?_, fun fault failed => ?_,
    fun is_open no_shutdown answer returned => ?_, fun fault failed => ?_,
    fun work r hwork retires => ?_, fun timed => ?_⟩
  · exact begun.unchanged reachable hrun failed passed (by rwa [List.nil_append]) hstep
  · cases now.work.symm.trans failed
    exact now.built
  · cases now.work.symm.trans returned
    have is_open' := (closed_eq_of_run hrun no_shutdown).trans is_open
    refine (now.answer_of_open is_open').imp_right fun fails fault is_fault => ?_
    obtain ⟨cause, first, rfl⟩ := fails fault is_fault
    refine ⟨cause, first, ?_, fun f₀ hand es' d cause' built failed => ?_⟩
    · rw [Fault.status, Fault.code, first.code_eq]
      rfl
    · obtain ⟨⟨_, stage⟩, -⟩ := (Construction.stage_ofConfigs f₀ configs hand).run built
      obtain ⟨-, k', refuses⟩ := stage.refuses failed
      exact (refuses.first.unique first).2
  · cases now.work.symm.trans failed
    exact now.tells
  · cases now.work.symm.trans hwork
    obtain ⟨answer, settled⟩ := settled_of_retirement retires
    exact ⟨answer, fun es' m'' answer' hrun' returned =>
      now.answer_eq reachable' hrun' settled returned⟩
  · obtain ⟨⟨caller', _⟩, at_c, rfl⟩ := Option.map_eq_some_iff.mp now.work
    exact reachable'.reload_canReturn at_c fun r retiring => timed r (retiring ▸ now.work)

end

/-- Pool 0 with one worker runs task 7, and the submission of task 8 is blocked. -/
def fullUp : List (Event Nat) :=
  [.call none (.execute "io" (some 7)), .advance 0, .advance 0, .advance 0,
    .pool 0 (.pool (.enter 0 true none)), .pool 0 (.pool (.announce 0 none)), .pool 0 (.answer 0),
    .advance 0, .pool 0 (.pool (.look 0 false)), .call none (.execute "io" (some 8)), .advance 1,
    .advance 1, .advance 1, .pool 0 (.pool (.enter 1 true none))]

/-- A list in which the third configuration has the name of the first. -/
def repeatedName : List PoolConfig :=
  [{ name := "a", size := 1 }, { name := "b", size := 1 }, { name := "a", size := 2 }]

/-- A reload of this list builds two pools.  The second one is released on the thread of the reload,
as no other can be started; the release of the first one runs out of time. -/
def rolledBack : List (Event Nat) :=
  [.advance 2, .advance 2, .advance 2, .advance 2, .launch 2 2 false, .pool 2 (.launch 0 false),
    .pool 2 (.pool (.close 0)), .pool 2 (.pool (.alertWorkers 0)),
    .pool 2 (.pool (.alertSubmitters 0)), .pool 2 (.complete 0), .collect 2 none,
    .launch 2 1 true, .pool 1 (.launch 0 true), .pool 1 (.elapse 0), .collect 2 (some 0),
    .advance 2, .advance 2]

/-- Task 7 makes the reload itself, and neither the task nor the blocked submission notices that it
fails. -/
theorem repeated_name_changes_nothing :
    ∃ (m₀ m n m' : Manager Nat),
      ofConfigs [{ name := "io", size := 1, nonBlocking := false }] {} = .ok m₀ ∧
      m₀.run fullUp = some m ∧
      (m.fleet.pools[0]?).map (fun g => g.pool.workers) = some [.running ⟨0, 7⟩] ∧
      (m.fleet.pools[0]?).map (fun g => g.pool.submissions)
        = some [.returned none, .parked ⟨1, 8⟩] ∧
      m.step (.call (some (0, 0)) (.reload repeatedName)) = some n ∧ n.run rolledBack = some m' ∧
      m'.work? 2
        = some (.reload repeatedName (.returned (some (.reloadFailed (.duplicateName "a"))))) ∧
      (∀ k e k', (k, e) ∈ n.history rolledBack → e.isDoneBy 2 [1, 2] = true → k.step e = some k' →
        SameService k k') ∧
      (∀ i ∈ [1, 2], m'.Owns .released i) ∧ m'.installed = m.installed ∧
      m'.fleet.pools[0]? = m.fleet.pools[0]? ∧
      ∃ cause, PoolConfig.FirstOffence repeatedName 2 cause ∧
        (Fault.reloadFailed (.duplicateName "a")).status
          = .coded Code.invalidConfig ("failed to reload: " ++ cause.message) := by
  obtain ⟨m₀, m, n, m', hcreate, hrun, workers, submissions, called, fails, failed, built, only,
      is_open, no_shutdown, installed, pool⟩ : ∃ (m₀ m n m' : Manager Nat),
      ofConfigs [{ name := "io", size := 1, nonBlocking := false }] {} = .ok m₀ ∧
      m₀.run fullUp = some m ∧
      (m.fleet.pools[0]?).map (fun g => g.pool.workers) = some [.running ⟨0, 7⟩] ∧
      (m.fleet.pools[0]?).map (fun g => g.pool.submissions)
        = some [.returned none, .parked ⟨1, 8⟩] ∧
      m.step (.call (some (0, 0)) (.reload repeatedName)) = some n ∧ n.run rolledBack = some m' ∧
      m'.work? 2
        = some (.reload repeatedName (.returned (some (.reloadFailed (.duplicateName "a"))))) ∧
      builtBy 2 n rolledBack = [1, 2] ∧ m.calls.length = 2 ∧ n.closed = false ∧
      n.shutdownStarts rolledBack = 0 ∧ m'.installed = m.installed ∧
      m'.fleet.pools[0]? = m.fleet.pools[0]? :=
    ⟨_, _, _, _, rfl, rfl, rfl, rfl, rfl, rfl, rfl, rfl, rfl, rfl, rfl, rfl, rfl⟩
  have safe := (failed_reload_changes_nothing ((Reachable.create hcreate).run hrun) called).2
    rolledBack m' fails
  rw [only] at safe
  obtain ⟨-, offends⟩ := safe.answers is_open no_shutdown _ failed
  obtain ⟨cause, first, status_eq, -⟩ := offends _ rfl
  rw [built] at first
  refine ⟨m₀, m, n, m', hcreate, hrun, workers, submissions, called, fails, failed, ?_, ?_,
    installed, pool, cause, first, status_eq⟩
  · rw [← built]
    exact safe.unchanged _ failed
  · rw [← built]
    exact safe.released _ failed

end Manager

end TaskPools
