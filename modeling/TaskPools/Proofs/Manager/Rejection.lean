/-
# A reload that gives its batch up

A reload that comes upon a faulty configuration, or finds the flag set when it is about to install
its batch, releases every pool that it built again.  From then on each of these pools is yet to be
released, its release is under way, or its release has returned (`SeesTo`, `SeesTo.change`), and
when the retirement is over it is the latter for all of them (`SeesTo.released`).  These pools never
had a task, so their releases wait for nobody, and the reload can always go on to return
(`Reachable.giving_up_returns`).
-/
import TaskPools.Proofs.GuardedPool.Vacant
import TaskPools.Proofs.Manager.Untouched

namespace TaskPools

variable {τ : Type}

/-- The reload for this list carries out the retirement `r` of pools that it built, and then returns
this fault. -/
inductive GivesUp (r : Retirement) (configs : List PoolConfig) : Fault → Work τ → Prop where
  | discarding (fault : Fault) :
      GivesUp r configs (.reloadFailed fault) (.reload configs (.assembling (.discarding fault r)))
  | rejecting : GivesUp r configs .managerClosed (.reload configs (.rejecting r))

/-- A reload that gives its batch up carries out the retirement of that. -/
theorem GivesUp.retires {r : Retirement} {configs : List PoolConfig} {fault : Fault} {work : Work τ}
    (h : GivesUp r configs fault work) : work.retirement? = some r := by
  cases h <;> rfl

/-- A reload goes on giving its batch up as the retirement proceeds. -/
theorem GivesUp.withRetirement {r : Retirement} {configs : List PoolConfig} {fault : Fault}
    {work : Work τ} (h : GivesUp r configs fault work) (r' : Retirement) :
    GivesUp r' configs fault (work.withRetirement r') := by
  cases h with
  | discarding fault => exact .discarding fault
  | rejecting => exact .rejecting

/-- A reload that gives its batch up sees to the pools of that which are still to be released. -/
theorem GivesUp.unlisted_eq {r : Retirement} {configs : List PoolConfig} {fault : Fault}
    {work : Work τ} (h : GivesUp r configs fault work) :
    work.unlisted = r.todo ++ r.underWay.map Prod.fst := by
  cases h <;> rfl

namespace Manager

/-- The calls see only to releases that were begun. -/
def AttendsBegun (m : Manager τ) : Prop :=
  ∀ c work i t, m.work? c = some work → (i, t) ∈ work.attends → t < releaseCount m.fleet.pools i

/-- The retirement sees to these pools: each of them is still to be released, or its release is
under way or has returned. -/
def SeesTo (m : Manager τ) (r : Retirement) (pools : List Nat) : Prop :=
  ∀ i ∈ pools, i ∈ r.todo ∨ (∃ t, (i, t) ∈ r.underWay) ∨ m.Owns .released i

/-- The event is a step of call `c` or a move of a pool. -/
def Event.isOf (c : Nat) : Event τ → Bool
  | .advance c' | .launch c' _ _ | .collect c' _ => c' == c
  | .pool _ _ => true
  | .call _ _ => false

/-- Steps of call `c` and moves of the pools bring one manager to another. -/
def Brings (c : Nat) (m m' : Manager τ) : Prop :=
  ∃ es, m.run es = some m' ∧ ∀ e ∈ es, e.isOf c = true

section

variable {m m' n : Manager τ} {e : Event τ} {es es' : List (Event τ)} {c i t : Nat}
  {caller : Option (Nat × Nat)} {work work' : Work τ} {r : Retirement}
  {configs : List PoolConfig} {pools : List Nat} {fault : Fault}

/-! ## Releases that were begun -/

/-- In every step calls attend to releases that have begun. -/
theorem AttendsBegun.change (h : m.AttendsBegun) (hc : Change m e m') : m'.AttendsBegun := by
  intro c work i t hwork sees
  have grows (i : Nat) : releaseCount m.fleet.pools i ≤ releaseCount m'.fleet.pools i := by
    rw [hc.releaseCount_eq i]
    exact Nat.le_add_right _ _
  rcases hc.origin hwork with ⟨request, rfl⟩ | same | ⟨caller, old, n, hold, acts⟩
  · cases request <;> cases sees
  · exact Nat.lt_of_lt_of_le (h c work i t same sees) (grows i)
  · rcases acts.attends hold with ⟨j, begun, hperm⟩ | ⟨-, finished, -, hperm⟩
    · rcases List.mem_cons.mp (hperm.mem_iff.mp sees) with first | before
      · cases first
        rw [hc.releaseCount_eq i, begun, Option.toList_some, List.count_singleton_self]
        exact Nat.lt_succ_self _
      · exact Nat.lt_of_lt_of_le (h c old i t hold before) (grows i)
    · have before := hperm.mem_iff.mpr (List.mem_append_right finished sees)
      exact Nat.lt_of_lt_of_le (h c old i t hold before) (grows i)

/-- In every reachable manager calls attend to releases that have begun. -/
theorem Reachable.attendsBegun (h : m.Reachable) : m.AttendsBegun := by
  induction h with
  | create hcreate =>
    obtain ⟨fleet, batch, fresh, rfl⟩ := eq_of_ofConfigs hcreate
    exact nofun
  | step _ hstep ih => exact ih.change (change_of_step hstep)

/-- No pool is released twice. -/
theorem Reachable.releaseCount_le (h : m.Reachable) (i : Nat) :
    releaseCount m.fleet.pools i ≤ 1 := by
  have hi := h.accounted i
  rw [buildCount] at hi
  split at hi <;> omega

/-- A release that a call sees to is the only one of its pool. -/
theorem Reachable.only_release (h : m.Reachable) (hwork : m.work? c = some work)
    (sees : (i, t) ∈ work.attends) :
    ∃ g place, t = 0 ∧ m.fleet.pools[i]? = some g ∧ g.releases = [place] := by
  have begun := h.attendsBegun c work i t hwork sees
  have once := h.releaseCount_le i
  cases at_i : m.fleet.pools[i]? with
  | none =>
    rw [releaseCount, at_i] at begun
    cases begun
  | some g =>
    rw [releaseCount_self at_i] at begun once
    obtain ⟨place, hplace⟩ := List.length_eq_one_iff.mp (show g.releases.length = 1 by omega)
    exact ⟨g, place, by omega, rfl, hplace⟩

/-! ## Releases that have returned -/

/-- An outstanding release was so before, or begins in this step. -/
theorem Change.outstanding_before (hc : Change m e m') (is_open : m'.Outstanding i t) :
    m.Outstanding i t ∨ (begins? (m, e) = some i ∧ t = releaseCount m.fleet.pools i) := by
  cases hc with
  | call => exact Or.inl is_open
  | pool j move g g' at_j moves =>
    refine Or.inl (outstanding_of_set at_j rfl (fun t place at_t is_open => ?_) is_open)
    exact (GuardedPool.change_of_step moves).open_before nofun at_t is_open
  | act c caller _ work work' n at_c acts =>
    exact acts.outstanding_before (work?_of_getElem? at_c) is_open

/-- A pool is released once its one release is no longer under way. -/
theorem released_of_not_outstanding {g : GuardedPool (Job τ)} {place : TimedRelease}
    (at_i : m.fleet.pools[i]? = some g) (only : g.releases = [place])
    (returned : ¬ m.Outstanding i 0) : m.Owns .released i := by
  cases place with
  | returned fault => exact ⟨g, fault, at_i, only⟩
  | begun | waiting | inline => exact absurd ⟨g, _, at_i, by rw [only]; rfl, rfl⟩ returned

/-- A pool that is released stays so. -/
theorem Reachable.still_released (h : m.Reachable) (hstep : m.step e = some m')
    (released : m.Owns .released i) : m'.Owns .released i := by
  have hc := change_of_step hstep
  have returned := not_outstanding_of_released (t := 0) released
  obtain ⟨g, fault, at_i, only⟩ := released
  have before : releaseCount m.fleet.pools i = 1 := by
    rw [releaseCount_self at_i, only]
    rfl
  have after : releaseCount m'.fleet.pools i = 1 := by
    have once := (h.step hstep).releaseCount_le i
    rw [hc.releaseCount_eq i] at once ⊢
    omega
  cases at_i' : m'.fleet.pools[i]? with
  | none =>
    rw [releaseCount, at_i'] at after
    cases after
  | some g' =>
    rw [releaseCount_self at_i'] at after
    obtain ⟨place, only'⟩ := List.length_eq_one_iff.mp after
    refine released_of_not_outstanding at_i' only' fun is_open => ?_
    rcases hc.outstanding_before is_open with is_open | ⟨-, new⟩
    · exact returned is_open
    · omega

/-- A release that a retirement puts aside is returned. -/
theorem Reachable.released_of_collect (h : m.Reachable) (hwork : m.work? c = some work)
    (sees : (i, t) ∈ work.attends) (returned : ¬ m.Outstanding i t) : m.Owns .released i := by
  obtain ⟨g, place, rfl, at_i, only⟩ := h.only_release hwork sees
  exact released_of_not_outstanding at_i only returned

/-! ## Each pool that is given up is released -/

/-- In every step a retirement goes on seeing to its pools. -/
theorem SeesTo.still (sees : m.SeesTo r pools) (h : m.Reachable) (hstep : m.step e = some m') :
    m'.SeesTo r pools :=
  fun i hi => (sees i hi).imp_right (Or.imp_right (h.still_released hstep))

/-- Once a retirement is over, the releases of all its pools have returned. -/
theorem SeesTo.released (sees : m.SeesTo r pools) (is_over : r.isOver = true) :
    ∀ i ∈ pools, m.Owns .released i := by
  obtain ⟨nothing, nobody⟩ := Retirement.isOver_iff.mp is_over
  intro i hi
  rcases sees i hi with todo | ⟨t, under_way⟩ | released
  · rw [nothing] at todo
    cases todo
  · rw [nobody] at under_way
    cases under_way
  · exact released

/-- A pool that was released is not installed. -/
theorem Reachable.not_installed_of_released (h : m.Reachable) (released : m.Owns .released i) :
    i ∉ m.installed.pools := by
  obtain ⟨g, outcome, at_i, only⟩ := released
  intro installed
  rw [h.installed_unreleased installed at_i] at only
  cases only

/-- None of the pools that are given up is installed. -/
theorem SeesTo.not_installed (sees : m.SeesTo r pools) (h : m.Reachable)
    (gives : GivesUp r configs fault work) (hwork : m.work? c = some work) (hi : i ∈ pools) :
    i ∉ m.installed.pools := by
  rcases sees i hi with todo | ⟨t, under_way⟩ | released
  · refine h.not_installed_of_unlisted hwork ?_
    rw [gives.unlisted_eq]
    exact List.mem_append_left _ todo
  · refine h.not_installed_of_unlisted hwork ?_
    rw [gives.unlisted_eq]
    exact List.mem_append_right _ (List.mem_map.mpr ⟨_, under_way, rfl⟩)
  · exact h.not_installed_of_released released

/-- A retirement begins the releases of its pools and puts aside those that have returned, and so it
goes on to see to all of them. -/
theorem SeesTo.change (sees : m.SeesTo r pools) (h : m.Reachable) (hwork : m.work? c = some work)
    (retires : work.retirement? = some r) (hstep : m.step e = some m') {r' : Retirement}
    (hwork' : m'.work? c = some work') (retires' : work'.retirement? = some r') :
    m'.SeesTo r' pools := by
  have still := sees.still h hstep
  rcases (change_of_step hstep).own_or_other hwork with ⟨same, -⟩ | ⟨_, _, n, acts, -, new⟩
  · cases same.symm.trans hwork'
    cases retires.symm.trans retires'
    exact still
  · cases new.symm.trans hwork'
    cases acts with
    | launch _ _ j g retires₁ among free at_j
    | launchInline _ _ j g retires₁ among free at_j =>
      cases retires.symm.trans retires₁
      cases retires'.symm.trans (retirement?_withRetirement retires _)
      intro i hi
      rcases still i hi with todo | ⟨t, under_way⟩ | released
      · rcases List.mem_cons.mp ((List.perm_cons_erase among).mem_iff.mp todo) with rfl | todo
        · refine Or.inr (Or.inl ⟨g.releases.length, ?_⟩)
          simp [Retirement.underWay]
        · exact Or.inl todo
      · refine Or.inr (Or.inl ⟨t, ?_⟩)
        simp only [Retirement.underWay, free, Option.toList_none, List.append_nil] at under_way
        simp [Retirement.underWay, under_way]
      · exact Or.inr (Or.inr released)
    | collect k _ _ r₁ notices retires₁ todo_eq collects =>
      cases retires.symm.trans retires₁
      cases retires'.symm.trans (retirement?_withRetirement retires _)
      obtain ⟨j, s, returned, hperm⟩ := underWay_collect collects
      intro i hi
      rcases still i hi with todo | ⟨t, under_way⟩ | released
      · exact Or.inl (todo_eq ▸ todo)
      · have attends : (i, t) ∈ work.attends := by
          rw [attends_of_retirement retires]
          exact under_way
        rcases List.mem_cons.mp (hperm.mem_iff.mp under_way) with first | later
        · cases first
          have released := h.released_of_collect hwork attends returned
          exact Or.inr (Or.inr (h.still_released hstep released))
        · exact Or.inr (Or.inl ⟨t, later⟩)
      · exact Or.inr (Or.inr released)
    | goOn _ _ follows => cases follows <;> cases retires <;> cases retires'
    | shutDown => cases retires'
    | submit | resubmit | sample | gauge | build | failReload | install | close | emptyNothing
    | emptyOut => cases retires

/-! ## What a retirement can do -/

/-- A call finishes with a release that has returned. -/
theorem step_collect {k : Option Nat} {f : Fleet (Job τ)} {r' : Retirement}
    (at_c : m.calls[c]? = some ⟨caller, work⟩) (retires : work.retirement? = some r)
    (collects : r.collect m.fleet k = some (f, r')) :
    ∃ m', m.step (.collect c k) = some m' ∧ m'.fleet = f ∧
      m'.calls[c]? = some ⟨caller, work.withRetirement r'⟩ := by
  refine ⟨_, ?_, rfl, getElem?_setWork (m := { m with fleet := f }) at_c _⟩
  rw [Manager.step, Manager.collect, at_c, Option.bind_eq_bind, Option.bind_some]
  simp only [retires, Option.bind_eq_bind, Option.bind_some, collects]
  rfl

/-- A call begins the release of a pool, on a thread of its own or on that of the call. -/
theorem step_launch {g : GuardedPool (Job τ)}
    (at_c : m.calls[c]? = some ⟨caller, work⟩) (retires : work.retirement? = some r)
    (among : i ∈ r.todo) (free : r.inline = none) (at_i : m.fleet.pools[i]? = some g)
    (start : Bool) :
    ∃ m' own r', m.step (.launch c i start) = some m' ∧
      m'.fleet.pools = m.fleet.pools.set i
        { g with releases := g.releases ++ [.begun own m.fleet.options.timeout] } ∧
      m'.calls[c]? = some ⟨caller, work.withRetirement r'⟩ ∧
      r.todo.Perm (i :: r'.todo) ∧ r'.underWay = r.underWay ++ [(i, g.releases.length)] := by
  obtain ⟨f, r', launches⟩ := Retirement.exists_launch among free at_i caller start
  obtain ⟨g', own, notices, hperm, at_i', fleet_eq, started⟩ :=
    (Retirement.launch_of_eq launches).eq
  cases at_i.symm.trans at_i'
  refine ⟨_, own, r', ?_, congrArg Fleet.pools fleet_eq,
    getElem?_setWork (m := { m with fleet := f }) at_c _, hperm, started⟩
  rw [Manager.step, Manager.launch, at_c, Option.bind_eq_bind, Option.bind_some]
  simp only [retires, Option.bind_eq_bind, Option.bind_some, launches]
  rfl

/-- A pool that is yet to be released is there. -/
theorem Reachable.built_of_todo (h : m.Reachable) (hwork : m.work? c = some work)
    (retires : work.retirement? = some r) (among : i ∈ r.todo) : i < m.fleet.pools.length := by
  refine lt_of_owns h (o := .retired c) ⟨_, hwork, Or.inl ?_⟩
  rwa [Work.condemned, retires, Option.elim_some]

/-! ## The reload can always return -/

theorem Brings.refl (c : Nat) (m : Manager τ) : Brings c m m :=
  ⟨[], rfl, nofun⟩

/-- What one run brings about, a second run may bring further. -/
theorem Brings.trans (h : Brings c m n) (h' : Brings c n m') : Brings c m m' := by
  obtain ⟨es, hrun, own⟩ := h
  obtain ⟨es', hrun', own'⟩ := h'
  refine ⟨es ++ es', run_trans hrun hrun', fun e he => ?_⟩
  exact (List.mem_append.mp he).elim (own e) (own' e)

/-- A step of the call is a run of the call. -/
theorem Brings.step (hstep : m.step e = some m') (own : e.isOf c = true) : Brings c m m' := by
  refine ⟨[e], run_one hstep, fun e' he => ?_⟩
  rw [List.mem_singleton.mp he]
  exact own

theorem Brings.reachable (h : Brings c m m') (reachable : m.Reachable) : m'.Reachable := by
  obtain ⟨es, hrun, -⟩ := h
  exact reachable.run hrun

/-- A call goes on where it can, and may have the lock if it needs it. -/
theorem brings_of_advance (at_c : m.calls[c]? = some ⟨caller, work⟩)
    (free : work.takesLock = false ∨ m.isLocked = false)
    (goes : m.advanceWork c work = some (n, work')) (calls_eq : n.calls = m.calls) :
    Brings c m (n.setWork c work') ∧ (n.setWork c work').calls[c]? = some ⟨caller, work'⟩ :=
  ⟨.step (step_advance at_c free goes) (beq_self_eq_true c),
    getElem?_setWork (calls_eq ▸ at_c) work'⟩

/-- What a pool does by itself it can do in its manager, where all calls stay where they are. -/
theorem brings_of_goesOn {g g' : GuardedPool (Job τ)} (at_i : m.fleet.pools[i]? = some g)
    (h : Relation.ReflTransGen GuardedPool.GoesOn g g') (c : Nat) :
    ∃ m', Brings c m m' ∧ m'.calls = m.calls ∧ m'.fleet.pools[i]? = some g' := by
  induction h with
  | refl => exact ⟨m, .refl c m, rfl, at_i⟩
  | @tail g₁ g₂ _ goes ih =>
    obtain ⟨n, brings, calls_eq, at_i'⟩ := ih
    obtain ⟨move, not_end, hstep⟩ := goes
    have moves := step_pool at_i' not_end hstep
    refine ⟨n.withPool i g₂, brings.trans (.step moves rfl), calls_eq, ?_⟩
    exact List.getElem?_set_self (List.getElem?_eq_some_iff.mp at_i').1

/-- The release of a pool that was never installed can return. -/
theorem Reachable.release_returns (h : m.Reachable) (hwork : m.work? c = some work)
    (gives : GivesUp r configs fault work) (sees : (i, t) ∈ r.underWay) :
    ∃ m' g outcome, Brings c m m' ∧ m'.calls = m.calls ∧
      m'.fleet.pools[i]? = some g ∧ g.releases[t]? = some (.returned outcome) := by
  have attends : (i, t) ∈ work.attends := by
    rw [attends_of_retirement gives.retires]
    exact sees
  obtain ⟨g, place, rfl, at_i, only⟩ := h.only_release hwork attends
  have unlisted : i ∈ work.unlisted := by
    rw [gives.unlisted_eq]
    exact List.mem_append_right _ (List.mem_map.mpr ⟨_, sees, rfl⟩)
  have unused := (h.untouched hwork unlisted).unused
  rw [submissionCount, at_i] at unused
  have at_t : g.releases[0]? = some place := by rw [only]; rfl
  obtain ⟨g', hg', outcome, returned⟩ :=
    (h.pool at_i).can_return (List.length_eq_zero_iff.mp unused) at_t
  obtain ⟨m', brings, calls_eq, at_i'⟩ := brings_of_goesOn at_i hg' c
  exact ⟨m', g', outcome, brings, calls_eq, at_i', returned⟩

/-- Once all its pools are released, a reload that gives up returns. -/
theorem returns_of_givingUp (gives : GivesUp r configs fault work)
    (at_c : m.calls[c]? = some ⟨caller, work⟩) (is_over : r.isOver = true) :
    ∃ m', Brings c m m' ∧ m'.work? c = some (.reload configs (.returned (some fault))) := by
  cases gives with
  | discarding fault =>
    -- the assembly is done with its fault, and only then is the reload
    have done : m.advanceWork c (.reload configs (.assembling (.discarding fault r)))
        = some (m, .reload configs (.assembling (.done (.error fault)))) := by
      simp only [advanceWork, advanceReload, Assembly.advance, is_over, if_true]
      rfl
    obtain ⟨first, at_c₁⟩ := brings_of_advance at_c (.inl rfl) done rfl
    obtain ⟨second, at_c₂⟩ := brings_of_advance at_c₁ (.inl rfl) rfl rfl
    exact ⟨_, first.trans second, work?_of_getElem? at_c₂⟩
  | rejecting =>
    have returns : m.advanceWork c (.reload configs (.rejecting r))
        = some (m, .reload configs (.returned (some .managerClosed))) := by
      simp only [advanceWork, advanceReload, is_over, if_true]
      rfl
    obtain ⟨brings, at_c₁⟩ := brings_of_advance at_c (.inl rfl) returns rfl
    exact ⟨_, brings, work?_of_getElem? at_c₁⟩

/-- However far a reload that gives up has come, it can go on until it returns. -/
theorem Reachable.giving_up_returns (h : m.Reachable) (gives : GivesUp r configs fault work)
    (at_c : m.calls[c]? = some ⟨caller, work⟩) :
    ∃ m', Brings c m m' ∧ m'.work? c = some (.reload configs (.returned (some fault))) := by
  -- a pool still to be released takes a launch and a collection, a release under way the latter
  induction hk : 2 * r.todo.length + r.underWay.length using Nat.strongRecOn
    generalizing m r work with
  | ind k ih =>
    have hwork := work?_of_getElem? at_c
    by_cases busy : r.underWay = []
    · cases htodo : r.todo with
      | nil => exact returns_of_givingUp gives at_c (Retirement.isOver_iff.mpr ⟨htodo, busy⟩)
      | cons i rest =>
        have among : i ∈ r.todo := htodo ▸ List.mem_cons_self
        have free : r.inline = none := by
          rw [Retirement.underWay, List.append_eq_nil_iff, Option.toList_eq_nil_iff] at busy
          exact busy.2
        have at_i := List.getElem?_eq_getElem (h.built_of_todo hwork gives.retires among)
        obtain ⟨m₁, -, r', hstep, -, at_c₁, hperm, started⟩ :=
          step_launch at_c gives.retires among free at_i true
        have less : 2 * r'.todo.length + r'.underWay.length < k := by
          rw [hperm.length_eq, List.length_cons, busy, List.length_nil] at hk
          rw [started, busy, List.nil_append, List.length_singleton]
          omega
        obtain ⟨m', rest, returned⟩ :=
          ih _ less (h.step hstep) (gives.withRetirement r') at_c₁ rfl
        exact ⟨m', .trans (.step hstep (beq_self_eq_true c)) rest, returned⟩
    · obtain ⟨i, t, k', r', sees, todo_eq, fewer, collects⟩ :=
        @Retirement.exists_collect (Job τ) r busy
      obtain ⟨m₁, g, outcome, first, calls_eq, at_i, returned⟩ :=
        h.release_returns hwork gives sees
      obtain ⟨f', noted⟩ := Retirement.takeNote_of_returned at_i returned
      obtain ⟨m₂, hstep₂, -, at_c₂⟩ :=
        step_collect (calls_eq ▸ at_c) gives.retires (collects m₁.fleet f' noted)
      have less : 2 * r'.todo.length + r'.underWay.length < k := by
        rw [todo_eq]
        omega
      obtain ⟨m₃, rest, finished⟩ :=
        ih _ less ((first.reachable h).step hstep₂) (gives.withRetirement r') at_c₂ rfl
      exact ⟨m₃, (first.trans (.step hstep₂ (beq_self_eq_true c))).trans rest, finished⟩

end

end Manager

end TaskPools
