/-
# Where an execution is routed

An execution looks its pool up, hands its task over, and if that pool was retired meanwhile it looks
up once more.  `Routed` says what an execution knows at each of its places, seen from the generation
of its first lookup: a pool that it found is installed until the batch is replaced, and a pool that
turned it away belongs to a batch that was replaced.  So an execution says that the manager is
closed only if it is, or if the batch was replaced twice (`closed_answer_explained`).
-/
import TaskPools.Proofs.Manager.History
import TaskPools.Proofs.Manager.Ownership

namespace TaskPools

variable {τ : Type}

/-- The execution is under way and has looked its pool up. -/
def ExecutePhase.isRouted : ExecutePhase → Bool
  | .begun | .open | .returned _ => false
  | .found _ _ | .submitted _ _ _ | .refused _ | .rerouting _ | .refound _
  | .resubmitted _ _ => true

namespace Manager

/-- What holds of an execution that found generation `first` at its first lookup of `pool`, and has
handed `job` over since as the list says. -/
inductive Routed (m : Manager τ) (pool : String) (job : Option (Job τ)) (first : Nat) :
    List (HandOver τ) → ExecutePhase → Prop where
  | found (i : Nat) (since : first ≤ m.generation)
      (current : m.generation = first → m.find? pool = some i) :
      Routed m pool job first [] (.found first i)
  | submitted (i s : Nat) (since : first ≤ m.generation)
      (current : m.generation = first → m.find? pool = some i) :
      Routed m pool job first [⟨i, s, job⟩] (.submitted first i s)
  | refused (i s : Nat) (replaced : first < m.generation) :
      Routed m pool job first [⟨i, s, job⟩] (.refused first)
  | rerouting (i s : Nat) (replaced : first < m.generation) :
      Routed m pool job first [⟨i, s, job⟩] (.rerouting first)
  | refound (i s j : Nat) (replaced : first < m.generation)
      (current : m.generation = first + 1 → m.find? pool = some j) :
      Routed m pool job first [⟨i, s, job⟩] (.refound j)
  | resubmitted (i s j s' : Nat) (replaced : first < m.generation)
      (current : m.generation = first + 1 → m.find? pool = some j) :
      Routed m pool job first [⟨i, s, job⟩, ⟨j, s', job⟩] (.resubmitted j s')
  | returned (handed : List (HandOver τ)) (fault : Option Fault) :
      Routed m pool job first handed (.returned fault)

section

variable {m m' n : Manager τ} {e : Event τ} {es : List (Event τ)} {c : Nat} {pool : String}
  {task : Option τ} {job : Option (Job τ)} {first : Nat} {handed : List (HandOver τ)}
  {phase : ExecutePhase}

/-! ## Replacements -/

/-- A step replaces the batch or leaves it installed. -/
theorem Change.kept_or_replaced (hc : Change m e m') :
    (m'.generation = m.generation ∧ m'.installed = m.installed) ∨
      m'.generation = m.generation + 1 := by
  cases hc with
  | call | pool => exact Or.inl ⟨rfl, rfl⟩
  | act c caller _ work work' n at_c acts =>
    cases acts with
    | install | emptyNothing | emptyOut => exact Or.inr rfl
    | goOn | submit | resubmit | sample | gauge | build | failReload | close | shutDown | launch
    | launchInline | collect => exact Or.inl ⟨rfl, rfl⟩

theorem Change.generation_le (hc : Change m e m') : m.generation ≤ m'.generation := by
  rcases hc.kept_or_replaced with ⟨hgeneration, -⟩ | hgeneration <;> omega

/-- A pool that was found stays installed as long as its batch does. -/
theorem Change.find?_eq (hc : Change m e m') {generation i : Nat}
    (since : generation ≤ m.generation)
    (current : m.generation = generation → m.find? pool = some i) :
    m'.generation = generation → m'.find? pool = some i := by
  intro heq
  rcases hc.kept_or_replaced with ⟨hgeneration, hinstalled⟩ | hgeneration
  · rw [find?, hinstalled]
    exact current (hgeneration.symm.trans heq)
  · omega

/-- What an execution knows stays true whatever others do. -/
theorem Routed.frame (hr : Routed m pool job first handed phase) (hc : Change m e m') :
    Routed m' pool job first handed phase := by
  have grows := hc.generation_le
  cases hr with
  | found i since current =>
    exact Routed.found i (Nat.le_trans since grows) (hc.find?_eq since current)
  | submitted i s since current =>
    exact Routed.submitted i s (Nat.le_trans since grows) (hc.find?_eq since current)
  | refused i s replaced => exact Routed.refused i s (Nat.lt_of_lt_of_le replaced grows)
  | rerouting i s replaced => exact Routed.rerouting i s (Nat.lt_of_lt_of_le replaced grows)
  | refound i s j replaced current =>
    exact Routed.refound i s j (Nat.lt_of_lt_of_le replaced grows) (hc.find?_eq replaced current)
  | resubmitted i s j s' replaced current =>
    exact Routed.resubmitted i s j s' (Nat.lt_of_lt_of_le replaced grows)
      (hc.find?_eq replaced current)
  | returned => exact Routed.returned _ _

/-! ## One step -/

/-- A pool that turns an execution away was replaced since it was found. -/
theorem Reachable.replaced_of_reply (h : m.Reachable) {i s generation : Nat}
    (reply : m.reply? i s = some (some .managerClosed)) (since : generation ≤ m.generation)
    (current : m.generation = generation → m.find? pool = some i) :
    generation < m.generation := by
  refine Nat.lt_of_le_of_ne since fun heq => ?_
  exact h.retired_of_reply reply (mem_pools_of_find? (current heq.symm))

theorem handsOver?_none (hne : e ≠ .advance c) : handsOver? c (m, e) = none := by
  cases e with
  | advance c' =>
    rw [handsOver?, if_neg]
    rintro rfl
    exact hne rfl
  | call | launch | collect | pool => rfl

theorem handsOver?_of_handing {work : Work τ} {i : Nat} {g : GuardedPool (Job τ)}
    (hwork : m.work? c = some work) (hands : work.handing? = some (i, task))
    (at_i : m.fleet.pools[i]? = some g) :
    handsOver? c (m, .advance c) = some ⟨i, g.replies.length, task.map (Job.mk c)⟩ := by
  rw [handsOver?, if_pos rfl, hwork]
  simp only [Option.bind_eq_bind, Option.bind_some, hands, at_i]
  rfl

theorem handsOver?_of_not_handing {work : Work τ} (hwork : m.work? c = some work)
    (hands : work.handing? = none) (e : Event τ) : handsOver? c (m, e) = none := by
  cases e with
  | advance c' =>
    rw [handsOver?, hwork]
    simp only [Option.bind_eq_bind, Option.bind_some, hands]
    split <;> rfl
  | call | launch | collect | pool => rfl

/-- An execution that only reads on its way goes on as `Routed` says. -/
theorem Routed.follow (h : m.Reachable) {work' : Work τ}
    (hr : Routed m pool job first handed phase)
    (hf : Follows m (.execute pool task phase) work') :
    ∃ phase', work' = .execute pool task phase' ∧ Routed m pool job first handed phase' := by
  cases hf with
  | executeClosed | executeOpen | lookUp | notFound => cases hr
  | refused _ _ generation i s reply =>
    cases hr with
    | submitted _ _ since current =>
      exact ⟨_, rfl, Routed.refused i s (h.replaced_of_reply reply since current)⟩
  | reroute =>
    cases hr with
    | refused i s replaced => exact ⟨_, rfl, Routed.rerouting i s replaced⟩
  | lookUpAgain _ _ generation j other found =>
    cases hr with
    | rerouting i s replaced =>
      exact ⟨_, rfl, Routed.refound i s j replaced fun _ => found⟩
  | answered | refusedClosed | sameBatch | notFoundAgain | answeredAgain =>
    exact ⟨_, rfl, Routed.returned _ _⟩

theorem Routed.change (h : m.Reachable)
    (hr : Routed m pool (task.map (Job.mk c)) first handed phase)
    (hwork : m.work? c = some (.execute pool task phase)) (hc : Change m e m') :
    ∃ phase', m'.work? c = some (.execute pool task phase') ∧
      Routed m' pool (task.map (Job.mk c)) first (handed ++ (handsOver? c (m, e)).toList)
        phase' := by
  rcases hc.own_or_other hwork with ⟨hwork', hne⟩ | ⟨caller, work', n, acts, hm', hwork'⟩
  · rw [handsOver?_none hne]
    exact ⟨phase, hwork', by simpa using hr.frame hc⟩
  · cases acts with
    | goOn _ _ follows =>
      have silent : (Work.execute pool task phase).handing? = none := by
        cases follows <;> rfl
      rw [handsOver?_of_not_handing hwork silent]
      obtain ⟨phase', rfl, hr'⟩ := hr.follow h follows
      exact ⟨phase', hwork', by simpa using hr'.frame hc⟩
    | submit _ _ generation i g at_i =>
      rw [handsOver?_of_handing hwork rfl at_i]
      cases hr with
      | found _ since current =>
        exact ⟨_, hwork', (Routed.submitted i g.replies.length since current).frame hc⟩
    | resubmit _ _ j g at_j =>
      rw [handsOver?_of_handing hwork rfl at_j]
      cases hr with
      | refound i s _ replaced current =>
        exact ⟨_, hwork', (Routed.resubmitted i s j g.replies.length replaced current).frame hc⟩
    | launch _ _ _ _ retires | launchInline _ _ _ _ retires | collect _ _ _ _ _ retires =>
      cases retires

/-! ## Many steps -/

theorem Routed.run (h : m.Reachable)
    (hr : Routed m pool (task.map (Job.mk c)) first handed phase)
    (hwork : m.work? c = some (.execute pool task phase)) (hrun : m.run es = some m') :
    ∃ phase', m'.work? c = some (.execute pool task phase') ∧
      Routed m' pool (task.map (Job.mk c)) first (handed ++ handOvers c m es) phase' := by
  -- the events come off the front, so what was handed before them has to vary
  induction es generalizing m handed phase with
  | nil =>
    rw [run_nil hrun]
    exact ⟨phase, hwork, by simpa [handOvers, history] using hr⟩
  | cons e es ih =>
    obtain ⟨n, hstep, hrun⟩ := run_cons hrun
    obtain ⟨phase', hwork', hr'⟩ := hr.change h hwork (change_of_step hstep)
    rw [handOvers_cons hstep, ← List.append_assoc]
    exact ih (h.step hstep) hr' hwork' hrun

/-- The next step of execution `c` is its first lookup. -/
def LooksUp (m : Manager τ) (c : Nat) (pool : String) (task : Option τ) : Prop :=
  m.work? c = some (.execute pool task .open)

/-- What an execution knows at any time after its first lookup. -/
theorem LooksUp.routed (looks : m.LooksUp c pool task) (h : m.Reachable)
    (hrun : m.run (.advance c :: es) = some m') :
    ∃ phase, m'.work? c = some (.execute pool task phase) ∧
      Routed m' pool (task.map (Job.mk c)) m.generation (handOvers c m (.advance c :: es))
        phase := by
  obtain ⟨n, hstep, hrun⟩ := run_cons hrun
  have hc := change_of_step hstep
  rw [handOvers_cons hstep, handsOver?_of_not_handing looks rfl]
  rcases hc.own_or_other looks with ⟨-, hne⟩ | ⟨caller, work', n', acts, hn, hwork⟩
  · exact absurd rfl hne
  · cases acts with
    | goOn _ _ follows =>
      cases follows with
      | lookUp _ _ i found =>
        have hr : Routed m pool (task.map (Job.mk c)) m.generation [] (.found m.generation i) :=
          Routed.found i (Nat.le_refl m.generation) fun _ => found
        exact (hr.frame hc).run (h.step hstep) hwork hrun
      | notFound =>
        exact (Routed.returned [] _).run (h.step hstep) hwork hrun

/-- An execution that is under way and beyond its first lookup got there by way of it. -/
theorem looks_up_before {m₀ : Manager τ} (absent : m₀.work? c = none)
    (hrun : m₀.run es = some m) (hwork : m.work? c = some (.execute pool task phase))
    (later : phase.isRouted = true) :
    ∃ es₁ es₂ m₁, es = es₁ ++ .advance c :: es₂ ∧ m₀.run es₁ = some m₁ ∧
      m₁.LooksUp c pool task := by
  induction es using List.reverseRecOn generalizing m phase with
  | nil =>
    rw [run_nil hrun, absent] at hwork
    cases hwork
  | append_singleton es e ih =>
    obtain ⟨n, hn, hstep⟩ := run_of_append_one hrun
    have hc := change_of_step hstep
    -- an earlier lookup stays one when event `e` is added at the end
    have extend {old : ExecutePhase} (hold : n.work? c = some (.execute pool task old))
        (routed : old.isRouted = true) :
        ∃ es₁ es₂ m₁, es ++ [e] = es₁ ++ .advance c :: es₂ ∧ m₀.run es₁ = some m₁ ∧
          m₁.LooksUp c pool task := by
      obtain ⟨es₁, es₂, m₁, rfl, hm₁, looks⟩ := ih hn hold routed
      exact ⟨es₁, es₂ ++ [e], m₁, by simp, hm₁, looks⟩
    rcases hc.execute_before hwork with rfl | ⟨old, hold⟩
    · cases later
    · rcases hc.own_or_other hold with ⟨same, -⟩ | ⟨caller, work', n', acts, -, new⟩
      · rw [hwork] at same
        cases same
        exact extend hold later
      · have hphase := Option.some.inj (hwork.symm.trans new)
        cases acts with
        | goOn _ _ follows =>
          cases follows with
          | lookUp => exact ⟨es, [], n, rfl, hn, hold⟩
          | refused | reroute | lookUpAgain => exact extend hold rfl
          | executeClosed | executeOpen | notFound | answered | refusedClosed | sameBatch
          | notFoundAgain | answeredAgain =>
            cases hphase
            cases later
        | submit | resubmit => exact extend hold rfl
        | launch _ _ _ _ retires | launchInline _ _ _ _ retires
        | collect _ _ _ _ _ retires => cases retires

/-! ## What an execution returns -/

/-- With its next step execution `c` returns. -/
def Returns (m : Manager τ) (c : Nat) (pool : String) (task : Option τ) (fault : Option Fault) :
    Prop :=
  ∃ m', m.step (.advance c) = some m' ∧ m'.work? c = some (.execute pool task (.returned fault))

theorem Change.advances (hc : Change m (.advance c) m') :
    ∃ caller work work' n, m.work? c = some work ∧ Act m c caller (.advance c) work work' n ∧
      m'.work? c = some work' := by
  cases hc with
  | act c' caller _ work work' n at_c acts =>
    obtain rfl : c' = c := by cases acts <;> rfl
    have kept := (work?_of_calls acts.calls_eq c').trans (work?_of_getElem? at_c)
    exact ⟨caller, work, work', n, work?_of_getElem? at_c, acts, work?_setWork_self kept⟩

/-- An execution returns after a step in which it only reads. -/
theorem Returns.follows {fault : Option Fault} (returns : m.Returns c pool task fault) :
    ∃ phase, m.work? c = some (.execute pool task phase) ∧
      Follows m (.execute pool task phase) (.execute pool task (.returned fault)) := by
  obtain ⟨m', hstep, hwork'⟩ := returns
  obtain ⟨caller, work, work', n, hwork, acts, hnew⟩ := (change_of_step hstep).advances
  obtain rfl := Option.some.inj (hwork'.symm.trans hnew)
  cases acts with
  | goOn _ _ follows =>
    obtain ⟨phase, rfl⟩ : ∃ phase, work = .execute pool task phase := by
      have same := follows.request_eq
      cases work <;> cases same
      exact ⟨_, rfl⟩
    exact ⟨phase, hwork, follows⟩

/-- An execution that did not look its pool up says that the manager is closed only if it is. -/
theorem Follows.routed_of_closed {fault : Option Fault}
    (hf : Follows m (.execute pool task phase) (.execute pool task (.returned fault)))
    (is_open : m.closed = false) (hfault : fault = some .managerClosed) :
    phase.isRouted = true := by
  cases hf with
  | executeClosed _ _ is_closed =>
    rw [is_open] at is_closed
    cases is_closed
  | notFound => cases hfault
  | answered | refusedClosed | sameBatch | notFoundAgain | answeredAgain => rfl

theorem closed_of_nameOverload {answer : Option Fault}
    (h : nameOverload pool answer = some .managerClosed) : answer = some .managerClosed := by
  rcases answer with _ | fault
  · cases h
  · cases fault <;> first | rfl | cases h

/-- An execution that finds a second pool closed, while the manager is open, saw the batch replaced
twice. -/
theorem LooksUp.replaced_twice (looks : m.LooksUp c pool task) (h : m.Reachable)
    (hrun : m.run (.advance c :: es) = some m') (is_open : m'.closed = false)
    (returns : m'.Returns c pool task (some .managerClosed)) :
    2 ≤ m.reloadSwaps (.advance c :: es) := by
  obtain ⟨phase, hwork, hr⟩ := looks.routed h hrun
  obtain ⟨phase', hwork', follows⟩ := returns.follows
  obtain rfl : phase' = phase := by
    rw [hwork] at hwork'
    cases hwork'
    rfl
  -- in each case the answer is that of a closed manager, a second closed pool or the same batch
  have swaps := h.generation_of_run hrun is_open
  generalize handOvers c m (.advance c :: es) = handed at hr
  generalize answered : some Fault.managerClosed = fault at follows
  cases follows with
  | executeClosed | notFound => cases hr
  | answered _ _ _ _ _ answer _ other =>
    exact absurd (closed_of_nameOverload answered.symm) other
  | refusedClosed _ _ _ is_closed =>
    rw [is_open] at is_closed
    cases is_closed
  | sameBatch _ _ _ same =>
    cases hr with
    | rerouting i s replaced => exact absurd same (Nat.ne_of_gt replaced)
  | notFoundAgain => cases answered
  | answeredAgain _ _ j s' answer reply =>
    obtain rfl := closed_of_nameOverload answered.symm
    cases hr with
    | resubmitted i s _ _ replaced current =>
      -- the second pool was found in generation `first + 1` or later, and that one is replaced too
      have twice := (h.run hrun).replaced_of_reply reply replaced current
      omega

/-- Where the batch was replaced once since the first lookup and the manager is open, an execution
whose first submission was turned away returns what one more submission of its task to the pool
that is installed now was answered, or says that no such pool is installed. -/
theorem LooksUp.rerouted (looks : m.LooksUp c pool task) (h : m.Reachable)
    (hrun : m.run (.advance c :: es) = some m') (is_open : m'.closed = false)
    (once : m.reloadSwaps (.advance c :: es) = 1) {fault : Option Fault}
    (returns : m'.Returns c pool task fault) {i s : Nat} {rest : List (HandOver τ)}
    (hands : handOvers c m (.advance c :: es) = ⟨i, s, job⟩ :: rest)
    (refused : m'.reply? i s = some (some .managerClosed)) :
    (rest = [] ∧ m'.find? pool = none ∧ fault = some (.poolNotFound pool)) ∨
      ∃ j s' answer, rest = [⟨j, s', job⟩] ∧ m'.find? pool = some j ∧
        m'.reply? j s' = some answer ∧ fault = nameOverload pool answer := by
  obtain ⟨phase, hwork, hr⟩ := looks.routed h hrun
  obtain ⟨phase', hwork', follows⟩ := returns.follows
  obtain rfl : phase' = phase := by
    rw [hwork] at hwork'
    cases hwork'
    rfl
  have swaps := h.generation_of_run hrun is_open
  rw [hands] at hr
  cases follows with
  | executeClosed | notFound => cases hr
  | answered _ _ _ _ _ answer reply other =>
    cases hr
    rw [refused] at reply
    exact absurd (Option.some.inj reply).symm other
  | refusedClosed _ _ _ is_closed =>
    rw [is_open] at is_closed
    cases is_closed
  | sameBatch _ _ _ same =>
    cases hr with
    | rerouting _ _ replaced => exact absurd same (Nat.ne_of_gt replaced)
  | notFoundAgain _ _ _ other missing =>
    cases hr
    exact Or.inl ⟨rfl, missing, rfl⟩
  | answeredAgain _ _ j s' answer reply =>
    cases hr with
    | resubmitted _ _ _ _ replaced current =>
      exact Or.inr ⟨j, s', answer, rfl, current (by omega), reply, rfl⟩

/-- When an execution may say that the manager is closed.  A shutdown set the flag before, or two
reloads replaced the batch since its first lookup.  So if one reload did and no shutdown started,
an execution does not say so, and where its first submission was turned away it returns what one
submission of the same task to the new pool of that name is answered, or that there is none. -/
theorem closed_answer_explained {configs : List PoolConfig} {options : FleetOptions}
    {m₀ : Manager τ} {fault : Option Fault} (hcreate : ofConfigs configs options = .ok m₀)
    (hrun : m₀.run es = some m) (returns : m.Returns c pool task fault) :
    (fault = some .managerClosed → m.closed = true ∨
      ∃ es₁ es₂ m₁, es = es₁ ++ .advance c :: es₂ ∧ m₀.run es₁ = some m₁ ∧
        m₁.LooksUp c pool task ∧ 2 ≤ m₁.reloadSwaps (.advance c :: es₂)) ∧
    ∀ es₁ es₂ m₁, es = es₁ ++ .advance c :: es₂ → m₀.run es₁ = some m₁ →
      m₁.LooksUp c pool task → m₁.reloadSwaps (.advance c :: es₂) = 1 →
      m₁.shutdownStarts (.advance c :: es₂) = 0 →
      fault ≠ some .managerClosed ∧
      ∀ i s job rest, handOvers c m₁ (.advance c :: es₂) = ⟨i, s, job⟩ :: rest →
        m.reply? i s = some (some .managerClosed) →
        (rest = [] ∧ m.find? pool = none ∧ fault = some (.poolNotFound pool)) ∨
          ∃ j s' answer, rest = [⟨j, s', job⟩] ∧ m.find? pool = some j ∧
            m.reply? j s' = some answer ∧ fault = nameOverload pool answer := by
  have h₀ : m₀.Reachable := Reachable.create hcreate
  have rest_of {es₁ es₂ : List (Event τ)} {m₁ : Manager τ} (hes : es = es₁ ++ .advance c :: es₂)
      (hm₁ : m₀.run es₁ = some m₁) : m₁.run (.advance c :: es₂) = some m := by
    rw [hes] at hrun
    obtain ⟨n, hn, hrun⟩ := run_append hrun
    obtain rfl := Option.some.inj (hm₁.symm.trans hn)
    exact hrun
  refine ⟨?_, ?_⟩
  · rintro rfl
    by_cases is_closed : m.closed = true
    · exact Or.inl is_closed
    · refine Or.inr ?_
      obtain ⟨phase, hwork, follows⟩ := returns.follows
      have absent : m₀.work? c = none := by
        obtain ⟨fleet, batch, -, rfl⟩ := eq_of_ofConfigs hcreate
        rfl
      have routed := follows.routed_of_closed (by simpa using is_closed) rfl
      obtain ⟨es₁, es₂, m₁, hes, hm₁, looks⟩ := looks_up_before absent hrun hwork routed
      exact ⟨es₁, es₂, m₁, hes, hm₁, looks, looks.replaced_twice (h₀.run hm₁) (rest_of hes hm₁)
        (by simpa using is_closed) returns⟩
  · intro es₁ es₂ m₁ hes hm₁ looks once no_start
    have hrest := rest_of hes hm₁
    -- the lock was free at the lookup, so the reload of the one swap looked at the flag after that
    have is_open : m.closed = false := by
      rw [closed_eq_of_run hrest no_start]
      by_contra set
      obtain ⟨n, hstep, -⟩ := run_cons hrest
      have unlocked := (change_of_step hstep).was_unlocked looks rfl
      rw [reloadSwaps_of_closed (by simpa using set) unlocked hrest] at once
      cases once
    refine ⟨?_, fun i s job rest hands refused => ?_⟩
    · rintro rfl
      have twice := looks.replaced_twice (h₀.run hm₁) hrest is_open returns
      omega
    · exact looks.rerouted (h₀.run hm₁) hrest is_open once returns hands refused

end

/-! ## An execution that is rerouted -/

/-- An execution begins and finds the manager open. -/
def beforeLookup : List (Event Nat) := [.call none (.execute "io" (some 7)), .advance 0]

/-- The execution looks its pool up, a reload replaces the batch and begins to release that pool,
and the execution is turned away there and accepted by the new pool. -/
def sinceLookup : List (Event Nat) :=
  [.advance 0, .call none (.reload [{ name := "io", size := 1 }]), .advance 1, .advance 1,
    .advance 1, .advance 1, .advance 1, .advance 1, .launch 1 0 true, .pool 0 (.launch 0 true),
    .pool 0 (.pool (.close 0)), .advance 0, .pool 0 (.pool (.enter 0 true none)),
    .pool 0 (.answer 0), .advance 0, .advance 0, .advance 0, .advance 0,
    .pool 1 (.pool (.enter 0 true none)), .pool 1 (.pool (.announce 0 none)), .pool 1 (.answer 0)]

/-- That execution returns what the new pool answered. -/
theorem rerouted_once :
    ∃ m₀ m₁ m : Manager Nat, ofConfigs [{ name := "io", size := 1 }] {} = .ok m₀ ∧
      m₀.run beforeLookup = some m₁ ∧ m₀.run (beforeLookup ++ sinceLookup) = some m ∧
      m₁.reloadSwaps sinceLookup = 1 ∧ m.Returns 0 "io" (some 7) none ∧
      (none : Option Fault) ≠ some .managerClosed ∧
      ∃ j s' answer, [⟨1, 0, some ⟨0, 7⟩⟩] = [(⟨j, s', some ⟨0, 7⟩⟩ : HandOver Nat)] ∧
        m.find? "io" = some j ∧ m.reply? j s' = some answer ∧ none = nameOverload "io" answer := by
  obtain ⟨m₀, m₁, m, hm₀, hm₁, hm, hswaps, hstarts, hlooks, hreturns, hhands, hreply, hnew⟩ :
      ∃ m₀ m₁ m : Manager Nat, ofConfigs [{ name := "io", size := 1 }] {} = .ok m₀ ∧
        m₀.run beforeLookup = some m₁ ∧ m₀.run (beforeLookup ++ sinceLookup) = some m ∧
        m₁.reloadSwaps sinceLookup = 1 ∧ m₁.shutdownStarts sinceLookup = 0 ∧
        m₁.LooksUp 0 "io" (some 7) ∧ m.Returns 0 "io" (some 7) none ∧
        handOvers 0 m₁ sinceLookup = [⟨0, 0, some ⟨0, 7⟩⟩, ⟨1, 0, some ⟨0, 7⟩⟩] ∧
        m.reply? 0 0 = some (some .managerClosed) ∧ m.find? "io" = some 1 :=
    ⟨_, _, _, rfl, rfl, rfl, rfl, rfl, rfl, ⟨_, rfl, rfl⟩, rfl, rfl, rfl⟩
  obtain ⟨hfault, houtcome⟩ :=
    (closed_answer_explained hm₀ hm hreturns).2 _ _ m₁ rfl hm₁ hlooks hswaps hstarts
  rcases houtcome 0 0 _ _ hhands hreply with ⟨-, hmissing, -⟩ | hsecond
  · rw [hnew] at hmissing
    cases hmissing
  · exact ⟨m₀, m₁, m, hm₀, hm₁, hm, hswaps, hreturns, hfault, hsecond⟩

end Manager

end TaskPools
