/-
# What a manager at rest answers to an execution

While nothing but the pools moves in a manager and no task ends, the answer to an execution is
decided by what the manager is when the call begins (`Manager.admission`): by its flag, by the
installed batch, and by the tasks and the workers of one pool.  The call comes to this answer by way
of the counters of the pool and of three layers that translate it (`Served.step`), and it can always
go on until it has the answer, or until it sleeps where it has to wait (`Served.answers_or_sleeps`).
-/
import TaskPools.Proofs.Manager.Rejection
import TaskPools.Proofs.Manager.Routing
import TaskPools.Proofs.Pool.Settling

namespace TaskPools

variable {τ : Type}

/-- An ordinary move of a guarded pool: no task ends, no worker expires, and a thread for a worker
can be started if and only if `starts` says so. -/
def GuardedPool.Move.isOrdinary (starts : Bool) : GuardedPool.Move → Bool
  | .pool m => m.isOrdinary starts
  | .conclude .. => false
  | .answer _ | .launch .. | .complete _ | .elapse _ => true

namespace Manager

/-- Call `c` goes on, or a pool makes an ordinary move. -/
def Event.serves (c : Nat) (starts : Bool) : Event τ → Bool
  | .advance c' => c' == c
  | .pool _ move => move.isOrdinary starts
  | .call .. | .launch .. | .collect .. => false

/-- What the manager can become while only call `c` goes on and no task ends. -/
def Serves (c : Nat) (starts : Bool) (m m' : Manager τ) : Prop :=
  ∃ es, (∀ e ∈ es, e.serves c starts = true) ∧ m.run es = some m'

/-- The installed pool of this name. -/
def pool? (m : Manager τ) (name : String) : Option (GuardedPool (Job τ)) :=
  (m.find? name).bind fun i => m.fleet.pools[i]?

/-- All pools are at rest. -/
def AtRest (m : Manager τ) : Prop :=
  ∀ g ∈ m.fleet.pools, g.pool.AtRest

instance (m : Manager τ) : Decidable m.AtRest :=
  inferInstanceAs (Decidable (∀ g ∈ m.fleet.pools, g.pool.AtRest))

/-- What becomes of an execution that begins while the manager is at rest; `starts` says whether a
thread can be started. -/
def admission (m : Manager τ) (name : String) (task : Option τ) (starts : Bool) : Admission :=
  if m.closed then .refuses .managerClosed
  else
    match m.pool? name with
    | none => .refuses (.poolNotFound name)
    | some g =>
      match task with
      | none => .refuses .emptyTask
      | some _ =>
        if g.pool.unfinished = g.pool.capacity then
          if g.pool.nonBlocking then .refuses (.poolOverloaded name) else .blocks
        else if g.pool.unfinished = g.pool.live ∧ starts = false then
          .refuses (.startFailed g.pool.name)
        else .accepts

/-- Call `c` waits for a submission that sleeps on a full pool. -/
def Sleeps (m : Manager τ) (c : Nat) : Prop :=
  ∃ i s g job, m.site? c = some (i, s) ∧ m.fleet.pools[i]? = some g ∧
    g.pool.submissions[s]? = some (.parked job)

section

variable (m : Manager τ) (c : Nat) (name : String) (task : Option τ) (starts : Bool)

/-- However execution `c` goes on, it returns nothing but `answer`, and it can return it unless a
reload keeps the lock. -/
structure Answers (answer : Option Fault) : Prop where
  only : ∀ m' fault, Serves c starts m m' →
    m'.work? c = some (.execute name task (.returned fault)) → fault = answer
  can_return : ∀ m', Serves c starts m m' → m'.isLocked = false → ∃ n, Serves c starts m' n ∧
    n.work? c = some (.execute name task (.returned answer))

/-- However execution `c` goes on, it does not return, and it can go to sleep unless a reload keeps
the lock. -/
structure Blocks : Prop where
  never_returns : ∀ m' fault, Serves c starts m m' →
    m'.work? c ≠ some (.execute name task (.returned fault))
  can_sleep : ∀ m', Serves c starts m m' → m'.isLocked = false →
    ∃ n, Serves c starts m' n ∧ n.Sleeps c

/-- What becomes of execution `c` is `admission`. -/
def Meets : Admission → Prop
  | .accepts => m.Answers c name task starts none
  | .refuses fault => m.Answers c name task starts (some fault)
  | .blocks => m.Blocks c name task starts

end

/-! ## An execution under way -/

/-- On submission `s` of pool `i` is decided what is decided in the manager `m₀` at rest. -/
def DecidesAt (m₀ m : Manager τ) (i s : Nat) (job : Option (Job τ)) (starts : Bool) : Prop :=
  ∃ g₀ g, m₀.fleet.pools[i]? = some g₀ ∧ m.fleet.pools[i]? = some g ∧
    g₀.pool.Decides job starts s g.pool

/-- The installed pool of this name has yet to decide on its next submission. -/
def Poised (m₀ m : Manager τ) (i : Nat) (job : Option (Job τ)) (starts : Bool) : Prop :=
  m₀.DecidesAt m i (m.submissionCount i) job starts

/-- How far an execution has come that began in the manager `m₀` at rest. -/
inductive Stage (m₀ m : Manager τ) (c : Nat) (name : String) (task : Option τ) (starts : Bool) :
    ExecutePhase → Prop where
  | begun (poised : ∀ i, m₀.find? name = some i → m₀.Poised m i (task.map (Job.mk c)) starts) :
      Stage m₀ m c name task starts .begun
  | open (is_open : m₀.closed = false)
      (poised : ∀ i, m₀.find? name = some i → m₀.Poised m i (task.map (Job.mk c)) starts) :
      Stage m₀ m c name task starts .open
  | found (generation i : Nat) (is_open : m₀.closed = false) (finds : m₀.find? name = some i)
      (poised : m₀.Poised m i (task.map (Job.mk c)) starts) :
      Stage m₀ m c name task starts (.found generation i)
  | submitted (generation i s : Nat) (is_open : m₀.closed = false)
      (finds : m₀.find? name = some i)
      (decides : m₀.DecidesAt m i s (task.map (Job.mk c)) starts) :
      Stage m₀ m c name task starts (.submitted generation i s)
  | returned (fault : Option Fault)
      (decided : m₀.admission name task starts = fault.elim .accepts .refuses) :
      Stage m₀ m c name task starts (.returned fault)

/-- Execution `c`, which began in the manager `m₀` at rest, is at this phase. -/
structure Served (m₀ m : Manager τ) (c : Nat) (name : String) (task : Option τ) (starts : Bool)
    (phase : ExecutePhase) : Prop where
  reachable : m.Reachable
  closed_eq : m.closed = m₀.closed
  installed_eq : m.installed = m₀.installed
  stands : m.work? c = some (.execute name task phase)
  stage : Stage m₀ m c name task starts phase

section

variable {m₀ m m' n : Manager τ} {e : Event τ} {es : List (Event τ)} {c i j s : Nat}
  {name : String} {task : Option τ} {job : Option (Job τ)} {starts : Bool} {phase : ExecutePhase}
  {g g' : GuardedPool (Job τ)} {move : GuardedPool.Move}

theorem Serves.refl (m : Manager τ) : Serves c starts m m :=
  ⟨[], nofun, rfl⟩

theorem Serves.trans (h : Serves c starts m m') (h' : Serves c starts m' n) :
    Serves c starts m n := by
  obtain ⟨es, serves, hrun⟩ := h
  obtain ⟨es', serves', hrun'⟩ := h'
  refine ⟨es ++ es', fun e he => ?_, run_trans hrun hrun'⟩
  exact (List.mem_append.mp he).elim (serves e) (serves' e)

theorem Serves.step (serves : e.serves c starts = true) (hstep : m.step e = some m') :
    Serves c starts m m' := by
  refine ⟨[e], fun e' he' => ?_, run_one hstep⟩
  rw [List.mem_singleton.mp he']
  exact serves

/-! ## What a pool decides stays decided -/

/-- An ordinary move of a guarded pool that nobody releases. -/
theorem decides_of_move {p₀ : Pool (Job τ)} (h : p₀.Decides job starts s g.pool)
    (reachable : g.Reachable) (unreleased : g.releases = [])
    (ordinary : move.isOrdinary starts = true) (hstep : g.step (.move move) = some g') :
    p₀.Decides job starts s g'.pool := by
  have no_release : g.pool.releases = [] := by
    by_contra some_release
    have asked := reachable.releasedOnDemand (List.length_pos_iff.mpr some_release)
    rw [unreleased] at asked
    exact Nat.lt_irrefl 0 asked
  cases GuardedPool.change_of_step hstep with
  | pool m p moves =>
    exact h.move reachable.pool.arises (reachable.open_of_unreleased unreleased) no_release ordinary
      moves
  | answer s' fault =>
    rw [GuardedPool.pool_count]
    exact h
  | complete | elapse => exact h
  | launch t own bound at_t | launchInline t own bound at_t =>
    rw [unreleased] at at_t
    cases at_t
  | returns | panics => cases ordinary

theorem DecidesAt.pool (h : m₀.DecidesAt m j s job starts) (reachable : m.Reachable)
    (installed : j ∈ m.installed.pools) (at_i : m.fleet.pools[i]? = some g)
    (ordinary : move.isOrdinary starts = true) (hstep : g.step (.move move) = some g') :
    m₀.DecidesAt (m.withPool i g') j s job starts := by
  obtain ⟨g₀, g₁, at_j₀, at_j, decides⟩ := h
  have now : (m.withPool i g').fleet.pools[j]? = if j = i then some g' else m.fleet.pools[j]? :=
    getElem?_set_at at_i g' j
  by_cases same : j = i
  · rw [if_pos same] at now
    subst same
    obtain rfl : g = g₁ := Option.some.inj (at_i.symm.trans at_j)
    have unreleased := reachable.installed_unreleased installed at_i
    exact ⟨g₀, g', at_j₀, now,
      decides_of_move decides (reachable.pool at_i) unreleased ordinary hstep⟩
  · rw [if_neg same] at now
    exact ⟨g₀, g₁, at_j₀, now.trans at_j, decides⟩

theorem Poised.pool (h : m₀.Poised m j job starts) (reachable : m.Reachable)
    (installed : j ∈ m.installed.pools) (at_i : m.fleet.pools[i]? = some g)
    (ordinary : move.isOrdinary starts = true) (hstep : g.step (.move move) = some g') :
    m₀.Poised (m.withPool i g') j job starts := by
  rw [Poised, submissionCount_set_same at_i rfl (length_replies_of_move hstep)]
  exact DecidesAt.pool h reachable installed at_i ordinary hstep

/-- Pools make moves of their own. -/
theorem Stage.pool (h : Stage m₀ m c name task starts phase) (reachable : m.Reachable)
    (installed_eq : m.installed = m₀.installed) (at_i : m.fleet.pools[i]? = some g)
    (ordinary : move.isOrdinary starts = true) (hstep : g.step (.move move) = some g') :
    Stage m₀ (m.withPool i g') c name task starts phase := by
  have installed {j : Nat} (finds : m₀.find? name = some j) : j ∈ m.installed.pools := by
    rw [installed_eq]
    exact mem_pools_of_find? finds
  cases h with
  | begun poised =>
    refine .begun fun j finds => ?_
    exact (poised j finds).pool reachable (installed finds) at_i ordinary hstep
  | «open» is_open poised =>
    exact .open is_open fun j finds =>
      (poised j finds).pool reachable (installed finds) at_i ordinary hstep
  | found generation j is_open finds poised =>
    exact .found generation j is_open finds
      (poised.pool reachable (installed finds) at_i ordinary hstep)
  | submitted generation j s is_open finds decides =>
    exact .submitted generation j s is_open finds
      (decides.pool reachable (installed finds) at_i ordinary hstep)
  | returned fault decided => exact .returned fault decided

/-! ## The answer goes through the layers -/

/-- What the manager makes of the answer of the pool. -/
theorem admission_of_pool {g₀ : GuardedPool (Job τ)} (is_open : m.closed = false)
    (finds : m.find? name = some i) (at_i : m.fleet.pools[i]? = some g₀) {fault : Option Fault}
    (decided : g₀.pool.admission starts (task.map (Job.mk c)) = fault.elim .accepts .refuses) :
    m.admission name task starts =
      (nameOverload name (fault.map GuardedPool.translate)).elim .accepts .refuses := by
  have finds : m.pool? name = some g₀ := by
    rw [pool?, finds]
    exact at_i
  rw [admission, if_neg (by rw [is_open]; exact Bool.false_ne_true), finds]
  cases task with
  | none =>
    cases fault <;> cases decided
    rfl
  | some a =>
    simp only [Option.map_some, Pool.admission] at decided ⊢
    split at decided
    · rename_i full
      rw [if_pos full]
      split at decided
      · rename_i refuses
        rw [if_pos refuses]
        cases fault <;> cases decided
        rfl
      · cases fault <;> cases decided
    · rename_i free
      rw [if_neg free]
      split at decided
      · rename_i short
        rw [if_pos short]
        cases fault <;> cases decided
        rfl
      · rename_i enough
        rw [if_neg enough]
        cases fault <;> cases decided
        rfl

/-- A full pool makes the caller wait. -/
theorem admission_of_blocks {g₀ : GuardedPool (Job τ)} (is_open : m.closed = false)
    (finds : m.find? name = some i) (at_i : m.fleet.pools[i]? = some g₀)
    (decided : g₀.pool.admission starts (task.map (Job.mk c)) = .blocks) :
    m.admission name task starts = .blocks := by
  have finds : m.pool? name = some g₀ := by
    rw [pool?, finds]
    exact at_i
  rw [admission, if_neg (by rw [is_open]; exact Bool.false_ne_true), finds]
  cases task with
  | none => cases decided
  | some a =>
    have full : g₀.pool.unfinished = g₀.pool.capacity := Pool.full_of_blocks decided
    simp only [Option.map_some, Pool.admission, if_pos full] at decided ⊢
    split at decided
    · cases decided
    · rename_i blocks
      rw [if_neg blocks]

/-- The answer of the pool is what was decided. -/
theorem DecidesAt.of_reply (h : m₀.DecidesAt m i s (task.map (Job.mk c)) starts)
    (reachable : m.Reachable) (is_open : m₀.closed = false) (finds : m₀.find? name = some i)
    {answer : Option Fault} (reply : m.reply? i s = some answer) :
    m₀.admission name task starts = (nameOverload name answer).elim .accepts .refuses := by
  obtain ⟨g₀, g, at_i₀, at_i, decides⟩ := h
  obtain ⟨g₁, at_i₁, hreply⟩ := Option.bind_eq_some_iff.mp reply
  obtain rfl : g = g₁ := Option.some.inj (at_i.symm.trans at_i₁)
  split at hreply
  · rename_i answer' given
    cases hreply
    obtain ⟨fault, at_s, rfl⟩ := (reachable.pool at_i).answered.settled s answer given
    exact admission_of_pool is_open finds at_i₀ (decides.of_returned at_s)
  · cases hreply

/-! ## The execution goes on -/

/-- The execution takes a step in which it only reads. -/
theorem Served.follows (h : Served m₀ m c name task starts phase) {work : Work τ}
    (follows : Follows m (.execute name task phase) work) :
    ∃ phase', work = .execute name task phase' ∧ Stage m₀ m c name task starts phase' := by
  have finds_eq (i : Nat) : m.find? name = some i ↔ m₀.find? name = some i := by
    rw [find?, h.installed_eq, find?]
  have stage := h.stage
  cases follows with
  | executeClosed _ _ is_closed =>
    refine ⟨_, rfl, .returned _ ?_⟩
    rw [h.closed_eq] at is_closed
    rw [admission, if_pos is_closed]
    rfl
  | executeOpen _ _ is_open =>
    cases stage with
    | begun poised =>
      exact ⟨_, rfl, .open (h.closed_eq ▸ is_open) poised⟩
  | lookUp _ _ i finds =>
    cases stage with
    | «open» is_open poised =>
      have finds := (finds_eq i).mp finds
      exact ⟨_, rfl, .found _ i is_open finds (poised i finds)⟩
  | notFound _ _ missing =>
    cases stage with
    | «open» is_open poised =>
      refine ⟨_, rfl, .returned _ ?_⟩
      have missing : m₀.pool? name = none := by
        rw [pool?, find?, ← h.installed_eq]
        exact Option.bind_eq_none_iff.mpr fun i finds => absurd finds (by
          rw [← find?, missing]
          rintro ⟨⟩)
      rw [admission, if_neg (by rw [is_open]; exact Bool.false_ne_true), missing]
      rfl
  | refused _ _ generation i s reply =>
    cases stage with
    | submitted _ _ _ is_open finds =>
      -- the pool is installed, and so it is open
      refine absurd ?_ (h.reachable.retired_of_reply reply)
      rw [h.installed_eq]
      exact mem_pools_of_find? finds
  | answered _ _ generation i s answer reply =>
    cases stage with
    | submitted _ _ _ is_open finds decides =>
      exact ⟨_, rfl, .returned _ (decides.of_reply h.reachable is_open finds reply)⟩
  | refusedClosed | reroute | sameBatch | lookUpAgain | notFoundAgain | answeredAgain => cases stage

/-- The execution hands its task over. -/
theorem DecidesAt.submit (h : m₀.Poised m i (task.map (Job.mk c)) starts) (reachable : m.Reachable)
    (at_i : m.fleet.pools[i]? = some g) :
    m₀.DecidesAt (m.withPool i { g with
      pool := g.pool.submit (task.map (Job.mk c))
      replies := g.replies ++ [.pending] }) i g.replies.length (task.map (Job.mk c)) starts := by
  obtain ⟨g₀, g₁, at_i₀, at_i₁, decides⟩ := h
  obtain rfl : g = g₁ := Option.some.inj (at_i.symm.trans at_i₁)
  have count : m.submissionCount i = g.pool.submissions.length := by
    rw [submissionCount, at_i]
    exact (reachable.pool at_i).answered.length_eq
  rw [count] at decides
  refine ⟨g₀, _, at_i₀, (getElem?_set_at at_i _ i).trans (if_pos rfl), ?_⟩
  rw [(reachable.pool at_i).answered.length_eq]
  exact decides.submit

theorem Served.step (h : Served m₀ m c name task starts phase) (serves : e.serves c starts = true)
    (hstep : m.step e = some m') : ∃ phase', Served m₀ m' c name task starts phase' := by
  have reachable := h.reachable.step hstep
  cases change_of_step hstep with
  | call => cases serves
  | pool i move g g' at_i moves =>
    exact ⟨phase, reachable, h.closed_eq, h.installed_eq, h.stands,
      h.stage.pool h.reachable h.installed_eq at_i serves moves⟩
  | act c' caller _ work work' n at_c acts =>
    obtain rfl : c' = c := by
      cases acts <;> first | exact beq_iff_eq.mp serves | cases serves
    obtain rfl : work = .execute name task phase :=
      Option.some.inj ((work?_of_getElem? at_c).symm.trans h.stands)
    have stands : (n.setWork c' work').work? c' = some work' :=
      work?_setWork_self ((work?_of_calls acts.calls_eq c').trans h.stands)
    cases acts with
    | goOn _ _ follows =>
      obtain ⟨phase', rfl, stage⟩ := h.follows follows
      refine ⟨phase', reachable, h.closed_eq, h.installed_eq, stands, ?_⟩
      -- nothing changes but the place of the call
      cases stage with
      | begun poised => exact .begun poised
      | «open» is_open poised => exact .open is_open poised
      | found generation i is_open finds poised => exact .found generation i is_open finds poised
      | submitted generation i s is_open finds decides =>
        exact .submitted generation i s is_open finds decides
      | returned fault decided => exact .returned fault decided
    | submit _ _ generation i g at_i =>
      refine ⟨_, reachable, h.closed_eq, h.installed_eq, stands, ?_⟩
      cases h.stage with
      | found _ _ is_open finds poised =>
        exact .submitted generation i _ is_open finds (DecidesAt.submit poised h.reachable at_i)
    | resubmit => cases h.stage
    | launch _ _ _ _ retires | launchInline _ _ _ _ retires | collect _ _ _ _ _ retires =>
      cases retires

theorem Served.run (h : Served m₀ m c name task starts phase) (serves : Serves c starts m m') :
    ∃ phase', Served m₀ m' c name task starts phase' := by
  obtain ⟨es, serves, hrun⟩ := serves
  induction es generalizing m phase with
  | nil =>
    rw [run_nil hrun]
    exact ⟨phase, h⟩
  | cons e es ih =>
    obtain ⟨n, hn, hrun⟩ := run_cons hrun
    obtain ⟨phase', h'⟩ := h.step (serves e List.mem_cons_self) hn
    exact ih h' (fun e he => serves e (List.mem_cons_of_mem _ he)) hrun

/-- An execution that is under way takes no lock beyond its step. -/
theorem Served.still_unlocked (h : Served m₀ m c name task starts phase)
    (serves : Serves c starts m m') (unlocked : m.isLocked = false) : m'.isLocked = false := by
  obtain ⟨es, serves, hrun⟩ := serves
  induction es generalizing m phase with
  | nil =>
    rw [run_nil hrun]
    exact unlocked
  | cons e es ih =>
    obtain ⟨n, hn, hrun⟩ := run_cons hrun
    have first := serves e List.mem_cons_self
    obtain ⟨phase', h'⟩ := h.step first hn
    refine ih h' ?_ (fun e he => serves e (List.mem_cons_of_mem _ he)) hrun
    refine (change_of_step hn).still_unlocked unlocked ?_
    rintro d work rfl at_d
    obtain rfl : d = c := eq_of_beq first
    cases h'.stands.symm.trans at_d
    rfl

/-! ## The execution comes to its end -/

/-- What the pool can do by itself, it can do in its manager. -/
theorem serves_of_proceeds {p : Pool (Job τ)} (at_i : m.fleet.pools[i]? = some g)
    (proceeds : Relation.ReflTransGen (Pool.Proceeds starts) g.pool p) :
    ∃ m', Serves c starts m m' ∧ m'.calls = m.calls ∧
      m'.fleet.pools[i]? = some { g with pool := p } := by
  induction proceeds with
  | refl => exact ⟨m, .refl m, rfl, at_i⟩
  | @tail p₁ p₂ _ move ih =>
    obtain ⟨n, serves, calls_eq, at_i'⟩ := ih
    obtain ⟨move, ordinary, hmove⟩ := move
    let moved : GuardedPool (Job τ) := { g with pool := p₂ }
    have hstep : n.step (.pool i (.pool move)) = some (n.withPool i moved) := by
      refine step_pool at_i' nofun ?_
      rw [GuardedPool.step, GuardedPool.move, GuardedPool.onPool, Pool.step, hmove]
      rfl
    have ordinary' : (Event.pool i (.pool move) : Event τ).serves c starts = true := ordinary
    refine ⟨n.withPool i moved, serves.trans (.step ordinary' hstep), calls_eq, ?_⟩
    exact (getElem?_set_at at_i' moved i).trans (if_pos rfl)

/-- The execution can go on until it returns or sleeps. -/
def Ends (m₀ : Manager τ) (c : Nat) (name : String) (task : Option τ) (starts : Bool)
    (m : Manager τ) : Prop :=
  ∃ n phase, Serves c starts m n ∧ Served m₀ n c name task starts phase ∧
    ((∃ fault, phase = .returned fault) ∨ n.Sleeps c)

theorem Ends.before (h : Ends m₀ c name task starts m') (serves : Serves c starts m m') :
    Ends m₀ c name task starts m := by
  obtain ⟨n, phase, serves', rest⟩ := h
  exact ⟨n, phase, serves.trans serves', rest⟩

/-- The execution takes a step of its own, for which it may have the lock if it needs it. -/
theorem Served.advances (h : Served m₀ m c name task starts phase) {phase' : ExecutePhase}
    (free : (Work.execute name task phase).takesLock = false ∨ m.isLocked = false)
    (hadvance : m.advanceExecute c name task phase = some (n, phase')) :
    ∃ m', Serves c starts m m' ∧ Served m₀ m' c name task starts phase' := by
  obtain ⟨⟨caller, work⟩, at_c, rfl⟩ := Option.map_eq_some_iff.mp h.stands
  have hstep : m.step (.advance c) = some (n.setWork c (.execute name task phase')) := by
    refine step_advance at_c free ?_
    rw [advanceWork, hadvance]
    rfl
  have serves : (Event.advance c : Event τ).serves c starts = true := beq_self_eq_true c
  obtain ⟨phase'', h'⟩ := h.step serves hstep
  have acts : Act m c caller _ _ _ n := act_of_advanceExecute hadvance
  have stands : (n.setWork c (.execute name task phase')).work? c
      = some (.execute name task phase') :=
    work?_setWork_self ((work?_of_calls acts.calls_eq c).trans h.stands)
  cases stands.symm.trans h'.stands
  exact ⟨_, .step serves hstep, h'⟩

theorem Served.ends_of_returned {fault : Option Fault}
    (h : Served m₀ m c name task starts (.returned fault)) : Ends m₀ c name task starts m :=
  ⟨m, _, .refl m, h, Or.inl ⟨fault, rfl⟩⟩

/-- The execution has the answer of its pool. -/
theorem Served.ends_of_reply {generation : Nat} {answer : Option Fault}
    (h : Served m₀ m c name task starts (.submitted generation i s))
    (at_i : m.fleet.pools[i]? = some g) (given : g.replies[s]? = some (.given answer)) :
    Ends m₀ c name task starts m := by
  have reply : m.reply? i s = some answer := by
    simp only [reply?, at_i, Option.bind_eq_bind, Option.bind_some, given]
  have advances : ∃ phase', m.advanceExecute c name task (.submitted generation i s)
      = some (m, phase') := by
    simp only [advanceExecute, reply, Option.bind_eq_bind, Option.bind_some]
    split <;> exact ⟨_, rfl⟩
  obtain ⟨phase', hadvance⟩ := advances
  obtain ⟨m', serves, h'⟩ := h.advances (.inl rfl) hadvance
  -- an installed pool is open, so the answer is not that it was closed
  have returned : ∃ fault, phase' = .returned fault := by
    simp only [advanceExecute, reply, Option.bind_eq_bind, Option.bind_some] at hadvance
    split at hadvance
    · cases hadvance
      cases h'.stage
    · cases hadvance
      exact ⟨_, rfl⟩
  obtain ⟨fault, rfl⟩ := returned
  exact h'.ends_of_returned.before serves

/-- The pool can settle the task, or the execution can go to sleep. -/
theorem Served.ends_of_submitted {generation : Nat}
    (h : Served m₀ m c name task starts (.submitted generation i s)) :
    Ends m₀ c name task starts m := by
  obtain ⟨g, at_i, made⟩ : ∃ g, m.fleet.pools[i]? = some g ∧ s < g.replies.length := by
    have made := h.reachable.sited.made c i s (site?_eq h.stands)
    cases h.stage with
    | submitted _ _ _ _ _ decides =>
      obtain ⟨g₀, g, -, at_i, -⟩ := decides
      rw [submissionCount, at_i] at made
      exact ⟨g, at_i, made⟩
  have answered := (h.reachable.pool at_i).answered
  rw [answered.length_eq] at made
  obtain ⟨p, x, proceeds, at_s, settled⟩ :=
    (h.reachable.pool at_i).pool.arises.settlesOrSleeps (List.getElem?_eq_getElem made) starts
  obtain ⟨n, serves, calls_eq, at_i'⟩ := serves_of_proceeds (c := c) at_i proceeds
  obtain ⟨phase', h'⟩ := h.run serves
  cases (h'.stands.symm.trans (work?_of_calls calls_eq c)).trans h.stands
  refine Ends.before ?_ serves
  rcases settled with returned | asleep
  · cases x with
    | returned fault =>
      -- the guard answers, unless it has answered already
      have made' : s < g.replies.length := answered.length_eq ▸ made
      cases replied : g.replies[s]? with
      | none => exact absurd made' (Nat.not_lt.mpr (List.getElem?_eq_none_iff.mp replied))
      | some reply =>
        cases reply with
        | given answer => exact h'.ends_of_reply at_i' replied
        | pending =>
          let guarded : GuardedPool (Job τ) := { g with pool := p }
          let told : GuardedPool (Job τ) := { guarded.count fault with
            replies := g.replies.set s (.given (fault.map GuardedPool.translate)) }
          have answers : guarded.step (.move (.answer s)) = some told := by
            simp only [GuardedPool.step, GuardedPool.move, GuardedPool.answer, guarded, at_s,
              replied]
            rfl
          have hstep : n.step (.pool i (.answer s)) = some (n.withPool i told) :=
            step_pool at_i' (by rintro _ _ _ ⟨⟩) answers
          have ordinary : (Event.pool i (.answer s) : Event τ).serves c starts = true := rfl
          obtain ⟨phase'', h''⟩ := h'.step ordinary hstep
          have same : (n.withPool i told).work? c = n.work? c := rfl
          cases (h''.stands.symm.trans same).trans h'.stands
          have at_i'' : (n.withPool i told).fleet.pools[i]? = some told :=
            (getElem?_set_at at_i' told i).trans (if_pos rfl)
          exact (h''.ends_of_reply at_i'' (List.getElem?_set_self made')).before
            (.step ordinary hstep)
    | reaping | entering | parked | woken | announcing => cases returned
  · cases x with
    | parked job =>
      exact ⟨n, _, .refl n, h', Or.inr ⟨i, s, _, job, site?_eq h'.stands, at_i', at_s⟩⟩
    | reaping | entering | woken | announcing | returned => cases asleep

/-- Wherever the execution stands, it can go on until it returns or sleeps, if the lock is free. -/
theorem Served.answers_or_sleeps (h : Served m₀ m c name task starts phase)
    (unlocked : m.isLocked = false) : Ends m₀ c name task starts m := by
  have of_found {m : Manager τ} {generation i : Nat}
      (h : Served m₀ m c name task starts (.found generation i)) :
      Ends m₀ c name task starts m := by
    cases h.stage with
    | found _ _ is_open finds poised =>
      obtain ⟨g₀, g, -, at_i, -⟩ := poised
      obtain ⟨m', serves, h'⟩ := h.advances (.inl rfl)
        (by rw [advanceExecute, submit_eq at_i]; rfl)
      exact h'.ends_of_submitted.before serves
  have of_open {m : Manager τ} (h : Served m₀ m c name task starts .open)
      (unlocked : m.isLocked = false) : Ends m₀ c name task starts m := by
    cases finds : m.find? name with
    | none =>
      obtain ⟨m', serves, h'⟩ := h.advances (.inr unlocked) (by rw [advanceExecute, finds])
      exact h'.ends_of_returned.before serves
    | some i =>
      obtain ⟨m', serves, h'⟩ := h.advances (.inr unlocked) (by rw [advanceExecute, finds])
      exact (of_found h').before serves
  cases h.stage with
  | begun =>
    by_cases is_closed : m.closed = true
    · obtain ⟨m', serves, h'⟩ := h.advances (.inl rfl) (by rw [advanceExecute, if_pos is_closed])
      exact h'.ends_of_returned.before serves
    · obtain ⟨m', serves, h'⟩ := h.advances (.inl rfl) (by rw [advanceExecute, if_neg is_closed])
      exact (of_open h' (h.still_unlocked serves unlocked)).before serves
  | «open» => exact of_open h unlocked
  | found => exact of_found h
  | submitted => exact h.ends_of_submitted
  | returned => exact h.ends_of_returned

/-- An execution sleeps only where it was decided that it has to wait. -/
theorem Served.blocks_of_sleeps (h : Served m₀ m c name task starts phase) (sleeps : m.Sleeps c) :
    m₀.admission name task starts = .blocks := by
  obtain ⟨i, s, g, job, hsite, at_i, at_s⟩ := sleeps
  rw [site?_eq h.stands] at hsite
  cases h.stage with
  | submitted generation j s' is_open finds decides =>
    cases hsite
    obtain ⟨g₀, g', at_i₀, at_i', decides⟩ := decides
    obtain rfl : g = g' := Option.some.inj (at_i.symm.trans at_i')
    exact admission_of_blocks is_open finds at_i₀ (decides.of_parked at_s)
  | begun | «open» | found | returned => cases hsite

/-- What becomes of an execution is what was decided when it began. -/
theorem Served.meets (h : Served m₀ m c name task starts phase) :
    m.Meets c name task starts (m₀.admission name task starts) := by
  -- the answer that it returns, if it returns
  have returned {m' : Manager τ} {fault : Option Fault} (serves : Serves c starts m m')
      (hwork : m'.work? c = some (.execute name task (.returned fault))) :
      m₀.admission name task starts = fault.elim .accepts .refuses := by
    obtain ⟨phase', h'⟩ := h.run serves
    cases h'.stands.symm.trans hwork
    cases h'.stage with
    | returned _ decided => exact decided
  have ends {m' : Manager τ} (serves : Serves c starts m m') (unlocked : m'.isLocked = false) :
      ∃ n, Serves c starts m' n ∧
      ((∃ fault, n.work? c = some (.execute name task (.returned fault)) ∧
        m₀.admission name task starts = fault.elim .accepts .refuses) ∨
      (n.Sleeps c ∧ m₀.admission name task starts = .blocks)) := by
    obtain ⟨phase', h'⟩ := h.run serves
    obtain ⟨n, phase'', serves', h'', ⟨fault, rfl⟩ | sleeps⟩ := h'.answers_or_sleeps unlocked
    · exact ⟨n, serves', Or.inl ⟨fault, h''.stands, returned (serves.trans serves') h''.stands⟩⟩
    · exact ⟨n, serves', Or.inr ⟨sleeps, h''.blocks_of_sleeps sleeps⟩⟩
  cases decided : m₀.admission name task starts with
  | accepts =>
    rw [decided] at returned ends
    refine ⟨fun m' fault serves hwork => ?_, fun m' serves unlocked => ?_⟩
    · have same := returned serves hwork
      cases fault <;> first | rfl | cases same
    · obtain ⟨n, serves', ⟨fault, hwork, same⟩ | ⟨-, other⟩⟩ := ends serves unlocked
      · cases fault with
        | none => exact ⟨n, serves', hwork⟩
        | some fault => cases same
      · cases other
  | refuses reason =>
    rw [decided] at returned ends
    refine ⟨fun m' fault serves hwork => ?_, fun m' serves unlocked => ?_⟩
    · have same := returned serves hwork
      cases fault <;> cases same
      rfl
    · obtain ⟨n, serves', ⟨fault, hwork, same⟩ | ⟨-, other⟩⟩ := ends serves unlocked
      · cases fault <;> cases same
        exact ⟨n, serves', hwork⟩
      · cases other
  | blocks =>
    rw [decided] at returned ends
    refine ⟨fun m' fault serves hwork => ?_, fun m' serves unlocked => ?_⟩
    · have same := returned serves hwork
      cases fault <;> cases same
    · obtain ⟨n, serves', ⟨fault, hwork, same⟩ | ⟨sleeps, -⟩⟩ := ends serves unlocked
      · cases fault <;> cases same
      · exact ⟨n, serves', sleeps⟩

/-- An execution begins in a manager at rest. -/
theorem served_of_call (h : m.Reachable) (rest : m.AtRest) {caller : Option (Nat × Nat)}
    (called : m.call caller (.execute name task) = some m') :
    Served m m' m.calls.length name task starts .begun := by
  have hstep : m.step (.call caller (.execute name task)) = some m' := called
  cases change_of_step hstep with
  | call =>
    refine ⟨h.step hstep, rfl, rfl, ?_, .begun fun i finds => ?_⟩
    · rw [work?_call, if_pos rfl]
      rfl
    · have installed := mem_pools_of_find? finds
      have in_range : i < m.fleet.pools.length := lt_of_owns h (o := .installed) installed
      have at_i := List.getElem?_eq_getElem in_range
      have reachable := h.pool at_i
      refine ⟨_, _, at_i, at_i, ?_⟩
      have count : m.submissionCount i = m.fleet.pools[i].pool.submissions.length := by
        rw [submissionCount, at_i]
        exact reachable.answered.length_eq
      have count' : ({ m with calls := m.calls ++ [⟨caller, (Request.execute name task).work⟩] } :
          Manager τ).submissionCount i = m.submissionCount i := rfl
      rw [count', count]
      exact (rest _ (List.mem_of_getElem? at_i)).decides reachable.pool.arises
        (h.installed_open installed at_i) _ _
  | act c' caller _ work work' n at_c acts => cases acts

/-! ## Refusing and blocking -/

/-- Where an overload is named, the pool that is meant refuses tasks when it is full. -/
theorem Reachable.nonBlocking_of_overload (h : m.Reachable) {other : String}
    {answer : Option Fault} (reply : m.reply? i s = some answer)
    (overloads : nameOverload name answer = some (.poolOverloaded other)) :
    ∃ g, m.fleet.pools[i]? = some g ∧ g.pool.nonBlocking = true := by
  obtain ⟨g, at_i, hreply⟩ := Option.bind_eq_some_iff.mp reply
  refine ⟨g, at_i, ?_⟩
  have reachable := h.pool at_i
  split at hreply
  · rename_i answer' given
    cases hreply
    obtain ⟨fault, at_s, rfl⟩ := reachable.answered.settled s answer given
    cases fault with
    | none => cases overloads
    | some fault =>
      have explained := reachable.pool.arises.faultsExplained s fault at_s
      have suits := reachable.pool.arises.doesAsSet _ (List.mem_of_getElem? at_s)
      -- a pool says by itself only that it is full
      cases fault with
      | poolFull => exact suits
      | emptyTask | startFailed | poolClosed => cases overloads
      | _ => exact explained.elim
  · cases hreply

/-- Only a pool that is set to refuse tasks makes an execution return an overload. -/
theorem Returns.nonBlocking {other : String}
    (returns : m.Returns c name task (some (.poolOverloaded other))) (h : m.Reachable) :
    ∃ i s g, m.site? c = some (i, s) ∧ m.fleet.pools[i]? = some g ∧
      g.pool.nonBlocking = true := by
  obtain ⟨phase, hwork, follows⟩ := returns.follows
  generalize overloads : some (Fault.poolOverloaded other) = fault at follows
  cases follows with
  | answered _ _ _ i s answer reply
  | answeredAgain _ _ i s answer reply =>
    obtain ⟨g, at_i, refuses⟩ := h.nonBlocking_of_overload reply overloads.symm
    exact ⟨i, s, g, site?_eq hwork, at_i, refuses⟩
  | executeClosed | notFound | refusedClosed | sameBatch | notFoundAgain => cases overloads

/-- Nobody waits for a slot of a pool that is set to refuse tasks. -/
theorem Reachable.nobody_waits (h : m.Reachable) (at_i : m.fleet.pools[i]? = some g)
    (refuses : g.pool.nonBlocking = true) {x : Submission (Job τ)}
    (hx : x ∈ g.pool.submissions) : x.isWaiting = false := by
  have suits := (h.pool at_i).pool.arises.doesAsSet x hx
  rw [refuses] at suits
  cases x <;> first | rfl | cases suits

/-- **Admission is exact.**  Let an execution begin while all pools of the manager are at rest.
However it goes on from there while no task ends, it returns nothing but what `admission` says of
the manager before the call, and it can always go on to return that; where `admission` makes it
wait, it never returns, and it can always go on to sleep; only its lookup may have to wait, while a
reload has the lock.  In every manager, at rest or not, only a pool that refuses tasks makes an
execution return an overload, and no execution waits for a slot of such a pool. -/
theorem admission_exact (h : m.Reachable) :
    (m.AtRest → ∀ caller name task starts m', m.call caller (.execute name task) = some m' →
      m'.Meets m.calls.length name task starts (m.admission name task starts)) ∧
    (∀ c name task other, m.Returns c name task (some (.poolOverloaded other)) →
      ∃ i s g, m.site? c = some (i, s) ∧ m.fleet.pools[i]? = some g ∧
        g.pool.nonBlocking = true) ∧
    ∀ (i : Nat) (g : GuardedPool (Job τ)), m.fleet.pools[i]? = some g →
      g.pool.nonBlocking = true → ∀ x ∈ g.pool.submissions, x.isWaiting = false := by
  refine ⟨fun rest caller name task starts m' called => ?_, ?_, ?_⟩
  · exact (served_of_call h rest called).meets
  · exact fun c name task other returns => returns.nonBlocking h
  · exact fun i g at_i refuses x hx => h.nobody_waits at_i refuses hx

end

/-- Two tasks run on the pools "io", which refuses tasks when it is full, and "db", which makes
their submitters wait; each pool has one slot. -/
def bothFull : List (Event Nat) :=
  [.call none (.execute "io" (some 7)), .advance 0, .advance 0, .advance 0,
    .pool 0 (.pool (.enter 0 true none)), .pool 0 (.pool (.announce 0 none)), .pool 0 (.answer 0),
    .advance 0, .pool 0 (.pool (.look 0 false)),
    .call none (.execute "db" (some 8)), .advance 1, .advance 1, .advance 1,
    .pool 1 (.pool (.enter 0 true none)), .pool 1 (.pool (.announce 0 none)), .pool 1 (.answer 0),
    .advance 1, .pool 1 (.pool (.look 0 false))]

/-- One more execution on "io" returns an overload, and one on "db" sleeps. -/
theorem refused_or_asleep :
    ∃ m₀ m onIo onDb : Manager Nat,
      ofConfigs [{ name := "io", size := 1 }, { name := "db", size := 1, nonBlocking := false }] {}
        = .ok m₀ ∧ m₀.run bothFull = some m ∧ m.AtRest ∧
      m.call none (.execute "io" (some 9)) = some onIo ∧
      onIo.Answers 2 "io" (some 9) true (some (.poolOverloaded "io")) ∧
      m.call none (.execute "db" (some 9)) = some onDb ∧
      onDb.Blocks 2 "db" (some 9) true := by
  obtain ⟨m₀, m, onIo, onDb, hm₀, hm, rest, io, db, count, at_io, at_db⟩ :
      ∃ m₀ m onIo onDb : Manager Nat,
        ofConfigs [{ name := "io", size := 1 }, { name := "db", size := 1, nonBlocking := false }]
          {} = .ok m₀ ∧ m₀.run bothFull = some m ∧ m.AtRest ∧
        m.call none (.execute "io" (some 9)) = some onIo ∧
        m.call none (.execute "db" (some 9)) = some onDb ∧ m.calls.length = 2 ∧
        m.admission "io" (some 9) true = .refuses (.poolOverloaded "io") ∧
        m.admission "db" (some 9) true = .blocks :=
    ⟨_, _, _, _, rfl, rfl, by decide, rfl, rfl, rfl, rfl, rfl⟩
  have exact := (admission_exact ((Reachable.create hm₀).run hm)).1 rest
  have onIo_meets := exact none "io" (some 9) true onIo io
  have onDb_meets := exact none "db" (some 9) true onDb db
  rw [count, at_io] at onIo_meets
  rw [count, at_db] at onDb_meets
  exact ⟨m₀, m, onIo, onDb, hm₀, hm, rest, io, onIo_meets, db, onDb_meets⟩

end Manager

end TaskPools
