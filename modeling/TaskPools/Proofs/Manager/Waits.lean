/-
# How long a call waits for releases

A reload or a shutdown waits for the releases of the pools that it retires.  Each of these waits for
the timeout of the manager and for no longer, and the call can return whatever the workers and the
tasks of its pools do, as long as the releases themselves get the threads that they need
(`Manager.KeepsTime`, `waits_bounded`); it does not matter which of the threads that look after the
releases can be started.  `deadlocked_by_shutdown` is a run in which a release gets none.
-/
import TaskPools.Proofs.Manager.Deadlock
import TaskPools.Proofs.Manager.Rejection

namespace TaskPools

variable {τ : Type}

namespace Manager

/-- Where release `t` of pool `i` stands. -/
def release? (m : Manager τ) (i t : Nat) : Option TimedRelease :=
  (m.fleet.pools[i]?).bind fun g => g.releases[t]?

/-- All releases wait for no longer than `bound`, but those for which `failed` happened. -/
def InTime (m : Manager τ) (bound : Int64) (failed : Nat → Nat → Prop) : Prop :=
  ∀ i t place, m.release? i t = some place → place.Waits bound (failed i t)

/-- The event is a step of call `c`, or some release starts its thread or gives up.  Nothing here
is done by a worker, by a task or by another call. -/
def Event.isUnaided (c : Nat) : Event τ → Bool
  | .advance c' | .launch c' _ _ | .collect c' _ => c' == c
  | .pool _ (.launch _ start) => start
  | .pool _ (.elapse _) => true
  | _ => false

/-- Whether call `c` can start a thread that looks after its next release. -/
def Event.start? (c : Nat) : Event τ → Option Bool
  | .launch c' _ start => if c' = c then some start else none
  | _ => none

/-- Call `c` and releases lead from one manager to another without help, while threads that look
after the releases can be started or not, one after the other, as `starts` says. -/
def Unaided (c : Nat) (starts : List Bool) (m m' : Manager τ) : Prop :=
  ∃ es, m.run es = some m' ∧ (∀ e ∈ es, e.isUnaided c = true) ∧
    es.filterMap (Event.start? c) = starts

/-- What holds of the waits in a manager after a run of these events. -/
structure KeepsTime (m : Manager τ) (timeout : Int64) (es : List (Event τ)) : Prop where
  /-- Each release waits for no longer than the timeout, unless no thread could be started for
  it. -/
  bounded : m.InTime timeout fun i t => .pool i (.launch t false) ∈ es
  /-- No release waits without a bound for a worker with a running task, unless no thread could be
  started for it. -/
  awaited : ∀ i t w, m.AwaitsTask i t w → .pool i (.launch t false) ∈ es
  /-- A call that retires pools can return without help, unless one of the releases it has begun
  runs on the thread of its caller. -/
  returns : ∀ c work r, m.work? c = some work → work.retirement? = some r →
    (∀ i t k, (i, t) ∈ r.underWay → m.release? i t ≠ some (.inline k)) →
    ∀ starts : List Bool, starts.length = r.todo.length →
      ∃ m' work', Unaided c starts m m' ∧ m'.work? c = some work' ∧ work'.isOver = true

section

variable {m m' n : Manager τ} {e : Event τ} {es : List (Event τ)} {c i j t w : Nat}
  {caller : Option (Nat × Nat)} {work work' : Work τ} {r : Retirement}
  {g g' : GuardedPool (Job τ)} {bound : Int64} {failed : Nat → Nat → Prop}

/-- No act changes the options. -/
theorem Act.options_eq (ha : Act m c caller e work work' n) :
    n.fleet.options = m.fleet.options := by
  cases ha with
  | build configs config rest batch batch' fleet builds =>
    obtain ⟨g, -, rfl, -⟩ := eq_of_build builds
    rfl
  | _ => rfl

/-- No step changes the options. -/
theorem Change.options_eq (hc : Change m e m') : m'.fleet.options = m.fleet.options := by
  cases hc with
  | call | pool => rfl
  | act c caller _ work work' n at_c acts => exact acts.options_eq

/-! ## Every release has the bound of the manager -/

/-- The releases of a pool are those that its manager knows. -/
theorem release?_of_pool (at_i : m.fleet.pools[i]? = some g) (t : Nat) :
    m.release? i t = g.releases[t]? := by
  rw [release?, at_i]
  rfl

/-- Releases stay in time where the pools stay and more launches may have failed. -/
theorem InTime.mono (h : m.InTime bound failed) (hn : n.fleet.pools = m.fleet.pools)
    {failed' : Nat → Nat → Prop} (later : ∀ i t, failed i t → failed' i t) :
    n.InTime bound failed' := by
  intro i t place at_t
  rw [release?, hn] at at_t
  exact (h i t place at_t).mono (later i t)

/-- A step of one pool leaves its releases in time if it begins none, or one with the right
bound. -/
theorem InTime.step (h : m.InTime bound failed) {event : GuardedPool.Event (Job τ)}
    (at_j : m.fleet.pools[j]? = some g) (steps : g.step event = some g')
    (in_time : ∀ own b, event = .release own b → b = bound)
    (hn : n.fleet.pools = m.fleet.pools.set j g') :
    n.InTime bound fun i t => failed i t ∨ i = j ∧ event = .move (.launch t false) := by
  intro i t place at_t
  obtain ⟨k, at_i, at_t⟩ := Option.bind_eq_some_iff.mp at_t
  rw [hn, getElem?_set_at at_j] at at_i
  split at at_i
  · rename_i hi
    cases at_i
    subst hi
    rcases (GuardedPool.change_of_step steps).release_before at_t with
      ⟨own, b, rfl, -, rfl⟩ | ⟨old, before, becomes⟩
    · rw [in_time own b rfl]
      exact .begun own
    · have waits := h i t old ((release?_of_pool at_j t).trans before)
      exact (becomes bound _ waits).mono (Or.imp_right (And.intro rfl))
  · have before : m.release? i t = some place := (release?_of_pool at_i t).trans at_t
    exact (h i t place before).mono Or.inl

/-- In every step each release has the bound that it was given, unless its launch failed. -/
theorem InTime.change (h : m.InTime m.fleet.options.timeout failed) (hc : Change m e m') :
    m'.InTime m.fleet.options.timeout fun i t =>
      failed i t ∨ e = .pool i (.launch t false) := by
  cases hc with
  | call caller request => exact h.mono rfl fun i t => Or.inl
  | pool j move g g' at_j moves =>
    refine (h.step at_j moves nofun (n := m.withPool j g') rfl).mono rfl fun i t => ?_
    refine Or.imp_right ?_
    rintro ⟨rfl, same⟩
    cases same
    rfl
  | act c caller _ work work' n at_c acts =>
    have asks := acts.asks
    generalize hps : n.fleet.pools = ps at asks
    cases asks with
    | nothing => exact h.mono hps fun i t => Or.inl
    | ask j g g' event at_j steps no_move in_time =>
      refine (h.step at_j steps in_time (n := n) hps).mono rfl fun i t => ?_
      exact Or.imp_right fun launched => absurd launched.2 (no_move _)
    | build config watched g created =>
      intro i t place at_t
      obtain ⟨k, at_i, at_t⟩ := Option.bind_eq_some_iff.mp at_t
      have at_i : (m.fleet.pools ++ [g])[i]? = some k := hps ▸ at_i
      rw [getElem?_append_one] at at_i
      split at at_i
      · cases at_i
        obtain ⟨-, pool, -, rfl⟩ := GuardedPool.eq_of_create created
        cases at_t
      · exact (h i t place ((release?_of_pool at_i t).trans at_t)).mono Or.inl

/-- After every run each release has the bound that it was given, unless its launch failed in the
run. -/
theorem InTime.run (h : m.InTime m.fleet.options.timeout failed) (hrun : m.run es = some m') :
    m'.InTime m.fleet.options.timeout fun i t => failed i t ∨ .pool i (.launch t false) ∈ es := by
  induction es generalizing m failed with
  | nil =>
    rw [run_nil hrun]
    exact h.mono rfl fun i t => Or.inl
  | cons e es ih =>
    obtain ⟨n, hn, hrun⟩ := run_cons hrun
    have hc := change_of_step hn
    have after := h.change hc
    rw [← hc.options_eq] at after ⊢
    refine (ih after hrun).mono rfl fun i t => ?_
    rintro ((before | rfl) | later)
    · exact Or.inl before
    · exact Or.inr List.mem_cons_self
    · exact Or.inr (List.mem_cons_of_mem e later)

/-- Building pools changes no options. -/
theorem options_of_buildAll {configs : List PoolConfig} {f f' : Fleet (Job τ)}
    {batch batch' : Batch} (builds : f.buildAll batch configs = .ok (f', batch')) :
    f'.options = f.options := by
  induction configs generalizing f batch with
  | nil =>
    cases builds
    rfl
  | cons config rest ih =>
    rw [Fleet.buildAll] at builds
    split at builds
    · rename_i hbuild
      obtain ⟨g, -, rfl, -⟩ := eq_of_build hbuild
      exact (ih builds).trans rfl
    · cases builds

/-- A new manager has the options that it was given. -/
theorem options_of_ofConfigs {configs : List PoolConfig} {options : FleetOptions}
    (h : ofConfigs configs options = .ok m) : m.fleet.options = options := by
  rw [ofConfigs] at h
  simp only [bind, Except.bind] at h
  split at h
  · cases h
  · rename_i built hbuilt
    cases h
    exact options_of_buildAll hbuilt

/-- In whatever a new manager comes to, each release has the bound of the options, unless its launch
failed. -/
theorem inTime_of_run {configs : List PoolConfig} {options : FleetOptions}
    (hcreate : ofConfigs configs options = .ok m) (hrun : m.run es = some m') :
    m'.InTime options.timeout fun i t => .pool i (.launch t false) ∈ es := by
  have nothing : m.InTime m.fleet.options.timeout fun _ _ => False := by
    obtain ⟨fleet, batch, fresh, rfl⟩ := eq_of_ofConfigs hcreate
    intro i t place at_t
    obtain ⟨g, at_i, at_t⟩ := Option.bind_eq_some_iff.mp at_t
    obtain ⟨config, watched, created⟩ := fresh.created g (List.mem_of_getElem? at_i)
    obtain ⟨-, pool, -, rfl⟩ := GuardedPool.eq_of_create created
    cases at_t
  rw [← options_of_ofConfigs hcreate]
  exact (nothing.run hrun).mono rfl fun i t => (Or.resolve_left · not_false)

/-! ## A call whose releases have a bound can return -/

theorem Unaided.refl (m : Manager τ) : Unaided c [] m m :=
  ⟨[], rfl, nofun, rfl⟩

/-- A call that comes somewhere without help, and farther from there, comes there without help. -/
theorem Unaided.trans {starts starts' : List Bool} (h : Unaided c starts m n)
    (h' : Unaided c starts' n m') : Unaided c (starts ++ starts') m m' := by
  obtain ⟨es, hrun, unaided, rfl⟩ := h
  obtain ⟨es', hrun', unaided', rfl⟩ := h'
  refine ⟨es ++ es', run_trans hrun hrun', fun e he => ?_, List.filterMap_append⟩
  exact (List.mem_append.mp he).elim (unaided e) (unaided' e)

/-- A step of the call, or of a release that it has begun, needs no help. -/
theorem Unaided.step (hstep : m.step e = some m') (unaided : e.isUnaided c = true) :
    Unaided c (e.start? c).toList m m' := by
  refine ⟨[e], run_one hstep, fun e' he => ?_, ?_⟩
  · rw [List.mem_singleton.mp he]
    exact unaided
  · rw [List.filterMap_cons]
    cases e.start? c <;> rfl

/-- The steps of a release of its own are such without help. -/
theorem unaided_of_moves {moves : List GuardedPool.Move} (at_i : m.fleet.pools[i]? = some g)
    (hrun : g.run (moves.map .move) = some g')
    (own : ∀ move ∈ moves, move = .launch t true ∨ move = .elapse t) :
    ∃ m', Unaided c [] m m' ∧ m'.calls = m.calls ∧ m'.fleet.pools = m.fleet.pools.set i g' := by
  induction moves generalizing m g with
  | nil =>
    rw [GuardedPool.run_nil hrun]
    obtain ⟨_, at_i⟩ := List.getElem?_eq_some_iff.mp at_i
    refine ⟨m, .refl m, rfl, ?_⟩
    rw [← at_i, List.set_getElem_self]
  | cons move moves ih =>
    obtain ⟨k, hk, hrun⟩ := GuardedPool.run_cons hrun
    have first := own move List.mem_cons_self
    have not_end : ∀ w panic escape, move ≠ .conclude w panic escape := by
      rcases first with rfl | rfl <;> nofun
    have unaided : (Event.pool i move : Event τ).isUnaided c = true := by
      rcases first with rfl | rfl <;> rfl
    have in_range := (List.getElem?_eq_some_iff.mp at_i).1
    obtain ⟨m', rest, calls_eq, pools_eq⟩ := ih (m := m.withPool i k)
      (List.getElem?_set_self in_range) hrun fun move hmove => own move (.tail _ hmove)
    refine ⟨m', (Unaided.step (step_pool at_i not_end hk) unaided).trans rest, calls_eq, ?_⟩
    rw [pools_eq]
    exact List.set_set ..

/-- A release to which a call sees can return without help, unless it runs on the thread of its
caller. -/
theorem Reachable.release_returns_unaided (h : m.Reachable) (hwork : m.work? c = some work)
    (sees : (i, t) ∈ work.attends) (timed : ∀ k, m.release? i t ≠ some (.inline k)) :
    ∃ m' g fault, Unaided c [] m m' ∧ m'.calls = m.calls ∧
      m'.fleet.pools = m.fleet.pools.set i g ∧ m'.fleet.pools[i]? = some g ∧
      g.releases[t]? = some (.returned fault) ∧ g.releases = [.returned fault] := by
  obtain ⟨g, place, rfl, at_i, only⟩ := h.only_release hwork sees
  have at_t : g.releases[0]? = some place := by rw [only]; rfl
  have not_inline (k : Nat) : place ≠ .inline k := by
    rintro rfl
    exact timed k ((release?_of_pool at_i 0).trans at_t)
  obtain ⟨moves, g', fault, hrun, own, releases_eq⟩ :=
    GuardedPool.canReturn_of_timed at_t not_inline
  obtain ⟨m', unaided, calls_eq, pools_eq⟩ := unaided_of_moves (c := c) at_i hrun own
  have alone : g'.releases = [.returned fault] := by rw [releases_eq, only]; rfl
  refine ⟨m', g', fault, unaided, calls_eq, pools_eq, ?_, by rw [alone]; rfl, alone⟩
  rw [pools_eq]
  exact List.getElem?_set_self (List.getElem?_eq_some_iff.mp at_i).1

/-- A call that has no use for the lock goes on where it can. -/
theorem advances_unaided (at_c : m.calls[c]? = some ⟨caller, work⟩)
    (lockless : work.takesLock = false)
    (goes : m.advanceWork c work = some (n, work')) (calls_eq : n.calls = m.calls) :
    ∃ m', Unaided c [] m m' ∧ m'.calls[c]? = some ⟨caller, work'⟩ := by
  have unaided : (Event.advance c : Event τ).isUnaided c = true := beq_self_eq_true c
  have hstep := step_advance at_c (.inl lockless) goes
  exact ⟨_, .step hstep unaided, getElem?_setWork (calls_eq ▸ at_c) work'⟩

/-- A call returns by itself once its retirement is over. -/
theorem returns_of_isOver (at_c : m.calls[c]? = some ⟨caller, work⟩)
    (retires : work.retirement? = some r) (is_over : r.isOver = true) :
    ∃ m' work', Unaided c [] m m' ∧ m'.work? c = some work' ∧ work'.isOver = true := by
  cases retires_of_retirement? retires with
  | discarding configs fault =>
    -- the assembly is done with its fault, and only then is the reload
    have done : m.advanceWork c (.reload configs (.assembling (.discarding fault r)))
        = some (m, .reload configs (.assembling (.done (.error fault)))) := by
      simp only [advanceWork, advanceReload, Assembly.advance, is_over, if_true]
      rfl
    obtain ⟨m₁, first, at_c₁⟩ := advances_unaided at_c rfl done rfl
    obtain ⟨m₂, second, at_c₂⟩ := advances_unaided at_c₁ rfl rfl rfl
    exact ⟨m₂, _, first.trans second, work?_of_getElem? at_c₂, rfl⟩
  | rejecting configs =>
    have done : m.advanceWork c (.reload configs (.rejecting r))
        = some (m, .reload configs (.returned (some .managerClosed))) := by
      simp only [advanceWork, advanceReload, is_over, if_true]
      rfl
    obtain ⟨m₁, first, at_c₁⟩ := advances_unaided at_c rfl done rfl
    exact ⟨m₁, _, first, work?_of_getElem? at_c₁, rfl⟩
  | retiring configs =>
    have done : m.advanceWork c (.reload configs (.retiring r))
        = some (m, .reload configs (.returned none)) := by
      simp only [advanceWork, advanceReload, is_over, if_true]
      rfl
    obtain ⟨m₁, first, at_c₁⟩ := advances_unaided at_c rfl done rfl
    exact ⟨m₁, _, first, work?_of_getElem? at_c₁, rfl⟩
  | shutdown =>
    have done : m.advanceWork c (.shutdown (.retiring r))
        = some (m.note .shutdownComplete, .shutdown .returned) := by
      simp only [advanceWork, advanceShutdown, is_over, if_true]
      rfl
    obtain ⟨m₁, first, at_c₁⟩ := advances_unaided at_c rfl done rfl
    exact ⟨m₁, _, first, work?_of_getElem? at_c₁, rfl⟩

/-- A release that returns makes no other run on the thread of its caller. -/
theorem not_inline_of_returned {fault : Option Fault} {k : Nat}
    (pools_eq : n.fleet.pools = m.fleet.pools.set i g) (alone : g.releases = [.returned fault])
    (timed : m.release? j t ≠ some (.inline k)) : n.release? j t ≠ some (.inline k) := by
  rw [release?, pools_eq, List.getElem?_set]
  split
  · split
    · rw [Option.bind_some, alone, List.getElem?_singleton]
      split <;> nofun
    · nofun
  · exact timed

/-- However far a retirement has come, its call can return without help, as long as none of its
releases runs on the thread of its caller. -/
theorem Reachable.returns_unaided (h : m.Reachable) (at_c : m.calls[c]? = some ⟨caller, work⟩)
    (retires : work.retirement? = some r)
    (timed : ∀ i t k, (i, t) ∈ r.underWay → m.release? i t ≠ some (.inline k))
    {starts : List Bool} (length_eq : starts.length = r.todo.length) :
    ∃ m' work', Unaided c starts m m' ∧ m'.work? c = some work' ∧ work'.isOver = true := by
  -- a pool still to be released takes a launch and a collection, a release under way the latter
  induction hk : 2 * r.todo.length + r.underWay.length using Nat.strongRecOn
    generalizing m work r starts with
  | ind k ih =>
    have hwork := work?_of_getElem? at_c
    by_cases busy : r.underWay = []
    · have idle : r.active = [] ∧ r.inline = none := by
        rw [Retirement.underWay, List.append_eq_nil_iff] at busy
        exact ⟨busy.1, by simpa using busy.2⟩
      cases htodo : r.todo with
      | nil =>
        rw [htodo, List.length_nil, List.length_eq_zero_iff] at length_eq
        have is_over : r.isOver = true := by
          rw [Retirement.isOver, htodo, idle.1, idle.2]
          rfl
        rw [length_eq]
        exact returns_of_isOver at_c retires is_over
      | cons i rest =>
        obtain ⟨start, starts, rfl⟩ :=
          List.exists_cons_of_length_eq_add_one (length_eq.trans (congrArg List.length htodo))
        have among : i ∈ r.todo := htodo ▸ List.mem_cons_self
        have at_i := List.getElem?_eq_getElem (h.built_of_todo hwork retires among)
        obtain ⟨m₁, own, r', hstep, pools_eq, at_c₁, hperm, started⟩ :=
          step_launch at_c retires among idle.2 at_i start
        have less : 2 * r'.todo.length + r'.underWay.length < k := by
          rw [hperm.length_eq, List.length_cons, busy, List.length_nil] at hk
          rw [started, busy, List.nil_append, List.length_singleton]
          omega
        have timed' : ∀ i t k, (i, t) ∈ r'.underWay → m₁.release? i t ≠ some (.inline k) := by
          intro i' t' k' sees
          rw [started, busy, List.nil_append, List.mem_singleton] at sees
          cases sees
          rw [release?, pools_eq, List.getElem?_set_self (List.getElem?_eq_some_iff.mp at_i).1,
            Option.bind_some, List.getElem?_concat_length]
          rintro ⟨⟩
        have length_eq' : starts.length = r'.todo.length := by
          rw [hperm.length_eq] at length_eq
          exact Nat.succ.inj length_eq
        obtain ⟨m', work', unaided, returned⟩ := ih _ less (h.step hstep) at_c₁
          (retirement?_withRetirement retires r') timed' length_eq' rfl
        have first : Unaided c [start] m m₁ := by
          have launches := Unaided.step (c := c) hstep (beq_self_eq_true c)
          rwa [Event.start?, if_pos rfl, Option.toList_some] at launches
        exact ⟨m', work', first.trans unaided, returned⟩
    · obtain ⟨i, t, k', r', sees, todo_eq, fewer, collects⟩ :=
        @Retirement.exists_collect (Job τ) r busy
      have attends : (i, t) ∈ work.attends := by
        rw [attends_of_retirement retires]
        exact sees
      obtain ⟨m₁, g, fault, first, calls_eq, pools_eq, at_i, returned, alone⟩ :=
        h.release_returns_unaided hwork attends (timed i t · sees)
      obtain ⟨f', noted⟩ := Retirement.takeNote_of_returned at_i returned
      obtain ⟨m₂, hstep₂, fleet_eq, at_c₂⟩ :=
        step_collect (calls_eq ▸ at_c) retires (collects m₁.fleet f' noted)
      have less : 2 * r'.todo.length + r'.underWay.length < k := by
        rw [todo_eq]
        omega
      have same_pools : m₂.fleet.pools = m.fleet.pools.set i g := by
        obtain ⟨⟨notices, rfl⟩, -⟩ := Retirement.eq_of_takeNote noted
        rw [fleet_eq]
        exact pools_eq
      have timed' : ∀ i t k, (i, t) ∈ r'.underWay → m₂.release? i t ≠ some (.inline k) := by
        intro i' t' k still
        obtain ⟨_, _, -, hperm⟩ := underWay_collect (collects m₁.fleet f' noted)
        have before := hperm.mem_iff.mpr (List.mem_cons_of_mem _ still)
        exact not_inline_of_returned same_pools alone (timed i' t' k before)
      have reachable : m₁.Reachable := by
        obtain ⟨es, hrun, -⟩ := first
        exact h.run hrun
      obtain ⟨m₃, work', rest, finished⟩ := ih _ less (reachable.step hstep₂) at_c₂
        (retirement?_withRetirement retires r') timed' (todo_eq ▸ length_eq) rfl
      have second : Unaided c [] m₁ m₂ := .step hstep₂ (beq_self_eq_true c)
      exact ⟨m₃, work', (first.trans second).trans rest, finished⟩

/-- **The wait for a release is bounded, unless no thread could be started for it.**  A release of
a guarded pool waits for the time that its caller gave it and can then return of itself, and it
waits without a bound for a worker with a running task only after the start of its thread has
failed.  The releases that the calls on a manager see to have the timeout of the manager, and as
long as none of those that a reload or a shutdown has begun runs on the thread of its caller, the
call can return without help from a worker, a task or another call, whether threads that look after
the releases can be started or not, and also if it was made by a task of one of these pools. -/
theorem waits_bounded :
    (∀ (config : PoolConfig) (watched : Bool) (g₀ g : GuardedPool τ)
      (es : List (GuardedPool.Event τ)),
      GuardedPool.create config watched = .ok g₀ → g₀.run es = some g → g.KeepsTime es) ∧
    ∀ (configs : List PoolConfig) (options : FleetOptions) (m₀ m : Manager τ)
      (es : List (Event τ)),
      ofConfigs configs options = .ok m₀ → m₀.run es = some m → m.KeepsTime options.timeout es := by
  refine ⟨fun config watched g₀ g es => GuardedPool.keepsTime_of_run, ?_⟩
  intro configs options m₀ m es hcreate hrun
  have bounded := inTime_of_run hcreate hrun
  refine ⟨bounded, ?_, ?_⟩
  · rintro i t w ⟨g, task, at_i, r, at_t, -⟩
    have waits := bounded i t _ ((release?_of_pool at_i t).trans at_t)
    cases waits with
    | inline r unstarted => exact unstarted
  · intro c work r hwork retires timed starts length_eq
    obtain ⟨⟨caller, _⟩, at_c, rfl⟩ := Option.map_eq_some_iff.mp hwork
    exact ((Reachable.create hcreate).run hrun).returns_unaided at_c retires timed length_eq

end

/-- A pool with one worker runs task 7, and a release waits for it. -/
def heldUp : List (GuardedPool.Event Nat) :=
  [.submit (some 7), .move (.pool (.enter 0 true none)), .move (.pool (.announce 0 none)),
    .move (.answer 0), .move (.pool (.look 0 false)), .release none 50, .move (.launch 0 true),
    .move (.pool (.close 0)), .move (.pool (.alertWorkers 0)), .move (.pool (.alertSubmitters 0))]

/-- Pool `i` with one worker runs task 7. -/
def occupied (i : Nat) : List (Event Nat) :=
  [.call none (.execute "io" (some 7)), .advance 0, .advance 0, .advance 0,
    .pool i (.pool (.enter 0 true none)), .pool i (.pool (.announce 0 none)), .pool i (.answer 0),
    .advance 0, .pool i (.pool (.look 0 false))]

/-- While it does, `caller` shuts the manager down.  Of the thread that looks after the release of
the pool and that of the release itself only the one or the other can be started. -/
def shutDownBy (caller : Option (Nat × Nat)) (i : Nat) (start : Bool) : List (Event Nat) :=
  [.call caller .shutdown, .advance 1, .advance 1, .launch 1 i start,
    .pool i (.launch 0 (!start)), .pool i (.pool (.close 0)), .pool i (.pool (.alertWorkers 0)),
    .pool i (.pool (.alertSubmitters 0))]

/-- A release waits for its 50 milliseconds while the pool runs a task, and a shutdown that is made
by the task itself can return, although no thread could be started to look after the release. -/
theorem returns_while_task_runs :
    (∃ g₀ g : GuardedPool Nat, GuardedPool.create { name := "io", size := 1 } false = .ok g₀ ∧
      g₀.run heldUp = some g ∧ g.pool.workers = [.running 7] ∧
      g.releases = [.waiting 0 50] ∧ g.KeepsTime heldUp) ∧
    ∃ (m₀ m m' : Manager Nat) (work : Work Nat),
      ofConfigs [{ name := "a", size := 1 }, { name := "io", size := 1 }] { timeout := 50 }
        = .ok m₀ ∧
      m₀.run (occupied 1 ++ shutDownBy (some (1, 0)) 1 false) = some m ∧
      m.isRunning 1 0 = true ∧ m.release? 1 0 = some (.waiting 0 50) ∧
      Unaided 1 [false] m m' ∧ m'.work? 1 = some work ∧ work.isOver = true := by
  constructor
  · refine ⟨_, _, rfl, rfl, rfl, rfl, ?_⟩
    exact waits_bounded.1 { name := "io", size := 1 } false _ _ heldUp rfl rfl
  · obtain ⟨m₀, m, hcreate, hrun, running, waiting, work, r, hwork, retires, todo, only⟩ :
        ∃ (m₀ m : Manager Nat),
          ofConfigs [{ name := "a", size := 1 }, { name := "io", size := 1 }] { timeout := 50 }
            = .ok m₀ ∧
          m₀.run (occupied 1 ++ shutDownBy (some (1, 0)) 1 false) = some m ∧
          m.isRunning 1 0 = true ∧ m.release? 1 0 = some (.waiting 0 50) ∧
          ∃ work r, m.work? 1 = some work ∧ work.retirement? = some r ∧ r.todo = [0] ∧
            r.underWay = [(1, 0)] :=
      ⟨_, _, rfl, rfl, rfl, rfl, _, _, rfl, rfl, rfl, rfl⟩
    have timed : ∀ i t k, (i, t) ∈ r.underWay → m.release? i t ≠ some (.inline k) := by
      intro i t k sees
      rw [only, List.mem_singleton] at sees
      cases sees
      rw [waiting]
      nofun
    obtain ⟨m', work', unaided, hwork', is_over⟩ :=
      (waits_bounded.2 _ _ m₀ m _ hcreate hrun).returns 1 work r hwork retires timed [false]
        (by rw [todo]; rfl)
    exact ⟨m₀, m, m', work', hcreate, hrun, running, waiting, unaided, hwork', is_over⟩

/-- A task shuts its own manager down, and the thread that looks after the release of its pool can
be started and that of the release cannot.  The release then waits for the task without a bound, and
the shutdown never returns. -/
theorem deadlocked_by_shutdown :
    ∃ m₀ m : Manager Nat, ofConfigs [{ name := "io", size := 1 }] { timeout := 50 } = .ok m₀ ∧
      m₀.run (occupied 0 ++ shutDownBy (some (0, 0)) 0 true) = some m ∧
      m.AwaitsTask 0 0 0 ∧
      ∀ es m', m.run es = some m' → ∃ work, m'.work? 1 = some work ∧ work.isOver = false := by
  obtain ⟨m₀, m, hcreate, hrun, deadlocked⟩ : ∃ m₀ m : Manager Nat,
      ofConfigs [{ name := "io", size := 1 }] { timeout := 50 } = .ok m₀ ∧
        m₀.run (occupied 0 ++ shutDownBy (some (0, 0)) 0 true) = some m ∧
        m.Deadlocked 1 0 0 0 :=
    ⟨_, _, rfl, rfl, ⟨_, rfl, List.mem_singleton.mpr rfl⟩,
      ⟨_, ⟨0, 7⟩, rfl, 0, rfl, rfl, none, [], rfl, nofun⟩⟩
  exact ⟨m₀, m, hcreate, hrun, deadlocked.awaits,
    fun es m' later => deadlocked.never_returns later⟩

end Manager

end TaskPools
