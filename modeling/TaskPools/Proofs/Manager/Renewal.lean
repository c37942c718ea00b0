/-
# A reload leaves no trace

When a reload returns without a fault, the manager holds a batch that was built for its list, as a
new manager does, and whatever is older departs: pools that drain, and calls that see to that.  So
from then on the manager is a new manager behind what is older (`Renewed`).  Every step that happens
to the new pools and calls is a step of the new manager, and every other step leaves it as it is
(`Renewed.step`, `Renewed.within`): for all time the two show the same
(`reload_leaves_no_trace`).
-/
import TaskPools.Proofs.Manager.Departures
import TaskPools.Proofs.Manager.Renumbering
import TaskPools.Proofs.Manager.Waits

namespace TaskPools

variable {τ : Type}

/-- A reload that has failed, or is bound to. -/
def Work.fails : Work τ → Bool
  | .reload _ (.assembling (.discarding _ _)) | .reload _ (.assembling (.done (.error _)))
  | .reload _ (.rejecting _) | .reload _ (.returned (some _)) => true
  | _ => false

/-- A reload of a list that has not installed its batch: what is left of the list, and the batch so
far. -/
inductive Preparation (configs : List PoolConfig) : List PoolConfig → Batch → Work τ → Prop where
  | begun : Preparation configs configs [] (.reload configs .begun)
  | building (todo : List PoolConfig) (batch : Batch) :
      Preparation configs todo batch (.reload configs (.assembling (.building todo batch)))
  | assembled (batch : Batch) :
      Preparation configs [] batch (.reload configs (.assembling (.done (.ok batch))))
  | built (batch : Batch) : Preparation configs [] batch (.reload configs (.built batch))
  | checked (batch : Batch) : Preparation configs [] batch (.reload configs (.checked batch))

namespace Manager

/-! ## What came since -/

/-- A task in one of the first `d` pools makes a call. -/
def Event.isCallWithin (d : Nat) : Event τ → Bool
  | .call (some (i, _)) _ => decide (i < d)
  | _ => false

/-- The event with the numbers of pools and calls shifted back. -/
def Event.unshift (d k : Nat) : Event τ → Event τ
  | .call caller request => .call (caller.map (Prod.map (· - d) id)) request
  | .advance c => .advance (c - k)
  | .launch c i start => .launch (c - k) (i - d) start
  | .collect c place => .collect (c - k) place
  | .pool i move => .pool (i - d) move

/-- The event as it is for a manager that has no pools and no calls before its own; nothing, if it
happens to one of the first `d` pools or of the first `k` calls. -/
def Event.since? (d k : Nat) (e : Event τ) : Option (Event τ) :=
  if e.within d k then none else some (e.unshift d k)

/-- What `m` shows of the pools and the calls that came after the first `d` pools and the first `k`
calls is what `f` shows of its own. -/
structure Mirrors (d k : Nat) (m f : Manager τ) : Prop where
  closed : m.closed = f.closed
  names : m.installed.names = f.installed.names
  /-- The later calls are the same, and they have answered the same. -/
  answers : ∀ c, (m.work? (k + c)).map (fun work => (work.request, work.answer?))
    = (f.work? c).map fun work => (work.request, work.answer?)
  /-- The later pools hold the same, but for the numbers of the calls that handed the tasks in. -/
  pools : ∀ i, (m.fleet.pools[d + i]?).map (GuardedPool.map Job.task)
    = (f.fleet.pools[i]?).map (GuardedPool.map Job.task)
  taken : ∀ i, (m.fleet.pools[d + i]?).map (fun g => g.pool.taken.map Job.task)
    = (f.fleet.pools[i]?).map fun g => g.pool.taken.map Job.task
  ended : ∀ i, (m.fleet.pools[d + i]?).map (fun g => g.pool.ended.map Job.task)
    = (f.fleet.pools[i]?).map fun g => g.pool.ended.map Job.task
  stats : ∀ i, (m.fleet.pools[d + i]?).map GuardedPool.stats
    = (f.fleet.pools[i]?).map GuardedPool.stats

/-- `m` is `f` behind `d` pools and `k` calls that depart. -/
def Renewed (d k : Nat) (f m : Manager τ) : Prop :=
  ∃ (r : Remains τ) (notices : List Notice), r.pools.length = d ∧ r.calls.length = k ∧
    (∀ call ∈ r.calls, call.Departs d) ∧ m = f.after r notices

/-- Where a reload stands that found only departing calls: it has built a first part of its batch
behind the older pools, or it is over and the manager is renewed, or it fails. -/
inductive Reloads (d k : Nat) (configs : List PoolConfig) (options : FleetOptions) (m : Manager τ) :
    Prop where
  | prepares (ps : List (GuardedPool (Job τ))) (cs : List (Call τ)) (fleet : Fleet (Job τ))
      (batch : Batch) (ready todo : List PoolConfig) (notices : List Notice) (work : Work τ)
      (pools_length : ps.length = d) (calls_length : cs.length = k)
      (departing : ∀ call ∈ cs, call.Departs d) (installed : ∀ i ∈ m.installed.pools, i < d)
      (list_eq : configs = ready ++ todo)
      (builds : ({ options } : Fleet (Job τ)).buildAll [] ready = .ok (fleet, batch))
      (preparation : Preparation configs todo (batch.shift d) work)
      (is_open : work.holdsLock = true → m.closed = false)
      (fleet_eq : m.fleet = fleet.after ps (k + 1) notices)
      (calls_eq : m.calls = cs ++ [⟨none, work⟩])
  | renews (f : Manager τ) (created : ofConfigs configs options = .ok f)
      (renewed : Renewed d (k + 1) f m)
  | fails (work : Work τ) (at_k : m.work? k = some work) (failing : work.fails = true)

end Manager

/-- A pool that was just built does nothing by itself. -/
theorem GuardedPool.step_of_create {g : GuardedPool τ} {config : PoolConfig} {watched : Bool}
    (created : create config watched = .ok g) (move : Move) : g.step (.move move) = none := by
  obtain ⟨-, pool, hpool, rfl⟩ := eq_of_create created
  obtain ⟨-, -, rfl⟩ := Pool.eq_of_create hpool
  cases move with
  | pool m => cases m <;> rfl
  | conclude w panic escape =>
    cases panic with
    | none => rfl
    | some panic => cases watched <;> rfl
  | answer | launch | complete | elapse => rfl

section

variable {m m' n f f' : Manager τ} {e : Manager.Event τ} {es : List (Manager.Event τ)} {c d k : Nat}
  {caller : Option (Nat × Nat)} {work work' : Work τ} {configs todo : List PoolConfig}
  {batch : Batch} {options : FleetOptions}

namespace Manager

/-! ## A renewed manager -/

/-- The new calls release new pools. -/
theorem Renewed.le_of_launch (h : Renewed d k f m) {i : Nat} {start : Bool}
    (hstep : m.step (.launch (k + c) i start) = some m') : d ≤ i := by
  obtain ⟨r, notices, rfl, rfl, -, rfl⟩ := h
  obtain ⟨call, at_c, hstep⟩ := Option.bind_eq_some_iff.mp hstep
  obtain ⟨retirement, retires, hstep⟩ := Option.bind_eq_some_iff.mp hstep
  obtain ⟨⟨fleet, retirement'⟩, launches, -⟩ := Option.bind_eq_some_iff.mp hstep
  obtain ⟨-, -, -, hperm, -⟩ := (Retirement.launch_of_eq launches).eq
  have among : i ∈ retirement.todo := hperm.mem_iff.mpr List.mem_cons_self
  rw [getElem?_calls_after] at at_c
  obtain ⟨new, -, rfl⟩ := Option.map_eq_some_iff.mp at_c
  rw [Call.shift, Work.retirement?_shift] at retires
  obtain ⟨old, -, rfl⟩ := Option.map_eq_some_iff.mp retires
  obtain ⟨j, -, rfl⟩ := List.mem_map.mp among
  exact Nat.le_add_right _ j

/-- An event that concerns none of the older pools and calls is one of the new manager. -/
theorem Renewed.shift_unshift (h : Renewed d k f m) (hstep : m.step e = some m')
    (outside : e.within d k = false) (later : e.isCallWithin d = false) :
    (e.unshift d k).shift d k = e := by
  cases e with
  | call caller request =>
    rcases caller with _ | ⟨i, w⟩
    · rfl
    · have behind : d ≤ i := Nat.le_of_not_lt (of_decide_eq_false later)
      simp only [Event.unshift, Event.shift, Option.map_some, Prod.map_apply, id_eq,
        Nat.add_sub_cancel' behind]
  | advance c | collect c =>
    have behind : k ≤ c := Nat.le_of_not_lt (of_decide_eq_false outside)
    simp only [Event.unshift, Event.shift, Nat.add_sub_cancel' behind]
  | launch c i start =>
    obtain ⟨c, rfl⟩ := Nat.exists_eq_add_of_le (Nat.le_of_not_lt (of_decide_eq_false outside))
    simp only [Event.unshift, Event.shift, Nat.add_sub_cancel_left,
      Nat.add_sub_cancel' (h.le_of_launch hstep)]
  | pool i move =>
    have behind : d ≤ i := Nat.le_of_not_lt (of_decide_eq_false outside)
    simp only [Event.unshift, Event.shift, Nat.add_sub_cancel' behind]

/-- What happens to the older pools and calls changes nothing in the new manager. -/
theorem Renewed.within (h : Renewed d k f m) (hstep : m.step e = some m')
    (inside : e.within d k = true) : Renewed d k f m' := by
  obtain ⟨r, notices, rfl, rfl, departing, rfl⟩ := h
  obtain ⟨ps', cs', notices', pools_length, calls_length, departing', rfl⟩ :=
    (change_of_step hstep).departs inside rfl rfl departing
  refine ⟨⟨ps', r.past, cs'⟩, notices', pools_length, calls_length, departing', ?_⟩
  simp only [after, Remains.offset, Fleet.after, pools_length, calls_length]

/-- What happens to the new pools and calls happens in the new manager. -/
theorem Renewed.step (h : Renewed d k f m) (e : Event τ) :
    Option.Rel (Renewed d k) (f.step e) (m.step (e.shift d k)) := by
  obtain ⟨r, notices, rfl, rfl, departing, rfl⟩ := h
  obtain ⟨notices', steps⟩ :=
    f.step_after r notices (fun call among => (departing call among).caller)
      (fun call among => Work.holdsLock_of_lingers (departing call among).lingers) e
  rw [steps]
  cases f.step e with
  | none => exact .none
  | some f' => exact .some ⟨r, notices', rfl, rfl, departing, rfl⟩

/-- A run of a renewed manager is a run of the new one, with what happens to older pools and calls
left out. -/
theorem Renewed.run (h : Renewed d k f m) (hrun : m.run es = some m')
    (later : ∀ e ∈ es, e.isCallWithin d = false) :
    ∃ f', f.run (es.filterMap (Event.since? d k)) = some f' ∧ Renewed d k f' m' := by
  induction es generalizing m f with
  | nil =>
    rw [run_nil hrun]
    exact ⟨f, rfl, h⟩
  | cons e es ih =>
    obtain ⟨n, hstep, hrun⟩ := run_cons hrun
    obtain ⟨first, rest⟩ := List.forall_mem_cons.mp later
    cases inside : e.within d k with
    | true =>
      have dropped : e.since? d k = none := if_pos inside
      rw [List.filterMap_cons_none dropped]
      exact ih (h.within hstep inside) hrun rest
    | false =>
      have kept : e.since? d k = some (e.unshift d k) := if_neg (by rw [inside]; nofun)
      have steps := h.step (e.unshift d k)
      rw [h.shift_unshift hstep inside first, hstep] at steps
      rw [List.filterMap_cons_some kept]
      generalize hf : f.step (e.unshift d k) = next at steps
      cases steps with
      | some renewed =>
        obtain ⟨f', hf', renewed'⟩ := ih renewed hrun rest
        exact ⟨f', run_of_step hf hf', renewed'⟩

theorem Renewed.enabled (h : Renewed d k f m) (e : Event τ) :
    (m.step (e.shift d k)).isSome = (f.step e).isSome := by
  have steps := h.step e
  generalize f.step e = next, m.step (e.shift d k) = next' at steps
  cases steps <;> rfl

theorem Renewed.mirrors (h : Renewed d k f m) : m.Mirrors d k f := by
  obtain ⟨r, notices, rfl, rfl, -, rfl⟩ := h
  have pools (i : Nat) :
      ((f.after r notices).fleet.pools[r.pools.length + i]?).map (GuardedPool.map Job.task)
        = (f.fleet.pools[i]?).map (GuardedPool.map Job.task) := by
    rw [getElem?_fleet_after, Option.map_map]
    congr 1
    exact funext fun g => GuardedPool.map_map (Job.shift r.calls.length) g Job.task
  have seen (i : Nat) := GuardedPool.seen_of_map_eq Job.task (pools i)
  refine ⟨rfl, Batch.names_shift _ f.installed, fun c => ?_, pools, fun i => (seen i).1,
    fun i => (seen i).2.1, fun i => (seen i).2.2⟩
  rw [work?, getElem?_calls_after, work?, Option.map_map, Option.map_map, Option.map_map]
  congr 1
  funext call
  simp only [Function.comp_apply, Call.shift, Work.request_shift, Work.answer?_shift]

/-! ## A reload from its beginning to its end -/

/-- A new manager does nothing unless it is called. -/
theorem step_of_ofConfigs (created : ofConfigs configs options = .ok f)
    (no_call : ∀ caller request, e ≠ .call caller request) : f.step e = none := by
  obtain ⟨fleet, batch, fresh, rfl⟩ := eq_of_ofConfigs created
  cases e with
  | call caller request => exact absurd rfl (no_call caller request)
  | advance | launch | collect => rfl
  | pool i move =>
    cases hstep : (ofBatch fleet batch).step (.pool i move) with
    | none => rfl
    | some f' =>
      cases change_of_step hstep with
      | pool _ _ g g' at_i moves =>
        obtain ⟨config, watched, new⟩ := fresh.created g (List.mem_of_getElem? at_i)
        rw [GuardedPool.step_of_create new] at moves
        cases moves
      | act c _ _ _ _ _ at_c => cases at_c

/-- What a reload does before it installs its batch: it goes on, builds a pool more, installs what
it has built, or fails. -/
inductive Prepares (m : Manager τ) (configs todo : List PoolConfig) (batch : Batch) (work' : Work τ)
    (n : Manager τ) : Prop where
  | goes (preparation : Preparation configs todo batch work') (same : n = m)
  | builds (config : PoolConfig) (rest : List PoolConfig) (batch' : Batch) (fleet : Fleet (Job τ))
      (todo_eq : todo = config :: rest) (builds : m.fleet.build batch config = .ok (fleet, batch'))
      (preparation : Preparation configs rest batch' work') (n_eq : n = { m with fleet })
  | installs (todo_eq : todo = []) (is_open : m.closed = false)
      (work_eq : work' = .reload configs (.retiring (.ofBatch m.installed)))
      (n_eq : n = (m.install batch).note (.reloaded batch.length m.installed.length))
  | fails (failing : work'.fails = true)

theorem Act.prepares (ha : Act m c caller e work work' n)
    (preparation : Preparation configs todo batch work)
    (is_open : work.holdsLock = true → m.closed = false) :
    Prepares m configs todo batch work' n := by
  cases preparation with
  | begun =>
    cases ha with
    | goOn _ _ follows =>
      cases follows with
      | reloadClosed => exact .fails rfl
      | reloadOpen => exact .goes (.building _ _) rfl
    | launch _ _ _ _ retires | launchInline _ _ _ _ retires | collect _ _ _ _ _ retires =>
      cases retires
  | building =>
    cases ha with
    | goOn _ _ follows =>
      cases follows with
      | allBuilt => exact .goes (.assembled _) rfl
      | discard => exact .fails rfl
    | build _ config rest _ batch' fleet builds =>
      exact .builds config rest batch' fleet rfl builds (.building _ _) rfl
    | launch _ _ _ _ retires | launchInline _ _ _ _ retires | collect _ _ _ _ _ retires =>
      cases retires
  | assembled =>
    cases ha with
    | goOn _ _ follows =>
      cases follows
      exact .goes (.built _) rfl
    | launch _ _ _ _ retires | launchInline _ _ _ _ retires | collect _ _ _ _ _ retires =>
      cases retires
  | built =>
    cases ha with
    | goOn _ _ follows =>
      cases follows with
      | reject => exact .fails rfl
      | check => exact .goes (.checked _) rfl
    | launch _ _ _ _ retires | launchInline _ _ _ _ retires | collect _ _ _ _ _ retires =>
      cases retires
  | checked =>
    cases ha with
    | goOn _ _ follows => cases follows
    | install => exact .installs rfl (is_open rfl) rfl rfl
    | launch _ _ _ _ retires | launchInline _ _ _ _ retires | collect _ _ _ _ _ retires =>
      cases retires

/-- A reload that fails goes on failing. -/
theorem Act.fails (ha : Act m c caller e work work' n) (failing : work.fails = true) :
    work'.fails = true := by
  cases ha with
  | goOn _ _ follows =>
    cases follows with
    | discarded | rejected => rfl
    | _ => cases failing
  | failReload => rfl
  | launch _ _ _ _ retires | launchInline _ _ _ _ retires | collect _ _ _ _ _ retires =>
    cases retires_of_retirement? retires with
    | discarding | rejecting => rfl
    | retiring | shutdown => cases failing
  | submit | resubmit | sample | gauge | build | install | close | emptyNothing | emptyOut
  | shutDown => cases failing

theorem buildAll_concat {f f' f'' : Fleet τ} {batch batch' batch'' : Batch} {config : PoolConfig}
    (all : f.buildAll batch configs = .ok (f', batch'))
    (one : f'.build batch' config = .ok (f'', batch'')) :
    f.buildAll batch (configs ++ [config]) = .ok (f'', batch'') := by
  induction configs generalizing f batch with
  | nil =>
    cases all
    rw [List.nil_append, Fleet.buildAll, one]
    rfl
  | cons first rest ih =>
    rw [Fleet.buildAll] at all
    rw [List.cons_append, Fleet.buildAll]
    split at all
    · exact ih all
    · cases all

/-- Once a batch is installed that was built behind others, the manager is a new one behind them. -/
theorem after_of_install {ps : List (GuardedPool (Job τ))} {cs : List (Call τ)}
    {fleet : Fleet (Job τ)} {notices : List Notice} (is_open : m.closed = false)
    (fleet_eq : m.fleet = fleet.after ps (cs.length + 1) notices)
    (calls_eq : m.calls = cs ++ [⟨none, work⟩]) (work' : Work τ) (notice : Notice) :
    ((m.install (batch.shift ps.length)).note notice).setWork cs.length work'
      = (ofBatch fleet batch).after ⟨ps, m.installed :: m.past, cs ++ [⟨none, work'⟩]⟩
        (notices ++ [notice]) := by
  obtain ⟨own_fleet, installed, past, closed, calls⟩ := m
  simp only at is_open fleet_eq calls_eq
  subst is_open fleet_eq calls_eq
  have moved := modify_append_add cs [⟨none, work⟩] 0 fun call => { call with work := work' }
  rw [Nat.add_zero] at moved
  simp only [after, setWork, note, install, moved, List.length_append, ofBatch, List.map_nil,
    List.append_nil, List.nil_append]
  rfl

/-- What the reload does itself takes it further. -/
theorem Act.reloads (ha : Act m k none e work work' n) {ps : List (GuardedPool (Job τ))}
    {cs : List (Call τ)} {fleet : Fleet (Job τ)} {ready : List PoolConfig} {notices : List Notice}
    (pools_length : ps.length = d) (calls_length : cs.length = k)
    (departing : ∀ call ∈ cs, call.Departs d) (installed : ∀ i ∈ m.installed.pools, i < d)
    (list_eq : configs = ready ++ todo)
    (builds : ({ options } : Fleet (Job τ)).buildAll [] ready = .ok (fleet, batch))
    (preparation : Preparation configs todo (batch.shift d) work)
    (is_open : work.holdsLock = true → m.closed = false)
    (fleet_eq : m.fleet = fleet.after ps (k + 1) notices)
    (calls_eq : m.calls = cs ++ [⟨none, work⟩]) :
    Reloads d k configs options (n.setWork k work') := by
  subst pools_length calls_length
  have is_open' (holds : work'.holdsLock = true) : (n.setWork cs.length work').closed = false := by
    obtain ⟨-, rfl, was_open, -⟩ := ha.checks holds
    exact was_open
  have moved : (n.setWork cs.length work').calls = cs ++ [⟨none, work'⟩] := by
    rw [setWork, ha.calls_eq, calls_eq]
    exact modify_append_add cs [⟨none, work⟩] 0 _
  cases ha.prepares preparation is_open with
  | goes preparation' same =>
    subst same
    exact .prepares ps cs fleet batch ready todo notices work' rfl rfl departing installed list_eq
      builds preparation' is_open' fleet_eq moved
  | builds config rest batch' fleet' todo_eq built preparation' n_eq =>
    subst todo_eq n_eq
    rw [fleet_eq, Fleet.build_after] at built
    rcases one : fleet.build batch config with fault | ⟨fleet₁, batch₁⟩
    · rw [one] at built
      cases built
    · rw [one] at built
      cases built
      refine .prepares ps cs fleet₁ batch₁ (ready ++ [config]) rest notices work' rfl rfl departing
        installed ?_ (buildAll_concat builds one) preparation' is_open' rfl moved
      rw [list_eq, List.append_assoc, List.singleton_append]
  | installs todo_eq is_open work_eq n_eq =>
    subst todo_eq work_eq n_eq
    have created : ofConfigs configs options = .ok (ofBatch fleet batch) := by
      rw [ofConfigs, list_eq, List.append_nil, builds]
      rfl
    refine .renews _ created ⟨_, _, rfl, List.length_append, fun call among => ?_,
      after_of_install is_open fleet_eq calls_eq _ _⟩
    rcases List.mem_append.mp among with before | own
    · exact departing call before
    · obtain rfl := List.mem_singleton.mp own
      refine ⟨rfl, fun i owned => installed i owned, ?_⟩
      rintro i w ⟨⟩
  | fails failing =>
    refine .fails work' ?_ failing
    rw [work?, moved, List.getElem?_concat_length]
    rfl

/-- A step in which nobody makes a call takes the reload further. -/
theorem Reloads.step (h : Reloads d k configs options m) (hstep : m.step e = some m')
    (no_call : ∀ caller request, e ≠ .call caller request) : Reloads d k configs options m' := by
  have hc := change_of_step hstep
  cases h with
  | prepares ps cs fleet batch ready todo notices work pools_length calls_length departing installed
      list_eq builds preparation is_open fleet_eq calls_eq =>
    subst pools_length calls_length
    cases inside : e.within ps.length cs.length with
    | true =>
      obtain ⟨ps', cs', notices', pools_length, calls_length, departing', rfl⟩ :=
        hc.departs inside (congrArg Fleet.pools fleet_eq) calls_eq departing
      refine .prepares ps' cs' fleet batch ready todo notices' work pools_length calls_length
        departing' installed list_eq builds preparation is_open ?_ rfl
      simp only [fleet_eq]
      rfl
    | false =>
      cases hc with
      | call caller request => exact absurd rfl (no_call caller request)
      | pool i move g g' at_i moves =>
        -- the pools that the reload has built have nothing to do yet
        obtain ⟨j, rfl⟩ := Nat.exists_eq_add_of_le (Nat.le_of_not_lt (of_decide_eq_false inside))
        rw [fleet_eq, Fleet.getElem?_pools_after] at at_i
        obtain ⟨g, at_j, rfl⟩ := Option.map_eq_some_iff.mp at_i
        obtain ⟨config, watched, new⟩ :=
          ((freshlyBuilt_nil options).buildAll builds).created g (List.mem_of_getElem? at_j)
        have still := GuardedPool.step_map (Job.shift (cs.length + 1)) g (.move move)
        rw [GuardedPool.step_of_create new, GuardedPool.Event.map, moves] at still
        cases still
      | act c caller _ work₀ work' n at_c acts =>
        rw [acts.within_eq] at inside
        rw [calls_eq, getElem?_append_one] at at_c
        split at at_c
        · rename_i own
          subst own
          cases at_c
          exact acts.reloads rfl rfl departing installed list_eq builds preparation is_open fleet_eq
            calls_eq
        · rw [List.getElem?_eq_none (Nat.le_of_not_lt (of_decide_eq_false inside))] at at_c
          cases at_c
  | renews f created renewed =>
    cases inside : e.within d (k + 1) with
    | true => exact .renews f created (renewed.within hstep inside)
    | false =>
      -- nothing happens to what is new before it is called
      have outside : e.isCallWithin d = false := by
        cases e with
        | call caller request => exact absurd rfl (no_call caller request)
        | advance | launch | collect | pool => rfl
      have steps := renewed.step (e.unshift d (k + 1))
      rw [renewed.shift_unshift hstep inside outside, hstep, step_of_ofConfigs created] at steps
      · cases steps
      · cases e with
        | call caller request => exact absurd rfl (no_call caller request)
        | advance | launch | collect | pool => rintro _ _ ⟨⟩
  | fails work at_k failing =>
    rcases hc.own_or_other at_k with ⟨still, -⟩ | ⟨_, work', n, acts, -, next⟩
    · exact .fails work still failing
    · exact .fails work' next (acts.fails failing)

theorem Reloads.run (h : Reloads d k configs options m) (hrun : m.run es = some m')
    (no_call : ∀ caller request, .call caller request ∉ es) : Reloads d k configs options m' := by
  induction es generalizing m with
  | nil =>
    rw [run_nil hrun]
    exact h
  | cons e es ih =>
    obtain ⟨n, hstep, hrun⟩ := run_cons hrun
    refine ih (h.step hstep fun caller request same => ?_) hrun fun caller request later => ?_
    · exact no_call caller request (same ▸ List.mem_cons_self)
    · exact no_call caller request (List.mem_cons_of_mem e later)

/-- A reload begins with nothing but departing calls before it where all calls linger. -/
theorem Reachable.reloads (h : m.Reachable)
    (lingering : ∀ c work, m.work? c = some work → work.lingers = true)
    (hcall : m.call none (.reload configs) = some n) :
    Reloads m.fleet.pools.length m.calls.length configs m.fleet.options n := by
  cases hcall
  refine .prepares m.fleet.pools m.calls { options := m.fleet.options } [] [] configs
    m.fleet.notices (.reload configs .begun) rfl rfl (h.departs lingering)
    (fun i installed => lt_of_owns h (o := .installed) installed) rfl rfl .begun nofun ?_ rfl
  rw [Fleet.after, List.map_nil, List.append_nil]

/-- A reload that has returned without a fault has renewed the manager. -/
theorem Reloads.renewed (h : Reloads d k configs options m)
    (returned : m.work? k = some (.reload configs (.returned none))) :
    ∃ f, ofConfigs configs options = .ok f ∧ Renewed d (k + 1) f m := by
  cases h with
  | prepares ps cs fleet batch ready todo notices work pools_length calls_length _ _ _ _ preparation
      _ _ calls_eq =>
    subst calls_length
    rw [work?, calls_eq, List.getElem?_concat_length] at returned
    cases returned
    generalize batch.shift d = built at preparation
    cases preparation
  | renews f created renewed => exact ⟨f, created, renewed⟩
  | fails work at_k failing =>
    cases at_k.symm.trans returned
    cases failing

/-- **A reload leaves no trace.**  Let all that calls have left to do, if anything, be to release
pools, and let a reload return without a fault while nobody else makes a call.  From then on, as
long as the tasks of the retired pools make no calls, the manager goes on as one that was just
created from the list with the same options: without what happens to older pools and calls, its run
is one of the new manager, the later calls answer the same, the later pools hold, have taken and
have ended the same tasks and give the same statistics, and what can happen next is the same. -/
theorem reload_leaves_no_trace (h : m.Reachable)
    (lingering : ∀ c work, m.work? c = some work → work.lingers = true)
    (hcall : m.call none (.reload configs) = some n) (hreload : n.run es = some m')
    (no_call : ∀ caller request, .call caller request ∉ es)
    (returned : m'.work? m.calls.length = some (.reload configs (.returned none))) :
    ∃ f, ofConfigs configs m.fleet.options = .ok f ∧
      ∀ later k, m'.run later = some k →
        (∀ e ∈ later, e.isCallWithin m.fleet.pools.length = false) →
        ∃ f', f.run (later.filterMap
            (Event.since? m.fleet.pools.length (m.calls.length + 1))) = some f' ∧
          k.Mirrors m.fleet.pools.length (m.calls.length + 1) f' ∧
          ∀ e, (k.step (e.shift m.fleet.pools.length (m.calls.length + 1))).isSome
            = (f'.step e).isSome := by
  obtain ⟨f, created, renewed⟩ := ((h.reloads lingering hcall).run hreload no_call).renewed returned
  refine ⟨f, created, fun later k hrun apart => ?_⟩
  obtain ⟨f', hf', renewed'⟩ := renewed.run hrun apart
  exact ⟨f', hf', renewed'.mirrors, renewed'.enabled⟩

end Manager

end

namespace Manager

/-- The one worker of pool 0 runs a task. -/
def busy : List (Event Nat) :=
  [.call none (.execute "io" (some 7)), .advance 0, .advance 0, .advance 0,
    .pool 0 (.pool (.enter 0 true none)), .pool 0 (.pool (.look 0 false)),
    .pool 0 (.pool (.announce 0 none)), .pool 0 (.answer 0), .advance 0]

/-- A reload puts another pool in the place of pool 0 and gives its release up. -/
def reloadGivenUp : List (Event Nat) :=
  [.advance 1, .advance 1, .advance 1, .advance 1, .advance 1, .advance 1, .launch 1 0 true,
    .pool 0 (.launch 0 true), .pool 0 (.elapse 0), .collect 1 (some 0), .advance 1]

/-- A task is executed and the names are told, while pool 0 goes on draining. -/
def meanwhile : List (Event Nat) :=
  [.call none (.execute "io" (some 8)), .advance 2, .pool 0 (.pool (.close 0)), .advance 2,
    .advance 2, .pool 1 (.pool (.enter 0 true none)), .pool 0 (.pool (.alertWorkers 0)),
    .pool 1 (.pool (.look 0 false)), .pool 1 (.pool (.announce 0 none)), .pool 1 (.answer 0),
    .advance 2, .call none .list, .pool 0 (.pool (.alertSubmitters 0)), .advance 3]

/-- The old pool still drains after its release was given up, and the manager shows what a new one
shows. -/
theorem new_behind_draining_pool :
    ∃ m n m' k f f' : Manager Nat, m.Reachable ∧
      m.call none (.reload [{ name := "io" }]) = some n ∧ n.run reloadGivenUp = some m' ∧
      m'.run meanwhile = some k ∧ k.isRunning 0 0 = true ∧
      k.work? 2 = some (.execute "io" (some 8) (.returned none)) ∧
      ofConfigs [{ name := "io" }] {} = .ok f ∧
      f.run (meanwhile.filterMap (Event.since? 1 2)) = some f' ∧ k.Mirrors 1 2 f' := by
  obtain ⟨m₀, m, n, m', k, hm₀, hm, hn, hm', hk, pools, calls, options, linger, returned, running,
      answered⟩ :
      ∃ m₀ m n m' k : Manager Nat, ofConfigs [{ name := "io", size := 1 }] {} = .ok m₀ ∧
        m₀.run busy = some m ∧ m.call none (.reload [{ name := "io" }]) = some n ∧
        n.run reloadGivenUp = some m' ∧ m'.run meanwhile = some k ∧ m.fleet.pools.length = 1 ∧
        m.calls.length = 1 ∧ m.fleet.options = {} ∧
        (m.calls.all fun call => call.work.lingers) = true ∧
        m'.work? 1 = some (.reload [{ name := "io" }] (.returned none)) ∧
        k.isRunning 0 0 = true ∧ k.work? 2 = some (.execute "io" (some 8) (.returned none)) :=
    ⟨_, _, _, _, _, rfl, rfl, rfl, rfl, rfl, rfl, rfl, rfl, rfl, rfl, rfl, rfl⟩
  have reachable : m.Reachable := (Reachable.create hm₀).run hm
  have lingering (c : Nat) (work : Work Nat) (hwork : m.work? c = some work) :
      work.lingers = true := by
    obtain ⟨call, at_c, rfl⟩ := Option.map_eq_some_iff.mp hwork
    exact List.all_eq_true.mp linger call (List.mem_of_getElem? at_c)
  obtain ⟨f, created, mirrored⟩ := reload_leaves_no_trace reachable lingering hn hm'
    (by simp [reloadGivenUp]) (by rw [calls]; exact returned)
  rw [options] at created
  obtain ⟨f', hf', mirrors, -⟩ := mirrored meanwhile k hk
    (by rw [pools]; simp [meanwhile, Event.isCallWithin])
  rw [pools, calls] at hf' mirrors
  exact ⟨m, n, m', k, f, f', reachable, hn, hm', hk, running, answered, created, hf', mirrors⟩

end Manager

end TaskPools
