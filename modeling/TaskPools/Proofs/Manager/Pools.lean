/-
# The calls and the pools of a manager

A call keeps its place until it takes a step itself (`Change.own_or_other`).  A pool keeps its
number and takes only steps of its own, and new pools come with new numbers, so every pool of a
reachable manager is reachable by itself (`Reachable.pool`).  Of itself a manager makes no calls
(`run_of_settle`).
-/
import Mathlib.Data.List.Induction
import TaskPools.Manager.Moves
import TaskPools.Proofs.Manager.Change

namespace TaskPools

variable {τ : Type}

/-- What a piece of work was asked for. -/
def Work.request : Work τ → Request τ
  | .execute pool task _ => .execute pool task
  | .reload configs _ => .reload configs
  | .shutdown _ => .shutdown
  | .stats pool _ => .stats pool
  | .list _ => .list

/-- What a call answers when it returns. -/
inductive Answer where
  | done (fault : Option Fault)
  | stats (answer : Except Fault PoolStats)
  | names (names : List String)

/-- What a piece of work has answered, if it is over. -/
def Work.answer? : Work τ → Option Answer
  | .execute _ _ (.returned fault) | .reload _ (.returned fault) => some (.done fault)
  | .shutdown .returned => some (.done none)
  | .stats _ (.returned answer) => some (.stats answer)
  | .list (.returned names) => some (.names names)
  | _ => none

/-- The work carries out the retirement `r`. -/
inductive Retires (r : Retirement) : Work τ → Prop where
  | discarding (configs : List PoolConfig) (fault : Fault) :
      Retires r (.reload configs (.assembling (.discarding fault r)))
  | rejecting (configs : List PoolConfig) : Retires r (.reload configs (.rejecting r))
  | retiring (configs : List PoolConfig) : Retires r (.reload configs (.retiring r))
  | shutdown : Retires r (.shutdown (.retiring r))

/-- Only a reload or a shutdown carries out a retirement. -/
theorem retires_of_retirement? {work : Work τ} {r : Retirement}
    (h : work.retirement? = some r) : Retires r work := by
  cases work with
  | reload configs phase =>
    cases phase with
    | assembling assembly =>
      cases assembly <;> cases h
      exact Retires.discarding configs _
    | rejecting =>
      cases h
      exact Retires.rejecting configs
    | retiring =>
      cases h
      exact Retires.retiring configs
    | begun | built | checked | returned => cases h
  | shutdown phase =>
    cases phase <;> cases h
    exact Retires.shutdown
  | execute | stats | list => cases h

namespace Manager

/-- The event is a call. -/
def Event.isCall : Event τ → Bool
  | .call _ _ => true
  | .advance _ | .launch .. | .collect _ _ | .pool _ _ => false

/-- Between `m` and `m'` this was asked of the manager once, by no task of its own, and nothing
else was asked of it. -/
def AskedOnce (m : Manager τ) (request : Request τ) (m' : Manager τ) : Prop :=
  ∃ es, (∀ e ∈ es, e.isCall = false) ∧ m.run (.call none request :: es) = some m'

section

variable {m m' n : Manager τ} {e : Event τ} {c : Nat} {caller : Option (Nat × Nat)}
  {work work' : Work τ}

/-! ## Calls -/

/-- The step of a call makes no calls. -/
theorem Act.calls_eq (ha : Act m c caller e work work' n) : n.calls = m.calls := by
  cases ha <;> rfl

theorem Follows.request_eq (hf : Follows m work work') : work'.request = work.request := by
  cases hf <;> rfl

/-- A call never asks for something else. -/
theorem Act.request_eq (ha : Act m c caller e work work' n) : work'.request = work.request := by
  cases ha with
  | goOn _ _ follows => exact follows.request_eq
  | launch _ _ _ _ retires | launchInline _ _ _ _ retires | collect _ _ _ _ _ retires =>
    cases retires_of_retirement? retires <;> rfl
  | submit | resubmit | sample | gauge | build | failReload | install | close | emptyNothing
  | emptyOut | shutDown => rfl

theorem work?_of_getElem? (at_c : m.calls[c]? = some ⟨caller, work⟩) : m.work? c = some work := by
  rw [work?, at_c]
  rfl

theorem work?_of_calls (h : n.calls = m.calls) (c : Nat) : n.work? c = m.work? c := by
  rw [work?, h, work?]

/-- A call that is put to another place stands there. -/
theorem work?_setWork_self (h : m.work? c = some work) :
    (m.setWork c work').work? c = some work' := by
  obtain ⟨call, at_c, rfl⟩ := Option.map_eq_some_iff.mp h
  simp only [work?, setWork, List.getElem?_modify, at_c, if_true]
  rfl

/-- The other calls stay where they are. -/
theorem work?_setWork_ne {c' : Nat} (h : c' ≠ c) : (m.setWork c work').work? c' = m.work? c' := by
  simp only [work?, setWork, List.getElem?_modify, if_neg (Ne.symm h), Option.map_eq_map,
    Option.map_id']

/-- A new call gets the next number. -/
theorem work?_call (call : Call τ) (c : Nat) :
    ({ m with calls := m.calls ++ [call] } : Manager τ).work? c
      = if c = m.calls.length then some call.work else m.work? c := by
  rw [work?, getElem?_append_one, work?]
  split <;> rfl

/-- A step of a manager is a step of call `c`, or it leaves call `c` where it is. -/
theorem Change.own_or_other (hc : Change m e m') (h : m.work? c = some work) :
    (m'.work? c = some work ∧ e ≠ .advance c) ∨
      ∃ caller work' n, Act m c caller e work work' n ∧ m' = n.setWork c work' ∧
        m'.work? c = some work' := by
  cases hc with
  | call caller request =>
    refine Or.inl ⟨?_, nofun⟩
    rw [work?_call, if_neg, h]
    -- the new call gets a number that no call had before
    rintro rfl
    rw [work?, List.getElem?_eq_none (Nat.le_refl _)] at h
    cases h
  | pool i move g g' => exact Or.inl ⟨h, nofun⟩
  | act c' caller _ old new n at_c acts =>
    by_cases hne : c = c'
    · subst hne
      obtain rfl : old = work := Option.some.inj ((work?_of_getElem? at_c).symm.trans h)
      have kept := (work?_of_calls acts.calls_eq c).trans h
      exact Or.inr ⟨caller, new, n, acts, rfl, work?_setWork_self kept⟩
    · refine Or.inl ⟨?_, ?_⟩
      · rw [work?_setWork_ne hne, work?_of_calls acts.calls_eq, h]
      · rintro rfl
        cases acts <;> exact hne rfl

/-- A call carries out the retirement that is put in its place. -/
theorem retirement?_withRetirement {r : Retirement} (retires : work.retirement? = some r)
    (r' : Retirement) : (work.withRetirement r').retirement? = some r' := by
  cases retires_of_retirement? retires <;> rfl

/-- Work that is over does nothing. -/
theorem Act.not_over (ha : Act m c caller e work work' n) : work.isOver = false := by
  cases ha with
  | goOn _ _ follows => cases follows <;> rfl
  | launch _ _ _ _ retires | launchInline _ _ _ _ retires | collect _ _ _ _ _ retires =>
    cases retires_of_retirement? retires <;> rfl
  | submit | resubmit | sample | gauge | build | failReload | install | close | emptyNothing
  | emptyOut | shutDown => rfl

/-- A call that has returned stays as it is. -/
theorem Change.stays_over (hc : Change m e m') (hwork : m.work? c = some work)
    (is_over : work.isOver = true) : m'.work? c = some work := by
  rcases hc.own_or_other hwork with ⟨same, -⟩ | ⟨_, _, _, acts, -, -⟩
  · exact same
  · rw [acts.not_over] at is_over
    cases is_over

/-- A call that was not there before has just begun. -/
theorem Change.begins (hc : Change m e m') (absent : m.work? c = none)
    (hwork : m'.work? c = some work) : ∃ request : Request τ, work = request.work := by
  cases hc with
  | call caller request =>
    rw [work?_call] at hwork
    split at hwork
    · exact ⟨request, (Option.some.inj hwork).symm⟩
    · rw [absent] at hwork
      cases hwork
  | pool =>
    have still := absent.symm.trans hwork
    cases still
  | act c' caller _ old new n at_c acts =>
    have kept := work?_of_calls acts.calls_eq
    by_cases hne : c = c'
    · subst hne
      rw [work?_of_getElem? at_c] at absent
      cases absent
    · rw [work?_setWork_ne hne, kept, absent] at hwork
      cases hwork

/-- A call has just begun, stands where it stood, or has taken a step itself. -/
theorem Change.origin (hc : Change m e m') (hwork : m'.work? c = some work') :
    (∃ request : Request τ, work' = request.work) ∨ m.work? c = some work' ∨
      ∃ caller work n, m.work? c = some work ∧ Act m c caller e work work' n := by
  cases hold : m.work? c with
  | none => exact Or.inl (hc.begins hold hwork)
  | some work =>
    rcases hc.own_or_other hold with ⟨same, -⟩ | ⟨caller, new, n, acts, -, hnew⟩
    · exact Or.inr (Or.inl (same.symm.trans hwork))
    · obtain rfl := Option.some.inj (hnew.symm.trans hwork)
      exact Or.inr (Or.inr ⟨caller, work, n, rfl, acts⟩)

/-- A call that is not there when a run begins has just begun when it ends, or it has come to its
place by a step of its own. -/
theorem arrived_of_run {m₀ : Manager τ} {es : List (Event τ)} (absent : m₀.work? c = none)
    (hrun : m₀.run es = some m) (hwork : m.work? c = some work) :
    (∃ request : Request τ, work = request.work) ∨
      ∃ es₁ e es₂ n caller old n', es = es₁ ++ e :: es₂ ∧ m₀.run es₁ = some n ∧
        n.work? c = some old ∧ Act n c caller e old work n' := by
  induction es using List.reverseRecOn generalizing m with
  | nil =>
    rw [run_nil hrun, absent] at hwork
    cases hwork
  | append_singleton es e ih =>
    obtain ⟨n, hn, hstep⟩ := run_of_append_one hrun
    rcases (change_of_step hstep).origin hwork with
      begun | same | ⟨caller, old, n', hold, acts⟩
    · exact Or.inl begun
    · refine (ih hn same).imp_right ?_
      rintro ⟨es₁, e', es₂, k, caller, old, k', rfl, before⟩
      exact ⟨es₁, e', es₂ ++ [e], k, caller, old, k', by simp, before⟩
    · exact Or.inr ⟨es, e, [], n, caller, old, n', rfl, hn, hold, acts⟩

/-- An execution was begun or was there before, and then the same task was to be executed. -/
theorem Change.execute_before (hc : Change m e m') {pool : String} {task : Option τ}
    {phase : ExecutePhase} (hwork : m'.work? c = some (.execute pool task phase)) :
    phase = .begun ∨ ∃ old, m.work? c = some (.execute pool task old) := by
  cases habsent : m.work? c with
  | none =>
    obtain ⟨request, hrequest⟩ := hc.begins habsent hwork
    cases request <;> cases hrequest
    exact Or.inl rfl
  | some work =>
    refine Or.inr ?_
    have same : work.request = .execute pool task := by
      rcases hc.own_or_other habsent with ⟨hsame, -⟩ | ⟨_, work', _, acts, -, hnew⟩
      · rw [hwork] at hsame
        cases hsame
        rfl
      · rw [hwork] at hnew
        cases hnew
        exact acts.request_eq.symm
    cases work <;> cases same
    exact ⟨_, rfl⟩

/-! ## Steps that can be taken -/

theorem run_one (hstep : m.step e = some m') : m.run [e] = some m' :=
  run_of_step hstep rfl

/-- What a pool does by itself it can do in its manager. -/
theorem step_pool {g g' : GuardedPool (Job τ)} {move : GuardedPool.Move}
    (at_i : m.fleet.pools[i]? = some g)
    (not_end : ∀ w panic escape, move ≠ .conclude w panic escape)
    (moves : g.step (.move move) = some g') :
    m.step (.pool i move) = some (m.withPool i g') := by
  have moved : m.onPool i (.move move) = some (m.withPool i g') := by
    rw [onPool, Fleet.onPool, at_i, Option.bind_eq_bind, Option.bind_some, moves]
    rfl
  cases move with
  | conclude w panic escape => exact absurd rfl (not_end w panic escape)
  | pool | answer | launch | complete | elapse => exact moved

/-- A call that is put to another place keeps its caller. -/
theorem getElem?_setWork (at_c : m.calls[c]? = some ⟨caller, work⟩) (work' : Work τ) :
    (m.setWork c work').calls[c]? = some ⟨caller, work'⟩ := by
  simp only [setWork, List.getElem?_modify, at_c, if_true]
  rfl

/-- A call goes on where it can, and may have the lock if it needs it. -/
theorem step_advance (at_c : m.calls[c]? = some ⟨caller, work⟩)
    (free : work.takesLock = false ∨ m.isLocked = false)
    (goes : m.advanceWork c work = some (n, work')) :
    m.step (.advance c) = some (n.setWork c work') := by
  have free : (work.takesLock && m.isLocked) = false := Bool.and_eq_false_iff.mpr free
  rw [Manager.step, Manager.advance, at_c, Option.bind_eq_bind, Option.bind_some]
  simp only [free, goes]
  rfl

/-! ## Pools -/

/-- What a step of a manager does to its pools. -/
inductive PoolsChange (ps : List (GuardedPool (Job τ))) : List (GuardedPool (Job τ)) → Prop where
  | same : PoolsChange ps ps
  | step (i : Nat) (g g' : GuardedPool (Job τ)) (e : GuardedPool.Event (Job τ))
      (at_i : ps[i]? = some g) (steps : g.step e = some g') : PoolsChange ps (ps.set i g')
  | build (config : PoolConfig) (watched : Bool) (g : GuardedPool (Job τ))
      (created : GuardedPool.create config watched = .ok g) : PoolsChange ps (ps ++ [g])

/-- A call leaves the pools as they are, asks something of one of them, or builds one. -/
inductive Asks (timeout : Int64) (ps : List (GuardedPool (Job τ))) :
    List (GuardedPool (Job τ)) → Prop where
  | nothing : Asks timeout ps ps
  | ask (i : Nat) (g g' : GuardedPool (Job τ)) (e : GuardedPool.Event (Job τ))
      (at_i : ps[i]? = some g) (steps : g.step e = some g') (no_move : ∀ move, e ≠ .move move)
      (in_time : ∀ own bound, e = .release own bound → bound = timeout) :
      Asks timeout ps (ps.set i g')
  | build (config : PoolConfig) (watched : Bool) (g : GuardedPool (Job τ))
      (created : GuardedPool.create config watched = .ok g) : Asks timeout ps (ps ++ [g])

/-- What the construction of a pool leaves. -/
theorem eq_of_build {f f' : Fleet τ} {batch batch' : Batch} {config : PoolConfig}
    (h : f.build batch config = .ok (f', batch')) :
    ∃ g, GuardedPool.create config f.options.watched = .ok g ∧
      f' = { f with pools := f.pools ++ [g] } ∧
      batch' = batch ++ [(config.name, f.pools.length)] := by
  rw [Fleet.build] at h
  split at h
  · cases h
  · simp only [bind, Except.bind] at h
    split at h
    · cases h
    · rename_i g hg
      cases h
      exact ⟨g, hg, rfl, rfl⟩

/-- The step of a call asks for no more than one thing of one pool. -/
theorem Act.asks (ha : Act m c caller e work work' n) :
    Asks m.fleet.options.timeout m.fleet.pools n.fleet.pools := by
  cases ha with
  | goOn | failReload | install | close | emptyNothing | emptyOut | shutDown | collect =>
    exact .nothing
  | submit pool task generation i g at_i | resubmit pool task i g at_i =>
    exact .ask i g _ (.submit (task.map (Job.mk c))) at_i rfl nofun nofun
  | sample pool i g at_i => exact .ask i g _ .sample at_i rfl nofun nofun
  | gauge pool i k g g' at_i reads => exact .ask i g g' (.gauge k) at_i reads nofun nofun
  | launch work r i g retires among free at_i =>
    refine .ask i g _ (.release none m.fleet.options.timeout) at_i rfl nofun ?_
    rintro own bound ⟨rfl, rfl⟩
    rfl
  | launchInline work r i g retires among free at_i =>
    refine .ask i g _ (.release (Retirement.ownWorker caller i) m.fleet.options.timeout) at_i rfl
      nofun ?_
    rintro own bound ⟨rfl, rfl⟩
    rfl
  | build configs config rest batch batch' fleet builds =>
    obtain ⟨g, created, rfl, -⟩ := eq_of_build builds
    exact .build config _ g created

/-- Where something is asked of a pool, that pool takes a step or a new one comes. -/
theorem Asks.change {timeout : Int64} {ps qs : List (GuardedPool (Job τ))}
    (h : Asks timeout ps qs) : PoolsChange ps qs := by
  cases h with
  | nothing => exact .same
  | ask i g g' e at_i steps => exact .step i g g' e at_i steps
  | build config watched g created => exact .build config watched g created

/-- In a step of a manager one pool takes a step, a new one comes, or nothing happens to them. -/
theorem Change.pools (hc : Change m e m') : PoolsChange m.fleet.pools m'.fleet.pools := by
  cases hc with
  | call => exact PoolsChange.same
  | act c caller _ work work' n at_c acts => exact acts.asks.change
  | pool i move g g' at_i moves => exact PoolsChange.step i g g' (.move move) at_i moves

/-- No pool is ever forgotten. -/
theorem PoolsChange.length_le {ps qs : List (GuardedPool (Job τ))} (hc : PoolsChange ps qs) :
    ps.length ≤ qs.length := by
  cases hc with
  | same => exact Nat.le_refl _
  | step => exact Nat.le_of_eq List.length_set.symm
  | build =>
    rw [List.length_append]
    exact Nat.le_add_right _ _

/-- Pools that are reachable by themselves stay so. -/
theorem PoolsChange.reachable {ps qs : List (GuardedPool (Job τ))} (hc : PoolsChange ps qs)
    (h : ∀ g ∈ ps, g.Reachable) : ∀ g ∈ qs, g.Reachable := by
  intro g hg
  cases hc with
  | same => exact h g hg
  | step i old new e at_i steps =>
    rcases List.mem_or_eq_of_mem_set hg with hg | rfl
    · exact h g hg
    · exact (h old (List.mem_of_getElem? at_i)).step steps
  | build config watched new created =>
    rcases List.mem_append.mp hg with hg | hg
    · exact h g hg
    · obtain rfl := List.mem_singleton.mp hg
      exact GuardedPool.Reachable.create created

/-! ## A new manager -/

/-- Pools that are built one after the other get one number after the other, and are all that the
batch names. -/
structure FreshlyBuilt (f : Fleet (Job τ)) (batch : Batch) : Prop where
  created : ∀ g ∈ f.pools, ∃ config watched, GuardedPool.create config watched = .ok g
  numbered : batch.pools = List.range f.pools.length

/-- Building one pool more leaves a fleet freshly built. -/
theorem FreshlyBuilt.build {f f' : Fleet (Job τ)} {batch batch' : Batch} {config : PoolConfig}
    (h : FreshlyBuilt f batch) (builds : f.build batch config = .ok (f', batch')) :
    FreshlyBuilt f' batch' := by
  obtain ⟨g, created, rfl, rfl⟩ := eq_of_build builds
  refine ⟨fun g' hg' => ?_, ?_⟩
  · rcases List.mem_append.mp hg' with hg' | hg'
    · exact h.created g' hg'
    · obtain rfl := List.mem_singleton.mp hg'
      exact ⟨config, _, created⟩
  · rw [Batch.pools, List.map_append, List.length_append, List.length_singleton,
      List.range_succ, ← h.numbered]
    rfl

/-- Building a list of pools leaves a fleet freshly built. -/
theorem FreshlyBuilt.buildAll {configs : List PoolConfig} {f f' : Fleet (Job τ)}
    {batch batch' : Batch} (h : FreshlyBuilt f batch)
    (builds : f.buildAll batch configs = .ok (f', batch')) : FreshlyBuilt f' batch' := by
  induction configs generalizing f batch with
  | nil =>
    cases builds
    exact h
  | cons config rest ih =>
    rw [Fleet.buildAll] at builds
    split at builds
    · rename_i hbuild
      exact ih (h.build hbuild) builds
    · cases builds

/-- A fleet without pools is freshly built. -/
theorem freshlyBuilt_nil (options : FleetOptions) :
    FreshlyBuilt ({ options } : Fleet (Job τ)) [] :=
  ⟨nofun, rfl⟩

/-- A new manager has the pools of its batch and no others, and no calls. -/
theorem eq_of_ofConfigs {configs : List PoolConfig} {options : FleetOptions}
    (h : ofConfigs configs options = .ok m) :
    ∃ fleet batch, FreshlyBuilt fleet batch ∧ m = ofBatch fleet batch := by
  rw [ofConfigs] at h
  simp only [bind, Except.bind] at h
  split at h
  · cases h
  · rename_i built hbuilt
    cases h
    obtain ⟨fleet, batch⟩ := built
    exact ⟨fleet, batch, (freshlyBuilt_nil options).buildAll hbuilt, rfl⟩

/-- The pools of a reachable manager are reachable by themselves. -/
theorem Reachable.pools (h : m.Reachable) : ∀ g ∈ m.fleet.pools, g.Reachable := by
  induction h with
  | create hcreate =>
    obtain ⟨fleet, batch, fresh, rfl⟩ := eq_of_ofConfigs hcreate
    intro g hg
    obtain ⟨config, watched, created⟩ := fresh.created g hg
    exact GuardedPool.Reachable.create created
  | step _ hstep ih => exact (change_of_step hstep).pools.reachable ih

/-- Every pool of a reachable manager is reachable by itself. -/
theorem Reachable.pool (h : m.Reachable) {i : Nat} {g : GuardedPool (Job τ)}
    (at_i : m.fleet.pools[i]? = some g) : g.Reachable :=
  h.pools g (List.mem_of_getElem? at_i)

/-! ## A manager that is left alone -/

/-- What is due of itself is no call. -/
theorem isCall_of_mem_dueEvents {start : Bool} (due : e ∈ m.dueEvents start) :
    e.isCall = false := by
  rcases List.mem_append.mp due with of_pool | of_call
  · obtain ⟨⟨g, i⟩, -, among⟩ := List.mem_flatMap.mp of_pool
    obtain ⟨move, -, rfl⟩ := List.mem_map.mp among
    rfl
  · obtain ⟨⟨call, c⟩, -, among⟩ := List.mem_flatMap.mp of_call
    simp only [callEvents] at among
    split at among
    · cases among
    · split at among
      · rcases List.mem_append.mp among with releases | advances
        · rcases List.mem_append.mp releases with launches | collects
          · obtain ⟨i, -, rfl⟩ := List.mem_map.mp launches
            rfl
          · obtain ⟨k, -, rfl⟩ := List.mem_map.mp collects
            rfl
        · rw [List.mem_singleton.mp advances]
          rfl
      · rw [List.mem_singleton.mp among]
        rfl

/-- Left alone, a manager takes the steps of a run without calls. -/
theorem run_of_settle (m : Manager τ) (fuel : Nat) :
    ∃ es, (∀ e ∈ es, e.isCall = false) ∧ m.run es = some (m.settle fuel) := by
  induction fuel generalizing m with
  | zero => exact ⟨[], List.forall_mem_nil _, rfl⟩
  | succ fuel ih =>
    rw [settle]
    split
    · rename_i n found
      obtain ⟨e, due, hstep⟩ := List.exists_of_findSome?_eq_some found
      obtain ⟨es, quiet, hrun⟩ := ih n
      exact ⟨e :: es, List.forall_mem_cons.mpr ⟨isCall_of_mem_dueEvents due, quiet⟩,
        run_of_step hstep hrun⟩
    · exact ⟨[], List.forall_mem_nil _, rfl⟩

/-- A call that is performed is asked once. -/
theorem askedOnce_perform (m : Manager τ) (request : Request τ) (fuel : Nat) :
    m.AskedOnce request (m.perform request fuel).1 := by
  obtain ⟨es, quiet, hrun⟩ :=
    run_of_settle { m with calls := m.calls ++ [{ caller := none, work := request.work }] } fuel
  exact ⟨es, quiet, run_of_step (e := .call none request) rfl hrun⟩

end

end Manager

end TaskPools
