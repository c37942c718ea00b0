/-
# A manager does not look at its numbers

Pools, calls and replaced batches get one number after the other, and a step only asks which of them
are the same.  So a manager that stands behind the pools, the batches and the calls of others
(`Manager.after`) takes the steps that it takes alone, with every number shifted (`step_after`).
What it writes down stands among the notices of the others, and no step reads them.
-/
import Mathlib.Data.List.InsertIdx
import TaskPools.Proofs.GuardedPool.Relabelling
import TaskPools.Proofs.Manager.Pools

namespace TaskPools

variable {τ : Type}

/-! ## Shifted numbers -/

/-- How many pools, calls and replaced batches come before. -/
structure Offset where
  pools : Nat
  calls : Nat
  batches : Nat

/-- The job with the number of its call shifted. -/
def Job.shift (k : Nat) (job : Job τ) : Job τ := { job with call := k + job.call }

/-- The batch with the numbers of its pools shifted. -/
def Batch.shift (d : Nat) (b : Batch) : Batch := b.map (Prod.map id (d + ·))

/-- The retirement with the numbers of its pools shifted. -/
def Retirement.shift (d : Nat) (r : Retirement) : Retirement where
  todo := r.todo.map (d + ·)
  active := r.active.map (Prod.map (d + ·) id)
  inline := r.inline.map (Prod.map (d + ·) id)

/-- The assembly with the numbers of its pools shifted. -/
def Assembly.shift (d : Nat) : Assembly → Assembly
  | .building todo batch => .building todo (batch.shift d)
  | .discarding fault r => .discarding fault (r.shift d)
  | .done result => .done (result.map (Batch.shift d))

/-- The place of an execution with all its numbers shifted. -/
def ExecutePhase.shift (o : Offset) : ExecutePhase → ExecutePhase
  | .begun => .begun
  | .open => .open
  | .found generation i => .found (o.batches + generation) (o.pools + i)
  | .submitted generation i s => .submitted (o.batches + generation) (o.pools + i) s
  | .refused generation => .refused (o.batches + generation)
  | .rerouting generation => .rerouting (o.batches + generation)
  | .refound i => .refound (o.pools + i)
  | .resubmitted i s => .resubmitted (o.pools + i) s
  | .returned fault => .returned fault

/-- The place of a reload with the numbers of its pools shifted. -/
def ReloadPhase.shift (d : Nat) : ReloadPhase → ReloadPhase
  | .begun => .begun
  | .assembling assembly => .assembling (assembly.shift d)
  | .built batch => .built (batch.shift d)
  | .checked batch => .checked (batch.shift d)
  | .rejecting r => .rejecting (r.shift d)
  | .retiring r => .retiring (r.shift d)
  | .returned fault => .returned fault

/-- The place of a shutdown with the numbers of its pools shifted. -/
def ShutdownPhase.shift (d : Nat) : ShutdownPhase → ShutdownPhase
  | .begun => .begun
  | .closed => .closed
  | .retiring r => .retiring (r.shift d)
  | .returned => .returned

/-- The place of a call for statistics with the number of its pool shifted. -/
def StatsPhase.shift (d : Nat) : StatsPhase → StatsPhase
  | .begun => .begun
  | .open => .open
  | .found i => .found (d + i)
  | .sampling i k => .sampling (d + i) k
  | .returned answer => .returned answer

/-- The work with all its numbers shifted. -/
def Work.shift (o : Offset) : Work τ → Work τ
  | .execute pool task phase => .execute pool task (phase.shift o)
  | .reload configs phase => .reload configs (phase.shift o.pools)
  | .shutdown phase => .shutdown (phase.shift o.pools)
  | .stats pool phase => .stats pool (phase.shift o.pools)
  | .list phase => .list phase

/-- The call with all its numbers shifted. -/
def Call.shift (o : Offset) (call : Call τ) : Call τ where
  caller := call.caller.map (Prod.map (o.pools + ·) id)
  work := call.work.shift o

/-- The event with the numbers of pools and calls shifted. -/
def Manager.Event.shift (d k : Nat) : Manager.Event τ → Manager.Event τ
  | .call caller request => .call (caller.map (Prod.map (d + ·) id)) request
  | .advance c => .advance (k + c)
  | .launch c i start => .launch (k + c) (d + i) start
  | .collect c place => .collect (k + c) place
  | .pool i move => .pool (d + i) move

section

variable (o : Offset) (d : Nat)

theorem Batch.length_shift (b : Batch) : (b.shift d).length = b.length := List.length_map _

/-- Shifting the numbers of the pools leaves their names. -/
theorem Batch.names_shift (b : Batch) : (b.shift d).names = b.names := by
  rw [names, names, shift, List.map_map]
  rfl

/-- The pools of a shifted batch are the shifted pools, in the same order. -/
theorem Batch.pools_shift (b : Batch) : (b.shift d).pools = b.pools.map (d + ·) := by
  rw [pools, pools, shift, List.map_map, List.map_map]
  rfl

/-- A name leads to the shifted number of the pool to which it led before. -/
theorem Batch.lookup_shift (b : Batch) (name : String) :
    (b.shift d).lookup name = (b.lookup name).map (d + ·) := by
  induction b with
  | nil => rfl
  | cons entry rest ih =>
    obtain ⟨key, i⟩ := entry
    rw [shift, List.map_cons, Prod.map_apply, id_eq, List.lookup_cons, List.lookup_cons]
    cases name == key with
    | true => rfl
    | false => exact ih

/-- The retirement of a shifted batch is the shifted one of the batch. -/
theorem Retirement.ofBatch_shift (b : Batch) : ofBatch (b.shift d) = (ofBatch b).shift d := by
  rw [ofBatch, ofBatch, shift, Batch.pools_shift]
  rfl

/-- A pool is still to be released if its shifted number is. -/
theorem Retirement.contains_todo_shift (r : Retirement) (i : Nat) :
    (r.shift d).todo.contains (d + i) = r.todo.contains i := by
  rw [shift, Bool.eq_iff_iff, List.contains_iff_mem, List.contains_iff_mem,
    List.mem_map_of_injective (add_right_injective d)]

/-- Without the shifted number of a pool, the others are left with theirs shifted. -/
theorem Retirement.erase_todo_shift (r : Retirement) (i : Nat) :
    (r.shift d).todo.erase (d + i) = (r.todo.erase i).map (d + ·) :=
  (List.map_erase (add_right_injective d) r.todo).symm

/-- Whether a retirement is over does not depend on the numbers of its pools. -/
theorem Retirement.isOver_shift (r : Retirement) : (r.shift d).isOver = r.isOver := by
  rw [isOver, isOver, shift, List.isEmpty_map, List.isEmpty_map, Option.isNone_map]

/-- Work that has not begun has met no number yet, so there is nothing to shift in it. -/
theorem Request.work_shift (request : Request τ) : request.work.shift o = request.work := by
  cases request <;> rfl

/-- What was asked for names pools and does not number them. -/
theorem Work.request_shift (work : Work τ) : (work.shift o).request = work.request := by
  cases work <;> rfl

/-- No answer contains a number. -/
theorem Work.answer?_shift (work : Work τ) : (work.shift o).answer? = work.answer? := by
  cases work with
  | execute _ _ phase | reload _ phase | shutdown phase | stats _ phase | list phase =>
    cases phase <;> rfl

/-- Whether work is over does not depend on numbers. -/
theorem Work.isOver_shift (work : Work τ) : (work.shift o).isOver = work.isOver := by
  cases work with
  | execute _ _ phase | reload _ phase | shutdown phase | stats _ phase | list phase =>
    cases phase <;> rfl

/-- Shifted work has the lock if and only if the work itself has it. -/
theorem Work.holdsLock_shift (work : Work τ) : (work.shift o).holdsLock = work.holdsLock := by
  cases work with
  | execute _ _ phase | reload _ phase | shutdown phase | stats _ phase | list phase =>
    cases phase <;> rfl

/-- Shifted work takes the lock with the same step. -/
theorem Work.takesLock_shift (work : Work τ) : (work.shift o).takesLock = work.takesLock := by
  cases work with
  | execute _ _ phase | reload _ phase | shutdown phase | stats _ phase | list phase =>
    cases phase <;> rfl

/-- Shifted work carries out the shifted retirement. -/
theorem Work.retirement?_shift (work : Work τ) :
    (work.shift o).retirement? = work.retirement?.map (Retirement.shift o.pools) := by
  cases work with
  | reload configs phase =>
    cases phase with
    | assembling assembly => cases assembly <;> rfl
    | _ => rfl
  | shutdown phase => cases phase <;> rfl
  | execute | stats | list => rfl

/-- Putting a retirement in its place and shifting may be exchanged. -/
theorem Work.withRetirement_shift (work : Work τ) (r : Retirement) :
    (work.shift o).withRetirement (r.shift o.pools) = (work.withRetirement r).shift o := by
  cases work with
  | reload configs phase =>
    cases phase with
    | assembling assembly => cases assembly <;> rfl
    | _ => rfl
  | shutdown phase => cases phase <;> rfl
  | execute | stats | list => rfl

end

/-! ## A fleet behind other pools -/

namespace Fleet

/-- The fleet with its pools behind others, its jobs from calls behind `k` others, and any
notices. -/
def after (f : Fleet (Job τ)) (ps : List (GuardedPool (Job τ))) (k : Nat) (notices : List Notice) :
    Fleet (Job τ) where
  options := f.options
  pools := ps ++ f.pools.map (GuardedPool.map (Job.shift k))
  notices := notices

section

variable (f : Fleet (Job τ)) (ps : List (GuardedPool (Job τ))) (k : Nat) (notices : List Notice)

/-- Behind other pools, pool `i` stands that much farther back. -/
theorem getElem?_pools_after (i : Nat) :
    (f.after ps k notices).pools[ps.length + i]?
      = (f.pools[i]?).map (GuardedPool.map (Job.shift k)) := by
  rw [after, getElem?_append_add, List.getElem?_map]

/-- A pool of a manager takes the same steps behind what was there before. -/
theorem onPool_after (i : Nat) (e : GuardedPool.Event (Job τ)) :
    (f.after ps k notices).onPool (ps.length + i) (e.map (Job.shift k))
      = (f.onPool i e).map fun f => f.after ps k notices := by
  rw [onPool, onPool, getElem?_pools_after]
  rcases f.pools[i]? with _ | g
  · rfl
  · simp only [Option.map_some, Option.bind_eq_bind, Option.bind_some, GuardedPool.step_map]
    rcases g.step e with _ | g'
    · rfl
    · simp only [Option.map_some, Option.bind_some, after, set_append_add, ← List.map_set]
      rfl

/-- The same pools are built, or the same configuration is refused, wherever their numbers begin. -/
theorem build_after (b : Batch) (config : PoolConfig) :
    (f.after ps k notices).build (b.shift ps.length) config
      = (f.build b config).map fun (f, b) => (f.after ps k notices, b.shift ps.length) := by
  have length_pools : (f.after ps k notices).pools.length = ps.length + f.pools.length := by
    rw [after, List.length_append, List.length_map]
  have options : (f.after ps k notices).options = f.options := rfl
  rw [build, build, Batch.lookup_shift, Option.isSome_map, length_pools, options]
  split
  · rfl
  · rcases created : GuardedPool.create (τ := Job τ) config f.options.watched with fault | g
    · rfl
    · -- a new pool holds no jobs
      have same : g.map (Job.shift k) = g := by
        obtain ⟨-, pool, hpool, rfl⟩ := GuardedPool.eq_of_create created
        obtain ⟨-, -, rfl⟩ := Pool.eq_of_create hpool
        rfl
      simp only [bind, Except.bind, pure, Except.pure, Except.map, after, Batch.shift,
        List.map_append, List.map_cons, List.map_nil, List.append_assoc, same]
      rfl

end

end Fleet

section

variable (f : Fleet (Job τ)) (ps : List (GuardedPool (Job τ))) (k : Nat) (notices : List Notice)

/-- An assembly takes the same step behind other pools. -/
theorem Assembly.advance_after (a : Assembly) :
    (a.shift ps.length).advance (f.after ps k notices)
      = (a.advance f).map fun (f, a) => (f.after ps k notices, a.shift ps.length) := by
  cases a with
  | building todo batch =>
    cases todo with
    | nil => rfl
    | cons config rest =>
      simp only [shift, advance, Fleet.build_after]
      rcases f.build batch config with fault | ⟨f', batch'⟩
      · simp only [Except.map, Retirement.ofBatch_shift, Option.map_some]
      · rfl
  | discarding fault r =>
    simp only [shift, advance, Retirement.isOver_shift]
    rw [apply_ite (Option.map _)]
    rfl
  | done => rfl

/-- A worker that makes a call is found in the shifted pool if it was found in the pool. -/
theorem Retirement.ownWorker_shift (caller : Option (Nat × Nat)) (d i : Nat) :
    ownWorker (caller.map (Prod.map (d + ·) id)) (d + i) = ownWorker caller i := by
  rcases caller with _ | ⟨j, w⟩
  · rfl
  · simp only [Option.map_some, Prod.map_apply, ownWorker, Nat.add_left_cancel_iff, id_eq]

/-- The release of a pool begins in the same way behind other pools.  Only the notices may differ,
since they hold what was written about those as well. -/
theorem Retirement.launch_after (r : Retirement) (i : Nat) (caller : Option (Nat × Nat))
    (start : Bool) :
    ∃ notices', (r.shift ps.length).launch (f.after ps k notices) (ps.length + i)
        (caller.map (Prod.map (ps.length + ·) id)) start
      = (r.launch f i caller start).map fun (f, r) =>
        (f.after ps k notices', r.shift ps.length) := by
  have free : (r.shift ps.length).inline.isNone = r.inline.isNone := Option.isNone_map
  have options : (f.after ps k notices).options = f.options := rfl
  rw [launch, launch, contains_todo_shift, free]
  split
  · rcases at_i : f.pools[i]? with _ | g
    · refine ⟨notices, ?_⟩
      simp only [Fleet.getElem?_pools_after, at_i]
      rfl
    · simp only [Fleet.getElem?_pools_after, at_i, Option.map_some, Option.bind_eq_bind,
        Option.bind_some, options, erase_todo_shift]
      cases start with
      | true =>
        refine ⟨notices, ?_⟩
        have released := f.onPool_after ps k notices i (.release none f.options.timeout)
        rw [GuardedPool.Event.map] at released
        rw [released]
        rcases f.onPool i (.release none f.options.timeout) with _ | f'
        · rfl
        · simp only [if_true, Option.map_some, Option.bind_some, Option.pure_def, shift,
            List.map_append, List.map_cons, List.map_nil]
          rfl
      | false =>
        have noted := (f.note (.releaseInline g.config.name)).onPool_after ps k
          (notices ++ [.releaseInline g.config.name]) i
          (.release (ownWorker caller i) f.options.timeout)
        refine ⟨notices ++ [.releaseInline g.config.name], ?_⟩
        have same : (f.after ps k notices).note (.releaseInline (g.map (Job.shift k)).config.name)
          = (f.note (.releaseInline g.config.name)).after ps k
            (notices ++ [.releaseInline g.config.name]) := rfl
        rw [GuardedPool.Event.map] at noted
        rw [same, ownWorker_shift, noted]
        rcases (f.note (.releaseInline g.config.name)).onPool i
          (.release (ownWorker caller i) f.options.timeout) with _ | f' <;> rfl
  · exact ⟨notices, rfl⟩

/-- What the answer to a release makes a retirement note, it notes behind other pools too. -/
theorem Retirement.takeNote_after (i t : Nat) :
    ∃ notices', takeNote (f.after ps k notices) (ps.length + i) t
      = (takeNote f i t).map fun f => f.after ps k notices' := by
  simp only [takeNote, Fleet.getElem?_pools_after]
  rcases f.pools[i]? with _ | g
  · exact ⟨notices, rfl⟩
  · have releases : (g.map (Job.shift k)).releases = g.releases := rfl
    simp only [Option.map_some, Option.bind_eq_bind, Option.bind_some, releases]
    rcases g.releases[t]? with _ | place
    · exact ⟨notices, rfl⟩
    · cases place with
      | returned fault =>
        cases fault with
        | none => exact ⟨notices, rfl⟩
        | some fault => exact ⟨_, rfl⟩
      | begun | waiting | inline => exact ⟨notices, rfl⟩

/-- A release is finished with in the same way behind other pools. -/
theorem Retirement.collect_after (r : Retirement) (place : Option Nat) :
    ∃ notices', (r.shift ps.length).collect (f.after ps k notices) place
      = (r.collect f place).map fun (f, r) => (f.after ps k notices', r.shift ps.length) := by
  cases place with
  | some n =>
    simp only [collect, shift, List.getElem?_map]
    rcases r.active[n]? with _ | ⟨i, t⟩
    · exact ⟨notices, rfl⟩
    · obtain ⟨notices', noted⟩ := takeNote_after f ps k notices i t
      refine ⟨notices', ?_⟩
      simp only [Option.map_some, Option.bind_eq_bind, Option.bind_some, Prod.map_apply, id_eq,
        noted]
      rcases takeNote f i t with _ | f'
      · rfl
      · simp only [Option.map_some, Option.bind_some, List.eraseIdx_map]
        rfl
  | none =>
    simp only [collect, shift]
    rcases r.inline with _ | ⟨i, t⟩
    · exact ⟨notices, rfl⟩
    · obtain ⟨notices', noted⟩ := takeNote_after f ps k notices i t
      refine ⟨notices', ?_⟩
      simp only [Option.map_some, Option.bind_eq_bind, Option.bind_some, Prod.map_apply, id_eq,
        noted]
      rcases takeNote f i t with _ | f' <;> rfl

end

/-! ## A manager behind others -/

/-- What is there before a manager comes. -/
structure Remains (τ : Type) where
  pools : List (GuardedPool (Job τ))
  past : List Batch
  calls : List (Call τ)

/-- How much is there. -/
def Remains.offset (r : Remains τ) : Offset where
  pools := r.pools.length
  calls := r.calls.length
  batches := r.past.length

namespace Manager

/-- The manager behind what was there before, with any notices. -/
def after (m : Manager τ) (r : Remains τ) (notices : List Notice) : Manager τ where
  fleet := m.fleet.after r.pools r.calls.length notices
  installed := m.installed.shift r.pools.length
  past := m.past.map (Batch.shift r.pools.length) ++ r.past
  closed := m.closed
  calls := r.calls ++ m.calls.map (Call.shift r.offset)

section

variable (m : Manager τ) (r : Remains τ) (notices : List Notice)

/-- A name leads to the same pool, whose number is shifted. -/
theorem find?_after (pool : String) :
    (m.after r notices).find? pool = (m.find? pool).map (r.pools.length + ·) :=
  m.installed.lookup_shift _ pool

/-- The batches that were installed before add to the generation. -/
theorem generation_after : (m.after r notices).generation = r.past.length + m.generation := by
  rw [generation, generation, after, List.length_append, List.length_map, Nat.add_comm]

/-- Behind other calls, call `c` stands that much farther back. -/
theorem getElem?_calls_after (c : Nat) :
    (m.after r notices).calls[r.calls.length + c]? = (m.calls[c]?).map (Call.shift r.offset) := by
  rw [after, getElem?_append_add, List.getElem?_map]

/-- Behind other pools, pool `i` of a manager stands that much farther back. -/
theorem getElem?_fleet_after (i : Nat) :
    (m.after r notices).fleet.pools[r.pools.length + i]?
      = (m.fleet.pools[i]?).map (GuardedPool.map (Job.shift r.calls.length)) :=
  Fleet.getElem?_pools_after _ _ _ _ i

theorem onPool_after (i : Nat) (e : GuardedPool.Event (Job τ)) :
    (m.after r notices).onPool (r.pools.length + i) (e.map (Job.shift r.calls.length))
      = (m.onPool i e).map fun m => m.after r notices := by
  have fleet := m.fleet.onPool_after r.pools r.calls.length notices i e
  have same : (m.after r notices).fleet = m.fleet.after r.pools r.calls.length notices := rfl
  rw [onPool, onPool, same, fleet, Option.map_map, Option.map_map]
  rfl

/-- A task is handed over as the same submission of the shifted pool. -/
theorem submit_after (i : Nat) (job : Option (Job τ)) :
    (m.after r notices).submit (r.pools.length + i) (job.map (Job.shift r.calls.length))
      = (m.submit i job).map fun (m, s) => (m.after r notices, s) := by
  have submits := m.onPool_after r notices i (.submit job)
  rw [GuardedPool.Event.map] at submits
  rw [submit, submit, getElem?_fleet_after, submits]
  rcases m.fleet.pools[i]? with _ | g
  · rfl
  · rcases m.onPool i (.submit job) with _ | n <;> rfl

/-- The answer of a pool to a submission stays the same. -/
theorem reply?_after (i s : Nat) :
    (m.after r notices).reply? (r.pools.length + i) s = m.reply? i s := by
  rw [reply?, reply?, getElem?_fleet_after]
  rcases m.fleet.pools[i]? with _ | g <;> rfl

/-! ### Calls that go on -/

/-- An execution goes on in the same way behind what was there before. -/
theorem advanceExecute_after (c : Nat) (pool : String) (task : Option τ) (phase : ExecutePhase) :
    (m.after r notices).advanceExecute (r.calls.length + c) pool task (phase.shift r.offset)
      = (m.advanceExecute c pool task phase).map
          fun (m, phase) => (m.after r notices, phase.shift r.offset) := by
  have job : task.map (Job.mk (r.calls.length + c))
      = (task.map (Job.mk c)).map (Job.shift r.calls.length) := by
    rw [Option.map_map]
    rfl
  have flag : (m.after r notices).closed = m.closed := rfl
  cases phase with
  | begun | refused =>
    simp only [ExecutePhase.shift, advanceExecute, flag]
    cases m.closed <;> rfl
  | «open» =>
    simp only [ExecutePhase.shift, advanceExecute, find?_after, generation_after]
    rcases m.find? pool with _ | i <;> rfl
  | found generation i | refound i =>
    simp only [ExecutePhase.shift, advanceExecute, Remains.offset, job, submit_after]
    rcases m.submit i (task.map (Job.mk c)) with _ | ⟨n, s⟩ <;> rfl
  | submitted generation i s =>
    simp only [ExecutePhase.shift, advanceExecute, Remains.offset, reply?_after]
    rcases m.reply? i s with _ | _ | fault
    · rfl
    · rfl
    · cases fault <;> rfl
  | rerouting generation =>
    simp only [ExecutePhase.shift, advanceExecute, Remains.offset, generation_after,
      Nat.add_left_cancel_iff, find?_after]
    split
    · rfl
    · rcases m.find? pool with _ | i <;> rfl
  | resubmitted i s =>
    simp only [ExecutePhase.shift, advanceExecute, Remains.offset, reply?_after]
    rcases m.reply? i s with _ | fault <;> rfl
  | returned => rfl

/-- A reload goes on in the same way: it looks at the flag, builds and swaps as before. -/
theorem advanceReload_after (configs : List PoolConfig) (phase : ReloadPhase) :
    ∃ notices', (m.after r notices).advanceReload configs (phase.shift r.pools.length)
      = (m.advanceReload configs phase).map
          fun (m, phase) => (m.after r notices', phase.shift r.pools.length) := by
  have flag : (m.after r notices).closed = m.closed := rfl
  cases phase with
  | begun =>
    refine ⟨notices, ?_⟩
    simp only [ReloadPhase.shift, advanceReload, flag]
    cases m.closed <;> rfl
  | assembling a =>
    have advanced := a.advance_after m.fleet r.pools r.calls.length notices
    have fleet : (m.after r notices).fleet = m.fleet.after r.pools r.calls.length notices := rfl
    rcases a with ⟨todo, batch⟩ | ⟨fault, r'⟩ | ⟨fault | batch⟩
    · refine ⟨notices, ?_⟩
      simp only [ReloadPhase.shift, Assembly.shift, advanceReload, fleet] at advanced ⊢
      rw [advanced]
      rcases (Assembly.building todo batch).advance m.fleet with _ | ⟨f', a'⟩ <;> rfl
    · refine ⟨notices, ?_⟩
      simp only [ReloadPhase.shift, Assembly.shift, advanceReload, fleet] at advanced ⊢
      rw [advanced]
      rcases (Assembly.discarding fault r').advance m.fleet with _ | ⟨f', a'⟩ <;> rfl
    · exact ⟨_, rfl⟩
    · exact ⟨notices, rfl⟩
  | built batch =>
    refine ⟨notices, ?_⟩
    simp only [ReloadPhase.shift, advanceReload, flag, Retirement.ofBatch_shift]
    cases m.closed <;> rfl
  | checked batch =>
    have old : (m.after r notices).installed = m.installed.shift r.pools.length := rfl
    refine ⟨notices ++ [.reloaded batch.length m.installed.length], ?_⟩
    simp only [ReloadPhase.shift, advanceReload, old, Option.map_some, Retirement.ofBatch_shift,
      Batch.length_shift]
    rfl
  | rejecting r' | retiring r' =>
    refine ⟨notices, ?_⟩
    simp only [ReloadPhase.shift, advanceReload, Retirement.isOver_shift]
    rw [apply_ite (Option.map _)]
    rfl
  | returned => exact ⟨notices, rfl⟩

/-- A shutdown goes on in the same way, and retires the shifted batch. -/
theorem advanceShutdown_after (phase : ShutdownPhase) :
    ∃ notices', (m.after r notices).advanceShutdown (phase.shift r.pools.length)
      = (m.advanceShutdown phase).map
          fun (m, phase) => (m.after r notices', phase.shift r.pools.length) := by
  cases phase with
  | begun => exact ⟨notices, rfl⟩
  | closed =>
    have old : (m.after r notices).installed = m.installed.shift r.pools.length := rfl
    have none_left : (m.installed.shift r.pools.length).isEmpty = m.installed.isEmpty :=
      List.isEmpty_map
    simp only [ShutdownPhase.shift, advanceShutdown, old, none_left]
    cases m.installed.isEmpty with
    | true => exact ⟨notices, rfl⟩
    | false =>
      refine ⟨notices ++ [.shuttingDown m.installed.length], ?_⟩
      simp only [Bool.false_eq_true, if_false, Option.map_some, Retirement.ofBatch_shift,
        Batch.length_shift]
      rfl
  | retiring r' =>
    simp only [ShutdownPhase.shift, advanceShutdown, Retirement.isOver_shift]
    cases r'.isOver with
    | true => exact ⟨_, rfl⟩
    | false => exact ⟨notices, rfl⟩
  | returned => exact ⟨notices, rfl⟩

/-- A call for statistics goes on in the same way, and reads the same figures. -/
theorem advanceStats_after (pool : String) (phase : StatsPhase) :
    (m.after r notices).advanceStats pool (phase.shift r.pools.length)
      = (m.advanceStats pool phase).map
          fun (m, phase) => (m.after r notices, phase.shift r.pools.length) := by
  have flag : (m.after r notices).closed = m.closed := rfl
  cases phase with
  | begun =>
    simp only [StatsPhase.shift, advanceStats, flag]
    cases m.closed <;> rfl
  | «open» =>
    simp only [StatsPhase.shift, advanceStats, find?_after]
    rcases m.find? pool with _ | i <;> rfl
  | found i =>
    have samples := m.onPool_after r notices i .sample
    rw [GuardedPool.Event.map] at samples
    simp only [StatsPhase.shift, advanceStats, getElem?_fleet_after, samples]
    rcases m.fleet.pools[i]? with _ | g
    · rfl
    · rcases m.onPool i .sample with _ | n <;> rfl
  | sampling i k =>
    have reads := m.onPool_after r notices i (.gauge k)
    rw [GuardedPool.Event.map] at reads
    simp only [StatsPhase.shift, advanceStats, getElem?_fleet_after]
    rcases m.fleet.pools[i]? with _ | g
    · rfl
    · have same_samples : (g.map (Job.shift r.calls.length)).samples = g.samples := rfl
      simp only [Option.map_some, Option.bind_eq_bind, Option.bind_some, same_samples]
      rcases g.samples[k]? with _ | figures
      · rfl
      · have same_stats : (g.map (Job.shift r.calls.length)).statsOfFigures figures
          = g.statsOfFigures figures := rfl
        simp only [Option.bind_some, same_stats]
        rcases g.statsOfFigures figures with _ | stats
        · simp only [reads]
          rcases m.onPool i (.gauge k) with _ | n <;> rfl
        · rfl
  | returned => rfl

/-- A call for the names tells the same ones. -/
theorem advanceList_after (phase : ListPhase) :
    (m.after r notices).advanceList phase
      = (m.advanceList phase).map fun (m, phase) => (m.after r notices, phase) := by
  cases phase with
  | begun =>
    have names : (m.after r notices).installed.names = m.installed.names :=
      m.installed.names_shift _
    rw [advanceList, names]
    rfl
  | returned => rfl

/-- Whatever its work is, a call goes on in the same way. -/
theorem advanceWork_after (c : Nat) (work : Work τ) :
    ∃ notices', (m.after r notices).advanceWork (r.calls.length + c) (work.shift r.offset)
      = (m.advanceWork c work).map
          fun (m, work) => (m.after r notices', work.shift r.offset) := by
  cases work with
  | execute pool task phase =>
    refine ⟨notices, ?_⟩
    rw [Work.shift, advanceWork, advanceExecute_after, advanceWork, Option.map_map, Option.map_map]
    rfl
  | reload configs phase =>
    obtain ⟨notices', reloads⟩ := m.advanceReload_after r notices configs phase
    refine ⟨notices', ?_⟩
    simp only [Work.shift, advanceWork, Remains.offset, reloads, Option.map_map]
    rfl
  | shutdown phase =>
    obtain ⟨notices', shuts⟩ := m.advanceShutdown_after r notices phase
    refine ⟨notices', ?_⟩
    simp only [Work.shift, advanceWork, Remains.offset, shuts, Option.map_map]
    rfl
  | stats pool phase =>
    refine ⟨notices, ?_⟩
    simp only [Work.shift, advanceWork, Remains.offset, advanceStats_after, Option.map_map]
    rfl
  | list phase =>
    refine ⟨notices, ?_⟩
    simp only [Work.shift, advanceWork, advanceList_after, Option.map_map]
    rfl

/-! ### All steps -/

theorem setWork_after (c : Nat) (work : Work τ) :
    (m.after r notices).setWork (r.calls.length + c) (work.shift r.offset)
      = (m.setWork c work).after r notices := by
  have moved : (m.calls.map (Call.shift r.offset)).modify c
        (fun call => { call with work := work.shift r.offset })
      = (m.calls.modify c fun call => { call with work }).map (Call.shift r.offset) :=
    modify_map (fun _ => by rfl) m.calls c
  simp only [setWork, after, modify_append_add, moved]

/-- Calls without the lock that were there before do not lock the manager. -/
theorem isLocked_after (free : ∀ call ∈ r.calls, call.work.holdsLock = false) :
    (m.after r notices).isLocked = m.isLocked := by
  have none_before : (r.calls.any fun call => call.work.holdsLock) = false := by
    rw [List.any_eq_false]
    intro call among holds
    rw [free call among] at holds
    cases holds
  rw [isLocked, isLocked, after, List.any_append, none_before, Bool.false_or, List.any_map]
  congr 1
  funext call
  exact call.work.holdsLock_shift r.offset

/-- A call takes its next step if and only if it could take it without what was there before, as
long as no call from then has the lock. -/
theorem advance_after (free : ∀ call ∈ r.calls, call.work.holdsLock = false) (c : Nat) :
    ∃ notices', (m.after r notices).advance (r.calls.length + c)
      = (m.advance c).map fun m => m.after r notices' := by
  simp only [advance, getElem?_calls_after]
  rcases m.calls[c]? with _ | call
  · exact ⟨notices, rfl⟩
  · obtain ⟨notices', goes⟩ := m.advanceWork_after r notices c call.work
    refine ⟨notices', ?_⟩
    simp only [Option.map_some, Option.bind_eq_bind, Option.bind_some, Call.shift, goes,
      Work.takesLock_shift, isLocked_after m r notices free]
    cases call.work.takesLock && m.isLocked with
    | true => rfl
    | false =>
      rcases m.advanceWork c call.work with _ | ⟨n, work⟩
      · rfl
      · simp only [Option.map_some, Option.bind_some, setWork_after]
        rfl

/-- A call begins a release in the same way. -/
theorem launch_after (c i : Nat) (start : Bool) :
    ∃ notices', (m.after r notices).launch (r.calls.length + c) (r.pools.length + i) start
      = (m.launch c i start).map fun m => m.after r notices' := by
  simp only [launch, getElem?_calls_after]
  rcases m.calls[c]? with _ | call
  · exact ⟨notices, rfl⟩
  · simp only [Option.map_some, Option.bind_eq_bind, Option.bind_some, Call.shift,
      Work.retirement?_shift]
    rcases call.work.retirement? with _ | r'
    · exact ⟨notices, rfl⟩
    · obtain ⟨notices', launched⟩ := r'.launch_after m.fleet r.pools r.calls.length notices i
        call.caller start
      have fleet : (m.after r notices).fleet = m.fleet.after r.pools r.calls.length notices := rfl
      refine ⟨notices', ?_⟩
      simp only [Option.map_some, Option.bind_some, Remains.offset, fleet, launched]
      rcases r'.launch m.fleet i call.caller start with _ | ⟨f', r''⟩
      · rfl
      · have moved := setWork_after { m with fleet := f' } r notices' c
          (call.work.withRetirement r'')
        rw [← Work.withRetirement_shift] at moved
        exact congrArg some moved

/-- A call finishes with a release in the same way. -/
theorem collect_after (c : Nat) (place : Option Nat) :
    ∃ notices', (m.after r notices).collect (r.calls.length + c) place
      = (m.collect c place).map fun m => m.after r notices' := by
  simp only [collect, getElem?_calls_after]
  rcases m.calls[c]? with _ | call
  · exact ⟨notices, rfl⟩
  · simp only [Option.map_some, Option.bind_eq_bind, Option.bind_some, Call.shift,
      Work.retirement?_shift]
    rcases call.work.retirement? with _ | r'
    · exact ⟨notices, rfl⟩
    · obtain ⟨notices', collected⟩ := r'.collect_after m.fleet r.pools r.calls.length notices place
      have fleet : (m.after r notices).fleet = m.fleet.after r.pools r.calls.length notices := rfl
      refine ⟨notices', ?_⟩
      simp only [Option.map_some, Option.bind_some, Remains.offset, fleet, collected]
      rcases r'.collect m.fleet place with _ | ⟨f', r''⟩
      · rfl
      · have moved := setWork_after { m with fleet := f' } r notices' c
          (call.work.withRetirement r'')
        rw [← Work.withRetirement_shift] at moved
        exact congrArg some moved

/-- A worker runs a task if and only if it does so in the shifted pool. -/
theorem isRunning_after (i w : Nat) :
    (m.after r notices).isRunning (r.pools.length + i) w = m.isRunning i w := by
  rw [isRunning, isRunning, getElem?_fleet_after]
  rcases m.fleet.pools[i]? with _ | g
  · rfl
  · have at_w : (g.map (Job.shift r.calls.length)).pool.workers[w]?
      = (g.pool.workers[w]?).map (Worker.map (Job.shift r.calls.length)) := List.getElem?_map
    simp only [Option.map_some, at_w]
    rcases g.pool.workers[w]? with _ | place
    · rfl
    · cases place <;> rfl

/-- Calls that were made by workers of other pools do not make a worker wait. -/
theorem isCalling_after
    (apart : ∀ call ∈ r.calls, ∀ i w, call.caller = some (i, w) → i < r.pools.length) (i w : Nat) :
    (m.after r notices).isCalling (r.pools.length + i) w = m.isCalling i w := by
  have none_before : (r.calls.any fun call =>
      call.caller == some (r.pools.length + i, w) && !call.work.isOver) = false := by
    rw [List.any_eq_false]
    intro call among calling
    rw [Bool.and_eq_true, beq_iff_eq] at calling
    exact absurd (apart call among _ w calling.1) (Nat.not_lt.mpr (Nat.le_add_right _ i))
  have same (call : Call τ) : ((call.shift r.offset).caller == some (r.pools.length + i, w))
      = (call.caller == some (i, w)) := by
    rcases caller : call.caller with _ | ⟨j, v⟩
    · rw [Call.shift, caller]
      rfl
    · rw [Call.shift, caller, Bool.eq_iff_iff, beq_iff_eq, beq_iff_eq]
      simp only [Option.map_some, Prod.map_apply, id_eq, Option.some.injEq, Prod.mk.injEq,
        Remains.offset, Nat.add_left_cancel_iff]
  rw [isCalling, isCalling, after, List.any_append, none_before, Bool.false_or, List.any_map]
  congr 1
  funext call
  rw [Function.comp_apply, same, Call.shift, Work.isOver_shift]

/-- A call is made in the same way, by the shifted worker if a task makes it. -/
theorem call_after
    (apart : ∀ call ∈ r.calls, ∀ i w, call.caller = some (i, w) → i < r.pools.length)
    (caller : Option (Nat × Nat)) (request : Request τ) :
    (m.after r notices).call (caller.map (Prod.map (r.pools.length + ·) id)) request
      = (m.call caller request).map fun m => m.after r notices := by
  have begins : ({ m.after r notices with
      calls := (m.after r notices).calls ++
        [⟨caller.map (Prod.map (r.pools.length + ·) id), request.work⟩] } : Manager τ)
      = after { m with calls := m.calls ++ [⟨caller, request.work⟩] } r notices := by
    simp only [after, List.map_append, List.append_assoc, List.map_cons, List.map_nil, Call.shift,
      Request.work_shift]
    rfl
  rcases caller with _ | ⟨i, w⟩
  · exact congrArg some begins
  · simp only [Option.map_some, Prod.map_apply, id_eq] at begins
    simp only [Option.map_some, Prod.map_apply, id_eq, call, isRunning_after,
      isCalling_after m r notices apart, begins]
    rw [apply_ite (Option.map _)]
    rfl

/-- A pool moves in the same way, and a task ends in it only where it could. -/
theorem movePool_after
    (apart : ∀ call ∈ r.calls, ∀ i w, call.caller = some (i, w) → i < r.pools.length)
    (i : Nat) (move : GuardedPool.Move) :
    (m.after r notices).movePool (r.pools.length + i) move
      = (m.movePool i move).map fun m => m.after r notices := by
  have moves := m.onPool_after r notices i (.move move)
  rw [GuardedPool.Event.map] at moves
  cases move with
  | conclude w panic escape =>
    simp only [movePool, isCalling_after m r notices apart, moves]
    rw [apply_ite (Option.map _)]
    rfl
  | pool | answer | launch | complete | elapse => exact moves

/-- Behind pools, batches and calls of others a manager takes the steps that it takes alone, if none
of those calls has the lock. -/
theorem step_after
    (apart : ∀ call ∈ r.calls, ∀ i w, call.caller = some (i, w) → i < r.pools.length)
    (free : ∀ call ∈ r.calls, call.work.holdsLock = false) (e : Event τ) :
    ∃ notices', (m.after r notices).step (e.shift r.pools.length r.calls.length)
      = (m.step e).map fun m => m.after r notices' := by
  cases e with
  | call caller request => exact ⟨notices, m.call_after r notices apart caller request⟩
  | advance c => exact m.advance_after r notices free c
  | launch c i start => exact m.launch_after r notices c i start
  | collect c place => exact m.collect_after r notices c place
  | pool i move => exact ⟨notices, m.movePool_after r notices apart i move⟩

end

end Manager

end TaskPools
