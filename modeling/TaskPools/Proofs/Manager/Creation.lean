/-
# The construction of pools from sound settings

A construction builds its pools one by one, and a pool that was just built does nothing until
somebody asks something of it.  So when every configuration of the list can be used, there is one
way for the construction to go: it builds pool after pool and is done (`Construction.Yields`,
`yields_of_buildAll`).  It never comes to a step that needs a thread.  The configurations of sound
pools with different names can all be used (`buildAll_of_sound`).
-/
import TaskPools.Proofs.Fleet.Construction
import TaskPools.Proofs.Manager.Configuration
import TaskPools.Proofs.Settings

namespace TaskPools

variable {τ : Type}

namespace Construction

/-- Whichever way the construction goes, it only ever goes on with its assembly, it stops after at
most `n` steps, and when it cannot go on it has built this batch in this fleet and handed it
over. -/
structure Yields (c : Construction τ) (fleet : Fleet τ) (batch : Batch) (n : Nat) : Prop where
  length_le : ∀ es d, c.run es = some d → es.length ≤ n
  advances : ∀ es d, c.run es = some d → ∀ e ∈ es, e = .advance
  result : ∀ es d, c.run es = some d → (∀ e, d.step e = none) →
    d = { fleet, assembly := .done (.ok batch), hand := batch }

end Construction

section

variable {config : PoolConfig} {watched : Bool} {g : GuardedPool (Job τ)}

/-! ## New pools -/

theorem Manager.FreshlyBuilt.onPool_move {f : Fleet (Job τ)} {batch : Batch}
    (h : FreshlyBuilt f batch) (i : Nat) (m : GuardedPool.Move) : f.onPool i (.move m) = none := by
  cases at_i : f.pools[i]? with
  | none => simp [Fleet.onPool, at_i]
  | some g =>
    obtain ⟨config, watched, created⟩ := h.created g (List.mem_of_getElem? at_i)
    simp [Fleet.onPool, at_i, GuardedPool.step_move_of_create created]

/-! ## The way a construction goes -/

namespace Construction

variable {c d : Construction (Job τ)} {fleet fleet' : Fleet (Job τ)} {batch batch' : Batch}
  {todo : List PoolConfig} {hand : Batch} {n : Nat}

/-- A construction that is done stays as it is. -/
theorem yields_done (h : Manager.FreshlyBuilt fleet batch) :
    Yields ⟨fleet, .done (.ok batch), batch⟩ fleet batch 0 := by
  have stays : ∀ e, step ⟨fleet, .done (.ok batch), batch⟩ e = none := by
    intro e
    cases e with
    | advance | launch | collect => rfl
    | pool i m => simp [step, h.onPool_move]
  have stops : ∀ es d, run ⟨fleet, .done (.ok batch), batch⟩ es = some d →
      es = [] ∧ d = ⟨fleet, .done (.ok batch), batch⟩ := by
    intro es d hrun
    cases es with
    | nil => exact ⟨rfl, run_nil hrun⟩
    | cons e es =>
      obtain ⟨c', hstep, -⟩ := run_cons hrun
      rw [stays e] at hstep
      cases hstep
  refine ⟨fun es d hrun => ?_, fun es d hrun => ?_, fun es d hrun _ => (stops es d hrun).2⟩
  · rw [(stops es d hrun).1]
    exact Nat.le_refl 0
  · rw [(stops es d hrun).1]
    exact fun e among => absurd among List.not_mem_nil

/-- A construction that can only go on with its assembly yields what it then yields. -/
theorem Yields.of_advance (only : ∀ e, e ≠ .advance → c.step e = none)
    (first : c.step .advance = some d) (h : d.Yields fleet batch n) :
    c.Yields fleet batch (n + 1) := by
  -- a run is over at once, or goes on from `d`
  have leads : ∀ es k, c.run es = some k →
      (es = [] ∧ k = c) ∨ ∃ rest, es = .advance :: rest ∧ d.run rest = some k := by
    intro es k hrun
    cases es with
    | nil => exact Or.inl ⟨rfl, run_nil hrun⟩
    | cons e rest =>
      obtain ⟨c', hstep, hrun⟩ := run_cons hrun
      by_cases he : e = .advance
      · subst he
        cases first.symm.trans hstep
        exact Or.inr ⟨rest, rfl, hrun⟩
      · rw [only e he] at hstep
        cases hstep
  refine ⟨fun es k hrun => ?_, fun es k hrun => ?_, fun es k hrun stuck => ?_⟩
  · rcases leads es k hrun with ⟨rfl, -⟩ | ⟨rest, rfl, later⟩
    · exact Nat.zero_le _
    · exact Nat.succ_le_succ (h.length_le rest k later)
  · rcases leads es k hrun with ⟨rfl, -⟩ | ⟨rest, rfl, later⟩
    · nofun
    · exact List.forall_mem_cons.mpr ⟨rfl, h.advances rest k later⟩
  · rcases leads es k hrun with ⟨rfl, rfl⟩ | ⟨rest, rfl, later⟩
    · rw [stuck .advance] at first
      cases first
    · exact h.result rest k later stuck

/-- While it builds, a construction can only go on with its assembly. -/
theorem step_of_building (h : Manager.FreshlyBuilt fleet batch) {e : Event}
    (other : e ≠ .advance) :
    step ⟨fleet, .building todo batch, hand⟩ e = none := by
  cases e with
  | advance => exact absurd rfl other
  | launch | collect => rfl
  | pool i m => simp [step, h.onPool_move]

/-- Where every configuration can be used, the construction builds its pools and is done. -/
theorem yields_of_buildAll (h : Manager.FreshlyBuilt fleet batch)
    (builds : fleet.buildAll batch todo = .ok (fleet', batch')) :
    Yields ⟨fleet, .building todo batch, hand⟩ fleet' batch' (todo.length + 1) := by
  induction todo generalizing fleet batch with
  | nil =>
    cases builds
    exact (yields_done h).of_advance (fun e => step_of_building h) rfl
  | cons config rest ih =>
    rw [Fleet.buildAll] at builds
    split at builds
    · rename_i next batch₁ built
      refine (ih (h.build built) builds).of_advance (fun e => step_of_building h) ?_
      simp [step, Assembly.advance, built, Assembly.handOver]
    · cases builds

theorem Yields.step {e : Event} (h : c.Yields fleet batch n) (hstep : c.step e = some d) :
    ∃ k, n = k + 1 ∧ d.Yields fleet batch k := by
  have first : 1 ≤ n := h.length_le [e] d (run_of_step hstep [])
  refine ⟨n - 1, by omega, fun es k hrun => ?_, fun es k hrun => ?_, fun es k hrun => ?_⟩
  · have whole : es.length + 1 ≤ n := h.length_le (e :: es) k ((run_of_step hstep es).trans hrun)
    omega
  · have whole := h.advances (e :: es) k ((run_of_step hstep es).trans hrun)
    exact (List.forall_mem_cons.mp whole).2
  · exact h.result (e :: es) k ((run_of_step hstep es).trans hrun)

theorem advance_mem_dueEvents (c : Construction (Job τ)) : .advance ∈ c.dueEvents := by
  rw [dueEvents]
  refine List.mem_append_right _ ?_
  split <;> simp

/-- What a construction yields is what comes of it when it is left alone for long enough. -/
theorem Yields.settle (h : c.Yields fleet batch n) {fuel : Nat} (enough : n ≤ fuel) :
    c.settle fuel = { fleet, assembly := .done (.ok batch), hand := batch } := by
  induction fuel generalizing c n with
  | zero =>
    refine h.result [] c rfl fun e => ?_
    cases hstep : c.step e with
    | none => rfl
    | some d =>
      obtain ⟨k, rfl, -⟩ := h.step hstep
      omega
  | succ fuel ih =>
    rw [Construction.settle]
    split
    · rename_i d found
      obtain ⟨e, -, hstep⟩ := List.exists_of_findSome?_eq_some found
      obtain ⟨k, rfl, next⟩ := h.step hstep
      exact ih next (Nat.le_of_succ_le_succ enough)
    · rename_i stuck
      have idle : c.step .advance = none :=
        List.findSome?_eq_none_iff.mp stuck .advance c.advance_mem_dueEvents
      refine h.result [] c rfl fun e => ?_
      cases hstep : c.step e with
      | none => rfl
      | some d =>
        have advances := h.advances [e] d (run_of_step hstep []) e List.mem_cons_self
        rw [advances, idle] at hstep
        cases hstep

theorem Yields.build_eq {configs : List PoolConfig}
    (h : (ofConfigs fleet' configs []).Yields fleet batch (configs.length + 1)) :
    build fleet' configs = (fleet, .ok batch) := by
  have enough : configs.length + 1 ≤ enoughSteps configs := by
    rw [enoughSteps]
    omega
  simp only [build, carryOut, h.settle enough, fault?]

end Construction

/-! ## Sound settings -/

variable {ps : List PoolSettings} {p : PoolSettings}

theorem Fleet.build_of_sound (f : Fleet (Job τ)) {batch : Batch} (h : p.Sound)
    (unused : p.name ∉ batch.map Prod.fst) :
    ∃ f', f.build batch p.config = .ok (f', batch ++ [(p.name, f.pools.length)]) := by
  have named : p.config.name ≠ "" := h.named
  obtain ⟨g, created⟩ := @GuardedPool.create_of_named (Job τ) _ named f.options.watched
  exact ⟨_, f.build_of_unused unused created⟩

/-- Sound pools with different names that the batch does not have yet can all be built. -/
theorem Fleet.buildAll_of_sound (f : Fleet (Job τ)) {batch : Batch} (sound : ∀ p ∈ ps, p.Sound)
    (distinct : (ps.map PoolSettings.name).Nodup)
    (unused : ∀ p ∈ ps, p.name ∉ batch.map Prod.fst) :
    ∃ f' batch', f.buildAll batch (ps.map PoolSettings.config) = .ok (f', batch') := by
  induction ps generalizing f batch with
  | nil => exact ⟨f, batch, rfl⟩
  | cons p rest ih =>
    obtain ⟨sound_p, sound⟩ := List.forall_mem_cons.mp sound
    obtain ⟨unused_p, unused⟩ := List.forall_mem_cons.mp unused
    rw [List.map_cons, List.nodup_cons] at distinct
    obtain ⟨f₁, built⟩ := f.build_of_sound sound_p unused_p
    rw [List.map_cons, Fleet.buildAll, built]
    refine ih f₁ sound distinct.2 fun q hq used => ?_
    rw [List.map_append, List.mem_append, List.map_singleton, List.mem_singleton] at used
    rcases used with used | same
    · exact unused q hq used
    · have again : q.name ∈ rest.map PoolSettings.name := List.mem_map_of_mem hq
      rw [same] at again
      exact distinct.1 again

/-! ## Warnings -/

/-- A warning of the log. -/
def Output.isWarning : Output → Bool
  | .record .warning _ => true
  | _ => false

/-- The warnings for the repairs of a configuration. -/
def PoolConfig.warnings (c : PoolConfig) : List Output :=
  c.repairs.map (Repair.output c.name)

theorem isWarning_output_repair (name : String) (repair : Repair) :
    (repair.output name).isWarning = true := by
  cases repair <;> rfl

/-- A new pool warns of the repairs of its configuration and of nothing else. -/
theorem GuardedPool.warnings_of_create (h : create config watched = .ok g)
    (handler : Option PanicHandler) :
    (g.outputs handler ++ g.pool.outputs).filter Output.isWarning = config.warnings := by
  have own : g.outputs handler = config.warnings :=
    (outputs_of_create h handler).trans config.repairs_outputs.symm
  have all : config.warnings.filter Output.isWarning = config.warnings := by
    rw [List.filter_eq_self]
    intro o ho
    obtain ⟨repair, -, rfl⟩ := List.mem_map.mp ho
    exact isWarning_output_repair config.name repair
  obtain ⟨-, pool, hpool, rfl⟩ := eq_of_create h
  obtain ⟨-, -, rfl⟩ := Pool.eq_of_create hpool
  rw [own, List.filter_append, all]
  exact List.append_nil _

/-- The warnings in all journals of a fleet. -/
def Fleet.warnings (f : Fleet τ) (handler : Option PanicHandler) : List Output :=
  (f.journals handler).flatten.filter Output.isWarning

theorem Fleet.warnings_build {f f' : Fleet (Job τ)} {batch batch' : Batch}
    (builds : f.build batch config = .ok (f', batch')) (handler : Option PanicHandler) :
    f'.warnings handler = f.warnings handler ++ config.warnings := by
  obtain ⟨g, created, rfl, -⟩ := Manager.eq_of_build builds
  have warned := GuardedPool.warnings_of_create created handler
  simp only [warnings, journals, List.flatten_cons, List.flatMap_append, List.flatMap_singleton,
    List.flatten_append, List.flatten_nil, List.append_nil, List.filter_append] at warned ⊢
  rw [warned, List.append_assoc]

theorem Fleet.warnings_buildAll {f f' : Fleet (Job τ)} {batch batch' : Batch}
    {configs : List PoolConfig} (builds : f.buildAll batch configs = .ok (f', batch'))
    (handler : Option PanicHandler) :
    f'.warnings handler = f.warnings handler ++ configs.flatMap PoolConfig.warnings := by
  induction configs generalizing f batch with
  | nil =>
    cases builds
    exact (List.append_nil _).symm
  | cons config rest ih =>
    rw [Fleet.buildAll] at builds
    split at builds
    · rename_i built
      rw [ih builds, Fleet.warnings_build built, List.append_assoc, List.flatMap_cons]
    · cases builds

/-- A manager that was just created has warned of the repairs of its configurations, in their
order, and of nothing else. -/
theorem Manager.warnings_of_ofConfigs {configs : List PoolConfig} {options : FleetOptions}
    {m : Manager τ} (h : ofConfigs configs options = .ok m) (handler : Option PanicHandler) :
    m.fleet.warnings handler = configs.flatMap PoolConfig.warnings := by
  rw [ofConfigs] at h
  simp only [bind, Except.bind] at h
  split at h
  · cases h
  · rename_i built hbuilt
    cases h
    obtain ⟨fleet, batch⟩ := built
    have quiet : (ofBatch fleet batch).fleet.warnings handler = fleet.warnings handler := by
      simp only [ofBatch, Fleet.warnings, Fleet.journals, Fleet.note, List.map_append,
        List.flatten_cons, List.filter_append]
      exact congrArg (· ++ _) (List.append_nil _)
    rw [quiet, Fleet.warnings_buildAll hbuilt handler]
    rfl

/-- The second check warns of a sound pool only if it has no expiry. -/
theorem PoolSettings.Sound.warnings_eq (h : p.Sound) :
    p.config.warnings = p.warning?.toList := by
  rw [PoolConfig.warnings, h.repairs_eq, warning?]
  split <;> rfl

end

end TaskPools
