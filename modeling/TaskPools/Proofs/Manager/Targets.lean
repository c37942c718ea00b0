/-
# Calls go to the pool of their name

A batch gives a pool the name that it was built with, and an execution or a call for statistics
finds its pool in a batch.  So whichever pool such a call has found, it is one of the name that the
call asks for (`Reachable.named`), and the installed batch has no other pool of that name
(`Reachable.found_of_named`).
-/
import TaskPools.Proofs.Manager.Configuration

namespace TaskPools

variable {τ : Type}

/-- The name that the work asks for and the pool that it has found, as long as it concerns one. -/
def Work.target? : Work τ → Option (String × Nat)
  | .execute pool _ (.found _ i) | .execute pool _ (.submitted _ i _)
  | .execute pool _ (.refound i) | .execute pool _ (.resubmitted i _)
  | .stats pool (.found i) | .stats pool (.sampling i _) => some (pool, i)
  | _ => none

namespace Manager

/-- The name of pool `i`. -/
def nameAt? (m : Manager τ) (i : Nat) : Option String :=
  (m.fleet.pools[i]?).map fun g => g.config.name

/-- Every call concerns a pool of the name that it asks for. -/
def Named (m : Manager τ) : Prop :=
  ∀ c work name i, m.work? c = some work → work.target? = some (name, i) →
    m.nameAt? i = some name

section

variable {m m' n : Manager τ} {e : Event τ} {c i : Nat} {caller : Option (Nat × Nat)}
  {work work' : Work τ} {name : String} {configs : List PoolConfig} {batch : Batch}

/-- Whatever is installed was built for some list. -/
theorem Reachable.configured (h : m.Reachable) : ∃ configs, m.Configured configs := by
  induction h with
  | create hcreate => exact ⟨_, configured_of_ofConfigs hcreate⟩
  | step _ hstep ih =>
    obtain ⟨configs, configured⟩ := ih
    exact ⟨_, configured.change (change_of_step hstep)⟩

/-- A batch gives a pool the name that it was built with. -/
theorem nameAt?_of_isFor (h : batch.IsFor m.fleet.pools configs) {entry : String × Nat}
    (among : entry ∈ batch) : m.nameAt? entry.2 = some entry.1 := by
  obtain ⟨config, -, same, -, g, at_i, carries⟩ := exists_of_forall₂ h.entries.flip among
  rw [nameAt?, at_i, same]
  exact congrArg (fun config => some config.name) carries.config_eq

theorem mem_of_find? (found : m.find? name = some i) : (name, i) ∈ m.installed := by
  obtain ⟨l₁, l₂, hl, -⟩ := List.lookup_eq_some_iff.mp found
  rw [hl]
  exact List.mem_append_right l₁ List.mem_cons_self

theorem Reachable.nameAt?_of_find? (h : m.Reachable) (found : m.find? name = some i) :
    m.nameAt? i = some name := by
  obtain ⟨configs, configured⟩ := h.configured
  exact nameAt?_of_isFor configured.installed (mem_of_find? found)

/-- Pools keep their names. -/
theorem Change.nameAt?_eq (hc : Change m e m') (known : m.nameAt? i = some name) :
    m'.nameAt? i = some name := by
  have pools := hc.pools
  rw [nameAt?] at known ⊢
  generalize m'.fleet.pools = ps at pools
  cases pools with
  | same => exact known
  | step j g g' event at_j steps =>
    rw [getElem?_set_at at_j]
    split
    · rename_i here
      subst here
      rw [at_j] at known
      have kept := (GuardedPool.change_of_step steps).settings_eq.1
      rw [Option.map_some, kept]
      exact known
    · exact known
  | build config watched g =>
    obtain ⟨k, at_i, rfl⟩ := Option.map_eq_some_iff.mp known
    rw [List.getElem?_append_left (List.getElem?_eq_some_iff.mp at_i).1, at_i]
    rfl

/-- A call turns to a pool only when it finds it installed. -/
theorem Act.target?_before (ha : Act m c caller e work work' n)
    (target : work'.target? = some (name, i)) :
    work.target? = some (name, i) ∨ m.find? name = some i := by
  cases ha with
  | goOn _ _ follows =>
    cases follows with
    | lookUp _ _ _ found | lookUpAgain _ _ _ _ _ found | statsLookUp _ _ found =>
      cases target
      exact Or.inr found
    | _ => cases target
  | submit | resubmit | sample | gauge => exact Or.inl target
  | launch _ _ _ _ retires | launchInline _ _ _ _ retires | collect _ _ _ _ _ retires =>
    cases retires_of_retirement? retires <;> cases target
  | build | failReload | install | close | emptyNothing | emptyOut | shutDown => cases target

theorem Reachable.named (h : m.Reachable) : m.Named := by
  induction h with
  | create hcreate =>
    obtain ⟨fleet, batch, -, rfl⟩ := eq_of_ofConfigs hcreate
    exact nofun
  | @step m m' e h hstep ih =>
    intro c work name i hwork target
    have hc := change_of_step hstep
    refine hc.nameAt?_eq ?_
    rcases hc.origin hwork with ⟨request, rfl⟩ | same | ⟨caller, old, n, hold, acts⟩
    · cases request <;> cases target
    · exact ih c work name i same target
    · rcases acts.target?_before target with before | found
      · exact ih c old name i hold before
      · exact h.nameAt?_of_find? found

/-- An installed pool is the one that is found by its name. -/
theorem Reachable.found_of_named (h : m.Reachable) (installed : i ∈ m.installed.pools)
    (known : m.nameAt? i = some name) : m.find? name = some i := by
  obtain ⟨configs, configured⟩ := h.configured
  obtain ⟨⟨name', j⟩, among, rfl⟩ := List.mem_map.mp installed
  have same := (nameAt?_of_isFor configured.installed among).symm.trans known
  cases same
  exact configured.installed.lookup_eq among

end

end Manager

end TaskPools
