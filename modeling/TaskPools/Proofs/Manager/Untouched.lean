/-
# Pools that were never installed

Tasks go to pools by way of the installed batch, so a pool that was never installed never gets a
submission.  Such are the pools of a batch that a reload is still to install, and those that a
reload built and has to release again, because its list was faulty or the manager was closed
meanwhile (`Reachable.untouched`).
-/
import TaskPools.Proofs.Manager.Owners
import TaskPools.Proofs.Manager.Submissions

namespace TaskPools

variable {τ : Type}

/-- The pools that a piece of work has built and that were never installed. -/
def Work.unlisted : Work τ → List Nat
  | .reload _ (.assembling (.discarding _ r)) | .reload _ (.rejecting r) =>
    r.todo ++ r.underWay.map Prod.fst
  | work => work.batched

namespace Manager

/-- Pool `i` is not installed, no execution is about to hand it a task, and none did. -/
structure Untouched (m : Manager τ) (i : Nat) : Prop where
  not_installed : i ∉ m.installed.pools
  not_sought : ∀ c work task, m.work? c = some work → work.handing? ≠ some (i, task)
  unused : m.submissionCount i = 0

/-- The pools that are not built yet, and those built that were never installed, are untouched. -/
structure Fresh (m : Manager τ) : Prop where
  unbuilt : ∀ i, m.fleet.pools.length ≤ i → m.Untouched i
  unlisted : ∀ c work i, m.work? c = some work → i ∈ work.unlisted → m.Untouched i

section

variable {m m' n : Manager τ} {e : Event τ} {es : List (Event τ)} {c i : Nat}
  {caller : Option (Nat × Nat)} {work work' : Work τ} {g g' : GuardedPool (Job τ)}

/-! ## Submissions -/

theorem submissionCount_set {j : Nat} (at_j : m.fleet.pools[j]? = some g)
    (hn : n.fleet.pools = m.fleet.pools.set j g') (i : Nat) :
    n.submissionCount i = if i = j then g'.replies.length else m.submissionCount i := by
  rw [submissionCount, hn, getElem?_set_at at_j, submissionCount]
  split <;> rfl

theorem submissionCount_set_same {j : Nat} (at_j : m.fleet.pools[j]? = some g)
    (hn : n.fleet.pools = m.fleet.pools.set j g') (hg : g'.replies.length = g.replies.length)
    (i : Nat) : n.submissionCount i = m.submissionCount i := by
  rw [submissionCount_set at_j hn]
  split
  · rename_i hi
    rw [hi, submissionCount, at_j]
    exact hg
  · rfl

theorem submissionCount_of_pools (h : n.fleet.pools = m.fleet.pools) (i : Nat) :
    n.submissionCount i = m.submissionCount i := by
  rw [submissionCount, h, submissionCount]

/-- A pool that is built has no submissions. -/
theorem submissionCount_build {config : PoolConfig} {watched : Bool}
    (created : GuardedPool.create config watched = .ok g)
    (h : n.fleet.pools = m.fleet.pools ++ [g]) (i : Nat) :
    n.submissionCount i = m.submissionCount i := by
  obtain ⟨-, pool, -, rfl⟩ := GuardedPool.eq_of_create created
  rw [submissionCount, h, getElem?_append_one, submissionCount]
  split
  · rename_i hi
    rw [hi, List.getElem?_eq_none (Nat.le_refl _)]
    rfl
  · rfl

/-- By itself a guarded pool gets no submission. -/
theorem length_replies_of_move {move : GuardedPool.Move} (h : g.step (.move move) = some g') :
    g'.replies.length = g.replies.length := by
  cases GuardedPool.change_of_step h with
  | answer => exact List.length_set
  | pool | returns | panics | launch | launchInline | complete | elapse => rfl

theorem Act.submissionCount_eq (ha : Act m c caller e work work' n)
    (elsewhere : ∀ task, work.handing? ≠ some (i, task)) :
    n.submissionCount i = m.submissionCount i := by
  cases ha with
  | goOn | failReload | install | close | emptyNothing | emptyOut | shutDown | collect =>
    exact submissionCount_of_pools rfl i
  | submit pool task generation j g at_j | resubmit pool task j g at_j =>
    rw [submissionCount_set at_j rfl, if_neg]
    rintro rfl
    exact elsewhere task rfl
  | gauge pool j k g g' at_j reads =>
    refine submissionCount_set_same at_j rfl ?_ i
    cases GuardedPool.change_of_step reads
    rfl
  | sample pool j g at_j =>
    refine submissionCount_set_same at_j rfl ?_ i
    rfl
  | launch _ r j g retires among free at_j
  | launchInline _ r j g retires among free at_j =>
    refine submissionCount_set_same at_j rfl ?_ i
    rfl
  | build configs config rest batch batch' fleet builds =>
    obtain ⟨g, created, rfl, -⟩ := eq_of_build builds
    exact submissionCount_build created rfl i

/-- A pool to which nobody is about to hand a task gets none. -/
theorem Change.submissionCount_eq (hc : Change m e m')
    (elsewhere : ∀ c work task, m.work? c = some work → work.handing? ≠ some (i, task)) :
    m'.submissionCount i = m.submissionCount i := by
  cases hc with
  | call => exact submissionCount_of_pools rfl i
  | pool j move g g' at_j moves =>
    exact submissionCount_set_same at_j rfl (length_replies_of_move moves) i
  | act c caller _ work work' n at_c acts =>
    exact acts.submissionCount_eq fun task => elsewhere c work task (work?_of_getElem? at_c)

/-! ## Untouched pools -/

/-- An execution turns to a pool only when it finds that pool installed. -/
theorem Act.installed_of_handing (ha : Act m c caller e work work' n) {task : Option τ}
    (hands : work'.handing? = some (i, task)) : i ∈ m.installed.pools := by
  cases ha with
  | goOn _ _ follows =>
    cases follows with
    | lookUp _ _ _ found | lookUpAgain _ _ _ _ _ found =>
      cases hands
      exact mem_pools_of_find? found
    | _ => cases hands
  | launch _ _ _ _ retires | launchInline _ _ _ _ retires | collect _ _ _ _ _ retires =>
    cases retires_of_retirement? retires <;> cases hands
  | submit | resubmit | sample | gauge | build | failReload | install | close | emptyNothing
  | emptyOut | shutDown => cases hands

/-- A pool stays untouched until it is installed. -/
theorem Untouched.change (h : m.Untouched i) (hc : Change m e m')
    (out : i ∉ m'.installed.pools) : m'.Untouched i := by
  refine ⟨out, fun c work task hwork hands => ?_, ?_⟩
  · rcases hc.origin hwork with ⟨request, rfl⟩ | same | ⟨caller, old, n, -, acts⟩
    · cases request <;> cases hands
    · exact h.not_sought c work task same hands
    · exact h.not_installed (acts.installed_of_handing hands)
  · rw [hc.submissionCount_eq h.not_sought]
    exact h.unused

/-! ## Fresh pools -/

/-- A call has its pools that were never installed from before, or it has just built them. -/
theorem Act.unlisted_before (ha : Act m c caller e work work' n) (hi : i ∈ work'.unlisted) :
    i ∈ work.unlisted ∨ i = m.fleet.pools.length := by
  cases ha with
  | goOn _ _ follows =>
    cases follows with
    | discard configs config rest batch | reject configs batch =>
      simp only [Work.unlisted, Retirement.ofBatch, Retirement.underWay, Option.toList_none,
        List.append_nil, List.map_nil] at hi
      exact Or.inl hi
    | reloadOpen | allBuilt | assembled | check => exact Or.inl hi
    | _ => cases hi
  | build configs config rest batch batch' fleet builds =>
    obtain ⟨g, created, rfl, rfl⟩ := eq_of_build builds
    simp only [Work.unlisted, Work.batched, Batch.pools, List.map_append, List.map_cons,
      List.map_nil, List.mem_append, List.mem_singleton] at hi ⊢
    exact hi
  | launch _ r j g retires among free
  | launchInline _ r j g retires among free =>
    refine Or.inl ?_
    have before := (List.perm_cons_erase among).mem_iff (a := i)
    cases retires_of_retirement? retires with
    | discarding | rejecting =>
      simp only [Work.unlisted, Work.withRetirement, Retirement.underWay, free] at hi ⊢
      simp only [List.map_append, List.map_cons, List.map_nil, List.mem_append, List.mem_cons,
        Option.toList_none, Option.toList_some, List.append_nil, List.not_mem_nil, or_false,
        before] at hi ⊢
      tauto
    | retiring | shutdown => cases hi
  | collect k _ r r' notices retires todo_eq collects =>
    refine Or.inl ?_
    obtain ⟨j, t, -, hperm⟩ := underWay_collect collects
    have still (hi : i ∈ r'.underWay.map Prod.fst) : i ∈ r.underWay.map Prod.fst := by
      rw [(hperm.map Prod.fst).mem_iff]
      exact List.mem_cons_of_mem _ hi
    cases retires_of_retirement? retires with
    | discarding | rejecting =>
      simp only [Work.unlisted, Work.withRetirement, todo_eq, List.mem_append] at hi ⊢
      exact hi.imp_right still
    | retiring | shutdown => cases hi
  | submit | resubmit | sample | gauge | failReload | install | close | emptyNothing | emptyOut
  | shutDown => cases hi

/-- A release that a call sees to was begun. -/
theorem Reachable.released_of_attends (h : m.Reachable) (hwork : m.work? c = some work)
    (sees : i ∈ work.attends.map Prod.fst) : 0 < releaseCount m.fleet.pools i := by
  refine Nat.lt_of_lt_of_le ?_ (h.attendedOnce i)
  obtain ⟨call, at_c, rfl⟩ := Option.map_eq_some_iff.mp hwork
  exact List.count_pos_iff.mpr (List.mem_flatMap.mpr ⟨call, List.mem_of_getElem? at_c, sees⟩)

/-- A pool that was never installed is held by the call that built it, or its release was begun. -/
theorem mem_of_unlisted (hi : i ∈ work.unlisted) :
    i ∈ work.owned ∨ i ∈ work.attends.map Prod.fst := by
  cases work with
  | reload configs phase =>
    cases phase with
    | assembling assembly =>
      rcases assembly with ⟨todo, batch⟩ | ⟨fault, r⟩ | ⟨fault | batch⟩
      · exact Or.inl hi
      · exact List.mem_append.mp hi
      · cases hi
      · exact Or.inl hi
    | built batch | checked batch => exact Or.inl hi
    | rejecting r => exact List.mem_append.mp hi
    | begun | retiring | returned => cases hi
  | execute | shutdown | stats | list => cases hi

theorem Reachable.not_installed_of_unlisted (h : m.Reachable) (hwork : m.work? c = some work)
    (hi : i ∈ work.unlisted) : i ∉ m.installed.pools := by
  intro installed
  have built : i < m.fleet.pools.length := lt_of_owns h (o := .installed) installed
  have held : m.held.count i = 1 ∧ releaseCount m.fleet.pools i = 0 := by
    rcases h.held_or_released built with held | ⟨none_held, -⟩
    · exact held
    · exact absurd (mem_held_iff.mpr (Or.inl installed)) (List.count_eq_zero.mp none_held)
  rcases mem_of_unlisted hi with owned | sees
  · -- the one unit of the pool cannot be both in the installed batch and with the call
    have := count_owned_pos hwork owned
    have := List.count_pos_iff.mpr installed
    rw [Manager.held, List.count_append] at held
    omega
  · have := h.released_of_attends hwork sees
    omega

theorem Fresh.change (fresh : m.Fresh) (h : m.Reachable) (hstep : m.step e = some m') :
    m'.Fresh := by
  have hc := change_of_step hstep
  have h' : m'.Reachable := h.step hstep
  refine ⟨fun i unbuilt => ?_, fun c work i hwork hi => ?_⟩
  · have earlier := Nat.le_trans hc.pools.length_le unbuilt
    refine (fresh.unbuilt i earlier).change hc fun installed => ?_
    exact Nat.not_lt.mpr unbuilt (lt_of_owns h' (o := .installed) installed)
  · have out := h'.not_installed_of_unlisted hwork hi
    rcases hc.origin hwork with ⟨request, rfl⟩ | same | ⟨caller, old, n, hold, acts⟩
    · cases request <;> cases hi
    · exact (fresh.unlisted c work i same hi).change hc out
    · rcases acts.unlisted_before hi with before | rfl
      · exact (fresh.unlisted c old i hold before).change hc out
      · exact (fresh.unbuilt _ (Nat.le_refl _)).change hc out

theorem Reachable.fresh (h : m.Reachable) : m.Fresh := by
  induction h with
  | create hcreate =>
    obtain ⟨fleet, batch, fresh, rfl⟩ := eq_of_ofConfigs hcreate
    refine ⟨fun i unbuilt => ⟨?_, nofun, ?_⟩, nofun⟩
    · show i ∉ batch.pools
      rw [fresh.numbered, List.mem_range]
      exact Nat.not_lt.mpr unbuilt
    · rw [submissionCount, List.getElem?_eq_none unbuilt]
      rfl
  | step h hstep ih => exact ih.change h hstep

/-- A pool that was never installed was never submitted to. -/
theorem Reachable.untouched (h : m.Reachable) (hwork : m.work? c = some work)
    (hi : i ∈ work.unlisted) : m.Untouched i :=
  h.fresh.unlisted c work i hwork hi

end

end Manager

end TaskPools
