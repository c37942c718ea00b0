/-
# Who holds the pools

A pool that was ever built is installed, or it is held by one call that is to install or to release
it, or its one release was asked for.  The three are exclusive and nothing else happens
(`Accounted`): a batch goes from hand to hand as a whole, and a retirement gives its pools up one by
one.  So nobody asked for the release of an installed pool, and it is open
(`Reachable.installed_open`).
-/
import TaskPools.Proofs.Manager.Pools

namespace TaskPools

variable {τ : Type}

/-- The pools that a piece of work is to install or to release. -/
def Work.owned : Work τ → List Nat
  | .reload _ (.assembling (.building _ batch)) | .reload _ (.assembling (.done (.ok batch)))
  | .reload _ (.built batch) | .reload _ (.checked batch) => batch.pools
  | .reload _ (.assembling (.discarding _ r)) | .reload _ (.rejecting r)
  | .reload _ (.retiring r) | .shutdown (.retiring r) => r.todo
  | _ => []

namespace Manager

/-- The installed pools and those that a call is to install or to release. -/
def held (m : Manager τ) : List Nat :=
  m.installed.pools ++ m.calls.flatMap fun call => call.work.owned

/-- How often somebody asked for the release of pool `i`. -/
def releaseCount (ps : List (GuardedPool (Job τ))) (i : Nat) : Nat :=
  (ps[i]?).elim 0 fun g => g.releases.length

/-- How often pool `i` was built. -/
def buildCount (ps : List (GuardedPool (Job τ))) (i : Nat) : Nat :=
  if i < ps.length then 1 else 0

/-- Each pool ever built is held by one holder or was released once. -/
def Accounted (m : Manager τ) : Prop :=
  ∀ i, m.held.count i + releaseCount m.fleet.pools i = buildCount m.fleet.pools i

section

variable {m m' n : Manager τ} {e : Event τ} {c : Nat} {caller : Option (Nat × Nat)}
  {work work' : Work τ} {ps : List (GuardedPool (Job τ))} {g g' : GuardedPool (Job τ)} {i : Nat}

/-! ## Releases of a pool -/

/-- A step of pool `i` changes how often that was released, and no other. -/
theorem releaseCount_set (at_i : ps[i]? = some g) (j : Nat) :
    releaseCount (ps.set i g') j = if j = i then g'.releases.length else releaseCount ps j := by
  rw [releaseCount, getElem?_set_at at_i, releaseCount]
  split <;> rfl

theorem releaseCount_self (at_i : ps[i]? = some g) : releaseCount ps i = g.releases.length := by
  rw [releaseCount, at_i]
  rfl

/-- A pool that is not asked for a release changes nothing. -/
theorem releaseCount_set_same (at_i : ps[i]? = some g)
    (hlength : g'.releases.length = g.releases.length) (j : Nat) :
    releaseCount (ps.set i g') j = releaseCount ps j := by
  rw [releaseCount_set at_i]
  by_cases hj : j = i
  · rw [if_pos hj, hj, releaseCount_self at_i, hlength]
  · rw [if_neg hj]

/-- A pool that is built has not been released. -/
theorem releaseCount_append (hg : g.releases = []) (j : Nat) :
    releaseCount (ps ++ [g]) j = releaseCount ps j := by
  rw [releaseCount, getElem?_append_one, releaseCount]
  by_cases hj : j = ps.length
  · rw [if_pos hj, hj, List.getElem?_eq_none (Nat.le_refl _)]
    exact congrArg List.length hg
  · rw [if_neg hj]

/-- A step of a pool builds none. -/
theorem buildCount_set (ps : List (GuardedPool (Job τ))) (i : Nat) (g : GuardedPool (Job τ))
    (j : Nat) : buildCount (ps.set i g) j = buildCount ps j := by
  rw [buildCount, buildCount, List.length_set]

/-- A pool that is built has been built once. -/
theorem buildCount_append (ps : List (GuardedPool (Job τ))) (g : GuardedPool (Job τ)) (j : Nat) :
    buildCount (ps ++ [g]) j = buildCount ps j + if j = ps.length then 1 else 0 := by
  rw [buildCount, buildCount, List.length_append, List.length_singleton]
  split_ifs <;> omega

/-! ## What changes hands in a step -/

/-- A call owns the pools that its retirement has not begun to release. -/
theorem owned_of_retirement {r : Retirement} (retires : work.retirement? = some r) :
    work.owned = r.todo := by
  cases retires_of_retirement? retires <;> rfl

/-- A call owns what the retirement that is put in its place has not begun to release. -/
theorem owned_withRetirement {r : Retirement} (retires : work.retirement? = some r)
    (r' : Retirement) : (work.withRetirement r').owned = r'.todo := by
  cases retires_of_retirement? retires <;> rfl

/-- A call that changes nothing but its place keeps what it holds. -/
theorem Follows.count_owned (hf : Follows m work work') (i : Nat) :
    work'.owned.count i = work.owned.count i := by
  cases hf with
  | discarded configs fault r is_over | rejected configs r is_over | reloaded configs r is_over =>
    have nothing : r.todo.count i = 0 := by
      rw [(Retirement.isOver_iff.mp is_over).1]
      rfl
    exact nothing.symm
  | _ => rfl

/-- What a call gains is what is given up elsewhere, or is new. -/
theorem Act.balance (ha : Act m c caller e work work' n) (i : Nat) :
    n.installed.pools.count i + work'.owned.count i + releaseCount n.fleet.pools i
        + buildCount m.fleet.pools i
      = m.installed.pools.count i + work.owned.count i + releaseCount m.fleet.pools i
        + buildCount n.fleet.pools i := by
  cases ha with
  | goOn _ _ follows => rw [follows.count_owned]
  | submit pool task generation j g at_j | resubmit pool task j g at_j | sample pool j g at_j =>
    simp only [withPool, buildCount_set]
    rw [releaseCount_set_same at_j]
    · rfl
    · rfl
  | gauge pool j k g g' at_j reads =>
    have hlength : g'.releases.length = g.releases.length := by
      cases GuardedPool.change_of_step reads
      rfl
    simp only [withPool, buildCount_set]
    rw [releaseCount_set_same at_j hlength]
  | build configs config rest batch batch' fleet builds =>
    -- the new pool is the one with the next number, and the assembly holds it
    obtain ⟨g, created, rfl, rfl⟩ := eq_of_build builds
    obtain ⟨-, pool, -, rfl⟩ := GuardedPool.eq_of_create created
    simp only [Work.owned, Batch.pools, List.map_append, List.count_append, List.map_cons,
      List.map_nil, List.count_singleton, beq_iff_eq, buildCount_append]
    rw [releaseCount_append rfl]
    split_ifs <;> omega
  | failReload | close => rfl
  | shutDown r is_over =>
    simp only [Work.owned, (Retirement.isOver_iff.mp is_over).1]
    rfl
  | install configs batch =>
    simp only [note, Manager.install, Fleet.note, Work.owned, Retirement.ofBatch]
    omega
  | emptyNothing nothing =>
    simp only [Manager.install, nothing, Work.owned]
  | emptyOut =>
    simp only [note, Manager.install, Fleet.note, Work.owned, Retirement.ofBatch, Batch.pools,
      List.map_nil, List.count_nil]
    omega
  | launch _ r j g retires among free at_j
  | launchInline _ r j g retires among free at_j =>
    rw [owned_withRetirement retires, owned_of_retirement retires,
      (List.perm_cons_erase among).count_eq i]
    simp only [withPool, note, Fleet.note, buildCount_set]
    rw [releaseCount_set at_j, List.length_append, List.count_cons, List.length_singleton]
    -- pool `j` leaves the hands of the call, and its one release is asked for
    by_cases hi : i = j
    · rw [if_pos hi, hi, releaseCount_self at_j, if_pos (beq_self_eq_true j)]
      omega
    · rw [if_neg hi, if_neg (show ¬ (j == i) = true by simpa using Ne.symm hi), Nat.add_zero]
  | collect k _ r r' notices retires todo_eq =>
    rw [owned_withRetirement retires, owned_of_retirement retires, todo_eq]

/-! ## Every pool is accounted for -/

/-- Whatever a call does, each pool stays accounted for. -/
theorem Accounted.act (h : m.Accounted) (at_c : m.calls[c]? = some ⟨caller, work⟩)
    (ha : Act m c caller e work work' n) : (n.setWork c work').Accounted := by
  intro i
  have hm := h i
  have hbalance := ha.balance i
  have hcalls := count_flatMap_modify (fun call : Call τ => call.work.owned)
    (fun call => { call with work := work' }) i at_c
  rw [held, List.count_append] at hm ⊢
  simp only [setWork, ha.calls_eq] at hcalls ⊢
  omega

/-- In every step each pool stays accounted for. -/
theorem Accounted.change (h : m.Accounted) (hc : Change m e m') : m'.Accounted := by
  cases hc with
  | call caller request =>
    have nothing : request.work.owned = [] := by cases request <;> rfl
    intro i
    rw [held, List.flatMap_append, List.flatMap_singleton, nothing, List.append_nil]
    exact h i
  | act c caller _ work work' n at_c acts => exact h.act at_c acts
  | pool j move g g' at_j moves =>
    intro i
    simp only [withPool, buildCount_set]
    rw [releaseCount_set_same at_j (GuardedPool.change_of_step moves).length_releases]
    exact h i

/-- Nobody asked for the release of a pool that was just built. -/
theorem FreshlyBuilt.releaseCount_eq {f : Fleet (Job τ)} {batch : Batch}
    (h : FreshlyBuilt f batch) (i : Nat) : releaseCount f.pools i = 0 := by
  rw [releaseCount]
  cases at_i : f.pools[i]? with
  | none => rfl
  | some g =>
    obtain ⟨config, watched, created⟩ := h.created g (List.mem_of_getElem? at_i)
    obtain ⟨-, pool, -, rfl⟩ := GuardedPool.eq_of_create created
    rfl

/-- In every reachable manager each pool is accounted for. -/
theorem Reachable.accounted (h : m.Reachable) : m.Accounted := by
  induction h with
  | create hcreate =>
    obtain ⟨fleet, batch, fresh, rfl⟩ := eq_of_ofConfigs hcreate
    intro i
    simp only [held, ofBatch, Fleet.note, List.flatMap_nil, List.append_nil, fresh.numbered]
    rw [fresh.releaseCount_eq, List.count_range]
    rfl
  | step _ hstep ih => exact ih.change (change_of_step hstep)

/-! ## The installed pools -/

/-- A pool that is found is installed. -/
theorem mem_pools_of_find? {pool : String} (h : m.find? pool = some i) :
    i ∈ m.installed.pools := by
  obtain ⟨l₁, l₂, hl, -⟩ := List.lookup_eq_some_iff.mp h
  rw [hl]
  simp [Batch.pools]

/-- Nobody asked for the release of an installed pool. -/
theorem Reachable.installed_unreleased (h : m.Reachable) (installed : i ∈ m.installed.pools)
    (at_i : m.fleet.pools[i]? = some g) : g.releases = [] := by
  -- the one unit of pool `i` is in the installed batch, so none is left for a release
  have hi := h.accounted i
  have hcount := List.count_pos_iff.mpr installed
  rw [held, List.count_append, releaseCount_self at_i] at hi
  refine List.length_eq_zero_iff.mp ?_
  rw [buildCount] at hi
  split at hi <;> omega

/-- An installed pool is open. -/
theorem Reachable.installed_open (h : m.Reachable) (installed : i ∈ m.installed.pools)
    (at_i : m.fleet.pools[i]? = some g) : g.pool.closed = false :=
  (h.pool at_i).open_of_unreleased (h.installed_unreleased installed at_i)

/-- A pool that answers that the manager is closed is not installed. -/
theorem Reachable.retired_of_reply (h : m.Reachable) {s : Nat}
    (reply : m.reply? i s = some (some .managerClosed)) : i ∉ m.installed.pools := by
  intro installed
  obtain ⟨g, at_i, hreply⟩ := Option.bind_eq_some_iff.mp reply
  have is_open := h.installed_open installed at_i
  split at hreply
  · rename_i given
    cases hreply
    rw [(h.pool at_i).closed_of_answer given] at is_open
    cases is_open
  · cases hreply

end

end Manager

end TaskPools
