/-
# What earlier generations still do

A call that belongs to a batch which was replaced has returned, or all that it has left to do is to
see to releases (`Work.lingers`).  Such calls touch only the pools that they release.  So where the
first pools of a manager and its first calls belong to generations that depart (`Call.Departs`), no
event at them changes anything else (`Change.departs`).
-/
import TaskPools.Proofs.Manager.Owners

namespace TaskPools

variable {τ : Type}

/-- All that is left of the work is to release pools, if it is not over. -/
def Work.lingers : Work τ → Bool
  | .reload _ (.assembling (.discarding _ _)) | .reload _ (.assembling (.done (.error _)))
  | .reload _ (.rejecting _) | .reload _ (.retiring _) | .shutdown (.retiring _) => true
  | work => work.isOver

/-- A call that lingers does not have the lock. -/
theorem Work.holdsLock_of_lingers {work : Work τ} (lingers : work.lingers = true) :
    work.holdsLock = false := by
  by_contra holds
  obtain ⟨configs, batch, rfl⟩ := Work.eq_of_holdsLock (by simpa using holds)
  cases lingers

/-- The call lingers, and it concerns only the first `d` pools: it is to release none of the others,
and no task of theirs made it. -/
structure Call.Departs (d : Nat) (call : Call τ) : Prop where
  lingers : call.work.lingers = true
  owned : ∀ i ∈ call.work.owned, i < d
  caller : ∀ i w, call.caller = some (i, w) → i < d

namespace Manager

/-- The event happens to one of the first `d` pools or to one of the first `k` calls. -/
def Event.within (d k : Nat) : Event τ → Bool
  | .call _ _ => false
  | .advance c | .launch c _ _ | .collect c _ => decide (c < k)
  | .pool i _ => decide (i < d)

section

variable {m m' n : Manager τ} {e : Event τ} {c d k : Nat} {caller : Option (Nat × Nat)}
  {work work' : Work τ} {ps qs : List (GuardedPool (Job τ))} {cs ds : List (Call τ)}

theorem Act.within_eq (ha : Act m c caller e work work' n) : e.within d k = decide (c < k) := by
  cases ha <;> rfl

/-! ## Callers -/

/-- A call has just been made, or it was there before and had the same caller. -/
theorem Change.caller_before (hc : Change m e m') (at_c : m'.calls[c]? = some ⟨caller, work⟩) :
    (∃ request, e = .call caller request) ∨ ∃ old, m.calls[c]? = some ⟨caller, old⟩ := by
  cases hc with
  | call caller' request =>
    rw [getElem?_append_one] at at_c
    split at at_c
    · cases at_c
      exact Or.inl ⟨request, rfl⟩
    · exact Or.inr ⟨work, at_c⟩
  | pool => exact Or.inr ⟨work, at_c⟩
  | act c' caller' _ old new n at_c' acts =>
    rw [setWork, List.getElem?_modify, acts.calls_eq] at at_c
    obtain ⟨⟨caller'', old'⟩, before, same⟩ := Option.map_eq_some_iff.mp at_c
    refine Or.inr ⟨old', ?_⟩
    split at same <;> cases same <;> exact before

/-- A task that made a call ran in a pool that was built. -/
theorem Reachable.caller_lt (h : m.Reachable) {i w : Nat}
    (at_c : m.calls[c]? = some ⟨some (i, w), work⟩) : i < m.fleet.pools.length := by
  induction h generalizing c work with
  | create hcreate =>
    obtain ⟨fleet, batch, -, rfl⟩ := eq_of_ofConfigs hcreate
    cases at_c
  | @step m m' e _ hstep ih =>
    have hc := change_of_step hstep
    refine Nat.lt_of_lt_of_le ?_ hc.pools.length_le
    rcases hc.caller_before at_c with ⟨request, rfl⟩ | ⟨old, before⟩
    · -- only a task that runs can make a call
      have running : m.isRunning i w = true := by
        rw [Manager.step, Manager.call] at hstep
        split at hstep
        · rename_i calls
          exact (Bool.and_eq_true_iff.mp calls).1
        · cases hstep
      rw [isRunning] at running
      split at running
      · rename_i g at_i
        exact (List.getElem?_eq_some_iff.mp at_i).1
      · cases running
    · exact ih before

/-! ## Departures -/

theorem lingers_withRetirement {r : Retirement} (retires : work.retirement? = some r)
    (r' : Retirement) : (work.withRetirement r').lingers = true := by
  cases retires_of_retirement? retires <;> rfl

/-- A call that lingers goes on lingering, and releases pools of its own. -/
theorem Act.departs (ha : Act m c caller e work work' n) (lingers : work.lingers = true)
    (owned : ∀ i ∈ work.owned, i < ps.length) (pools : m.fleet.pools = ps ++ qs) :
    work'.lingers = true ∧ (∀ i ∈ work'.owned, i < ps.length) ∧
      ∃ ps' notices, ps'.length = ps.length ∧
        n = { m with fleet := { m.fleet with pools := ps' ++ qs, notices } } := by
  have noted (notices : List Notice) : ∃ ps' notices', ps'.length = ps.length ∧
      ({ m with fleet := { m.fleet with notices } } : Manager τ)
        = { m with fleet := { m.fleet with pools := ps' ++ qs, notices := notices' } } :=
    ⟨ps, notices, rfl, by rw [← pools]⟩
  have released {r : Retirement} {i : Nat} (notices : List Notice)
      (g : GuardedPool (Job τ)) (retires : work.retirement? = some r) (among : i ∈ r.todo) :
      (∀ j ∈ r.todo.erase i, j < ps.length) ∧ ∃ ps' notices', ps'.length = ps.length ∧
        ({ m with fleet := { m.fleet with pools := m.fleet.pools.set i g, notices } } : Manager τ)
          = { m with fleet := { m.fleet with pools := ps' ++ qs, notices := notices' } } := by
    have own := owned_of_retirement retires
    refine ⟨fun j later => owned j (own ▸ List.mem_of_mem_erase later), ps.set i g, notices,
      List.length_set, ?_⟩
    rw [pools, List.set_append_left _ _ (owned i (own ▸ among))]
  cases ha with
  | goOn _ _ follows =>
    cases follows with
    | discarded | rejected | reloaded => exact ⟨rfl, nofun, noted m.fleet.notices⟩
    | _ => cases lingers
  | failReload | shutDown => exact ⟨rfl, nofun, noted _⟩
  | launch _ r i g retires among =>
    obtain ⟨later, changed⟩ := released m.fleet.notices _ retires among
    refine ⟨lingers_withRetirement retires _, ?_, changed⟩
    rw [owned_withRetirement retires]
    exact later
  | launchInline _ r i g retires among =>
    obtain ⟨later, changed⟩ := released _ _ retires among
    refine ⟨lingers_withRetirement retires _, ?_, changed⟩
    rw [owned_withRetirement retires]
    exact later
  | collect place _ r r' notices retires todo_eq =>
    refine ⟨lingers_withRetirement retires _, ?_, noted notices⟩
    rw [owned_withRetirement retires, todo_eq, ← owned_of_retirement retires]
    exact owned
  | submit | resubmit | sample | gauge | build | install | close | emptyNothing | emptyOut =>
    cases lingers

/-- What happens to the first pools and calls changes no others, if those calls depart and concern
no other pools. -/
theorem Change.departs (hc : Change m e m') (inside : e.within ps.length cs.length = true)
    (pools : m.fleet.pools = ps ++ qs) (calls : m.calls = cs ++ ds)
    (departing : ∀ call ∈ cs, call.Departs ps.length) :
    ∃ ps' cs' notices, ps'.length = ps.length ∧ cs'.length = cs.length ∧
      (∀ call ∈ cs', call.Departs ps.length) ∧
      m' = { m with
        fleet := { m.fleet with pools := ps' ++ qs, notices }
        calls := cs' ++ ds } := by
  cases hc with
  | call => cases inside
  | pool i move g g' =>
    have at_i : i < ps.length := of_decide_eq_true inside
    refine ⟨ps.set i g', cs, m.fleet.notices, List.length_set, rfl, departing, ?_⟩
    rw [withPool, pools, List.set_append_left _ _ at_i, ← calls]
  | act c caller _ work work' n at_c acts =>
    rw [acts.within_eq] at inside
    have first : c < cs.length := of_decide_eq_true inside
    rw [calls, List.getElem?_append_left first] at at_c
    have own := departing _ (List.mem_of_getElem? at_c)
    obtain ⟨lingers, owned, ps', notices, length_eq, rfl⟩ :=
      acts.departs own.lingers own.owned pools
    refine ⟨ps', cs.modify c fun call => { call with work := work' }, notices, length_eq,
      List.length_modify .., fun call among => ?_, ?_⟩
    · obtain ⟨c', at_c'⟩ := List.getElem?_of_mem among
      rw [List.getElem?_modify] at at_c'
      obtain ⟨before, at_c₀, rfl⟩ := Option.map_eq_some_iff.mp at_c'
      split
      · rename_i here
        subst here
        cases at_c.symm.trans at_c₀
        exact ⟨lingers, owned, own.caller⟩
      · exact departing _ (List.mem_of_getElem? at_c₀)
    · rw [setWork, calls, modify_append_left _ _ first]

/-- In a reachable manager whose calls linger they concern the pools that are there. -/
theorem Reachable.departs (h : m.Reachable)
    (lingering : ∀ c work, m.work? c = some work → work.lingers = true) :
    ∀ call ∈ m.calls, call.Departs m.fleet.pools.length := by
  intro call among
  obtain ⟨c, at_c⟩ := List.getElem?_of_mem among
  obtain ⟨caller, work⟩ := call
  have hwork := work?_of_getElem? at_c
  refine ⟨lingering c work hwork, fun i owned => ?_, ?_⟩
  · rcases mem_owned_iff.mp owned with batched | condemned
    · exact lt_of_owns h (o := .batch c) ⟨work, hwork, batched⟩
    · exact lt_of_owns h (o := .retired c) ⟨work, hwork, Or.inl condemned⟩
  · rintro i w rfl
    exact h.caller_lt at_c

end

end Manager

end TaskPools
