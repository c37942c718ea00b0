/-
# The one owner of a pool

A pool that was ever built has exactly one owner: it is installed, it is in the batch of a reload
that builds it or is about to install it, it is retired by a call that is to release it, or its
release has returned (`Manager.Owner`).  `Accounted` counts the pools that nobody asked to release;
the two invariants here follow those releases that began.  A retirement attends no release that was
not begun (`AttendedOnce`), and a release that has not returned is attended by some retirement
(`Attended`), since a retirement puts one aside only after it has returned.

So no pool is released twice or while it is installed, and once no call is under way, whatever is
not installed was released (`owned_and_released_once`).
-/
import Mathlib.Data.List.Nodup
import Mathlib.Data.List.Perm.Basic
import TaskPools.Proofs.Manager.History
import TaskPools.Proofs.Manager.Ownership

namespace TaskPools

variable {τ : Type}

/-- The releases that a piece of work sees to and has begun, each with its pool. -/
def Work.attends (work : Work τ) : List (Nat × Nat) :=
  work.retirement?.elim [] Retirement.underWay

/-- The pools that a piece of work has built and not yet handed on. -/
def Work.batched : Work τ → List Nat
  | .reload _ (.assembling (.building _ batch)) | .reload _ (.assembling (.done (.ok batch)))
  | .reload _ (.built batch) | .reload _ (.checked batch) => batch.pools
  | _ => []

/-- The pools whose release a piece of work is yet to begin. -/
def Work.condemned (work : Work τ) : List Nat :=
  work.retirement?.elim [] Retirement.todo

namespace Manager

/-! ## Owners -/

/-- Release `t` of pool `i` was asked for, and has not returned. -/
def Outstanding (m : Manager τ) (i t : Nat) : Prop :=
  ∃ g place, m.fleet.pools[i]? = some g ∧ g.releases[t]? = some place ∧ place.hasReturned = false

/-- Who has a pool. -/
inductive Owner where
  /-- The manager routes tasks to it. -/
  | installed
  /-- Reload `c` built it for its batch. -/
  | batch (c : Nat)
  /-- Call `c` is to release it. -/
  | retired (c : Nat)
  /-- Nobody any more: its release has returned. -/
  | released

/-- Pool `i` has this owner. -/
def Owns (m : Manager τ) : Owner → Nat → Prop
  | .installed, i => i ∈ m.installed.pools
  | .batch c, i => ∃ work, m.work? c = some work ∧ i ∈ work.batched
  | .retired c, i => ∃ work, m.work? c = some work ∧
      (i ∈ work.condemned ∨ ∃ t, (i, t) ∈ work.attends ∧ m.Outstanding i t)
  | .released, i => ∃ g fault, m.fleet.pools[i]? = some g ∧ g.releases = [.returned fault]

/-- The pool whose release begins in a step, if one does. -/
def begins? : Manager τ × Event τ → Option Nat
  | (m, .launch c i _) => (m.work? c).bind fun work =>
    if i ∈ work.condemned then some i else none
  | _ => none

/-- The pools whose release began in the course of a run, in this order. -/
def releasesBegun (m : Manager τ) (es : List (Event τ)) : List Nat :=
  (m.history es).filterMap begins?

/-- The pools of the releases that calls see to. -/
def attended (m : Manager τ) : List Nat :=
  m.calls.flatMap fun call => call.work.attends.map Prod.fst

/-- The calls together see to each release at most once. -/
def AttendedOnce (m : Manager τ) : Prop :=
  ∀ i, m.attended.count i ≤ releaseCount m.fleet.pools i

/-- Some call sees to each release that has not returned. -/
def Attended (m : Manager τ) : Prop :=
  ∀ i t, m.Outstanding i t → ∃ c work, m.work? c = some work ∧ (i, t) ∈ work.attends

section

variable {m m' n : Manager τ} {e : Event τ} {es : List (Event τ)} {c c' : Nat}
  {caller : Option (Nat × Nat)} {work work' : Work τ} {r r' : Retirement} {i t : Nat}

/-! ## Retirements -/

/-- A call attends to the releases that its retirement has under way. -/
theorem attends_of_retirement (retires : work.retirement? = some r) :
    work.attends = r.underWay := by
  rw [Work.attends, retires]
  rfl

/-- A call attends to the releases of the retirement that is put in its place. -/
theorem attends_withRetirement (retires : work.retirement? = some r) (r' : Retirement) :
    (work.withRetirement r').attends = r'.underWay := by
  cases retires_of_retirement? retires <;> rfl

/-- What a piece of work holds is a batch that it built or what it is to release. -/
theorem mem_owned_iff : i ∈ work.owned ↔ i ∈ work.batched ∨ i ∈ work.condemned := by
  have nothing : i ∉ ([] : List Nat) := List.not_mem_nil
  cases work with
  | reload configs phase =>
    cases phase with
    | assembling assembly =>
      rcases assembly with ⟨todo, batch⟩ | ⟨fault, r⟩ | ⟨fault | batch⟩ <;>
        simp [Work.owned, Work.batched, Work.condemned, Work.retirement?]
    | begun | built | checked | rejecting | retiring | returned =>
      simp [Work.owned, Work.batched, Work.condemned, Work.retirement?]
  | shutdown phase =>
    cases phase <;> simp [Work.owned, Work.batched, Work.condemned, Work.retirement?]
  | execute | stats | list =>
    simp [Work.owned, Work.batched, Work.condemned, Work.retirement?]

/-- A piece of work is never building and releasing at a time. -/
theorem condemned_of_batched (built : i ∈ work.batched) : work.condemned = [] := by
  cases work with
  | reload configs phase =>
    cases phase with
    | assembling assembly =>
      rcases assembly with ⟨todo, batch⟩ | ⟨fault, r⟩ | ⟨fault | batch⟩
      · rfl
      · cases built
      · rfl
      · rfl
    | built batch | checked batch => rfl
    | begun | rejecting | retiring | returned => cases built
  | execute | shutdown | stats | list => cases built

/-- A release is put aside only after it has returned. -/
theorem underWay_collect {k : Option Nat} {f : Fleet (Job τ)}
    (collects : r.collect m.fleet k = some (f, r')) :
    ∃ i t, ¬ m.Outstanding i t ∧ r.underWay.Perm ((i, t) :: r'.underWay) := by
  obtain ⟨-, -, i, t, g, fault, hperm, at_i, returned⟩ := Retirement.eq_of_collect collects
  refine ⟨i, t, ?_, hperm⟩
  rintro ⟨g', place, at_i', at_t, is_open⟩
  cases at_i.symm.trans at_i'
  cases returned.symm.trans at_t
  cases is_open

/-! ## What a step of a call does to the releases -/

/-- A launch begins the release of a pool that the call retires. -/
theorem begins?_launch (hwork : m.work? c = some work) (retires : work.retirement? = some r)
    (among : i ∈ r.todo) (start : Bool) : begins? (m, .launch c i start) = some i := by
  have condemned : i ∈ work.condemned := by rwa [Work.condemned, retires]
  rw [begins?, hwork, Option.bind_some, if_pos condemned]

/-- Only a pool that the call retires is released by a launch. -/
theorem condemned_of_begins? {start : Bool} {j : Nat}
    (begun : begins? (m, .launch c j start) = some i) :
    ∃ work, m.work? c = some work ∧ i ∈ work.condemned := by
  obtain ⟨work, hwork, begun⟩ := Option.bind_eq_some_iff.mp begun
  split at begun
  · rename_i condemned
    cases begun
    exact ⟨work, hwork, condemned⟩
  · cases begun

/-- The releases that are asked for in a step are those that begin there. -/
theorem Act.releaseCount_eq (ha : Act m c caller e work work' n) (hwork : m.work? c = some work)
    (i : Nat) : releaseCount n.fleet.pools i
      = releaseCount m.fleet.pools i + (begins? (m, e)).toList.count i := by
  cases ha with
  | goOn | failReload | install | close | emptyNothing | emptyOut | shutDown | collect => rfl
  | submit pool task generation j g at_j | resubmit pool task j g at_j | sample pool j g at_j =>
    refine releaseCount_set_same at_j ?_ i
    rfl
  | gauge pool j k g g' at_j reads =>
    refine releaseCount_set_same at_j ?_ i
    cases GuardedPool.change_of_step reads
    rfl
  | build configs config rest batch batch' fleet builds =>
    obtain ⟨g, created, rfl, -⟩ := eq_of_build builds
    obtain ⟨-, pool, -, rfl⟩ := GuardedPool.eq_of_create created
    exact releaseCount_append rfl i
  | launch _ r j g retires among free at_j
  | launchInline _ r j g retires among free at_j =>
    rw [begins?_launch hwork retires among, Option.toList_some, List.count_singleton]
    show releaseCount (m.fleet.pools.set j _) i = _
    rw [releaseCount_set at_j, List.length_append, List.length_singleton]
    by_cases hi : i = j
    · rw [if_pos hi, hi, releaseCount_self at_j, if_pos (beq_self_eq_true j)]
    · rw [if_neg hi, if_neg (show ¬ (j == i) = true by simpa using Ne.symm hi), Nat.add_zero]

/-- A call that changes nothing but its place sees to the same releases. -/
theorem Follows.attends_eq (hf : Follows m work work') : work'.attends = work.attends := by
  cases hf with
  | discarded configs fault r is_over | rejected configs r is_over | reloaded configs r is_over =>
    exact ((Retirement.isOver_iff.mp is_over).2).symm
  | _ => rfl

/-- A call begins to see to a release, or it puts aside such as have returned. -/
theorem Act.attends (ha : Act m c caller e work work' n) (hwork : m.work? c = some work) :
    (∃ j, begins? (m, e) = some j ∧
      work'.attends.Perm ((j, releaseCount m.fleet.pools j) :: work.attends)) ∨
    (begins? (m, e) = none ∧
      ∃ finished, (∀ i t, (i, t) ∈ finished → ¬ m.Outstanding i t) ∧
        work.attends.Perm (finished ++ work'.attends)) := by
  cases ha with
  | goOn _ _ follows =>
    refine Or.inr ⟨rfl, [], nofun, ?_⟩
    rw [follows.attends_eq, List.nil_append]
  | submit | resubmit | sample | gauge | build | failReload | install | close | emptyNothing
  | emptyOut => exact Or.inr ⟨rfl, [], nofun, List.Perm.refl _⟩
  | shutDown r is_over =>
    refine Or.inr ⟨rfl, [], nofun, ?_⟩
    show r.underWay.Perm []
    rw [(Retirement.isOver_iff.mp is_over).2]
  | launch _ r j g retires among free at_j =>
    refine Or.inl ⟨j, begins?_launch hwork retires among true, ?_⟩
    rw [attends_withRetirement retires, attends_of_retirement retires, releaseCount_self at_j,
      Retirement.underWay, Retirement.underWay, free, Option.toList_none, List.append_nil,
      List.append_nil]
    exact List.perm_append_comm
  | launchInline _ r j g retires among free at_j =>
    refine Or.inl ⟨j, begins?_launch hwork retires among false, ?_⟩
    rw [attends_withRetirement retires, attends_of_retirement retires, releaseCount_self at_j,
      Retirement.underWay, Retirement.underWay, free, Option.toList_none, List.append_nil]
    exact List.perm_append_comm
  | collect k _ r r' notices retires todo_eq collects =>
    obtain ⟨i, t, returned, hperm⟩ := underWay_collect collects
    refine Or.inr ⟨rfl, [(i, t)], ?_, ?_⟩
    · intro j s hmem
      cases List.mem_singleton.mp hmem
      exact returned
    · rw [attends_withRetirement retires, attends_of_retirement retires]
      exact hperm

/-! ## Where a release that has not returned comes from -/

/-- A release that is outstanding after a step of its pool was so before, if that step begins none.
-/
theorem outstanding_of_set {j : Nat} {g g' : GuardedPool (Job τ)}
    (at_j : m.fleet.pools[j]? = some g) (hn : n.fleet.pools = m.fleet.pools.set j g')
    (before : ∀ (t : Nat) (place : TimedRelease), g'.releases[t]? = some place →
      place.hasReturned = false → ∃ place, g.releases[t]? = some place ∧ place.hasReturned = false)
    (h : n.Outstanding i t) : m.Outstanding i t := by
  obtain ⟨h', place, at_i, at_t, is_open⟩ := h
  rw [hn, getElem?_set_at at_j] at at_i
  split at at_i
  · rename_i same
    cases at_i
    obtain ⟨old, at_t, was_open⟩ := before t place at_t is_open
    exact ⟨g, old, same ▸ at_j, at_t, was_open⟩
  · exact ⟨h', place, at_i, at_t, is_open⟩

/-- A pool that is asked for a release has that one more. -/
theorem outstanding_of_launch {j : Nat} {g g' : GuardedPool (Job τ)} {place : TimedRelease}
    (at_j : m.fleet.pools[j]? = some g) (hn : n.fleet.pools = m.fleet.pools.set j g')
    (hg' : g'.releases = g.releases ++ [place]) (h : n.Outstanding i t) :
    m.Outstanding i t ∨ (i = j ∧ t = releaseCount m.fleet.pools j) := by
  obtain ⟨h', place, at_i, at_t, is_open⟩ := h
  rw [hn, getElem?_set_at at_j] at at_i
  split at at_i
  · rename_i same
    cases at_i
    rw [hg', getElem?_append_one] at at_t
    split at at_t
    · rename_i last
      exact Or.inr ⟨same, last.trans (releaseCount_self at_j).symm⟩
    · exact Or.inl ⟨g, place, same ▸ at_j, at_t, is_open⟩
  · exact Or.inl ⟨h', place, at_i, at_t, is_open⟩

/-- A release that has not returned after a step had not returned before it, or began in it. -/
theorem Act.outstanding_before (ha : Act m c caller e work work' n)
    (hwork : m.work? c = some work) (h : n.Outstanding i t) :
    m.Outstanding i t ∨ (begins? (m, e) = some i ∧ t = releaseCount m.fleet.pools i) := by
  cases ha with
  | goOn | failReload | install | close | emptyNothing | emptyOut | shutDown | collect =>
    exact Or.inl h
  | submit pool task generation j g at_j | resubmit pool task j g at_j | sample pool j g at_j =>
    refine Or.inl (outstanding_of_set at_j rfl ?_ h)
    exact fun t place at_t is_open => ⟨place, at_t, is_open⟩
  | gauge pool j k g g' at_j reads =>
    refine Or.inl (outstanding_of_set at_j rfl (fun t place at_t is_open => ?_) h)
    exact (GuardedPool.change_of_step reads).open_before nofun at_t is_open
  | build configs config rest batch batch' fleet builds =>
    obtain ⟨g, created, rfl, -⟩ := eq_of_build builds
    obtain ⟨-, pool, -, rfl⟩ := GuardedPool.eq_of_create created
    obtain ⟨h', place, at_i, at_t, is_open⟩ := h
    simp only [getElem?_append_one] at at_i
    split at at_i
    · cases at_i
      cases at_t
    · exact Or.inl ⟨h', place, at_i, at_t, is_open⟩
  | launch _ r j g retires among free at_j
  | launchInline _ r j g retires among free at_j =>
    refine (outstanding_of_launch at_j rfl rfl h).imp_right ?_
    rintro ⟨rfl, ht⟩
    exact ⟨begins?_launch hwork retires among _, ht⟩

/-! ## Every release has one call that sees to it -/

/-- In every step no release gets a second attendant. -/
theorem AttendedOnce.change (h : m.AttendedOnce) (hc : Change m e m') : m'.AttendedOnce := by
  intro i
  cases hc with
  | call caller request =>
    have nothing : request.work.attends = [] := by cases request <;> rfl
    rw [attended, List.flatMap_append, List.flatMap_singleton, nothing, List.map_nil,
      List.append_nil]
    exact h i
  | pool j move g g' at_j moves =>
    have hlength := (GuardedPool.change_of_step moves).length_releases
    show m.attended.count i ≤ releaseCount (m.fleet.pools.set j g') i
    rw [releaseCount_set_same at_j hlength]
    exact h i
  | act c caller _ work work' n at_c acts =>
    have hwork := work?_of_getElem? at_c
    have hcount := acts.releaseCount_eq hwork i
    have hcalls := count_flatMap_modify (fun call : Call τ => call.work.attends.map Prod.fst)
      (fun call => { call with work := work' }) i at_c
    have hi := h i
    have hself : (work'.attends.map Prod.fst).count i
        ≤ (work.attends.map Prod.fst).count i + (begins? (m, e)).toList.count i := by
      rcases acts.attends hwork with ⟨j, begun, hperm⟩ | ⟨begun, finished, -, hperm⟩
      · apply Nat.le_of_eq
        rw [(hperm.map Prod.fst).count_eq, begun, List.map_cons, List.count_cons,
          Option.toList_some, List.count_singleton]
      · rw [(hperm.map Prod.fst).count_eq, List.map_append, List.count_append]
        omega
    rw [attended] at hi ⊢
    simp only [setWork, acts.calls_eq] at hcalls ⊢
    omega

/-- A call does not lose sight of a release that has not returned. -/
theorem Change.still_attended (hc : Change m e m') (hwork : m.work? c = some work)
    (sees : (i, t) ∈ work.attends) (is_open : m.Outstanding i t) :
    ∃ work', m'.work? c = some work' ∧ (i, t) ∈ work'.attends := by
  rcases hc.own_or_other hwork with ⟨same, -⟩ | ⟨caller, work', n, acts, -, hwork'⟩
  · exact ⟨work, same, sees⟩
  · refine ⟨work', hwork', ?_⟩
    rcases acts.attends hwork with ⟨j, -, hperm⟩ | ⟨-, finished, returned, hperm⟩
    · exact hperm.mem_iff.mpr (List.mem_cons_of_mem _ sees)
    · rcases List.mem_append.mp (hperm.mem_iff.mp sees) with hfinished | hstill
      · exact absurd is_open (returned i t hfinished)
      · exact hstill

/-- In every step each outstanding release keeps its attendant. -/
theorem Attended.change (h : m.Attended) (hc : Change m e m') : m'.Attended := by
  intro i t is_open
  have later (before : m.Outstanding i t) :
      ∃ c work, m'.work? c = some work ∧ (i, t) ∈ work.attends := by
    obtain ⟨c, work, hwork, sees⟩ := h i t before
    exact ⟨c, hc.still_attended hwork sees before⟩
  cases hc with
  | call => exact later is_open
  | pool j move g g' at_j moves =>
    refine later (outstanding_of_set at_j rfl (fun t place at_t is_open => ?_) is_open)
    exact (GuardedPool.change_of_step moves).open_before nofun at_t is_open
  | act c caller _ work work' n at_c acts =>
    have hwork := work?_of_getElem? at_c
    have hwork' : (n.setWork c work').work? c = some work' :=
      work?_setWork_self ((work?_of_calls acts.calls_eq c).trans hwork)
    rcases acts.outstanding_before hwork is_open with before | ⟨begun, ht⟩
    · exact later before
    · rcases acts.attends hwork with ⟨j, begun', hperm⟩ | ⟨nothing, -⟩
      · obtain rfl : i = j := Option.some.inj (begun.symm.trans begun')
        rw [← ht] at hperm
        exact ⟨c, work', hwork', hperm.mem_iff.mpr List.mem_cons_self⟩
      · rw [nothing] at begun
        cases begun

/-- In every reachable manager each release has at most one attendant. -/
theorem Reachable.attendedOnce (h : m.Reachable) : m.AttendedOnce := by
  induction h with
  | create hcreate =>
    obtain ⟨fleet, batch, fresh, rfl⟩ := eq_of_ofConfigs hcreate
    intro i
    exact Nat.zero_le _
  | step _ hstep ih => exact ih.change (change_of_step hstep)

/-- In every reachable manager each outstanding release has an attendant. -/
theorem Reachable.attended (h : m.Reachable) : m.Attended := by
  induction h with
  | create hcreate =>
    obtain ⟨fleet, batch, fresh, rfl⟩ := eq_of_ofConfigs hcreate
    rintro i t ⟨g, place, at_i, at_t, -⟩
    obtain ⟨config, watched, created⟩ := fresh.created g (List.mem_of_getElem? at_i)
    obtain ⟨-, pool, -, rfl⟩ := GuardedPool.eq_of_create created
    cases at_t
  | step _ hstep ih => exact ih.change (change_of_step hstep)

/-! ## One owner -/

/-- A pool is held by a holder once, or its one release was asked for. -/
theorem Reachable.held_or_released (h : m.Reachable) (built : i < m.fleet.pools.length) :
    (m.held.count i = 1 ∧ releaseCount m.fleet.pools i = 0) ∨
      (m.held.count i = 0 ∧ releaseCount m.fleet.pools i = 1) := by
  have hi := h.accounted i
  rw [buildCount, if_pos built] at hi
  omega

/-- A pool is held by the installed batch or by a call. -/
theorem mem_held_iff :
    i ∈ m.held ↔ i ∈ m.installed.pools ∨ ∃ c work, m.work? c = some work ∧ i ∈ work.owned := by
  rw [held, List.mem_append, List.mem_flatMap]
  refine or_congr_right ⟨?_, ?_⟩
  · rintro ⟨call, hcall, hi⟩
    obtain ⟨c, at_c⟩ := List.getElem?_of_mem hcall
    exact ⟨c, call.work, by rw [work?, at_c]; rfl, hi⟩
  · rintro ⟨c, work, hwork, hi⟩
    obtain ⟨call, at_c, rfl⟩ := Option.map_eq_some_iff.mp hwork
    exact ⟨call, List.mem_of_getElem? at_c, hi⟩

/-- A pool that a call owns is counted. -/
theorem count_owned_pos (hwork : m.work? c = some work) (owned : i ∈ work.owned) :
    0 < (m.calls.flatMap fun call => call.work.owned).count i := by
  obtain ⟨call, at_c, rfl⟩ := Option.map_eq_some_iff.mp hwork
  exact List.count_pos_iff.mpr (List.mem_flatMap.mpr ⟨call, List.mem_of_getElem? at_c, owned⟩)

/-- Two calls do not hold one pool. -/
theorem caller_unique {g : Work τ → List Nat} (hwork : m.work? c = some work)
    (hwork' : m.work? c' = some work') (hi : i ∈ g work) (hi' : i ∈ g work')
    (once : (m.calls.flatMap fun call => g call.work).count i ≤ 1) : c = c' := by
  obtain ⟨call, at_c, rfl⟩ := Option.map_eq_some_iff.mp hwork
  obtain ⟨call', at_c', rfl⟩ := Option.map_eq_some_iff.mp hwork'
  exact eq_of_mem_flatMap (fun call : Call τ => g call.work) at_c at_c' hi hi' once

/-- A release that has not returned is not the one of a pool that was released. -/
theorem not_outstanding_of_released (released : m.Owns .released i) : ¬ m.Outstanding i t := by
  obtain ⟨g, fault, at_i, releases_eq⟩ := released
  rintro ⟨g', place, at_i', at_t, is_open⟩
  obtain rfl : g = g' := Option.some.inj (at_i.symm.trans at_i')
  rw [releases_eq, List.getElem?_singleton] at at_t
  split at at_t
  · cases at_t
    cases is_open
  · cases at_t

/-- Every pool that was built has an owner. -/
theorem Reachable.exists_owner (h : m.Reachable) (built : i < m.fleet.pools.length) :
    ∃ o, m.Owns o i := by
  rcases h.held_or_released built with ⟨held, -⟩ | ⟨-, released⟩
  · have hi : i ∈ m.held := List.count_pos_iff.mp (by omega)
    rcases mem_held_iff.mp hi with installed | ⟨c, work, hwork, owned⟩
    · exact ⟨.installed, installed⟩
    · rcases mem_owned_iff.mp owned with batched | condemned
      · exact ⟨.batch c, work, hwork, batched⟩
      · exact ⟨.retired c, work, hwork, Or.inl condemned⟩
  · have at_i : m.fleet.pools[i]? = some m.fleet.pools[i] := List.getElem?_eq_getElem built
    rw [releaseCount_self at_i] at released
    obtain ⟨place, releases_eq⟩ := List.length_eq_one_iff.mp released
    cases hplace : place.hasReturned with
    | true =>
      cases place with
      | returned fault => exact ⟨.released, _, fault, at_i, releases_eq⟩
      | begun | waiting | inline => cases hplace
    | false =>
      have is_open : m.Outstanding i 0 := ⟨_, place, at_i, by rw [releases_eq]; rfl, hplace⟩
      obtain ⟨c, work, hwork, sees⟩ := h.attended i 0 is_open
      exact ⟨.retired c, work, hwork, Or.inr ⟨0, sees, is_open⟩⟩

/-- A pool that nobody asked to release is installed or with a call that holds it. -/
theorem owner_of_unreleased (none_begun : releaseCount m.fleet.pools i = 0) {o : Owner}
    (owns : m.Owns o i) :
    (o = .installed ∧ i ∈ m.installed.pools) ∨
      ∃ c work, m.work? c = some work ∧ i ∈ work.owned ∧
        ((o = .batch c ∧ i ∈ work.batched) ∨ (o = .retired c ∧ i ∈ work.condemned)) := by
  cases o with
  | installed => exact Or.inl ⟨rfl, owns⟩
  | batch c =>
    obtain ⟨work, hwork, batched⟩ := owns
    exact Or.inr ⟨c, work, hwork, mem_owned_iff.mpr (Or.inl batched), Or.inl ⟨rfl, batched⟩⟩
  | retired c =>
    obtain ⟨work, hwork, condemned | ⟨t, sees, g, place, at_i, at_t, -⟩⟩ := owns
    · exact Or.inr ⟨c, work, hwork, mem_owned_iff.mpr (Or.inr condemned),
        Or.inr ⟨rfl, condemned⟩⟩
    · rw [releaseCount_self at_i, List.length_eq_zero_iff] at none_begun
      rw [none_begun] at at_t
      cases at_t
  | released =>
    obtain ⟨g, fault, at_i, releases_eq⟩ := owns
    rw [releaseCount_self at_i, releases_eq] at none_begun
    cases none_begun

/-- A pool whose release was asked for is with the call that sees to that, until it returns. -/
theorem owner_of_released (none_held : m.held.count i = 0) {o : Owner} (owns : m.Owns o i) :
    o = .released ∨ ∃ c work t, o = .retired c ∧ m.work? c = some work ∧
      (i, t) ∈ work.attends ∧ m.Outstanding i t := by
  have not_held : i ∉ m.held := List.count_eq_zero.mp none_held
  cases o with
  | installed => exact absurd (mem_held_iff.mpr (Or.inl owns)) not_held
  | batch c =>
    obtain ⟨work, hwork, batched⟩ := owns
    have owned := mem_owned_iff.mpr (Or.inl batched)
    exact absurd (mem_held_iff.mpr (Or.inr ⟨c, work, hwork, owned⟩)) not_held
  | retired c =>
    obtain ⟨work, hwork, condemned | ⟨t, sees, is_open⟩⟩ := owns
    · have owned := mem_owned_iff.mpr (Or.inr condemned)
      exact absurd (mem_held_iff.mpr (Or.inr ⟨c, work, hwork, owned⟩)) not_held
    · exact Or.inr ⟨c, work, t, rfl, hwork, sees, is_open⟩
  | released => exact Or.inl rfl

/-- No pool has two owners. -/
theorem Reachable.owner_unique (h : m.Reachable) (built : i < m.fleet.pools.length)
    {o o' : Owner} (owns : m.Owns o i) (owns' : m.Owns o' i) : o = o' := by
  rcases h.held_or_released built with ⟨held, none_begun⟩ | ⟨none_held, released⟩
  · rw [Manager.held, List.count_append] at held
    rcases owner_of_unreleased none_begun owns with
      ⟨rfl, installed⟩ | ⟨c, work, hwork, owned, kind⟩
    · rcases owner_of_unreleased none_begun owns' with ⟨rfl, -⟩ | ⟨c, work, hwork, owned, -⟩
      · rfl
      · -- the one unit of the pool is in the installed batch
        have := List.count_pos_iff.mpr installed
        have := count_owned_pos hwork owned
        omega
    · rcases owner_of_unreleased none_begun owns' with
        ⟨rfl, installed⟩ | ⟨c', work', hwork', owned', kind'⟩
      · have := List.count_pos_iff.mpr installed
        have := count_owned_pos hwork owned
        omega
      · obtain rfl : c = c' :=
          caller_unique (g := Work.owned) hwork hwork' owned owned' (by omega)
        obtain rfl : work = work' := Option.some.inj (hwork.symm.trans hwork')
        rcases kind with ⟨rfl, batched⟩ | ⟨rfl, condemned⟩
        · rcases kind' with ⟨rfl, -⟩ | ⟨-, condemned⟩
          · rfl
          · rw [condemned_of_batched batched] at condemned
            cases condemned
        · rcases kind' with ⟨-, batched⟩ | ⟨rfl, -⟩
          · rw [condemned_of_batched batched] at condemned
            cases condemned
          · rfl
  · rcases owner_of_released none_held owns with
      rfl | ⟨c, work, t, rfl, hwork, sees, is_open⟩
    · rcases owner_of_released none_held owns' with rfl | ⟨c, work, t, rfl, -, -, is_open⟩
      · rfl
      · exact absurd is_open (not_outstanding_of_released owns)
    · rcases owner_of_released none_held owns' with
        rfl | ⟨c', work', t', rfl, hwork', sees', -⟩
      · exact absurd is_open (not_outstanding_of_released owns')
      · have once : m.attended.count i ≤ 1 := released ▸ h.attendedOnce i
        have hc : c = c' := caller_unique (g := fun work => work.attends.map Prod.fst) hwork hwork'
          (List.mem_map.mpr ⟨_, sees, rfl⟩) (List.mem_map.mpr ⟨_, sees', rfl⟩) once
        rw [hc]

/-- Only pools that were built have owners. -/
theorem lt_of_owns (h : m.Reachable) {o : Owner} (owns : m.Owns o i) :
    i < m.fleet.pools.length := by
  have built_of_held (hi : i ∈ m.held) : i < m.fleet.pools.length := by
    have hcount := h.accounted i
    have := List.count_pos_iff.mpr hi
    rw [buildCount] at hcount
    by_contra unbuilt
    rw [if_neg unbuilt] at hcount
    omega
  cases o with
  | installed => exact built_of_held (mem_held_iff.mpr (Or.inl owns))
  | batch c =>
    obtain ⟨work, hwork, batched⟩ := owns
    exact built_of_held
      (mem_held_iff.mpr (Or.inr ⟨c, work, hwork, mem_owned_iff.mpr (Or.inl batched)⟩))
  | retired c =>
    obtain ⟨work, hwork, condemned | ⟨t, -, g, place, at_i, -⟩⟩ := owns
    · exact built_of_held
        (mem_held_iff.mpr (Or.inr ⟨c, work, hwork, mem_owned_iff.mpr (Or.inr condemned)⟩))
    · exact (List.getElem?_eq_some_iff.mp at_i).1
  | released =>
    obtain ⟨g, fault, at_i, -⟩ := owns
    exact (List.getElem?_eq_some_iff.mp at_i).1

/-! ## Releases in the course of a run -/

/-- A pool is released once more in exactly the steps that begin a release of it. -/
theorem Change.releaseCount_eq (hc : Change m e m') (i : Nat) :
    releaseCount m'.fleet.pools i
      = releaseCount m.fleet.pools i + (begins? (m, e)).toList.count i := by
  cases hc with
  | call => rfl
  | pool j move g g' at_j moves =>
    exact releaseCount_set_same at_j (GuardedPool.change_of_step moves).length_releases i
  | act c caller _ work work' n at_c acts => exact acts.releaseCount_eq (work?_of_getElem? at_c) i

/-- A release counts from the step on in which it begins. -/
theorem releasesBegun_cons (hstep : m.step e = some n) (es : List (Event τ)) :
    m.releasesBegun (e :: es) = (begins? (m, e)).toList ++ n.releasesBegun es := by
  rw [releasesBegun, history_cons hstep, List.filterMap_cons, releasesBegun]
  cases begins? (m, e) <;> rfl

/-- A pool has as many releases more after a run as began in its course. -/
theorem releaseCount_of_run (hrun : m.run es = some m') (i : Nat) :
    releaseCount m'.fleet.pools i
      = releaseCount m.fleet.pools i + (m.releasesBegun es).count i := by
  induction es generalizing m with
  | nil =>
    rw [run_nil hrun]
    rfl
  | cons e es ih =>
    obtain ⟨n, hstep, hrun⟩ := run_cons hrun
    have hfirst := (change_of_step hstep).releaseCount_eq i
    have hrest := ih hrun
    rw [releasesBegun_cons hstep, List.count_append]
    omega

/-- The release of an installed pool does not begin. -/
theorem Reachable.not_installed_of_begins (h : m.Reachable) (begun : begins? (m, e) = some i) :
    i ∉ m.installed.pools := by
  intro installed
  cases e with
  | launch c j start =>
    obtain ⟨work, hwork, condemned⟩ := condemned_of_begins? begun
    have owner : Owner.installed = .retired c :=
      h.owner_unique (lt_of_owns h (o := .installed) installed) installed
        ⟨work, hwork, Or.inl condemned⟩
    cases owner
  | call | advance | collect | pool => cases begun

/-- Work that is over holds no pool and is to release none. -/
theorem not_owns_of_isOver
    (finished : ∀ c work, m.work? c = some work → work.isOver = true) (c : Nat) :
    ¬ m.Owns (.batch c) i ∧ ¬ m.Owns (.retired c) i := by
  have nothing {work : Work τ} (is_over : work.isOver = true) :
      work.batched = [] ∧ work.retirement? = none := by
    cases work with
    | execute | stats | list => exact ⟨rfl, rfl⟩
    | reload configs phase =>
      cases phase with
      | returned => exact ⟨rfl, rfl⟩
      | begun | assembling | built | checked | rejecting | retiring => cases is_over
    | shutdown phase =>
      cases phase with
      | returned => exact ⟨rfl, rfl⟩
      | begun | closed | retiring => cases is_over
  constructor
  · rintro ⟨work, hwork, batched⟩
    rw [(nothing (finished c work hwork)).1] at batched
    cases batched
  · rintro ⟨work, hwork, condemned | ⟨t, sees, -⟩⟩
    · rw [Work.condemned, (nothing (finished c work hwork)).2] at condemned
      cases condemned
    · rw [Work.attends, (nothing (finished c work hwork)).2] at sees
      cases sees

/-- **Ownership of pools.**  In every state of a manager each pool that was ever built has exactly
one owner: it is installed, it belongs to the batch of one reload, one call is to release it, or its
release has returned.  No release begins twice for one pool, and none for a pool that is installed
at that time.  When all calls have returned, a pool is installed and was never released, or it is
not installed, was released once, and that release has returned. -/
theorem owned_and_released_once {configs : List PoolConfig} {options : FleetOptions}
    (hcreate : ofConfigs configs options = .ok m) (hrun : m.run es = some m') :
    (∀ i < m'.fleet.pools.length, ∃! o, m'.Owns o i) ∧
    (∀ o i, m'.Owns o i → i < m'.fleet.pools.length) ∧
    (m.releasesBegun es).Nodup ∧
    (∀ n e i, (n, e) ∈ m.history es → begins? (n, e) = some i → i ∉ n.installed.pools) ∧
    ((∀ c work, m'.work? c = some work → work.isOver = true) →
      ∀ i < m'.fleet.pools.length,
        (i ∈ m'.installed.pools ∧ i ∉ m.releasesBegun es) ∨
        (i ∉ m'.installed.pools ∧ (m.releasesBegun es).count i = 1 ∧ m'.Owns .released i)) := by
  have h : m.Reachable := Reachable.create hcreate
  have h' : m'.Reachable := h.run hrun
  have begun (i : Nat) : (m.releasesBegun es).count i = releaseCount m'.fleet.pools i := by
    obtain ⟨fleet, batch, fresh, rfl⟩ := eq_of_ofConfigs hcreate
    have unreleased : releaseCount (ofBatch fleet batch : Manager τ).fleet.pools i = 0 :=
      fresh.releaseCount_eq i
    have hcount := releaseCount_of_run hrun i
    omega
  refine ⟨fun i built => ?_, fun o i => lt_of_owns h', ?_, fun n e i passed => ?_,
    fun finished i built => ?_⟩
  · obtain ⟨o, owns⟩ := h'.exists_owner built
    exact ⟨o, owns, fun o' owns' => h'.owner_unique built owns' owns⟩
  · rw [List.nodup_iff_count_le_one]
    intro i
    have hi := h'.accounted i
    rw [begun]
    rw [buildCount] at hi
    split at hi <;> omega
  · exact (reachable_of_history h passed).not_installed_of_begins
  · obtain ⟨o, owns⟩ := h'.exists_owner built
    obtain ⟨not_batch, not_retired⟩ : (∀ c, o ≠ .batch c) ∧ ∀ c, o ≠ .retired c :=
      ⟨fun c hc => (not_owns_of_isOver finished c).1 (hc ▸ owns),
        fun c hc => (not_owns_of_isOver finished c).2 (hc ▸ owns)⟩
    cases o with
    | installed =>
      refine Or.inl ⟨owns, ?_⟩
      rcases h'.held_or_released built with ⟨-, none_begun⟩ | ⟨none_held, -⟩
      · rw [← List.count_eq_zero, begun, none_begun]
      · exact absurd (mem_held_iff.mpr (Or.inl owns)) (List.count_eq_zero.mp none_held)
    | batch c => exact absurd rfl (not_batch c)
    | retired c => exact absurd rfl (not_retired c)
    | released =>
      refine Or.inr ⟨fun installed => ?_, ?_, owns⟩
      · have same : Owner.installed = .released := h'.owner_unique built installed owns
        cases same
      · obtain ⟨g, fault, at_i, releases_eq⟩ := owns
        rw [begun, releaseCount_self at_i, releases_eq]
        rfl

end

/-- Two reloads and a shutdown of a manager with one pool.  The batch of reload 0 names a pool
twice, and that of reload 1 is built before the shutdown sets the flag and rejected after that; the
shutdown releases the pool that was installed on its own thread. -/
def racingCalls : List (Event Nat) :=
  [.call none (.reload [{ name := "io", size := 1 }, { name := "io", size := 1 }]),
    .call none (.reload [{ name := "io", size := 1 }]), .call none .shutdown,
    .advance 0, .advance 1, .advance 0, .advance 1, .advance 1, .advance 1, .advance 0,
    .advance 2, .advance 1, .advance 2,
    .launch 0 1 true, .launch 1 2 true, .launch 2 0 false] ++
  ([1, 2, 0].flatMap fun i =>
    [.pool i (.launch 0 true), .pool i (.pool (.close 0)), .pool i (.pool (.alertWorkers 0)),
      .pool i (.pool (.alertSubmitters 0)), .pool i (.complete 0)]) ++
  [.collect 0 (some 0), .collect 1 (some 0), .collect 2 none, .advance 0, .advance 0, .advance 1,
    .advance 2]

/-- Each of the three pools is released once, by the call that had it last. -/
theorem each_released_once_by_racing_calls :
    ∃ m₀ m : Manager Nat, ofConfigs [{ name := "io", size := 1 }] {} = .ok m₀ ∧
      m₀.run racingCalls = some m ∧ m.fleet.pools.length = 3 ∧
      m₀.releasesBegun racingCalls = [1, 2, 0] ∧ (m₀.releasesBegun racingCalls).Nodup ∧
      ∀ i < 3, (∃! o, m.Owns o i) ∧ i ∉ m.installed.pools ∧ m.Owns .released i := by
  obtain ⟨m₀, m, hm₀, hm, hlength, hbegun, hinstalled, hover⟩ : ∃ m₀ m : Manager Nat,
      ofConfigs [{ name := "io", size := 1 }] {} = .ok m₀ ∧ m₀.run racingCalls = some m ∧
        m.fleet.pools.length = 3 ∧ m₀.releasesBegun racingCalls = [1, 2, 0] ∧
        m.installed = [] ∧ (m.calls.all fun call => call.work.isOver) = true :=
    ⟨_, _, rfl, rfl, rfl, rfl, rfl, rfl⟩
  obtain ⟨one, -, nodup, -, final⟩ := owned_and_released_once hm₀ hm
  refine ⟨m₀, m, hm₀, hm, hlength, hbegun, nodup, fun i hi => ?_⟩
  rw [← hlength] at hi
  have finished : ∀ c work, m.work? c = some work → work.isOver = true := by
    intro c work hwork
    obtain ⟨call, at_c, rfl⟩ := Option.map_eq_some_iff.mp hwork
    exact List.all_eq_true.mp hover call (List.mem_of_getElem? at_c)
  rcases final finished i hi with ⟨installed, -⟩ | ⟨not_installed, -, released⟩
  · rw [hinstalled] at installed
    cases installed
  · exact ⟨one i hi, not_installed, released⟩

end Manager

end TaskPools
