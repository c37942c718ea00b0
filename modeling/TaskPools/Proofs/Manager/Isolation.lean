/-
# Pools are isolated

While nobody replaces or empties the batch, an installed pool and the calls that ask for it by name
keep to themselves: their steps depend on nothing but the pool and these calls (`step_same`), and
every other step leaves them as they are (`Isolated.view_eq`).  So two runs in which the same
happens to one pool agree on it, whatever happens to the others (`pools_isolated`).
-/
import TaskPools.Proofs.GuardedPool.Relabelling
import TaskPools.Proofs.Manager.Admission
import TaskPools.Proofs.Manager.Departures
import TaskPools.Proofs.Manager.Targets
import TaskPools.Proofs.Pool.ClosingWakeup

namespace TaskPools

variable {τ : Type}

/-! ## What concerns one pool -/

/-- Somebody wants the pool of this name to execute a task or to give statistics. -/
def Request.isFor (name : String) : Request τ → Bool
  | .execute pool _ | .stats pool => pool == name
  | .reload _ | .shutdown | .list => false

/-- Nobody wants the batch to be replaced or emptied. -/
def Request.isPlain : Request τ → Bool
  | .execute _ _ | .stats _ | .list => true
  | .reload _ | .shutdown => false

/-- The work asks for the pool of this name. -/
def Work.isFor (name : String) (work : Work τ) : Bool := work.request.isFor name

/-- The work changes no batch and begins no release any more. -/
def Work.IsStill (work : Work τ) : Prop :=
  work.request.isPlain = true ∨ (work.lingers = true ∧ work.owned = [])

/-- What has become of a call. -/
inductive Outcome where
  | answered (answer : Answer)
  /-- It waits for a submission that sleeps on a full pool. -/
  | blocked
  | underWay

namespace Manager

/-- What may happen to one pool and to the calls that ask for it. -/
inductive Local (τ : Type) where
  /-- Somebody makes one more call. -/
  | call (request : Request τ)
  /-- The call goes on that was the one with number `k` among those for the pool. -/
  | advance (k : Nat)
  | move (move : GuardedPool.Move)

/-- Nothing but a call that replaces or empties the batch, or that a task makes. -/
def Event.isPlain : Event τ → Bool
  | .call none request => request.isPlain
  | .call (some _) _ => false
  | .advance _ | .launch .. | .collect _ _ | .pool _ _ => true

/-- Where the calls stand. -/
def works (m : Manager τ) : List (Work τ) := m.calls.map Call.work

/-- Where the calls stand that ask for the pool of this name. -/
def worksFor (m : Manager τ) (name : String) : List (Work τ) := m.works.filter (Work.isFor name)

/-- How many calls before call `c` asked for the pool of this name. -/
def rank (m : Manager τ) (name : String) (c : Nat) : Nat :=
  (m.works.take c).countP (Work.isFor name)

/-- Pool `i` without the numbers of the calls that handed its tasks in. -/
def unlabelled? (m : Manager τ) (i : Nat) : Option (GuardedPool τ) :=
  (m.fleet.pools[i]?).map (GuardedPool.map Job.task)

/-- What happens to pool `i` of this name in a step, if anything does. -/
def local? (name : String) (i : Nat) : Manager τ × Event τ → Option (Local τ)
  | (_, .call none request) => if request.isFor name then some (.call request) else none
  | (m, .advance c) =>
    if (m.work? c).any (Work.isFor name) then some (.advance (m.rank name c)) else none
  | (_, .pool j move) => if j = i then some (.move move) else none
  | _ => none

/-- What happens to pool `i` of this name in the course of a run. -/
def share (m : Manager τ) (name : String) (i : Nat) (es : List (Event τ)) : List (Local τ) :=
  (m.history es).filterMap (local? name i)

/-- The work waits for a submission that sleeps. -/
def isBlocked (m : Manager τ) (work : Work τ) : Bool :=
  work.site?.any fun (i, s) => (m.fleet.pools[i]?).any fun g =>
    (g.pool.submissions[s]?).any Submission.isParked

/-- What has become of a piece of work. -/
def outcome (m : Manager τ) (work : Work τ) : Outcome :=
  match work.answer? with
  | some answer => .answered answer
  | none => if m.isBlocked work then .blocked else .underWay

/-- What was asked of the pool of this name, and what has become of it, call by call. -/
def outcomes (m : Manager τ) (name : String) : List (Request τ × Outcome) :=
  (m.worksFor name).map fun work => (work.request, m.outcome work)

/-- Everything that has to do with pool `i` of this name. -/
structure View (τ : Type) where
  generation : Nat
  pool : Option (GuardedPool τ)
  calls : List (Work τ)

def viewOf (m : Manager τ) (name : String) (i : Nat) : View τ where
  generation := m.generation
  pool := m.unlabelled? i
  calls := m.worksFor name

/-- The manager is open, pool `i` is installed under this name, and nobody interferes with it: the
calls for the name have found no other pool, no batch is about to change, no release is about to
begin, and no task of the pool waits for a call. -/
structure Isolated (name : String) (i : Nat) (m : Manager τ) : Prop where
  reachable : m.Reachable
  is_open : m.closed = false
  found : m.find? name = some i
  fits : ∀ c work j, m.work? c = some work → work.target? = some (name, j) → j = i
  still : ∀ c work, m.work? c = some work → work.IsStill
  uncalled : ∀ (c w : Nat) (work : Work τ), m.calls[c]? = some ⟨some (i, w), work⟩ →
    work.isOver = true

section

variable {m m' n m₁ m₂ : Manager τ} {e e₁ e₂ : Event τ} {es : List (Event τ)} {c c₁ c₂ i j : Nat}
  {caller : Option (Nat × Nat)} {work work' : Work τ} {name : String}

/-! ## Steps that concern other pools -/

/-- A call that has found a pool asks for it by its name. -/
theorem isFor_of_target? (target : work.target? = some (name, j)) : work.isFor name = true := by
  cases work with
  | execute pool task phase => cases phase <;> cases target <;> exact beq_self_eq_true _
  | stats pool phase => cases phase <;> cases target <;> exact beq_self_eq_true _
  | reload | shutdown | list => cases target

/-- A call that changes no batch and begins no release changes only the pool that it concerns. -/
theorem Act.still (ha : Act m c caller e work work' n) (still : work.IsStill) :
    work'.IsStill ∧ ((∃ notices, n = { m with fleet := { m.fleet with notices } }) ∨
      ∃ name j g, work.target? = some (name, j) ∧ n = m.withPool j g) := by
  rcases still with plain | ⟨lingers, none_owned⟩
  · refine ⟨Or.inl (by rw [ha.request_eq]; exact plain), ?_⟩
    cases ha with
    | goOn => exact Or.inl ⟨m.fleet.notices, rfl⟩
    | submit | resubmit | sample | gauge => exact Or.inr ⟨_, _, _, rfl, rfl⟩
    | launch _ _ _ _ retires | launchInline _ _ _ _ retires | collect _ _ _ _ _ retires =>
      cases retires_of_retirement? retires <;> cases plain
    | build | failReload | install | close | emptyNothing | emptyOut | shutDown => cases plain
  · have none_first : ∀ j ∈ work.owned, j < ([] : List (GuardedPool (Job τ))).length := by
      rw [none_owned]
      exact nofun
    obtain ⟨lingers', owned, ps, notices, length_eq, rfl⟩ :=
      ha.departs lingers none_first (List.nil_append m.fleet.pools).symm
    obtain rfl := List.length_eq_zero_iff.mp length_eq
    refine ⟨Or.inr ⟨lingers', List.eq_nil_iff_forall_not_mem.mpr fun j among => ?_⟩,
      Or.inl ⟨notices, rfl⟩⟩
    exact Nat.not_lt_zero j (owned j among)

/-- A call that goes to another place changes its own entry among the works. -/
theorem works_setWork (n : Manager τ) (c : Nat) (work : Work τ) :
    (n.setWork c work).works = n.works.set c work :=
  map_modify_const (fun _ => by rfl) n.calls c

theorem works_of_calls (h : n.calls = m.calls) : n.works = m.works := by
  rw [works, h, works]

/-- The works stand under the numbers of their calls. -/
theorem getElem?_works (m : Manager τ) (c : Nat) : m.works[c]? = m.work? c := List.getElem?_map

/-- A call that asks for something else is not seen. -/
theorem worksFor_other (hwork : m.work? c = some work) (ha : Act m c caller e work work' n)
    (other : work.isFor name = false) : (n.setWork c work').worksFor name = m.worksFor name := by
  have other' : work'.isFor name = false := by rw [Work.isFor, ha.request_eq]; exact other
  rw [worksFor, works_setWork, works_of_calls ha.calls_eq,
    filter_set_of_neg _ ((getElem?_works m c).trans hwork) other other', worksFor]

/-- A step of a call for the name changes its own entry among the calls for the name. -/
theorem worksFor_own (hwork : m.work? c = some work) (ha : Act m c caller e work work' n)
    (own : work.isFor name = true) :
    (n.setWork c work').worksFor name = (m.worksFor name).set (m.rank name c) work' := by
  have own' : work'.isFor name = true := by rw [Work.isFor, ha.request_eq]; exact own
  rw [worksFor, works_setWork, works_of_calls ha.calls_eq,
    filter_set_of_pos _ ((getElem?_works m c).trans hwork) own own', worksFor, rank]

/-- A call that asks for a pool has nothing to release. -/
theorem Act.advances_of_isFor (ha : Act m c caller e work work' n)
    (own : work.isFor name = true) : e = .advance c := by
  cases ha with
  | launch _ _ _ _ retires | launchInline _ _ _ _ retires | collect _ _ _ _ _ retires =>
    cases retires_of_retirement? retires <;> cases own
  | goOn | submit | resubmit | sample | gauge | build | failReload | install | close
  | emptyNothing | emptyOut | shutDown => rfl

/-- A call that changes no batch is made by no task and asks for no such change. -/
theorem isPlain_of_call {request : Request τ} (plain : (Event.call caller request).isPlain = true) :
    caller = none ∧ request.isPlain = true := by
  rcases caller with _ | worker
  · exact ⟨rfl, plain⟩
  · cases plain

/-- What the calls look up stays. -/
theorem Change.lookup_eq (hc : Change m e m')
    (still : ∀ c work, m.work? c = some work → work.IsStill) :
    m'.closed = m.closed ∧ m'.installed = m.installed ∧ m'.past = m.past := by
  cases hc with
  | call | pool => exact ⟨rfl, rfl, rfl⟩
  | act c caller _ work work' n at_c acts =>
    obtain ⟨-, ⟨notices, rfl⟩ | ⟨name, j, g, -, rfl⟩⟩ :=
      acts.still (still c work (work?_of_getElem? at_c))
    · exact ⟨rfl, rfl, rfl⟩
    · exact ⟨rfl, rfl, rfl⟩

/-- As long as no call for another batch comes, all calls keep away from the batches. -/
theorem Change.still (hc : Change m e m') (plain : e.isPlain = true)
    (still : ∀ c work, m.work? c = some work → work.IsStill) (hwork : m'.work? c = some work) :
    work.IsStill := by
  cases hc with
  | call caller request =>
    rw [work?_call] at hwork
    split at hwork
    · cases hwork
      have asked := (isPlain_of_call plain).2
      exact Or.inl (by cases request <;> exact asked)
    · exact still c work hwork
  | pool => exact still c work hwork
  | act c' caller _ old new n at_c acts =>
    have hold := work?_of_getElem? at_c
    by_cases hne : c = c'
    · subst hne
      rw [work?_setWork_self ((work?_of_calls acts.calls_eq c).trans hold)] at hwork
      cases hwork
      exact (acts.still (still c old hold)).1
    · rw [work?_setWork_ne hne, work?_of_calls acts.calls_eq] at hwork
      exact still c work hwork

/-- A call of a task that is over stays so, and no task makes another. -/
theorem Change.uncalled {w : Nat} (hc : Change m e m') (plain : e.isPlain = true)
    (uncalled : ∀ (c w : Nat) (work : Work τ), m.calls[c]? = some ⟨some (i, w), work⟩ →
      work.isOver = true) (at_c : m'.calls[c]? = some ⟨some (i, w), work⟩) :
    work.isOver = true := by
  rcases hc.caller_before at_c with ⟨request, rfl⟩ | ⟨old, before⟩
  · cases plain
  · have is_over := uncalled c w old before
    have same := hc.stays_over (work?_of_getElem? before) is_over
    rw [work?_of_getElem? at_c] at same
    cases same
    exact is_over

/-- As long as nobody calls for another batch, and no task makes calls, the pool stays isolated. -/
theorem Isolated.step (h : m.Isolated name i) (hstep : m.step e = some m')
    (plain : e.isPlain = true) : m'.Isolated name i := by
  have hc := change_of_step hstep
  obtain ⟨closed_eq, installed_eq, -⟩ := hc.lookup_eq h.still
  refine ⟨h.reachable.step hstep, closed_eq.trans h.is_open, ?_, ?_,
    fun c work => hc.still plain h.still, fun c w work => hc.uncalled plain h.uncalled⟩
  · rw [find?, installed_eq]
    exact h.found
  · intro c work j hwork target
    rcases hc.origin hwork with ⟨request, rfl⟩ | same | ⟨caller, old, n, hold, acts⟩
    · cases request <;> cases target
    · exact h.fits c work j same target
    · rcases acts.target?_before target with before | found
      · exact h.fits c old j hold before
      · exact Option.some.inj (found.symm.trans h.found)

/-- A step of another pool is not seen. -/
theorem unlabelled?_withPool_ne {g : GuardedPool (Job τ)} (apart : j ≠ i) :
    (m.withPool j g).unlabelled? i = m.unlabelled? i := by
  rw [unlabelled?, withPool, List.getElem?_set_ne apart, unlabelled?]

/-- What happens elsewhere is not seen. -/
theorem Isolated.view_eq (h : m.Isolated name i) (hstep : m.step e = some m')
    (plain : e.isPlain = true) (elsewhere : local? name i (m, e) = none) :
    m'.viewOf name i = m.viewOf name i := by
  have hc := change_of_step hstep
  obtain ⟨-, -, past_eq⟩ := hc.lookup_eq h.still
  have generation_eq : m'.generation = m.generation := by rw [generation, past_eq, generation]
  have parts : m'.unlabelled? i = m.unlabelled? i ∧ m'.worksFor name = m.worksFor name := by
    cases hc with
    | call caller request =>
      obtain ⟨rfl, -⟩ := isPlain_of_call plain
      have other : ¬ request.isFor name = true := by
        intro own
        rw [local?, if_pos own] at elsewhere
        cases elsewhere
      refine ⟨rfl, ?_⟩
      have unseen : ([request.work].filter (Work.isFor name) : List (Work τ)) = [] :=
        List.filter_cons_of_neg (by cases request <;> exact other)
      simp only [worksFor, works, List.map_append, List.map_cons, List.map_nil,
        List.filter_append, unseen, List.append_nil]
    | pool j move g g' =>
      refine ⟨unlabelled?_withPool_ne ?_, rfl⟩
      rintro rfl
      rw [local?, if_pos rfl] at elsewhere
      cases elsewhere
    | act c caller _ work work' n at_c acts =>
      have hwork := work?_of_getElem? at_c
      have other : work.isFor name = false := by
        rw [← Bool.not_eq_true]
        intro own
        have advances := acts.advances_of_isFor own
        subst advances
        rw [local?, hwork, Option.any_some, if_pos own] at elsewhere
        cases elsewhere
      refine ⟨?_, worksFor_other hwork acts other⟩
      obtain ⟨-, ⟨notices, rfl⟩ | ⟨name', j, g, target, rfl⟩⟩ := acts.still (h.still c work hwork)
      · rfl
      · refine unlabelled?_withPool_ne (m := m) ?_
        rintro rfl
        have known := h.reachable.named c work name' j hwork target
        rw [h.reachable.nameAt?_of_find? h.found] at known
        cases known
        rw [isFor_of_target? target] at other
        cases other
  rw [viewOf, generation_eq, parts.1, parts.2, viewOf]

/-! ## Steps that concern the pool -/

/-- Two managers look the same to whoever asks for pool `i` by its name: it is found in both or in
neither, and the two pools differ at most in the numbers of the calls that handed the tasks in. -/
structure LooksAlike (name : String) (i : Nat) (m₁ m₂ : Manager τ) : Prop where
  closed : m₁.closed = m₂.closed
  found : m₁.find? name = m₂.find? name
  generation : m₁.generation = m₂.generation
  pool : ∃ g₁ g₂, m₁.fleet.pools[i]? = some g₁ ∧ m₂.fleet.pools[i]? = some g₂ ∧
    g₁.map Job.task = g₂.map Job.task

/-- The two managers still look the same, and the two calls come to the same place. -/
def GoesAlike {α : Type} (name : String) (i : Nat) : Option (Manager τ × α) →
    Option (Manager τ × α) → Prop :=
  Option.Rel fun x y => LooksAlike name i x.1 y.1 ∧ x.2 = y.2

/-- Two results with the same image are both there or both missing. -/
theorem rel_of_map_eq {α β γ : Type} {f : α → γ} {g : β → γ} {x : Option α} {y : Option β}
    (same : x.map f = y.map g) : Option.Rel (fun a b => f a = g b) x y := by
  cases x with
  | none =>
    rw [Option.map_none] at same
    rw [Option.map_eq_none_iff.mp same.symm]
    exact .none
  | some a =>
    obtain ⟨b, rfl, hb⟩ := Option.map_eq_some_iff.mp same.symm
    exact .some hb.symm

/-- A step of a pool puts the new pool in the place of the old one, and that is all. -/
theorem onPool_eq {g : GuardedPool (Job τ)} (at_i : m.fleet.pools[i]? = some g)
    (event : GuardedPool.Event (Job τ)) :
    m.onPool i event = (g.step event).map (m.withPool i) := by
  simp only [onPool, Fleet.onPool, at_i, Option.bind_eq_bind, Option.bind_some]
  cases g.step event <;> rfl

/-- Two managers still look the same when the pool has taken the same step in both. -/
theorem LooksAlike.withPool (h : LooksAlike name i m₁ m₂) {g₁ g₂ : GuardedPool (Job τ)}
    (same : g₁.map Job.task = g₂.map Job.task) :
    LooksAlike name i (m₁.withPool i g₁) (m₂.withPool i g₂) := by
  obtain ⟨_, _, at₁, at₂, -⟩ := h.pool
  refine ⟨h.closed, h.found, h.generation, g₁, g₂, ?_, ?_, same⟩
  · exact List.getElem?_set_self (List.getElem?_eq_some_iff.mp at₁).1
  · exact List.getElem?_set_self (List.getElem?_eq_some_iff.mp at₂).1

/-- The two pools can take the same steps. -/
theorem LooksAlike.onPool (h : LooksAlike name i m₁ m₂) {event₁ event₂ : GuardedPool.Event (Job τ)}
    (same : event₁.map Job.task = event₂.map Job.task) :
    Option.Rel (LooksAlike name i) (m₁.onPool i event₁) (m₂.onPool i event₂) := by
  obtain ⟨g₁, g₂, at₁, at₂, pools⟩ := h.pool
  have steps : Option.Rel (fun a b => a.map Job.task = b.map Job.task)
      (g₁.step event₁) (g₂.step event₂) := by
    apply rel_of_map_eq
    rw [← GuardedPool.step_map, ← GuardedPool.step_map, pools, same]
  rw [onPool_eq at₁, onPool_eq at₂]
  generalize g₁.step event₁ = x, g₂.step event₂ = y at steps
  cases steps with
  | none => exact .none
  | some same' => exact .some (h.withPool same')

/-- A task is handed to the pool in both managers or in neither, and gets the same number there. -/
theorem LooksAlike.submit (h : LooksAlike name i m₁ m₂) (c₁ c₂ : Nat) (task : Option τ) :
    GoesAlike name i (m₁.submit i (task.map (Job.mk c₁))) (m₂.submit i (task.map (Job.mk c₂))) := by
  obtain ⟨g₁, g₂, at₁, at₂, pools⟩ := h.pool
  have replies : g₁.replies = g₂.replies := (congrArg GuardedPool.replies pools :)
  have events : (GuardedPool.Event.submit (task.map (Job.mk c₁))).map Job.task
      = (GuardedPool.Event.submit (task.map (Job.mk c₂))).map Job.task := by
    cases task <;> rfl
  have submits := h.onPool events
  rw [Manager.submit, Manager.submit, at₁, at₂]
  generalize m₁.onPool i (.submit (task.map (Job.mk c₁))) = x,
    m₂.onPool i (.submit (task.map (Job.mk c₂))) = y at submits
  cases submits with
  | none => exact .none
  | some alike => exact .some ⟨alike, by rw [replies]⟩

/-- The pool has given the same answers in both managers. -/
theorem LooksAlike.reply?_eq (h : LooksAlike name i m₁ m₂) (s : Nat) :
    m₁.reply? i s = m₂.reply? i s := by
  obtain ⟨g₁, g₂, at₁, at₂, pools⟩ := h.pool
  have replies : g₁.replies = g₂.replies := (congrArg GuardedPool.replies pools :)
  simp only [reply?, at₁, at₂, Option.bind_eq_bind, Option.bind_some, replies]

/-- An execution for the pool goes on in both managers in the same way. -/
theorem LooksAlike.advanceExecute (h : LooksAlike name i m₁ m₂) (c₁ c₂ : Nat) (task : Option τ)
    (phase : ExecutePhase)
    (fits : ∀ j, (Work.execute name task phase).target? = some (name, j) → j = i) :
    GoesAlike name i (m₁.advanceExecute c₁ name task phase)
      (m₂.advanceExecute c₂ name task phase) := by
  cases phase with
  | begun | refused generation =>
    simp only [Manager.advanceExecute, h.closed]
    exact .some ⟨h, rfl⟩
  | «open» =>
    simp only [Manager.advanceExecute, h.found, h.generation]
    cases m₂.find? name <;> exact .some ⟨h, rfl⟩
  | found generation j | refound j =>
    obtain rfl := fits j rfl
    have submits := h.submit c₁ c₂ task
    simp only [Manager.advanceExecute]
    generalize m₁.submit j (task.map (Job.mk c₁)) = x, m₂.submit j (task.map (Job.mk c₂)) = y
      at submits
    cases submits with
    | none => exact .none
    | some alike => exact .some ⟨alike.1, by rw [alike.2]⟩
  | submitted generation j s =>
    obtain rfl := fits j rfl
    simp only [Manager.advanceExecute, h.reply?_eq]
    rcases m₂.reply? j s with _ | _ | fault
    · exact .none
    · exact .some ⟨h, rfl⟩
    · cases fault <;> exact .some ⟨h, rfl⟩
  | rerouting generation =>
    simp only [Manager.advanceExecute, h.generation, h.found]
    split
    · exact .some ⟨h, rfl⟩
    · cases m₂.find? name <;> exact .some ⟨h, rfl⟩
  | resubmitted j s =>
    obtain rfl := fits j rfl
    simp only [Manager.advanceExecute, h.reply?_eq]
    rcases m₂.reply? j s with _ | fault
    · exact .none
    · exact .some ⟨h, rfl⟩
  | returned => exact .none

/-- A call for the statistics of the pool goes on in both managers in the same way. -/
theorem LooksAlike.advanceStats (h : LooksAlike name i m₁ m₂) (phase : StatsPhase)
    (fits : ∀ j, (Work.stats name phase : Work τ).target? = some (name, j) → j = i) :
    GoesAlike name i (m₁.advanceStats name phase) (m₂.advanceStats name phase) := by
  obtain ⟨g₁, g₂, at₁, at₂, pools⟩ := h.pool
  have samples : g₁.samples = g₂.samples := (congrArg GuardedPool.samples pools :)
  cases phase with
  | begun =>
    simp only [Manager.advanceStats, h.closed]
    exact .some ⟨h, rfl⟩
  | «open» =>
    simp only [Manager.advanceStats, h.found]
    cases m₂.find? name <;> exact .some ⟨h, rfl⟩
  | found j =>
    obtain rfl := fits j rfl
    have sampled : Option.Rel (LooksAlike name j) (m₁.onPool j .sample) (m₂.onPool j .sample) :=
      h.onPool rfl
    simp only [Manager.advanceStats, at₁, at₂, Option.bind_eq_bind, Option.bind_some, samples]
    generalize m₁.onPool j .sample = x, m₂.onPool j .sample = y at sampled
    cases sampled with
    | none => exact .none
    | some alike => exact .some ⟨alike, rfl⟩
  | sampling j k =>
    obtain rfl := fits j rfl
    have gauged : Option.Rel (LooksAlike name j) (m₁.onPool j (.gauge k))
      (m₂.onPool j (.gauge k)) := h.onPool rfl
    simp only [Manager.advanceStats, at₁, at₂, Option.bind_eq_bind, Option.bind_some, samples]
    rcases g₂.samples[k]? with _ | figures
    · exact .none
    · have stats : g₁.statsOfFigures figures = g₂.statsOfFigures figures :=
        (congrArg (fun g : GuardedPool τ => g.statsOfFigures figures) pools :)
      simp only [Option.bind_some, stats]
      cases g₂.statsOfFigures figures with
      | some => exact .some ⟨h, rfl⟩
      | none =>
        simp only
        generalize m₁.onPool j (.gauge k) = x, m₂.onPool j (.gauge k) = y at gauged
        cases gauged with
        | none => exact .none
        | some alike => exact .some ⟨alike, rfl⟩
  | returned => exact .none

/-- A call that asks for the pool goes on in the same way. -/
theorem LooksAlike.advanceWork (h : LooksAlike name i m₁ m₂) (c₁ c₂ : Nat)
    (own : work.isFor name = true) (fits : ∀ j, work.target? = some (name, j) → j = i) :
    GoesAlike name i (m₁.advanceWork c₁ work) (m₂.advanceWork c₂ work) := by
  cases work with
  | execute pool task phase =>
    obtain rfl : pool = name := beq_iff_eq.mp own
    have goes := h.advanceExecute c₁ c₂ task phase fits
    simp only [Manager.advanceWork]
    generalize m₁.advanceExecute c₁ pool task phase = x, m₂.advanceExecute c₂ pool task phase = y
      at goes
    cases goes with
    | none => exact .none
    | some alike => exact .some ⟨alike.1, congrArg (Work.execute pool task) alike.2⟩
  | stats pool phase =>
    obtain rfl : pool = name := beq_iff_eq.mp own
    have goes := h.advanceStats phase fits
    simp only [Manager.advanceWork]
    generalize m₁.advanceStats pool phase = x, m₂.advanceStats pool phase = y at goes
    cases goes with
    | none => exact .none
    | some alike => exact .some ⟨alike.1, congrArg (Work.stats pool) alike.2⟩
  | reload | shutdown | list => cases own

/-! ## The same steps -/

/-- No call has the lock, so every call can take it. -/
theorem Isolated.unlocked (h : m.Isolated name i) : m.isLocked = false := by
  refine isLocked_eq_false fun c work hwork holds => ?_
  rcases h.still c work hwork with plain | ⟨lingers, -⟩
  · cases work with
    | reload | shutdown => cases plain
    | execute | stats | list => cases holds
  · rw [Work.holdsLock_of_lingers lingers] at holds
    cases holds

theorem Isolated.built (h : m.Isolated name i) : ∃ g, m.fleet.pools[i]? = some g :=
  ⟨_, List.getElem?_eq_getElem (lt_of_owns h.reachable (o := .installed)
    (mem_pools_of_find? h.found))⟩

/-- Where the same is seen of an isolated pool, the managers look the same to those who ask for it.
-/
theorem Isolated.looksAlike (h₁ : m₁.Isolated name i) (h₂ : m₂.Isolated name i)
    (same : m₁.viewOf name i = m₂.viewOf name i) : LooksAlike name i m₁ m₂ := by
  refine ⟨h₁.is_open.trans h₂.is_open.symm, h₁.found.trans h₂.found.symm,
    congrArg View.generation same, ?_⟩
  obtain ⟨g₁, at₁⟩ := h₁.built
  obtain ⟨g₂, at₂⟩ := h₂.built
  have pools : m₁.unlabelled? i = m₂.unlabelled? i := congrArg View.pool same
  rw [unlabelled?, unlabelled?, at₁, at₂] at pools
  exact ⟨g₁, g₂, at₁, at₂, Option.some.inj pools⟩

/-- The same is seen where the managers look the same and the calls for the name stand at the same
places. -/
theorem LooksAlike.view_eq (h : LooksAlike name i m₁ m₂)
    (works : m₁.worksFor name = m₂.worksFor name) : m₁.viewOf name i = m₂.viewOf name i := by
  obtain ⟨g₁, g₂, at₁, at₂, pools⟩ := h.pool
  rw [viewOf, viewOf, h.generation, works, unlabelled?, unlabelled?, at₁, at₂, Option.map_some,
    Option.map_some, pools]

/-- No task of the pool waits for a call. -/
theorem Isolated.not_calling (h : m.Isolated name i) (w : Nat) : m.isCalling i w = false := by
  rw [isCalling, List.any_eq_false]
  rintro ⟨caller, work⟩ among calling
  obtain ⟨c, at_c⟩ := List.getElem?_of_mem among
  rw [Bool.and_eq_true, beq_iff_eq] at calling
  obtain ⟨rfl, under_way⟩ := calling
  rw [h.uncalled c w work at_c] at under_way
  cases under_way

/-- No task of an isolated pool waits for a call, so each of them may end at any time. -/
theorem Isolated.movePool_eq (h : m.Isolated name i) (move : GuardedPool.Move) :
    m.movePool i move = m.onPool i (.move move) := by
  cases move with
  | conclude w panic escape => rw [movePool, h.not_calling w]; rfl
  | pool | answer | launch | complete | elapse => rfl

/-- A call for the name has its rank as its number among the calls for the name. -/
theorem getElem?_worksFor (hwork : m.work? c = some work) (own : work.isFor name = true) :
    (m.worksFor name)[m.rank name c]? = some work :=
  getElem?_filter_countP _ ((getElem?_works m c).trans hwork) own

/-- The call with the same number among those for the pool goes on in the same way. -/
theorem advance_same (h₁ : m₁.Isolated name i) (h₂ : m₂.Isolated name i)
    (same : m₁.viewOf name i = m₂.viewOf name i) (at₁ : m₁.work? c₁ = some work)
    (at₂ : m₂.work? c₂ = some work') (own₁ : work.isFor name = true)
    (own₂ : work'.isFor name = true) (ranks : m₁.rank name c₁ = m₂.rank name c₂) :
    Option.Rel (fun n₁ n₂ => n₁.viewOf name i = n₂.viewOf name i)
      (m₁.advance c₁) (m₂.advance c₂) := by
  have works : m₁.worksFor name = m₂.worksFor name := congrArg View.calls same
  obtain rfl : work = work' := by
    have here := getElem?_worksFor at₁ own₁
    rw [works, ranks, getElem?_worksFor at₂ own₂] at here
    exact (Option.some.inj here).symm
  obtain ⟨⟨caller₁, work₁⟩, call₁, same₁⟩ := Option.map_eq_some_iff.mp at₁
  obtain ⟨⟨caller₂, work₂⟩, call₂, same₂⟩ := Option.map_eq_some_iff.mp at₂
  obtain rfl : work₁ = work := same₁
  obtain rfl : work₂ = work₁ := same₂
  have goes := (h₁.looksAlike h₂ same).advanceWork c₁ c₂ own₁ fun j => h₁.fits c₁ work₂ j at₁
  rw [advance, advance, call₁, call₂]
  simp only [Option.bind_eq_bind, Option.bind_some, h₁.unlocked, h₂.unlocked, Bool.and_false,
    Bool.false_eq_true, if_false]
  generalize goes₁ : m₁.advanceWork c₁ work₂ = x, goes₂ : m₂.advanceWork c₂ work₂ = y at goes
  cases goes with
  | none => exact .none
  | @some a b alike =>
    obtain ⟨n₁, work₁'⟩ := a
    obtain ⟨n₂, work₂'⟩ := b
    obtain ⟨alike, rfl⟩ : LooksAlike name i n₁ n₂ ∧ work₁' = work₂' := alike
    have moved : LooksAlike name i (n₁.setWork c₁ work₁') (n₂.setWork c₂ work₁') :=
      ⟨alike.closed, alike.found, alike.generation, alike.pool⟩
    refine .some (moved.view_eq ?_)
    have act₁ : Act m₁ c₁ caller₁ (.advance c₁) work₂ work₁' n₁ := act_of_advanceWork goes₁
    have act₂ : Act m₂ c₂ caller₂ (.advance c₂) work₂ work₁' n₂ := act_of_advanceWork goes₂
    rw [worksFor_own at₁ act₁ own₁, worksFor_own at₂ act₂ own₁, works, ranks]

/-- Which events are seen, and as what. -/
inductive Seen (name : String) (i : Nat) (m : Manager τ) : Event τ → Local τ → Prop where
  | call (request : Request τ) (asks : request.isFor name = true) :
      Seen name i m (.call none request) (.call request)
  | advance (c k : Nat) (work : Work τ) (hwork : m.work? c = some work)
      (own : work.isFor name = true) (rank_eq : m.rank name c = k) :
      Seen name i m (.advance c) (.advance k)
  | move (move : GuardedPool.Move) : Seen name i m (.pool i move) (.move move)

/-- What is told of an event as seen from the pool is so. -/
theorem seen_of_local? {l : Local τ} (seen : local? name i (m, e) = some l) :
    Seen name i m e l := by
  cases e with
  | call caller request =>
    rcases caller with _ | worker
    · obtain ⟨asks, ⟨⟩⟩ := Option.ite_none_right_eq_some.mp seen
      exact .call request asks
    · cases seen
  | advance c =>
    obtain ⟨asks, ⟨⟩⟩ := Option.ite_none_right_eq_some.mp seen
    obtain ⟨work, hwork, own⟩ := (Option.any_eq_true _ _).mp asks
    exact .advance c _ work hwork own rfl
  | pool j move =>
    obtain ⟨rfl, ⟨⟩⟩ := Option.ite_none_right_eq_some.mp seen
    exact .move move
  | launch | collect => cases seen

/-- What is seen of an event is told. -/
theorem Seen.local?_eq {l : Local τ} (seen : Seen name i m e l) :
    local? name i (m, e) = some l := by
  cases seen with
  | call request asks => exact if_pos asks
  | advance c k work hwork own rank_eq =>
    rw [local?, hwork, Option.any_some, if_pos own, rank_eq]
  | move => exact if_pos rfl

/-- What can happen to the pool in one of two managers that agree on it can happen in the other, and
then they agree on it again. -/
theorem step_same {l : Local τ} (h₁ : m₁.Isolated name i) (h₂ : m₂.Isolated name i)
    (same : m₁.viewOf name i = m₂.viewOf name i) (seen₁ : Seen name i m₁ e₁ l)
    (seen₂ : Seen name i m₂ e₂ l) :
    Option.Rel (fun n₁ n₂ => n₁.viewOf name i = n₂.viewOf name i) (m₁.step e₁) (m₂.step e₂) := by
  cases seen₁ with
  | call request =>
    cases seen₂
    have works : m₁.worksFor name = m₂.worksFor name := congrArg View.calls same
    obtain ⟨closed, found, generation, pool⟩ := h₁.looksAlike h₂ same
    have called : LooksAlike name i
        { m₁ with calls := m₁.calls ++ [⟨none, request.work⟩] }
        { m₂ with calls := m₂.calls ++ [⟨none, request.work⟩] } :=
      ⟨closed, found, generation, pool⟩
    refine .some (called.view_eq ?_)
    rw [worksFor, Manager.works, worksFor, Manager.works] at works ⊢
    rw [List.map_append, List.filter_append, works, List.map_append, List.filter_append]
  | advance c₁ k work₁ at₁ own₁ rank₁ =>
    cases seen₂ with
    | advance c₂ _ work₂ at₂ own₂ rank₂ =>
      exact advance_same h₁ h₂ same at₁ at₂ own₁ own₂ (rank₁.trans rank₂.symm)
  | move move =>
    cases seen₂
    have moves : Option.Rel (LooksAlike name i) (m₁.onPool i (.move move))
      (m₂.onPool i (.move move)) := (h₁.looksAlike h₂ same).onPool rfl
    rw [Manager.step, Manager.step, h₁.movePool_eq, h₂.movePool_eq]
    generalize moved₁ : m₁.onPool i (.move move) = x, moved₂ : m₂.onPool i (.move move) = y
      at moves
    cases moves with
    | none => exact .none
    | some alike =>
      obtain ⟨_, _, -, -, rfl⟩ := withPool_of_onPool moved₁
      obtain ⟨_, _, -, -, rfl⟩ := withPool_of_onPool moved₂
      exact .some (alike.view_eq (congrArg View.calls same :))

/-! ## Whole runs -/

/-- From what was seen of a pool, this leads to what is seen of it. -/
inductive Leads (name : String) (i : Nat) : View τ → List (Local τ) → View τ → Prop where
  | nil (v : View τ) : Leads name i v [] v
  | cons (m m' : Manager τ) (e : Event τ) (l : Local τ) (ls : List (Local τ)) (v w : View τ)
      (isolated : m.Isolated name i) (view_eq : m.viewOf name i = v)
      (seen : Seen name i m e l) (hstep : m.step e = some m')
      (rest : Leads name i (m'.viewOf name i) ls w) : Leads name i v (l :: ls) w

/-- What happens to a pool determines what becomes of it. -/
theorem Leads.unique {ls : List (Local τ)} {v v₁ v₂ : View τ} (h₁ : Leads name i v ls v₁)
    (h₂ : Leads name i v ls v₂) : v₁ = v₂ := by
  induction h₁ with
  | nil =>
    cases h₂
    rfl
  | cons m₁ n₁ e₁ l ls v w isolated₁ view₁ seen₁ step₁ rest₁ ih =>
    cases h₂ with
    | cons m₂ n₂ e₂ _ _ _ _ isolated₂ view₂ seen₂ step₂ rest₂ =>
      have next := step_same isolated₁ isolated₂ (view₁.trans view₂.symm) seen₁ seen₂
      rw [step₁, step₂] at next
      cases next with
      | some same =>
        rw [← same] at rest₂
        exact ih rest₂

/-- A run leads to what is seen in the end by what is seen to happen. -/
theorem Isolated.run (h : m.Isolated name i) (hrun : m.run es = some m')
    (plain : ∀ e ∈ es, e.isPlain = true) :
    m'.Isolated name i ∧ Leads name i (m.viewOf name i) (m.share name i es) (m'.viewOf name i) := by
  induction es generalizing m with
  | nil =>
    rw [run_nil hrun]
    exact ⟨h, .nil _⟩
  | cons e es ih =>
    obtain ⟨n, hstep, hrun⟩ := run_cons hrun
    have plain_e := plain e List.mem_cons_self
    obtain ⟨isolated, leads⟩ := ih (h.step hstep plain_e) hrun fun e' later =>
      plain e' (List.mem_cons_of_mem e later)
    refine ⟨isolated, ?_⟩
    rw [share, history_cons hstep]
    cases seen : local? name i (m, e) with
    | none =>
      rw [List.filterMap_cons_none seen, ← h.view_eq hstep plain_e seen]
      exact leads
    | some l =>
      rw [List.filterMap_cons_some seen]
      exact .cons m n e l _ _ _ h rfl (seen_of_local? seen) hstep leads

/-! ## Quiet states -/

/-- A call is blocked while the submission for which it waits sleeps. -/
theorem isBlocked_iff : m.isBlocked work = true ↔
    ∃ i s g x, work.site? = some (i, s) ∧ m.fleet.pools[i]? = some g ∧
      g.pool.submissions[s]? = some x ∧ x.isParked = true := by
  simp only [isBlocked, Option.any_eq_true, Prod.exists]
  exact ⟨fun ⟨i, s, site, g, at_i, x, at_s, parked⟩ => ⟨i, s, g, x, site, at_i, at_s, parked⟩,
    fun ⟨i, s, g, x, site, at_i, at_s, parked⟩ => ⟨i, s, site, g, at_i, x, at_s, parked⟩⟩

/-- Every call has returned, waits for a submission that sleeps on a full pool, or waits for
releases, and these have all begun and have woken whoever slept on their pools. -/
structure Quiet (m : Manager τ) : Prop where
  -- only a call that could not start a thread waits with more releases to begin
  calls : ∀ work ∈ m.works,
    m.isBlocked work = true ∨ (work.lingers = true ∧ work.owned = [])
  woken : ∀ g ∈ m.fleet.pools, g.releases ≠ [] →
    g.pool.closed = true ∧ ∀ place ∈ g.pool.releases, place.wakesSubmitters = false

instance (m : Manager τ) : Decidable m.Quiet :=
  decidable_of_iff
    ((∀ work ∈ m.works, m.isBlocked work = true ∨ (work.lingers = true ∧ work.owned = [])) ∧
      ∀ g ∈ m.fleet.pools, g.releases ≠ [] →
        g.pool.closed = true ∧ ∀ place ∈ g.pool.releases, place.wakesSubmitters = false)
    ⟨fun ⟨calls, woken⟩ => ⟨calls, woken⟩, fun quiet => ⟨quiet.calls, quiet.woken⟩⟩

/-- A call that waits for a submission is an execution that has found the pool of this submission.
-/
theorem target?_of_site? {s : Nat} (site : work.site? = some (j, s)) :
    ∃ pool task phase, work = .execute pool task phase ∧ work.target? = some (pool, j) := by
  cases work with
  | execute pool task phase =>
    cases phase <;> cases site <;> exact ⟨pool, task, _, rfl, rfl⟩
  | reload | shutdown | stats | list => cases site

/-- A call that has found a pool is none of those that only see to releases. -/
theorem lingers_of_target? (target : work.target? = some (name, j)) : work.lingers = false := by
  cases work with
  | execute pool task phase => cases phase <;> cases target <;> rfl
  | stats pool phase => cases phase <;> cases target <;> rfl
  | reload | shutdown | list => cases target

/-- In a quiet manager no call is about to change a batch, and none has a release to begin. -/
theorem Quiet.still (h : m.Quiet) (among : work ∈ m.works) : work.IsStill ∧ work.owned = [] := by
  rcases h.calls work among with blocked | ⟨lingers, none_owned⟩
  · obtain ⟨_, _, _, _, site, -⟩ := isBlocked_iff.mp blocked
    obtain ⟨_, _, _, rfl, -⟩ := target?_of_site? site
    exact ⟨Or.inl rfl, rfl⟩
  · exact ⟨Or.inr ⟨lingers, none_owned⟩, none_owned⟩

theorem mem_works (hwork : m.work? c = some work) : work ∈ m.works :=
  List.mem_of_getElem? ((getElem?_works m c).trans hwork)

/-- Nobody sleeps on a pool whose release has begun, so in a quiet state calls sleep on installed
pools only. -/
theorem Quiet.installed (h : m.Reachable) (quiet : m.Quiet) {s : Nat} {g : GuardedPool (Job τ)}
    {x : Submission (Job τ)} (at_j : m.fleet.pools[j]? = some g)
    (at_s : g.pool.submissions[s]? = some x) (parked : x.isParked = true) :
    j ∈ m.installed.pools := by
  have unreleased : g.releases = [] := by
    by_contra released
    obtain ⟨is_closed, woken⟩ := quiet.woken g (List.mem_of_getElem? at_j) released
    have asleep : 0 < g.pool.asleep := countP_pos_of_getElem? at_s parked
    have awaited := (h.pool at_j).pool.arises.sleepersAwaited.submitters is_closed asleep
    obtain ⟨place, among, wakes⟩ := List.countP_pos_iff.mp awaited
    rw [woken place among] at wakes
    cases wakes
  rcases h.held_or_released (List.getElem?_eq_some_iff.mp at_j).1 with ⟨held, -⟩ | ⟨-, released⟩
  · rcases mem_held_iff.mp (List.count_pos_iff.mp (held ▸ Nat.one_pos)) with
      installed | ⟨c, work, hwork, owned⟩
    · exact installed
    · rw [(quiet.still (mem_works hwork)).2] at owned
      cases owned
  · rw [releaseCount_self at_j, unreleased] at released
    cases released

/-- In a quiet state of an open manager, an installed pool none of whose tasks waits for a call is
isolated. -/
theorem Quiet.isolated (h : m.Reachable) (quiet : m.Quiet) (is_open : m.closed = false)
    (found : m.find? name = some i) (uncalled : ∀ w, m.isCalling i w = false) :
    m.Isolated name i := by
  refine ⟨h, is_open, found, ?_, fun c work hwork => (quiet.still (mem_works hwork)).1, ?_⟩
  · intro c work j hwork target
    rcases quiet.calls work (mem_works hwork) with blocked | ⟨lingers, -⟩
    · obtain ⟨k, s, g, x, site, at_k, at_s, parked⟩ := isBlocked_iff.mp blocked
      obtain ⟨pool, _, _, -, target'⟩ := target?_of_site? site
      rw [target] at target'
      cases target'
      have installed := quiet.installed h at_k at_s parked
      have known := h.found_of_named installed (h.named c work name j hwork target)
      exact Option.some.inj (known.symm.trans found)
    · rw [lingers_of_target? target] at lingers
      cases lingers
  · intro c w work at_c
    have none_calls := uncalled w
    rw [isCalling, List.any_eq_false] at none_calls
    have idle := none_calls _ (List.mem_of_getElem? at_c)
    simpa using idle

/-! ## Agreement -/

/-- This may happen next to pool `i` of this name. -/
def Allows (m : Manager τ) (name : String) (i : Nat) (l : Local τ) : Prop :=
  ∃ e m', local? name i (m, e) = some l ∧ m.step e = some m'

/-- What two managers show of pool `i` of this name is the same. -/
structure AgreesOn (name : String) (i : Nat) (m₁ m₂ : Manager τ) : Prop where
  /-- The same was asked of it, and each call has answered the same, is blocked in both, or is under
  way in both. -/
  outcomes : m₁.outcomes name = m₂.outcomes name
  /-- It holds the same, but for the numbers of the calls that handed the tasks in. -/
  pool : m₁.unlabelled? i = m₂.unlabelled? i
  taken : (m₁.fleet.pools[i]?).map (fun g => g.pool.taken.map Job.task)
    = (m₂.fleet.pools[i]?).map fun g => g.pool.taken.map Job.task
  ended : (m₁.fleet.pools[i]?).map (fun g => g.pool.ended.map Job.task)
    = (m₂.fleet.pools[i]?).map fun g => g.pool.ended.map Job.task
  stats : (m₁.fleet.pools[i]?).map GuardedPool.stats = (m₂.fleet.pools[i]?).map GuardedPool.stats
  next : ∀ l, m₁.Allows name i l ↔ m₂.Allows name i l

/-- Whether a submission sleeps does not depend on its task. -/
theorem isParked_map {α β : Type} (f : α → β) (x : Submission α) :
    (x.map f).isParked = x.isParked := by
  cases x <;> rfl

/-- The same calls for the pool are blocked. -/
theorem LooksAlike.isBlocked_eq (h : LooksAlike name i m₁ m₂) (own : work.isFor name = true)
    (fits : ∀ j, work.target? = some (name, j) → j = i) :
    m₁.isBlocked work = m₂.isBlocked work := by
  obtain ⟨g₁, g₂, at₁, at₂, pools⟩ := h.pool
  cases hsite : work.site? with
  | none => rw [isBlocked, isBlocked, hsite, Option.any_none, Option.any_none]
  | some site =>
    obtain ⟨j, s⟩ := site
    obtain ⟨pool, task, phase, rfl, target⟩ := target?_of_site? hsite
    obtain rfl : pool = name := beq_iff_eq.mp own
    obtain rfl := fits j target
    have parked (g : GuardedPool (Job τ)) : ((g.map Job.task).pool.submissions[s]?).any
        Submission.isParked = (g.pool.submissions[s]?).any Submission.isParked := by
      rw [GuardedPool.map, Pool.getElem?_submissions_map]
      cases g.pool.submissions[s]? with
      | none => rfl
      | some x => exact isParked_map Job.task x
    simp only [isBlocked, hsite, Option.any_some, at₁, at₂]
    rw [← parked g₁, pools, parked g₂]

/-- The calls for the name are calls of the manager. -/
theorem exists_of_mem_worksFor (among : work ∈ m.worksFor name) :
    work.isFor name = true ∧ ∃ c, m.work? c = some work := by
  obtain ⟨among, own⟩ := List.mem_filter.mp among
  obtain ⟨c, at_c⟩ := List.getElem?_of_mem among
  exact ⟨own, c, (getElem?_works m c).symm.trans at_c⟩

/-- Where the same is seen of a pool, the same has become of the calls for it. -/
theorem outcomes_eq (h₁ : m₁.Isolated name i) (h₂ : m₂.Isolated name i)
    (same : m₁.viewOf name i = m₂.viewOf name i) : m₁.outcomes name = m₂.outcomes name := by
  have works : m₁.worksFor name = m₂.worksFor name := congrArg View.calls same
  rw [outcomes, outcomes, ← works]
  refine List.map_congr_left fun work among => ?_
  obtain ⟨own, c, hwork⟩ := exists_of_mem_worksFor among
  have blocked := (h₁.looksAlike h₂ same).isBlocked_eq own fun j => h₁.fits c work j hwork
  rw [outcome, outcome, blocked]

/-- What is seen of one manager can be seen of another that has the same calls for the pool. -/
theorem Seen.exists {l : Local τ} (seen : Seen name i m₁ e₁ l)
    (works : m₁.worksFor name = m₂.worksFor name) : ∃ e₂, Seen name i m₂ e₂ l := by
  cases seen with
  | call request asks => exact ⟨_, .call request asks⟩
  | advance c₁ k work at₁ own rank₁ =>
    have here := getElem?_worksFor at₁ own
    rw [works, rank₁] at here
    obtain ⟨c₂, at₂, rank₂, own₂⟩ := exists_of_getElem?_filter (Work.isFor name) here
    exact ⟨_, .advance c₂ k work ((getElem?_works m₂ c₂).symm.trans at₂) own₂ rank₂⟩
  | move move => exact ⟨_, .move move⟩

/-- Where the same is seen of a pool, the same may happen next. -/
theorem allows_of_allows (h₁ : m₁.Isolated name i) (h₂ : m₂.Isolated name i)
    (same : m₁.viewOf name i = m₂.viewOf name i) {l : Local τ} (allows : m₁.Allows name i l) :
    m₂.Allows name i l := by
  obtain ⟨e₁, n₁, seen₁, step₁⟩ := allows
  have seen₁ := seen_of_local? seen₁
  obtain ⟨e₂, seen₂⟩ := seen₁.exists (congrArg View.calls same :)
  have next := step_same h₁ h₂ same seen₁ seen₂
  rw [step₁] at next
  generalize step₂ : m₂.step e₂ = y at next
  cases next with
  | some => exact ⟨e₂, _, seen₂.local?_eq, step₂⟩

/-- Where the same is seen of a pool, everything that is asked about it is answered alike. -/
theorem agreesOn_of_view_eq (h₁ : m₁.Isolated name i) (h₂ : m₂.Isolated name i)
    (same : m₁.viewOf name i = m₂.viewOf name i) : AgreesOn name i m₁ m₂ := by
  have pools : m₁.unlabelled? i = m₂.unlabelled? i := congrArg View.pool same
  obtain ⟨taken, ended, stats⟩ := GuardedPool.seen_of_map_eq Job.task pools
  refine ⟨outcomes_eq h₁ h₂ same, pools, taken, ended, stats, fun l => ⟨?_, ?_⟩⟩
  · exact allows_of_allows h₁ h₂ same
  · exact allows_of_allows h₂ h₁ same.symm

/-- **Pools are isolated.**  Let a pool be installed in an open manager that is quiet, and let none
of its tasks wait for a call.  Two runs from there, in which nobody calls for another batch and no
task makes a call, agree on the pool if the same happens in them to it and to the calls for it:
these calls have the same outcomes, it has taken and ended the same tasks, it gives the same
statistics, and the same may happen to it next.  What happens to the other pools and calls plays no
part. -/
theorem pools_isolated (h : m.Reachable) (quiet : m.Quiet) (is_open : m.closed = false)
    (found : m.find? name = some i) (uncalled : ∀ w, m.isCalling i w = false)
    {es₁ es₂ : List (Event τ)} (run₁ : m.run es₁ = some m₁) (run₂ : m.run es₂ = some m₂)
    (plain₁ : ∀ e ∈ es₁, e.isPlain = true) (plain₂ : ∀ e ∈ es₂, e.isPlain = true)
    (same : m.share name i es₁ = m.share name i es₂) : AgreesOn name i m₁ m₂ := by
  have isolated := Quiet.isolated h quiet is_open found uncalled
  obtain ⟨isolated₁, leads₁⟩ := isolated.run run₁ plain₁
  obtain ⟨isolated₂, leads₂⟩ := isolated.run run₂ plain₂
  rw [← same] at leads₂
  exact agreesOn_of_view_eq isolated₁ isolated₂ (leads₁.unique leads₂)

end

/-- Call `c` asks for pool 0, which is full and refuses the task. -/
def refusedAs (c : Nat) : List (Event Nat) :=
  [.call none (.execute "io" (some 10)), .advance c, .advance c, .advance c,
    .pool 0 (.pool (.enter 1 true none)), .pool 0 (.answer 1), .advance c]

/-- Somebody falls asleep on pool 1, and the task of pool 1 throws. -/
def panicElsewhere : List (Event Nat) :=
  [.call none (.execute "db" (some 9)), .advance 2, .advance 2, .advance 2,
    .pool 1 (.pool (.enter 1 true none)), .pool 1 (.conclude 0 (some (.text "lost")) none)]

/-- Pool 0 is full and refuses one more task, whether or not somebody sleeps on pool 1 and its task
throws. -/
theorem refused_whatever_elsewhere :
    ∃ m m₁ m₂ : Manager Nat, m.Reachable ∧ m.Quiet ∧ m.find? "io" = some 0 ∧
      m.run (panicElsewhere ++ refusedAs 3) = some m₁ ∧ m.run (refusedAs 2) = some m₂ ∧
      m₁.outcomes "db" = [(.execute "db" (some 8), .answered (.done none)),
        (.execute "db" (some 9), .blocked)] ∧
      m₁.outcomes "io" = [(.execute "io" (some 7), .answered (.done none)),
        (.execute "io" (some 10), .answered (.done (some (.poolOverloaded "io"))))] ∧
      AgreesOn "io" 0 m₁ m₂ := by
  obtain ⟨m₀, m, m₁, m₂, hm₀, hm, hm₁, hm₂, is_open, found, calls, pools, onDb, onIo, same⟩ :
      ∃ m₀ m m₁ m₂ : Manager Nat,
        ofConfigs [{ name := "io", size := 1 }, { name := "db", size := 1, nonBlocking := false }]
          {} = .ok m₀ ∧ m₀.run bothFull = some m ∧
        m.run (panicElsewhere ++ refusedAs 3) = some m₁ ∧ m.run (refusedAs 2) = some m₂ ∧
        m.closed = false ∧ m.find? "io" = some 0 ∧
        m.calls = [⟨none, .execute "io" (some 7) (.returned none)⟩,
          ⟨none, .execute "db" (some 8) (.returned none)⟩] ∧
        m.fleet.pools.map (fun g => g.releases) = [[], []] ∧
        m₁.outcomes "db" = [(.execute "db" (some 8), .answered (.done none)),
          (.execute "db" (some 9), .blocked)] ∧
        m₁.outcomes "io" = [(.execute "io" (some 7), .answered (.done none)),
          (.execute "io" (some 10), .answered (.done (some (.poolOverloaded "io"))))] ∧
        m.share "io" 0 (panicElsewhere ++ refusedAs 3) = m.share "io" 0 (refusedAs 2) :=
    ⟨_, _, _, _, rfl, rfl, rfl, rfl, rfl, rfl, rfl, rfl, rfl, rfl, rfl⟩
  have reachable : m.Reachable := (Reachable.create hm₀).run hm
  have quiet : m.Quiet := by
    constructor
    · rw [works, calls]
      simp [Work.lingers, Work.isOver, Work.owned]
    · intro g among released
      have none_begun : g.releases ∈ ([[], []] : List (List TimedRelease)) := by
        rw [← pools]
        exact List.mem_map_of_mem among
      simp [released] at none_begun
  have uncalled (w : Nat) : m.isCalling 0 w = false := by
    rw [isCalling, calls]
    rfl
  have agrees := pools_isolated reachable quiet is_open found uncalled hm₁ hm₂
    (by decide) (by decide) same
  exact ⟨m, m₁, m₂, reachable, quiet, found, hm₁, hm₂, onDb, onIo, agrees⟩

end Manager

end TaskPools
