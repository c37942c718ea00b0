/-
# What statistics tell

Statistics read their figures one at a time, and between two of them anything else can happen.
Each figure is the true one at the moment at which it is read (`figures_of_run`), and at each single
moment the figures fit together: the workers in service and those there is room for make up the
capacity, the accepted tasks are those counted as submitted and those not yet counted
(`Reachable.submitted_add_uncounted`), and no more tasks are counted as over than were accepted.
Figures of several moments fit together as far as nothing happened in between (`stats_explained`);
`stats_disagree` is a run in which something did.
-/
import TaskPools.Proofs.GuardedPool.Release
import TaskPools.Proofs.Pool.Figures

namespace TaskPools

variable {τ : Type}

namespace GuardedPool

/-- Statistics `k` read their next figure. -/
def Event.reads (k : Nat) : Event τ → Bool
  | .gauge k' => k' == k
  | _ => false

/-- The figures that statistics `k` have read. -/
def figures (g : GuardedPool τ) (k : Nat) : List Nat := (g.samples[k]?).getD []

/-- The guarded pool at those moments of a run at which statistics `k` read a figure. -/
def readings (k : Nat) : GuardedPool τ → List (Event τ) → List (GuardedPool τ)
  | _, [] => []
  | g, e :: es =>
    (if e.reads k then [g] else []) ++ (g.step e).elim [] fun g' => readings k g' es

/-- The number of submissions that were accepted and are not yet counted. -/
def uncounted (g : GuardedPool τ) : Nat :=
  (g.pool.submissions.zip g.replies).countP fun (x, reply) => x.isAccepted && reply == .pending

/-- A guarded pool becomes another. -/
def LeadsTo (g g' : GuardedPool τ) : Prop := ∃ es, g.run es = some g'

/-- Every counter shows in `g'` at least what it shows in `g`. -/
structure CountsUp (g g' : GuardedPool τ) : Prop where
  submitted_le : g.submitted ≤ g'.submitted
  completed_le : g.completed ≤ g'.completed
  panicked_le : g.panicked ≤ g'.panicked
  rejected_le : g.rejected ≤ g'.rejected

section

variable {g g' : GuardedPool τ} {e : Event τ} {es : List (Event τ)} {k : Nat}

/-! ## Each moment -/

/-- The answers without a fault are counted as submitted. -/
theorem Change.submitted_eq (hc : Change g e g')
    (h : g.submitted = g.replies.countP (· == .given none)) :
    g'.submitted = g'.replies.countP (· == .given none) := by
  cases hc with
  | submit =>
    rw [List.countP_append]
    exact h
  | answer s fault settled open_s =>
    have hset := countP_set_add (· == .given none) open_s (.given (fault.map translate))
    cases fault with
    | none => exact (congrArg (· + 1) h).trans hset.symm
    | some fault => cases fault <;> exact h.trans hset.symm
  | release | sample | gauge | pool | returns | panics | launch | launchInline | complete
  | elapse => exact h

/-- As many submissions are counted as were answered with success. -/
theorem Reachable.submitted_eq (h : g.Reachable) :
    g.submitted = g.replies.countP (· == .given none) := by
  induction h with
  | create hcreate =>
    obtain ⟨-, pool, -, rfl⟩ := eq_of_create hcreate
    rfl
  | step _ hstep ih => exact (change_of_step hstep).submitted_eq ih

/-- Each accepted task is counted as submitted, or is not yet counted. -/
theorem Reachable.submitted_add_uncounted (h : g.Reachable) :
    g.submitted + g.uncounted = g.pool.accepted.length := by
  have answered := h.answered
  have submissions : g.pool.submissions.countP Submission.isAccepted
      = (g.pool.submissions.zip g.replies).countP fun x => x.1.isAccepted := by
    have first := List.map_fst_zip (Nat.le_of_eq answered.length_eq.symm)
    exact (congrArg (List.countP _) first).symm.trans List.countP_map
  have replies : g.replies.countP (· == .given none)
      = (g.pool.submissions.zip g.replies).countP fun x => x.2 == .given none := by
    have second := List.map_snd_zip (Nat.le_of_eq answered.length_eq)
    exact (congrArg (List.countP _) second).symm.trans List.countP_map
  have split (x : Submission τ × Reply) (among : x ∈ g.pool.submissions.zip g.replies) :
      x.1.isAccepted.toNat
        = (x.1.isAccepted && x.2 == .pending).toNat + (x.2 == .given none).toNat := by
    obtain ⟨s, at_s⟩ := List.getElem?_of_mem among
    obtain ⟨at_s, replied⟩ := List.getElem?_zip_eq_some.mp at_s
    obtain ⟨x, reply⟩ := x
    cases reply with
    | pending => simp
    | given answer =>
      obtain ⟨fault, settled, rfl⟩ := answered.settled s answer replied
      cases at_s.symm.trans settled
      cases fault <;> rfl
  rw [h.submitted_eq, h.pool.arises.acceptancesCounted, replies, submissions, countP_eq_add split,
    Nat.add_comm]
  rfl

/-- A task is counted as over, once, at the moment at which it ends. -/
theorem Change.over_eq_ended (hc : Change g e g')
    (h : g.completed + g.panicked = g.pool.ended.length) :
    g'.completed + g'.panicked = g'.pool.ended.length := by
  cases hc with
  | pool m p moves => exact h.trans (congrArg List.length (Pool.ended_of_move moves).symm)
  | returns w escape p finishes =>
    have one_more := Pool.ended_of_finish finishes
    show g.completed + 1 + g.panicked = p.ended.length
    omega
  | panics w panic escape p finishes =>
    have one_more := Pool.ended_of_finish finishes
    show g.completed + (g.panicked + 1) = p.ended.length
    omega
  | submit task => exact h.trans (congrArg List.length (Pool.ended_submit g.pool task).symm)
  | answer s fault =>
    rcases fault with _ | fault
    · exact h
    · cases fault <;> exact h
  | release | sample | gauge | launch | launchInline | complete | elapse => exact h

/-- As many ends are counted, with a panic or without, as tasks have ended. -/
theorem Reachable.over_eq_ended (h : g.Reachable) :
    g.completed + g.panicked = g.pool.ended.length := by
  induction h with
  | create hcreate =>
    obtain ⟨-, pool, hpool, rfl⟩ := eq_of_create hcreate
    obtain ⟨-, -, rfl⟩ := Pool.eq_of_create hpool
    rfl
  | step _ hstep ih => exact (change_of_step hstep).over_eq_ended ih

/-- No more tasks are counted as over than were accepted. -/
theorem Reachable.over_le_accepted (h : g.Reachable) :
    g.completed + g.panicked ≤ g.pool.accepted.length := by
  rw [h.over_eq_ended]
  exact h.pool.arises.ended_le_accepted

/-! ## From one moment to a later one -/

theorem CountsUp.refl (g : GuardedPool τ) : g.CountsUp g :=
  ⟨Nat.le_refl _, Nat.le_refl _, Nat.le_refl _, Nat.le_refl _⟩

/-- Counters that go up, and up again, have gone up. -/
theorem CountsUp.trans {h : GuardedPool τ} (first : g.CountsUp h) (second : h.CountsUp g') :
    g.CountsUp g' :=
  ⟨Nat.le_trans first.submitted_le second.submitted_le,
    Nat.le_trans first.completed_le second.completed_le,
    Nat.le_trans first.panicked_le second.panicked_le,
    Nat.le_trans first.rejected_le second.rejected_le⟩

theorem LeadsTo.refl (g : GuardedPool τ) : g.LeadsTo g := ⟨[], rfl⟩

/-- A step and what comes after it lead on. -/
theorem LeadsTo.head {h : GuardedPool τ} (hstep : g.step e = some h) (leads : h.LeadsTo g') :
    g.LeadsTo g' := by
  obtain ⟨es, hrun⟩ := leads
  refine ⟨e :: es, ?_⟩
  rw [run, List.foldlM_cons]
  exact Option.bind_eq_some_iff.mpr ⟨h, hstep, hrun⟩

/-- What a reachable guard leads to is reachable. -/
theorem Reachable.leadsTo (h : g.Reachable) (leads : g.LeadsTo g') : g'.Reachable := by
  obtain ⟨es, hrun⟩ := leads
  exact h.run hrun

/-- No step counts down. -/
theorem Change.countsUp (hc : Change g e g') : g.CountsUp g' := by
  cases hc with
  | returns => exact ⟨Nat.le_refl _, Nat.le_succ _, Nat.le_refl _, Nat.le_refl _⟩
  | panics => exact ⟨Nat.le_refl _, Nat.le_refl _, Nat.le_succ _, Nat.le_refl _⟩
  | answer s fault =>
    rcases fault with _ | fault
    · exact ⟨Nat.le_succ _, Nat.le_refl _, Nat.le_refl _, Nat.le_refl _⟩
    · cases fault with
      | poolFull => exact ⟨Nat.le_refl _, Nat.le_refl _, Nat.le_refl _, Nat.le_succ _⟩
      | _ => exact ⟨Nat.le_refl _, Nat.le_refl _, Nat.le_refl _, Nat.le_refl _⟩
  | submit | release | sample | gauge | pool | launch | launchInline | complete | elapse =>
    exact ⟨Nat.le_refl _, Nat.le_refl _, Nat.le_refl _, Nat.le_refl _⟩

/-- Counters never go down. -/
theorem LeadsTo.countsUp (leads : g.LeadsTo g') : g.CountsUp g' := by
  obtain ⟨es, hrun⟩ := leads
  induction es generalizing g with
  | nil =>
    obtain rfl := run_nil hrun
    exact .refl g'
  | cons e es ih =>
    obtain ⟨m, hm, hrun⟩ := run_cons hrun
    exact (change_of_step hm).countsUp.trans (ih hrun)

theorem LeadsTo.completed_le (leads : g.LeadsTo g') : g.completed ≤ g'.completed :=
  leads.countsUp.completed_le

/-- The capacity never changes. -/
theorem LeadsTo.capacity_eq (leads : g.LeadsTo g') : g'.pool.capacity = g.pool.capacity := by
  obtain ⟨es, hrun⟩ := leads
  induction es generalizing g with
  | nil => rw [run_nil hrun]
  | cons e es ih =>
    obtain ⟨m, hm, hrun⟩ := run_cons hrun
    rw [ih hrun]
    rcases (change_of_step hm).pool_step with same | ⟨e', hpool⟩
    · rw [same]
    · exact Pool.capacity_of_step hpool

/-- A figure is read from a state to which the first one leads. -/
theorem leadsTo_of_mem_readings {h : GuardedPool τ} (hh : h ∈ g.readings k es) :
    g.LeadsTo h := by
  induction es generalizing g with
  | nil => cases hh
  | cons e es ih =>
    rcases List.mem_append.mp hh with now | later
    · split at now
      · rw [List.mem_singleton.mp now]
        exact .refl g
      · cases now
    · cases hstep : g.step e with
      | none =>
        rw [hstep] at later
        cases later
      | some m =>
        rw [hstep] at later
        exact .head hstep (ih later)

/-- The moments at which figures are read follow one another. -/
theorem readings_pairwise (k : Nat) (g : GuardedPool τ) (es : List (Event τ)) :
    (g.readings k es).Pairwise LeadsTo := by
  induction es generalizing g with
  | nil => exact .nil
  | cons e es ih =>
    have first : (if e.reads k then [g] else []).Pairwise LeadsTo := by
      split
      · exact List.pairwise_singleton _ _
      · exact .nil
    rw [readings]
    cases hstep : g.step e with
    | none =>
      rw [Option.elim_none, List.append_nil]
      exact first
    | some m =>
      rw [Option.elim_some]
      refine List.pairwise_append.mpr ⟨first, ih m, fun h now h' later => ?_⟩
      split at now
      · rw [List.mem_singleton.mp now]
        exact .head hstep (leadsTo_of_mem_readings later)
      · cases now

/-! ## Figures -/

/-- A figure that is read is the true one, and nothing else adds figures. -/
theorem Change.figures_eq (hc : Change g e g') (k : Nat) :
    (e.reads k = true ∧ ∃ next, Gauge.order[(g.figures k).length]? = some next ∧
      g'.figures k = g.figures k ++ [g.read next]) ∨
    (e.reads k = false ∧ g'.figures k = g.figures k) := by
  cases hc with
  | gauge k' figures next at_k is_next =>
    have now : (g.samples.set k' (figures ++ [g.read next]))[k]?
        = if k = k' then some (figures ++ [g.read next]) else g.samples[k]? :=
      getElem?_set_at at_k _ k
    by_cases same : k = k'
    · subst same
      have before : g.figures k = figures := by rw [GuardedPool.figures, at_k]; rfl
      rw [if_pos rfl] at now
      refine Or.inl ⟨beq_self_eq_true k, next, by rw [before]; exact is_next, ?_⟩
      rw [before, GuardedPool.figures, now]
      rfl
    · rw [if_neg same] at now
      refine Or.inr ⟨beq_eq_false_iff_ne.mpr (Ne.symm same), ?_⟩
      rw [GuardedPool.figures, now, GuardedPool.figures]
  | sample =>
    refine Or.inr ⟨rfl, ?_⟩
    rw [GuardedPool.figures, getElem?_append_one, GuardedPool.figures]
    split
    · rename_i new
      rw [new, List.getElem?_eq_none (Nat.le_refl _)]
      rfl
    · rfl
  | answer s fault =>
    refine Or.inr ⟨rfl, ?_⟩
    rcases fault with _ | fault
    · rfl
    · cases fault <;> rfl
  | submit | release | pool | returns | panics | launch | launchInline | complete | elapse =>
    exact Or.inr ⟨rfl, rfl⟩

/-- The figures that are read in a run are the true ones of the moments at which they are read, in
the order of the figures. -/
theorem figures_of_run (hrun : g.run es = some g') (k : Nat) :
    g'.figures k = g.figures k ++
        List.zipWith read (g.readings k es) (Gauge.order.drop (g.figures k).length) ∧
      (g'.figures k).length = (g.figures k).length + (g.readings k es).length := by
  induction es generalizing g with
  | nil =>
    rw [run_nil hrun]
    exact ⟨(List.append_nil _).symm, rfl⟩
  | cons e es ih =>
    obtain ⟨m, hm, hrun⟩ := run_cons hrun
    obtain ⟨figures, length⟩ := ih hrun
    rw [readings, hm, Option.elim_some]
    rcases (change_of_step hm).figures_eq k with ⟨reads, next, is_next, read_now⟩ | ⟨other, same⟩
    · obtain ⟨in_range, is_next⟩ := List.getElem?_eq_some_iff.mp is_next
      rw [read_now] at figures length
      refine ⟨?_, ?_⟩
      · rw [figures, if_pos reads, List.drop_eq_getElem_cons in_range, is_next, List.length_append,
          List.append_assoc]
        rfl
      · rw [length, if_pos reads]
        simp only [List.length_append, List.length_singleton]
        omega
    · rw [same] at figures length
      rw [if_neg (by rw [other]; exact Bool.false_ne_true)]
      exact ⟨figures, length⟩

/-- A complete list of figures was read at as many moments as there are figures. -/
theorem exists_moments {g₀ : GuardedPool τ} {config : PoolConfig} {watched : Bool}
    {figures : List Nat} {stats : PoolStats} (hcreate : create config watched = .ok g₀)
    (hrun : g₀.run es = some g) (at_k : g.samples[k]? = some figures)
    (complete : g.statsOfFigures figures = some stats) :
    ∃ atRunning atFree atWaiting atSubmitted atCompleted atPanicked atRejected,
      g₀.readings k es
        = [atRunning, atFree, atWaiting, atSubmitted, atCompleted, atPanicked, atRejected] ∧
      figures = List.zipWith read (g₀.readings k es) Gauge.order := by
  obtain ⟨-, pool, -, rfl⟩ := eq_of_create hcreate
  obtain ⟨figures_eq, length⟩ := figures_of_run hrun k
  have read_all : g.figures k = figures := by rw [GuardedPool.figures, at_k]; rfl
  rw [read_all] at figures_eq length
  have seven : figures.length = 7 := by
    unfold statsOfFigures at complete
    split at complete
    · rfl
    · cases complete
  obtain ⟨h₀, h₁, h₂, h₃, h₄, h₅, h₆, moments⟩ :=
    exists_of_length_eq_seven ((Nat.zero_add _).symm.trans (length.symm.trans seven))
  exact ⟨h₀, h₁, h₂, h₃, h₄, h₅, h₆, moments, figures_eq⟩

/-- **What statistics tell.**  Each figure is the true one at the moment at which it was read.  The
tasks shown as over are no more than those shown as submitted, those accepted but not yet counted
when the number of submitted tasks was read, and those accepted from then until the number of
panicked tasks was read.  The workers shown in service and those shown room for make up the
capacity, but for those that entered service or left it between the two readings. -/
theorem stats_explained {g₀ : GuardedPool τ} {config : PoolConfig} {watched : Bool}
    {figures : List Nat} {stats : PoolStats} (hcreate : create config watched = .ok g₀)
    (hrun : g₀.run es = some g) (at_k : g.samples[k]? = some figures)
    (complete : g.statsOfFigures figures = some stats) :
    ∃ atRunning atFree atWaiting atSubmitted atCompleted atPanicked atRejected,
      g₀.readings k es
        = [atRunning, atFree, atWaiting, atSubmitted, atCompleted, atPanicked, atRejected] ∧
      figures = List.zipWith read (g₀.readings k es) Gauge.order ∧
      stats.completed + stats.panicked + atSubmitted.pool.accepted.length
        ≤ stats.submitted + atSubmitted.uncounted + atPanicked.pool.accepted.length ∧
      stats.running + stats.free + atFree.pool.running
        = stats.capacity + atRunning.pool.running := by
  obtain ⟨atRunning, atFree, atWaiting, atSubmitted, atCompleted, atPanicked, atRejected, moments,
    figures_eq⟩ := exists_moments hcreate hrun at_k complete
  refine ⟨_, _, _, _, _, _, _, moments, figures_eq, ?_, ?_⟩
  all_goals
    rw [figures_eq, moments] at complete
    cases complete
  · have in_order : atCompleted.LeadsTo atPanicked := by
      have pairwise := readings_pairwise k g₀ es
      rw [moments] at pairwise
      exact List.pairwise_iff_getElem.mp pairwise 4 5 (by simp) (by simp) (by decide)
    have reached {h : GuardedPool τ} (hh : h ∈ g₀.readings k es) : h.Reachable :=
      (Reachable.create hcreate).leadsTo (leadsTo_of_mem_readings hh)
    have submitted := (reached (h := atSubmitted) (by simp [moments])).submitted_add_uncounted
    have counted := (reached (h := atPanicked) (by simp [moments])).over_le_accepted
    have completed := in_order.completed_le
    show atCompleted.completed + atPanicked.panicked + _ ≤ atSubmitted.submitted + _ + _
    omega
  · have among : atFree ∈ g₀.readings k es := by simp [moments]
    have leads := leadsTo_of_mem_readings among
    have fits := ((Reachable.create hcreate).leadsTo leads).pool.arises.running_add_free
    have capacity : g.pool.capacity = atFree.pool.capacity :=
      (LeadsTo.capacity_eq ⟨es, hrun⟩).trans leads.capacity_eq.symm
    show atRunning.pool.running + atFree.pool.free + _ = g.pool.capacity + _
    omega

end

/-- While statistics read their figures, a task is accepted by a pool of one slot, and it has ended
before it is counted as submitted. -/
def racingStatistics : List (Event Nat) :=
  [.sample, .gauge 0, .submit (some 7), .move (.pool (.enter 0 true none)), .gauge 0, .gauge 0,
    .gauge 0, .move (.pool (.look 0 false)), .move (.conclude 0 none none), .gauge 0, .gauge 0,
    .gauge 0]

/-- These statistics show more tasks as over than as submitted, and workers in service and room for
workers that do not make up the capacity. -/
theorem stats_disagree :
    ∃ (g₀ g : GuardedPool Nat) (figures : List Nat) (stats : PoolStats),
      create { name := "io", size := 1 } false = .ok g₀ ∧ g₀.run racingStatistics = some g ∧
      g.samples[0]? = some figures ∧ g.statsOfFigures figures = some stats ∧
      ¬ stats.completed + stats.panicked ≤ stats.submitted ∧
      ¬ stats.running + stats.free = stats.capacity :=
  ⟨_, _, _, _, rfl, rfl, rfl, rfl, by decide, by decide⟩

/-- The one task that was accepted and not yet counted makes up for the one that is over, and the
worker that entered service for the room that is missing. -/
theorem stats_explained_of_race :
    ∃ (g₀ g h₀ h₁ h₂ h₃ h₄ h₅ h₆ : GuardedPool Nat) (stats : PoolStats),
      create { name := "io", size := 1 } false = .ok g₀ ∧ g₀.run racingStatistics = some g ∧
      g.statsOfFigures [0, 0, 0, 0, 1, 0, 0] = some stats ∧
      g₀.readings 0 racingStatistics = [h₀, h₁, h₂, h₃, h₄, h₅, h₆] ∧ h₃.uncounted = 1 ∧
      stats.completed + stats.panicked + h₃.pool.accepted.length
        ≤ stats.submitted + h₃.uncounted + h₅.pool.accepted.length ∧
      stats.running + stats.free + h₁.pool.running = stats.capacity + h₀.pool.running := by
  obtain ⟨g₀, g, stats, hcreate, hrun, at_0, complete, counts⟩ :
      ∃ (g₀ g : GuardedPool Nat) (stats : PoolStats),
        create { name := "io", size := 1 } false = .ok g₀ ∧ g₀.run racingStatistics = some g ∧
        g.samples[0]? = some [0, 0, 0, 0, 1, 0, 0] ∧
        g.statsOfFigures [0, 0, 0, 0, 1, 0, 0] = some stats ∧
        (g₀.readings 0 racingStatistics).map uncounted = [0, 1, 1, 1, 1, 1, 1] :=
    ⟨_, _, _, rfl, rfl, rfl, rfl, rfl⟩
  obtain ⟨h₀, h₁, h₂, h₃, h₄, h₅, h₆, moments, -, counted, in_service⟩ :=
    stats_explained hcreate hrun at_0 complete
  rw [moments] at counts
  simp only [List.map_cons, List.cons.injEq] at counts
  exact ⟨g₀, g, h₀, h₁, h₂, h₃, h₄, h₅, h₆, stats, hcreate, hrun, complete, moments,
    counts.2.2.2.1, counted, in_service⟩

end GuardedPool

end TaskPools
