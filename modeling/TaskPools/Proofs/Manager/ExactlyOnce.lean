/-
# Each task is executed once or not at all

An execution hands its task to one pool or, if that one was retired, to a second one.  A task that
waits in a submission belongs to the one call that waits for that submission, so a pool that accepts
it grants it to that call, and it is granted at most once (`Handed`).  The call says so when it
returns, and whatever was not granted is never started.
-/
import TaskPools.Proofs.Manager.Routing
import TaskPools.Proofs.Manager.Submissions

namespace TaskPools

variable {τ : Type}

/-- The execution has returned with success. -/
def Work.succeeded : Work τ → Bool
  | .execute _ _ (.returned none) => true
  | _ => false

namespace Manager

/-- The tasks that workers took, pool by pool. -/
def taken (m : Manager τ) : List (Job τ) := m.fleet.pools.flatMap fun g => g.pool.taken

/-- The tasks that have ended, pool by pool. -/
def ended (m : Manager τ) : List (Job τ) := m.fleet.pools.flatMap fun g => g.pool.ended

/-- How often a pool accepted the task of call `c`. -/
def acceptances (m : Manager τ) (c : Nat) : Nat := m.accepted.countP fun job => job.call == c

/-- How often a worker started the task of call `c`. -/
def starts (m : Manager τ) (c : Nat) : Nat := m.taken.countP fun job => job.call == c

/-- How often the task of call `c` ended. -/
def finishes (m : Manager τ) (c : Nat) : Nat := m.ended.countP fun job => job.call == c

/-- The task of this work was accepted: the work waits for a submission that was, or it has returned
with success. -/
def grants (m : Manager τ) (work : Work τ) : Bool :=
  work.succeeded || work.site?.any fun (i, s) => m.hasAccepted i s

/-- The task of call `c` was accepted. -/
def isGranted (m : Manager τ) (c : Nat) : Bool := (m.work? c).any m.grants

/-- The job is the task of the call whose number it carries. -/
def IsOwn (m : Manager τ) (job : Job τ) : Prop :=
  ∃ pool phase, m.work? job.call = some (.execute pool (some job.task) phase)

/-- A task in a submission belongs to the call that waits for that submission, and the accepted
tasks are those of the calls whose tasks were granted, each once. -/
structure Handed (m : Manager τ) : Prop where
  held : ∀ i s job, m.pending? i s = some job → m.site? job.call = some (i, s)
  counted : ∀ c, m.acceptances c = (m.isGranted c).toNat
  own : ∀ job, job ∈ m.accepted ∨ (∃ i s, m.pending? i s = some job) → m.IsOwn job

section

variable {m m' n : Manager τ} {e : Event τ} {c i s : Nat} {caller : Option (Nat × Nat)}
  {work work' : Work τ} {g g' : GuardedPool (Job τ)} {job : Job τ}

/-! ## What is granted -/

theorem isGranted_eq (hwork : m.work? c = some work) : m.isGranted c = m.grants work := by
  rw [isGranted, hwork]
  rfl

/-- What an acceptance or its absence means for a call. -/
theorem isGranted_congr (hwork : n.work? c = m.work? c)
    (hsite : ∀ i s, m.site? c = some (i, s) → n.hasAccepted i s = m.hasAccepted i s) :
    n.isGranted c = m.isGranted c := by
  rw [isGranted, isGranted, hwork]
  cases hwork_m : m.work? c with
  | none => rfl
  | some work =>
    rw [Option.any_some, Option.any_some, grants, grants]
    rw [site?_eq hwork_m] at hsite
    cases hwork_site : work.site? with
    | none => rfl
    | some site => exact congrArg (work.succeeded || ·) (hsite site.1 site.2 hwork_site)

/-- A submission that still holds its task was not accepted. -/
theorem hasAccepted_of_pending? (h : m.pending? i s = some job) : m.hasAccepted i s = false := by
  obtain ⟨g, at_i, hg⟩ := Option.bind_eq_some_iff.mp h
  rw [hasAccepted_self at_i]
  exact Pool.hasAccepted_of_pending? hg

/-- A call that waits for a submission has not succeeded yet. -/
theorem succeeded_of_site? (h : work.site? = some (i, s)) : work.succeeded = false := by
  cases work with
  | execute pool task phase => cases phase <;> first | rfl | cases h
  | reload | shutdown | stats | list => rfl

/-- The call that waits for a submission was granted its task if and only if that submission was
accepted. -/
theorem isGranted_of_site (h : m.site? c = some (i, s)) : m.isGranted c = m.hasAccepted i s := by
  obtain ⟨work, hwork, hsite⟩ := Option.bind_eq_some_iff.mp h
  rw [isGranted_eq hwork, grants, hsite, succeeded_of_site? hsite]
  rfl

/-- What is accepted in addition counts for the calls whose tasks it is. -/
theorem acceptances_of_perm {more : List (Job τ)} (h : n.accepted.Perm (m.accepted ++ more))
    (c : Nat) : n.acceptances c = m.acceptances c + more.countP fun job => job.call == c := by
  rw [acceptances, h.countP_eq, List.countP_append, acceptances]

/-! ## Pools go on -/

/-- Where the calls stay, jobs stay the tasks of their calls. -/
theorem IsOwn.of_calls (h : m.IsOwn job) (hcalls : n.calls = m.calls) : n.IsOwn job := by
  obtain ⟨pool, phase, hwork⟩ := h
  exact ⟨pool, phase, (work?_of_calls hcalls _).trans hwork⟩

/-- Where nothing is accepted and the calls stay, every task stays with its call. -/
theorem Handed.steady (h : m.Handed) (hs : Steady m n) (hcalls : n.calls = m.calls) :
    n.Handed := by
  have before {i s : Nat} {job : Job τ} (hn : n.pending? i s = some job) :
      m.pending? i s = some job := by
    rcases hs.pending i s with hsame | hnone
    · rw [← hsame]
      exact hn
    · rw [hnone] at hn
      cases hn
  refine ⟨fun i s job hn => ?_, fun c => ?_, fun job hn => ?_⟩
  · rw [site?_of_calls hcalls]
    exact h.held i s job (before hn)
  · rw [acceptances, hs.accepted.countP_eq, isGranted_congr (work?_of_calls hcalls c)
      fun i s _ => hs.settled i s]
    exact h.counted c
  · refine (h.own job ?_).of_calls hcalls
    rcases hn with hn | ⟨i, s, hn⟩
    · exact Or.inl (hs.accepted.mem_iff.mp hn)
    · exact Or.inr ⟨i, s, before hn⟩

/-- The task is granted to the one call that waits for the submission. -/
theorem Handed.accepts (h : m.Handed)
    (once : ∀ c c' i s, m.site? c = some (i, s) → m.site? c' = some (i, s) → c = c')
    (ha : Accepts m n i s job) (hcalls : n.calls = m.calls) : n.Handed := by
  have holder : m.site? job.call = some (i, s) := h.held i s job ha.held
  have still {i' s' : Nat} {job' : Job τ} (hn : n.pending? i' s' = some job') :
      m.pending? i' s' = some job' := by
    rw [ha.pending] at hn
    split at hn
    · cases hn
    · exact hn
  refine ⟨fun i' s' job' hn => ?_, fun c => ?_, fun job' hn => ?_⟩
  · rw [site?_of_calls hcalls]
    exact h.held i' s' job' (still hn)
  · rw [acceptances_of_perm ha.accepted, h.counted, List.countP_singleton]
    -- the count of the holder goes from nought to one, as its submission was not accepted before
    by_cases hc : job.call = c
    · rw [← hc, if_pos (beq_self_eq_true _), isGranted_of_site holder,
        isGranted_of_site ((site?_of_calls hcalls _).trans holder),
        hasAccepted_of_pending? ha.held, ha.settled, if_pos rfl]
      rfl
    · rw [if_neg (by simpa using hc)]
      refine congrArg Bool.toNat (isGranted_congr (work?_of_calls hcalls c) ?_).symm
      intro i' s' hsite
      rw [ha.settled, if_neg]
      rintro ⟨⟩
      exact hc (once _ _ _ _ holder hsite)
  · refine (h.own job' ?_).of_calls hcalls
    rcases hn with hn | ⟨i', s', hn⟩
    · rcases List.mem_append.mp (ha.accepted.mem_iff.mp hn) with hn | hn
      · exact Or.inl hn
      · rw [List.mem_singleton.mp hn]
        exact Or.inr ⟨i, s, ha.held⟩
    · exact Or.inr ⟨i', s', still hn⟩

/-- What a pool does by itself, however long it takes, grants tasks to the calls that wait. -/
theorem Handed.settlesOn (h : m.Handed) (hsited : m.Sited) (at_i : m.fleet.pools[i]? = some g)
    {p : Pool (Job τ)} (hs : Pool.SettlesOn g.pool p) :
    (m.withPool i { g with pool := p }).Handed := by
  have in_range : i < m.fleet.pools.length := (List.getElem?_eq_some_iff.mp at_i).1
  -- only the pool inside `g` moves on the way; its guard comes in afterwards
  induction hs with
  | refl => exact h.steady (Steady.set at_i rfl (Pool.Steady.refl _)) rfl
  | @tail q p _ hsettles ih =>
    have at_q : (m.withPool i { g with pool := q }).fleet.pools[i]? =
        some { g with pool := q } := List.getElem?_set_self in_range
    have hpools : (m.withPool i { g with pool := p }).fleet.pools =
        (m.withPool i { g with pool := q }).fleet.pools.set i { g with pool := p } :=
      (List.set_set _).symm
    rcases hsettles with hsteady | ⟨s, job, haccepts⟩
    · exact ih.steady (Steady.set at_q hpools hsteady) rfl
    · exact ih.accepts hsited.once (Accepts.set at_q hpools haccepts) rfl

/-- A pool that moves may accept a task, which is that of the call that waits for it. -/
theorem Handed.move (h : m.Handed) (hsited : m.Sited) (at_i : m.fleet.pools[i]? = some g)
    {move : GuardedPool.Move} (moves : g.step (.move move) = some g') :
    (m.withPool i g').Handed := by
  have in_range : i < m.fleet.pools.length := (List.getElem?_eq_some_iff.mp at_i).1
  have hinner := h.settlesOn hsited at_i (GuardedPool.change_of_step moves).settlesOn
  have at_inner : (m.withPool i { g with pool := g'.pool }).fleet.pools[i]? =
      some { g with pool := g'.pool } := List.getElem?_set_self in_range
  exact hinner.steady (Steady.set at_inner (List.set_set _).symm (Pool.Steady.refl _)) rfl

/-! ## Calls go on -/

/-- A job stays the task of its call. -/
theorem IsOwn.change (h : m.IsOwn job) (hc : Change m e m') : m'.IsOwn job := by
  obtain ⟨pool, phase, hwork⟩ := h
  rcases hc.own_or_other hwork with ⟨hsame, -⟩ | ⟨caller, work', n, acts, -, hnew⟩
  · exact ⟨pool, phase, hsame⟩
  · have same := acts.request_eq
    cases work' <;> cases same
    exact ⟨pool, _, hnew⟩

/-- A call that begins has handed nothing over. -/
theorem Handed.call (h : m.Handed) (caller : Option (Nat × Nat)) (request : Request τ) :
    ({ m with calls := m.calls ++ [⟨caller, request.work⟩] } : Manager τ).Handed := by
  refine ⟨fun i s job hn => ?_, fun c => ?_, fun job hn => ?_⟩
  · rw [site?_call]
    exact h.held i s job hn
  · refine (h.counted c).trans (congrArg Bool.toNat ?_)
    rw [isGranted, isGranted, work?_call]
    split
    · rename_i hc
      rw [hc, work?, List.getElem?_eq_none (Nat.le_refl _)]
      cases request <;> rfl
    · rfl
  · exact (h.own job hn).change (Change.call caller request)

/-- A call goes on.  It stays where it waits or it has seen the answer, and that tells whether its
task was granted. -/
theorem Handed.goOn (h : n.Handed) (hwork : n.work? c = some work)
    (hsite : ∀ i s, work.site? = some (i, s) → work'.site? = some (i, s) ∨ n.pending? i s = none)
    (hgrants : n.grants work' = n.grants work)
    (hown : ∀ job, n.IsOwn job → (n.setWork c work').IsOwn job) : (n.setWork c work').Handed := by
  refine ⟨fun i s job hn => ?_, fun c' => ?_, fun job hn => hown job (h.own job hn)⟩
  · have holder := h.held i s job hn
    rw [site?_setWork hwork]
    split
    · rename_i hc
      rw [hc, site?_eq hwork] at holder
      rcases hsite i s holder with hsame | hnone
      · exact hsame
      · have clash := hnone.symm.trans hn
        cases clash
    · exact holder
  · refine (h.counted c').trans (congrArg Bool.toNat ?_)
    by_cases hc : c' = c
    · rw [hc, isGranted_eq hwork, isGranted_eq (work?_setWork_self hwork)]
      exact hgrants.symm
    · rw [isGranted, isGranted, work?_setWork_ne hc]
      rfl

/-- An answer tells whether the submission was accepted. -/
theorem Reachable.settled_of_reply (h : m.Reachable) {answer : Option Fault}
    (reply : m.reply? i s = some answer) :
    m.hasAccepted i s = answer.isNone ∧ m.pending? i s = none := by
  obtain ⟨g, at_i, hreply⟩ := Option.bind_eq_some_iff.mp reply
  rw [hasAccepted_self at_i, pending?_self at_i]
  split at hreply
  · rename_i given
    cases hreply
    exact (h.pool at_i).hasAccepted_iff given
  · cases hreply

/-- An overload that names its pool is still a failure. -/
theorem succeeded_of_nameOverload (pool : String) (task : Option τ) (answer : Option Fault) :
    (Work.execute pool task (.returned (nameOverload pool answer))).succeeded
      = answer.isNone := by
  rcases answer with _ | fault
  · rfl
  · cases fault <;> rfl

/-- A call goes on from a submission only when that holds no task any more. -/
theorem Follows.site?_settled (h : m.Reachable) (hf : Follows m work work')
    (hsite : work.site? = some (i, s)) : m.pending? i s = none := by
  cases hf with
  | refused _ _ _ _ _ reply | answered _ _ _ _ _ _ reply | answeredAgain _ _ _ _ _ reply =>
    cases hsite
    exact (h.settled_of_reply reply).2
  | _ => cases hsite

/-- A call that goes on has succeeded if and only if its submission was accepted before. -/
theorem Follows.grants_eq (h : m.Reachable) (hf : Follows m work work') :
    m.grants work' = m.grants work := by
  cases hf with
  | refused _ _ _ i s reply => exact (h.settled_of_reply reply).1.symm
  | answered pool task _ i s answer reply | answeredAgain pool task i s answer reply =>
    rw [grants, succeeded_of_nameOverload, grants]
    exact (Bool.or_false _).trans (h.settled_of_reply reply).1.symm
  | _ => rfl

/-- A call that does not hand its task over has that task granted as before. -/
theorem Act.grants_eq (ha : Act m c caller e work work' n) (h : m.Reachable)
    (silent : work.handing? = none) : n.grants work' = n.grants work := by
  cases ha with
  | goOn _ _ follows => exact follows.grants_eq h
  | submit | resubmit => cases silent
  | launch _ _ _ _ retires | launchInline _ _ _ _ retires | collect _ _ _ _ _ retires =>
    cases retires_of_retirement? retires <;> rfl
  | sample | gauge | build | failReload | install | close | emptyNothing | emptyOut | shutDown =>
    rfl

/-- A call goes on waiting for its submission as long as that holds its task. -/
theorem Act.site?_settled (ha : Act m c caller e work work' n) (h : m.Reachable)
    (silent : work.handing? = none) (hsite : work.site? = some (i, s)) :
    work'.site? = some (i, s) ∨ n.pending? i s = none := by
  cases ha with
  | goOn _ _ follows => exact Or.inr (follows.site?_settled h hsite)
  | submit | resubmit => cases silent
  | launch _ _ _ _ retires | launchInline _ _ _ _ retires | collect _ _ _ _ _ retires =>
    rw [Work.site?_withRetirement retires]
    exact Or.inl hsite
  | sample | gauge | build | failReload | install | close | emptyNothing | emptyOut | shutDown =>
    cases hsite

/-- Only an execution that waits for nothing yet hands its task over. -/
theorem execute_of_handing {task : Option τ} (h : work.handing? = some (i, task)) :
    work.site? = none ∧ work.succeeded = false ∧ ∃ pool, work.request = .execute pool task := by
  cases work with
  | execute pool task phase =>
    cases phase <;> cases h
    · exact ⟨rfl, rfl, pool, rfl⟩
    · exact ⟨rfl, rfl, pool, rfl⟩
  | reload | shutdown | stats | list => cases h

/-- A call that hands its task over holds it in the submission that it made. -/
theorem Handed.submit (h : m.Handed) (hwork : m.work? c = some work) (unsited : work.site? = none)
    (ungranted : m.grants work = false) (hsite : work'.site? = some (i, s))
    (hcalls : n.calls = m.calls) {task : Option τ} (ha : Arrival m n i s (task.map (Job.mk c)))
    (hown : ∀ job, m.IsOwn job → (n.setWork c work').IsOwn job)
    (hnew : ∀ t, task = some t → (n.setWork c work').IsOwn ⟨c, t⟩) :
    (n.setWork c work').Handed := by
  have hwork_n := (work?_of_calls hcalls c).trans hwork
  -- a task that waits now is the one just submitted, or it waited before
  have cases_of {i' s' : Nat} {job : Job τ}
      (hn : (n.setWork c work').pending? i' s' = some job) :
      ((i', s') = (i, s) ∧ ∃ t, task = some t ∧ job = ⟨c, t⟩) ∨
        m.pending? i' s' = some job := by
    have hn' : n.pending? i' s' = some job := hn
    rw [ha.pending] at hn'
    split at hn'
    · rename_i heq
      obtain ⟨t, ht, rfl⟩ := Option.map_eq_some_iff.mp hn'
      exact Or.inl ⟨heq, t, ht, rfl⟩
    · exact Or.inr hn'
  refine ⟨fun i' s' job hn => ?_, fun c' => ?_, fun job hn => ?_⟩
  · rw [site?_setWork hwork_n]
    rcases cases_of hn with ⟨heq, t, ht, rfl⟩ | hold
    · rw [if_pos rfl, hsite, heq]
    · have holder := h.held i' s' job hold
      rw [if_neg, site?_of_calls hcalls]
      · exact holder
      · intro hc
        rw [hc, site?_eq hwork, unsited] at holder
        cases holder
  · have same : (n.setWork c work').acceptances c' = m.acceptances c' := ha.accepted.countP_eq _
    rw [same, h.counted]
    refine congrArg Bool.toNat ?_
    by_cases hc : c' = c
    · rw [hc, isGranted_eq hwork, ungranted, isGranted_eq (work?_setWork_self hwork_n), grants,
        succeeded_of_site? hsite, hsite]
      exact ((ha.settled i s).trans ha.fresh).symm
    · have settled (i' s' : Nat) : (n.setWork c work').hasAccepted i' s' = m.hasAccepted i' s' :=
        ha.settled i' s'
      refine (isGranted_congr ?_ fun i' s' _ => settled i' s').symm
      rw [work?_setWork_ne hc, work?_of_calls hcalls]
  · rcases hn with hn | ⟨i', s', hn⟩
    · exact hown job (h.own job (Or.inl (ha.accepted.mem_iff.mp hn)))
    · rcases cases_of hn with ⟨-, t, ht, rfl⟩ | hold
      · exact hnew t ht
      · exact hown job (h.own job (Or.inr ⟨i', s', hold⟩))

/-- In every step each accepted task is the task of its call, and is accepted once. -/
theorem Handed.change (h : m.Handed) (hm : m.Reachable) (hc : Change m e m') : m'.Handed := by
  have hown (job : Job τ) (hjob : m.IsOwn job) : m'.IsOwn job := hjob.change hc
  cases hc with
  | call caller request => exact h.call caller request
  | pool i move g g' at_i moves => exact h.move hm.sited at_i moves
  | act c caller _ work work' n at_c acts =>
    have kept := acts.calls_eq
    have hwork := work?_of_getElem? at_c
    have hwork_n := (work?_of_calls kept c).trans hwork
    cases hands : work.handing? with
    | none =>
      have hn := h.steady (acts.steady hands) kept
      exact hn.goOn hwork_n (fun i s => acts.site?_settled hm hands)
        (acts.grants_eq hm hands) fun job hjob => hown job (hjob.of_calls kept.symm)
    | some handing =>
      obtain ⟨i, task⟩ := handing
      obtain ⟨g, at_i, hsite, harrival, -⟩ := acts.arrival hands
      rw [← (hm.pool at_i).answered.length_eq] at harrival
      obtain ⟨unsited, unsucceeded, pool, hrequest⟩ := execute_of_handing hands
      have ungranted : m.grants work = false := by
        rw [grants, unsited, unsucceeded]
        rfl
      refine h.submit hwork unsited ungranted hsite kept harrival hown fun t ht => ?_
      have same := acts.request_eq.trans hrequest
      rw [ht] at same
      cases work' <;> cases same
      exact ⟨pool, _, work?_setWork_self hwork_n⟩

/-- In every reachable manager each accepted task is the task of its call, and was accepted once. -/
theorem Reachable.handed (h : m.Reachable) : m.Handed := by
  induction h with
  | create hcreate =>
    obtain ⟨fleet, batch, fresh, rfl⟩ := eq_of_ofConfigs hcreate
    have untouched : ∀ g ∈ fleet.pools, g.pool.accepted = [] ∧ g.pool.submissions = [] := by
      intro g hg
      obtain ⟨config, watched, created⟩ := fresh.created g hg
      obtain ⟨-, pool, hpool, rfl⟩ := GuardedPool.eq_of_create created
      obtain ⟨-, -, rfl⟩ := Pool.eq_of_create hpool
      exact ⟨rfl, rfl⟩
    have nothing : (ofBatch fleet batch).accepted = [] :=
      List.flatMap_eq_nil_iff.mpr fun g hg => (untouched g hg).1
    have idle (i s : Nat) : (ofBatch fleet batch).pending? i s = none := by
      rw [pending?]
      cases at_i : (ofBatch fleet batch).fleet.pools[i]? with
      | none => rfl
      | some g =>
        rw [Option.bind_some, Pool.pending?, (untouched g (List.mem_of_getElem? at_i)).2]
        rfl
    refine ⟨fun i s job hn => ?_, fun c => ?_, fun job hn => ?_⟩
    · rw [idle] at hn
      cases hn
    · rw [acceptances, nothing]
      rfl
    · rcases hn with hn | ⟨i, s, hn⟩
      · rw [nothing] at hn
        cases hn
      · rw [idle] at hn
        cases hn
  | step hreach hstep ih => exact ih.change hreach (change_of_step hstep)

/-! ## Starts and endings -/

/-- Only accepted tasks are started. -/
theorem Reachable.starts_le (h : m.Reachable) (c : Nat) : m.starts c ≤ m.acceptances c :=
  countP_flatMap_le _ fun g hg => (h.pools g hg).pool.arises.taken_le_accepted _

/-- Once no worker is left in any pool, the accepted tasks were started and have ended. -/
theorem Reachable.starts_eq_of_drained (h : m.Reachable)
    (nobody : ∀ g ∈ m.fleet.pools, g.pool.live = 0) (c : Nat) :
    m.starts c = m.acceptances c ∧ m.finishes c = m.acceptances c := by
  have drained (g : GuardedPool (Job τ)) (hg : g ∈ m.fleet.pools) :=
    (h.pools g hg).pool.arises.drained (nobody g hg) fun job : Job τ => job.call == c
  refine ⟨Nat.le_antisymm (h.starts_le c) ?_, Nat.le_antisymm ?_ ?_⟩
  · exact countP_flatMap_le _ fun g hg => Nat.le_of_eq (drained g hg).1.symm
  · exact countP_flatMap_le _ fun g hg => Nat.le_of_eq (drained g hg).2
  · exact countP_flatMap_le _ fun g hg => Nat.le_of_eq (drained g hg).2.symm

/-- An execution that has returned stays as it is. -/
theorem returned_of_run {pool : String} {task : Option τ} {fault : Option Fault}
    {es : List (Event τ)} (hwork : m.work? c = some (.execute pool task (.returned fault)))
    (hrun : m.run es = some m') : m'.work? c = some (.execute pool task (.returned fault)) := by
  refine run_preserves (P := fun n => n.work? c = some (.execute pool task (.returned fault)))
    (fun hwork hstep => ?_) hwork hrun
  rcases (change_of_step hstep).own_or_other hwork with ⟨hsame, -⟩ | ⟨_, _, _, acts, -, -⟩
  · exact hsame
  · cases acts with
    | goOn _ _ follows => cases follows
    | launch _ _ _ _ retires | launchInline _ _ _ _ retires
    | collect _ _ _ _ _ retires => cases retires

/-- Exactly once across all batches.  The task of an execution is accepted at most once by all pools
together, and nothing else is accepted on its behalf; the execution returns success if and only if
it was accepted; the task is never started if the execution returns a fault; and once no pool has a
worker left, the task of an execution that returned success was started once and has ended once. -/
theorem executed_exactly_once (h : m.Reachable) {pool : String} {task : Option τ}
    {phase : ExecutePhase} (hwork : m.work? c = some (.execute pool task phase)) :
    m.acceptances c ≤ 1 ∧
    (∀ job ∈ m.accepted, job.call = c → task = some job.task) ∧
    (∀ fault, phase = .returned fault → (fault = none ↔ m.acceptances c = 1)) ∧
    (∀ fault, phase = .returned (some fault) → ∀ es m', m.run es = some m' → m'.starts c = 0) ∧
    ((∀ g ∈ m.fleet.pools, g.pool.live = 0) → phase = .returned none →
      m.starts c = 1 ∧ m.finishes c = 1) := by
  have granted : m.acceptances c = (m.grants (.execute pool task phase)).toNat :=
    (h.handed.counted c).trans (congrArg Bool.toNat (isGranted_eq hwork))
  refine ⟨?_, fun job hjob hc => ?_, ?_, ?_, ?_⟩
  · rw [granted]
    exact Bool.toNat_le _
  · obtain ⟨pool', phase', hown⟩ := h.handed.own job (Or.inl hjob)
    rw [hc, hwork] at hown
    cases hown
    rfl
  · rintro fault rfl
    rw [granted]
    rcases fault with _ | fault
    · exact ⟨fun _ => rfl, fun _ => rfl⟩
    · exact ⟨nofun, nofun⟩
  · rintro fault rfl es m' hrun
    have hm' := h.run hrun
    have none_granted : m'.acceptances c = 0 :=
      (hm'.handed.counted c).trans (congrArg Bool.toNat (isGranted_eq (returned_of_run hwork hrun)))
    exact Nat.le_zero.mp (none_granted ▸ hm'.starts_le c)
  · rintro nobody rfl
    have hone : m.acceptances c = 1 := granted
    rw [← hone]
    exact h.starts_eq_of_drained nobody c

end

/-- The rerouted execution returns, and the new pool runs its task and lets its worker expire. -/
def untilDrained : List (Event Nat) :=
  [.advance 0, .pool 1 (.pool (.look 0 false)), .pool 1 (.conclude 0 none none),
    .pool 1 (.pool (.giveBack 0 none)), .pool 1 (.pool (.stirWorker 0)),
    .pool 1 (.pool (.look 0 true))]

/-- The task of the rerouted execution was accepted, started and ended once. -/
theorem rerouted_executed_once :
    ∃ m₀ m : Manager Nat, ofConfigs [{ name := "io", size := 1 }] {} = .ok m₀ ∧
      m₀.run (beforeLookup ++ sinceLookup ++ untilDrained) = some m ∧
      m.work? 0 = some (.execute "io" (some 7) (.returned none)) ∧
      m.acceptances 0 ≤ 1 ∧ (∀ job ∈ m.accepted, job.call = 0 → some 7 = some job.task) ∧
      ((none : Option Fault) = none ↔ m.acceptances 0 = 1) ∧
      m.starts 0 = 1 ∧ m.finishes 0 = 1 := by
  obtain ⟨m₀, m, hm₀, hm, hwork, hnobody⟩ : ∃ m₀ m : Manager Nat,
      ofConfigs [{ name := "io", size := 1 }] {} = .ok m₀ ∧
        m₀.run (beforeLookup ++ sinceLookup ++ untilDrained) = some m ∧
        m.work? 0 = some (.execute "io" (some 7) (.returned none)) ∧
        m.fleet.pools.map (fun g => g.pool.live) = [0, 0] := ⟨_, _, rfl, rfl, rfl, rfl⟩
  have hreachable : m.Reachable := (Reachable.create hm₀).run hm
  obtain ⟨hatmost, hown, hiff, -, hdrained⟩ := executed_exactly_once hreachable hwork
  have nobody : ∀ g ∈ m.fleet.pools, g.pool.live = 0 := by
    intro g hg
    have hlive : g.pool.live ∈ m.fleet.pools.map fun g => g.pool.live :=
      List.mem_map_of_mem hg
    rw [hnobody] at hlive
    simpa using hlive
  exact ⟨m₀, m, hm₀, hm, hwork, hatmost, hown, hiff none rfl, hdrained nobody rfl⟩

end Manager

end TaskPools
