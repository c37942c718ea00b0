/-
# How many threads a pool starts

A thread is started only for a task that is accepted, and only if each live worker has a task of its
own already, in the queue or under way (`Engages`).  In an open pool the workers in service are just
the live ones.  As long as no worker expires nobody leaves an open pool, so that it has as many
workers as there ever were slots in use at the same time (`isGreatest_loads`).
-/
import Mathlib.Order.Bounds.Basic
import TaskPools.Proofs.Pool.Figures
import TaskPools.Proofs.Pool.Order
import TaskPools.Proofs.Pool.Schedule

namespace TaskPools

variable {τ : Type}

/-- Has left its loop. -/
def Worker.hasLeft : Worker τ → Bool
  | exited => true
  | _ => false

namespace Pool

/-- The number of workers whose thread was started. -/
def started (p : Pool τ) : Nat := p.workers.countP Worker.hasStarted

/-- The numbers of slots that were in use before a run and at the end of each of its steps. -/
def loads (p : Pool τ) (es : List (Event τ)) : Set Int :=
  {n | ∃ es' m, es' <+: es ∧ p.run es' = some m ∧ m.inFlight = n}

/-- The number of threads that one more task needs: one, if each live worker has a task of its own.
-/
def shortage (p : Pool τ) : Nat := if (p.live : Int) < p.inFlight + 1 then 1 else 0

/-- A task is accepted, and as many threads are started as that needs. -/
structure Engages (p q : Pool τ) : Prop where
  accepts : ∃ s, p.hasAccepted s = false ∧ q.hasAccepted s = true
  inFlight_eq : q.inFlight = p.inFlight + 1
  started_eq : q.started = p.started + p.shortage
  live_eq : q.live = p.live + p.shortage
  closed_eq : q.closed = p.closed

section

variable {p q m : Pool τ} {c : Cause} {s w : Nat} {task : τ} {e : Event τ} {es : List (Event τ)}

/-! ## Workers in service -/

/-- A worker that was waited for has left, unless a release on its own thread let go of it. -/
theorem joinedLeft_of_create {name : String} {capacity : Nat} {expiry : Int64} {nonBlocking : Bool}
    (created : create name capacity expiry nonBlocking = .ok p) (hrun : p.run es = some q) :
    q.JoinedLeft fun w => .release (some w) ∈ es := by
  refine joinedLeft_of_run ?_ (Reachable.create created).arises ?_ (fun _ => id) hrun
  all_goals
    obtain ⟨-, -, rfl⟩ := eq_of_create created
    exact nofun

/-- In an open pool the workers in service are all live workers. -/
theorem running_eq_live {own : Nat → Prop} (h : p.Arises) (left : p.JoinedLeft own)
    (is_open : p.closed = false) : p.running = p.live := by
  apply Nat.le_antisymm h.running_le_live
  have among : (List.range p.workers.length).filter p.liveAt ⊆ p.listed := fun w hw =>
    listed_of_live h left is_open (List.mem_filter.mp hw).2
  have hle := (List.Nodup.subperm (List.nodup_range.filter p.liveAt) among).length_le
  rw [← List.countP_eq_length_filter] at hle
  exact Nat.le_trans (Nat.le_of_eq (countP_range_getElem? Worker.isLive p.workers).symm) hle

/-- A worker that was started is live or has left. -/
theorem started_eq (p : Pool τ) : p.started = p.live + p.workers.countP Worker.hasLeft :=
  countP_eq_add fun x _ => by cases x <;> rfl

/-! ## Threads that are started -/

theorem started_of_set {x y : Worker τ} (at_w : p.workers[w]? = some x)
    (hworkers : q.workers = p.workers.set w y) (same : y.hasStarted = x.hasStarted) :
    q.started = p.started := by
  have hcount := countP_set_add Worker.hasStarted at_w y
  rw [same] at hcount
  rw [started, hworkers]
  exact Nat.add_right_cancel hcount

theorem started_append (p q : Pool τ) (x : Worker τ) (hworkers : q.workers = p.workers ++ [x]) :
    q.started = p.started + x.hasStarted.toNat := by
  rw [started, hworkers, List.countP_append, List.countP_singleton]
  cases x.hasStarted <;> rfl

/-- A thread is started only for a task that is accepted in an open pool. -/
theorem Change.started_eq_or_accepts (hc : Change p c q) :
    q.started = p.started ∨ p.closed = false ∧ ∃ s task, Accepts p q s task := by
  cases hc with
  | acceptStarting s x task at_s asks is_open =>
    exact Or.inr ⟨is_open, s, task, accepts_of_set at_s asks rfl rfl⟩
  | failStart => exact Or.inl (started_append p _ .unstarted rfl)
  | announce s workers at_s roused => exact Or.inl (roused.countP_eq rfl)
  | stirWorker w at_w | finish w task escape at_w | giveBack w task submissions at_w
  | expire w at_w => exact Or.inl (started_of_set at_w rfl rfl)
  | take w x task rest at_w awake | park w x at_w awake | leave w x at_w awake =>
    exact Or.inl (started_of_set at_w rfl (hasStarted_of_isAwake awake).symm)
  | alertWorkers => exact Or.inl (countP_map_wake _ rfl)
  | refuseEmpty | arrive | arriveReaping | reapNone | reap | refuseClosed | refuseFull | block
  | sleepOn | accept | stirSubmitter | callRelease | close | alertSubmitters | join =>
    exact Or.inl rfl

/-- Where no task is accepted no thread is started. -/
theorem Change.started_eq (hc : Change p c q) (settled : ∀ s, q.hasAccepted s = p.hasAccepted s) :
    q.started = p.started := by
  refine hc.started_eq_or_accepts.resolve_right ?_
  rintro ⟨-, s, task, accepts⟩
  have now := accepts.settled s
  rw [settled, hasAccepted_of_pending? accepts.held] at now
  simp at now

/-- The pool decides by the idle workers and the queue, and not by the live workers and the slots;
that it comes to the same is what its books are for. -/
theorem Change.engages (hc : Change p .move q) (staffed : p.Staffed)
    (accepts : Accepts p q s task) : Engages p q := by
  obtain ⟨hin, hid, hle, hcap⟩ := staffed
  have newly : ∃ s, p.hasAccepted s = false ∧ q.hasAccepted s = true := by
    refine ⟨s, hasAccepted_of_pending? accepts.held, ?_⟩
    rw [accepts.settled, beq_self_eq_true, Bool.true_or]
  have other (same : q.accepted = p.accepted) : Engages p q := by
    rw [accepts.accepted] at same
    simp at same
  cases hc with
  | accept s x task at_s asks is_open free enough =>
    have nobody : p.shortage = 0 := if_neg (by omega)
    exact ⟨newly, rfl, by rw [nobody]; rfl, by rw [nobody]; rfl, rfl⟩
  | acceptStarting s x task at_s asks is_open free short =>
    have one : p.shortage = 1 := if_pos (by omega)
    refine ⟨newly, rfl, ?_, ?_, rfl⟩
    · rw [one]
      exact started_append p _ .starting rfl
    · rw [one]
      exact live_append p _ .starting rfl
  | failStart | take | expire | finish => exact other (accepted_of_other rfl rfl)
  | join r own w rest =>
    refine other ?_
    by_cases last : rest = []
    · exact accepted_of_other (if_pos last) rfl
    · simp only [accepted, if_neg last]
  | _ => exact other rfl

/-- In one step a task is accepted with the threads that this needs, or no task is accepted and no
thread is started. -/
theorem engages_or_not_of_step (h : p.Arises) (hstep : p.step e = some q) :
    Engages p q ∨ (∀ s, q.hasAccepted s = p.hasAccepted s) ∧ q.started = p.started := by
  have rests {c : Cause} (hc : Change p c q) (settled : ∀ s, q.hasAccepted s = p.hasAccepted s) :
      Engages p q ∨ (∀ s, q.hasAccepted s = p.hasAccepted s) ∧ q.started = p.started :=
    Or.inr ⟨settled, hc.started_eq settled⟩
  have moves (hc : Change p .move q) :
      Engages p q ∨ (∀ s, q.hasAccepted s = p.hasAccepted s) ∧ q.started = p.started := by
    rcases hc.settles with steady | ⟨s, task, accepts⟩
    · exact rests hc steady.settled
    · exact Or.inl (hc.engages h.staffed accepts)
  cases e with
  | submit task =>
    cases hstep
    exact rests (change_of_submit p task) (arrival_of_submit p task).settled
  | finish w escape => exact moves (change_of_finish hstep)
  | release own =>
    cases hstep
    exact Or.inr ⟨fun _ => rfl, rfl⟩
  | move move =>
    by_cases gives : ∃ w alert, move = .giveBack w alert
    · obtain ⟨w, alert, rfl⟩ := gives
      have settled := (steady_of_giveBack hstep).settled
      obtain ⟨task, submissions, at_w, told, rfl⟩ := eq_of_giveBack hstep
      let m : Pool τ := { p with
        inFlight := p.inFlight - 1
        idle := p.idle + 1
        workers := p.workers.set w .woken
        submissions }
      have in_range : w < p.workers.length := (List.getElem?_eq_some_iff.mp at_w).1
      have looks : Change m .move (m.examine w false) :=
        change_of_examine (List.getElem?_set_self in_range) rfl nofun
      have same : m.started = p.started := started_of_set at_w rfl rfl
      exact Or.inr ⟨settled, (looks.started_eq (steady_of_examine m w false).settled).trans same⟩
    · exact moves (change_of_single hstep fun w alert hm => gives ⟨w, alert, hm⟩)

/-! ## Nobody leaves -/

/-- Where no worker expires, nobody leaves an open pool. -/
theorem Arises.nobody_left (h : p.Arises) (is_open : p.closed = false) (unexpired : p.Unexpired) :
    p.workers[w]? ≠ some .exited := by
  induction h with
  | create hc =>
    obtain ⟨-, -, rfl⟩ := eq_of_create hc
    exact nofun
  | @change p q c _ hc ih =>
    have was_open : p.closed = false := by
      by_contra is_closed
      rw [hc.closed_mono (by simpa using is_closed)] at is_open
      cases is_open
    obtain ⟨rest, hjournal⟩ := hc.journal_prefix
    have before := ih was_open (unexpired_before hjournal.symm unexpired)
    intro after
    rcases (hc.leaves before after).2.2 with is_closed | expired
    · rw [was_open] at is_closed
      cases is_closed
    · exact unexpired w expired

theorem Arises.started_eq_live (h : p.Arises) (is_open : p.closed = false)
    (unexpired : p.Unexpired) : p.started = p.live := by
  rw [started_eq, List.countP_eq_zero.mpr, Nat.add_zero]
  intro x hx left
  obtain ⟨w, at_w⟩ := List.getElem?_of_mem hx
  have exited : x = .exited := by cases x <;> first | rfl | cases left
  exact h.nobody_left is_open unexpired (exited ▸ at_w)

/-- Each slot in use is of a task that a live worker has or will take. -/
theorem Staffed.inFlight_le_live (h : p.Staffed) : p.inFlight ≤ p.live := by
  obtain ⟨hin, hid, hle, hcap⟩ := h
  omega

/-! ## The greatest load -/

theorem loads_append_one (hrun : p.run es = some m) (hstep : m.step e = some q) :
    p.loads (es ++ [e]) = insert q.inFlight (p.loads es) := by
  have whole : p.run (es ++ [e]) = some q := (run_append_one hrun e).trans hstep
  ext n
  constructor
  · rintro ⟨es', m', hprefix, hrun', rfl⟩
    rcases List.prefix_concat_iff.mp hprefix with rfl | before
    · cases hrun'.symm.trans whole
      exact Or.inl rfl
    · exact Or.inr ⟨es', m', before, hrun', rfl⟩
  · rintro (rfl | ⟨es', m', hprefix, hrun', rfl⟩)
    · exact ⟨_, q, List.prefix_rfl, whole, rfl⟩
    · exact ⟨es', m', hprefix.trans (List.prefix_append es [e]), hrun', rfl⟩

/-- As long as nobody leaves, there are more live workers only when there are more slots in use than
ever before. -/
theorem live_eq_max_of_step (h : p.Arises) (hstep : p.step e = some q) (is_open : q.closed = false)
    (unexpired : q.Unexpired) :
    p.closed = false ∧ p.Unexpired ∧ (q.live : Int) = max q.inFlight p.live := by
  have was_open : p.closed = false := by
    by_contra is_closed
    rw [closed_of_step hstep (by simpa using is_closed)] at is_open
    cases is_open
  obtain ⟨rest, hjournal⟩ := journal_prefix_of_step hstep
  have before := unexpired_before hjournal.symm unexpired
  refine ⟨was_open, before, ?_⟩
  have hp := h.staffed
  have hq := (h.step hstep).staffed
  have busy := hp.inFlight_le_live
  have busy' := hq.inFlight_le_live
  rcases engages_or_not_of_step h hstep with ⟨-, hin, -, hlive, -⟩ | ⟨-, same⟩
  · rw [shortage] at hlive
    split at hlive <;> omega
  · rw [(h.step hstep).started_eq_live is_open unexpired, h.started_eq_live was_open before] at same
    omega

/-- While no worker expires in an open pool, it has as many live workers as there were ever slots in
use. -/
theorem isGreatest_loads {name : String} {capacity : Nat} {expiry : Int64} {nonBlocking : Bool}
    (created : create name capacity expiry nonBlocking = .ok p) (hrun : p.run es = some q)
    (is_open : q.closed = false) (unexpired : q.Unexpired) :
    IsGreatest (p.loads es) q.live := by
  induction es using List.reverseRecOn generalizing q with
  | nil =>
    cases run_nil hrun
    obtain ⟨-, -, rfl⟩ := eq_of_create created
    refine ⟨⟨[], _, List.prefix_rfl, rfl, rfl⟩, ?_⟩
    rintro n ⟨es', m, hprefix, hrun', rfl⟩
    rw [List.prefix_nil.mp hprefix] at hrun'
    cases run_nil hrun'
    exact Int.le_refl _
  | append_singleton es e ih =>
    obtain ⟨m, hm, hstep⟩ := run_of_append_one hrun
    have arises := ((Reachable.create created).run hm).arises
    obtain ⟨was_open, before, hlive⟩ := live_eq_max_of_step arises hstep is_open unexpired
    rw [loads_append_one hm hstep, hlive]
    exact (ih hm was_open before).insert q.inFlight

end

/-- **Threads are started only when they are needed.**  In an open pool the workers in service are
the live ones, and there are no more slots in use than workers in service.  A step that accepts a
submission puts one more slot to use and starts a thread if and only if there would else be more
slots in use than workers, so that afterwards there are as many workers as before or as slots in
use, whichever is more; and no other step starts a thread.  So while no worker expires, there are as
many workers in service as there ever were slots in use at the end of a step. -/
theorem threads_started_when_needed {name : String} {capacity : Nat} {expiry : Int64}
    {nonBlocking : Bool} {es : List (Event τ)} {p q : Pool τ}
    (created : create name capacity expiry nonBlocking = .ok p) (hrun : p.run es = some q)
    (is_open : q.closed = false) :
    q.running = q.live ∧ q.inFlight ≤ q.running ∧
    (∀ e m, q.step e = some m →
      (∀ s, q.hasAccepted s = false → m.hasAccepted s = true →
        m.inFlight = q.inFlight + 1 ∧
        m.started = q.started + (if (q.running : Int) < q.inFlight + 1 then 1 else 0) ∧
        (m.running : Int) = max (q.running : Int) m.inFlight) ∧
      ((∀ s, m.hasAccepted s = q.hasAccepted s) → m.started = q.started)) ∧
    (q.Unexpired → IsGreatest (p.loads es) q.running) := by
  have arises := ((Reachable.create created).run hrun).arises
  have all := running_eq_live arises (joinedLeft_of_create created hrun) is_open
  have busy := arises.staffed.inFlight_le_live
  refine ⟨all, by omega, ?_, ?_⟩
  · intro e m hstep
    rcases engages_or_not_of_step arises hstep with
      ⟨⟨s, before, after⟩, hin, hstarted, hlive, same⟩ | ⟨settled, none⟩
    · have whole : p.run (es ++ [e]) = some m := (run_append_one hrun e).trans hstep
      have all' := running_eq_live (arises.step hstep) (joinedLeft_of_create created whole)
        (same.trans is_open)
      rw [shortage, ← all] at hstarted hlive
      refine ⟨fun _ _ _ => ⟨hin, hstarted, ?_⟩, fun settled => ?_⟩
      · split at hlive <;> omega
      · rw [settled, before] at after
        cases after
    · refine ⟨fun s before after => ?_, fun _ => none⟩
      rw [settled, before] at after
      cases after
  · intro unexpired
    rw [all]
    exact isGreatest_loads created hrun is_open unexpired

/-- In a pool of three slots one thread cannot be started; the task before it ends, a second one is
run by the same worker, and a third one needs another. -/
def staffingRun : List (Event Nat) :=
  [.submit (some 1), .move (.enter 0 true none), .move (.announce 0 none), .move (.look 0 false),
    .submit (some 2), .move (.enter 1 false none), .finish 0 none, .move (.giveBack 0 none),
    .submit (some 3), .move (.enter 2 false none), .move (.announce 2 (some 0)), .submit (some 4)]

/-- The last task is accepted with a new thread, and while both tasks end no thread does. -/
def restingRun : List (Event Nat) :=
  [.move (.enter 3 true none), .move (.announce 3 none), .move (.look 0 false),
    .move (.look 2 false), .finish 0 none, .move (.giveBack 0 none), .finish 2 none,
    .move (.giveBack 2 none)]

/-- There are two workers in service after that run, as there were two slots in use in between. -/
theorem threads_of_two_slots :
    ∃ p m n q : Pool Nat, create "io" 3 1000 true = .ok p ∧ p.run staffingRun = some m ∧
      m.step (.move (.enter 3 true none)) = some n ∧ m.running = 1 ∧ m.inFlight = 1 ∧
      n.started = m.started + (if (m.running : Int) < m.inFlight + 1 then 1 else 0) ∧
      (n.running : Int) = max (m.running : Int) n.inFlight ∧
      p.run (staffingRun ++ restingRun) = some q ∧ q.inFlight = 0 ∧ q.running = 2 ∧
      q.running = q.live ∧ IsGreatest (p.loads (staffingRun ++ restingRun)) q.running := by
  obtain ⟨p, m, n, q, hp, hm, hn, is_open, hrunning, hin, before, after, hq, is_open', hin',
      hrunning', hjournal⟩ : ∃ p m n q : Pool Nat,
      create "io" 3 1000 true = .ok p ∧ p.run staffingRun = some m ∧
        m.step (.move (.enter 3 true none)) = some n ∧ m.closed = false ∧ m.running = 1 ∧
        m.inFlight = 1 ∧ m.hasAccepted 3 = false ∧ n.hasAccepted 3 = true ∧
        p.run (staffingRun ++ restingRun) = some q ∧ q.closed = false ∧ q.inFlight = 0 ∧
        q.running = 2 ∧ q.journal = [.opened, .accepted 1, .taken 0 1, .startFailed,
          .ended 0 1 none, .accepted 3, .accepted 4, .taken 0 3, .taken 2 4, .ended 0 3 none,
          .ended 2 4 none] :=
    ⟨_, _, _, _, rfl, rfl, rfl, rfl, rfl, rfl, rfl, rfl, rfl, rfl, rfl, rfl, rfl⟩
  have unexpired : q.Unexpired := by
    intro w
    rw [hjournal]
    simp
  obtain ⟨-, -, steps, -⟩ := threads_started_when_needed hp hm is_open
  obtain ⟨all, -, -, greatest⟩ := threads_started_when_needed hp hq is_open'
  obtain ⟨-, hstarted, hmax⟩ := (steps _ n hn).1 3 before after
  exact ⟨p, m, n, q, hp, hm, hn, hrunning, hin, hstarted, hmax, hq, hin', hrunning', all,
    greatest unexpired⟩

end Pool

end TaskPools
