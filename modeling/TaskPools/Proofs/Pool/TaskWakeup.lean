/-
# No wakeup for a task is lost

An accepted task is announced to one sleeping worker after the submission has let go of the mutex,
and another worker may take the task before that one looks.  What the pool never does is leave a
worker asleep beside a task that nobody will look for: while a worker sleeps, the queue is no longer
than the awake workers and the submissions that have yet to tell a worker of their task.
-/
import TaskPools.Proofs.Pool.Accounting

namespace TaskPools

variable {τ : Type}

/-- The task is in the queue, and the submission has yet to tell a worker of it. -/
def Submission.isAnnouncing : Submission τ → Bool
  | announcing => true
  | _ => false

/-- A worker that is told stops sleeping and is awake. -/
theorem Roused.counts {l m : List (Worker τ)} (h : Roused l m) :
    (m = l ∧ l.countP Worker.isParked = 0) ∨
      (m.countP Worker.isParked + 1 = l.countP Worker.isParked ∧
        m.countP Worker.isAwake = l.countP Worker.isAwake + 1) := by
  cases h with
  | nobody asleep =>
    refine Or.inl ⟨rfl, ?_⟩
    rw [List.countP_eq_zero]
    intro x hx
    rw [asleep x hx]
    exact Bool.false_ne_true
  | one w at_w =>
    have hparked := countP_set_add Worker.isParked at_w .woken
    have hawake := countP_set_add Worker.isAwake at_w .woken
    exact Or.inr ⟨hparked, hawake⟩

namespace Pool

/-- The number of workers that sleep. -/
def parked (p : Pool τ) : Nat := p.workers.countP Worker.isParked

/-- The number of workers that are about to look at the queue. -/
def awake (p : Pool τ) : Nat := p.workers.countP Worker.isAwake

/-- The number of submissions that have yet to tell a worker of their task. -/
def announcing (p : Pool τ) : Nat := p.submissions.countP Submission.isAnnouncing

/-- While a worker sleeps, each task in the queue has an awake worker or is yet to be announced. -/
def TasksAnnounced (p : Pool τ) : Prop :=
  0 < p.parked → p.queue.length ≤ p.awake + p.announcing

section

variable {p q : Pool τ} {s w : Nat} {x y : Submission τ} {v z : Worker τ}

/-! ## Counts -/

theorem parked_of_set (at_w : p.workers[w]? = some v) (hworkers : q.workers = p.workers.set w z) :
    q.parked + v.isParked.toNat = p.parked + z.isParked.toNat := by
  unfold parked
  rw [hworkers]
  exact countP_set_add _ at_w z

theorem awake_of_set (at_w : p.workers[w]? = some v) (hworkers : q.workers = p.workers.set w z) :
    q.awake + v.isAwake.toNat = p.awake + z.isAwake.toNat := by
  unfold awake
  rw [hworkers]
  exact countP_set_add _ at_w z

theorem announcing_of_set (at_s : p.submissions[s]? = some x)
    (hsubmissions : q.submissions = p.submissions.set s y) :
    q.announcing + x.isAnnouncing.toNat = p.announcing + y.isAnnouncing.toNat := by
  unfold announcing
  rw [hsubmissions]
  exact countP_set_add _ at_s y

/-- A submission that asks for a slot has no task in the queue. -/
theorem isAnnouncing_of_asking {task : τ} (asks : x.asking? = some task) :
    x.isAnnouncing = false := by
  cases x <;> first | rfl | cases asks

/-! ## What each change keeps -/

/-- Nobody falls asleep, and what the queue gains is matched by workers and announcements. -/
theorem TasksAnnounced.mono (h : p.TasksAnnounced) (hparked : 0 < q.parked → 0 < p.parked)
    (matched : q.queue.length + p.awake + p.announcing
      ≤ p.queue.length + q.awake + q.announcing) : q.TasksAnnounced := by
  intro some_parked
  have hp := h (hparked some_parked)
  omega

/-- Nothing happens to the queue or to the workers. -/
theorem TasksAnnounced.same (h : p.TasksAnnounced) (hqueue : q.queue = p.queue)
    (hworkers : q.workers = p.workers) (hannouncing : q.announcing = p.announcing) :
    q.TasksAnnounced := by
  unfold TasksAnnounced parked awake
  rw [hqueue, hworkers, hannouncing]
  exact h

theorem TasksAnnounced.append (h : p.TasksAnnounced) (hqueue : q.queue = p.queue)
    (hworkers : q.workers = p.workers) (hsubmissions : q.submissions = p.submissions ++ [x])
    (hx : x.isAnnouncing = false) : q.TasksAnnounced := by
  apply h.same hqueue hworkers
  unfold announcing
  rw [hsubmissions, List.countP_append, List.countP_singleton, hx]
  rfl

/-- A submission that has nothing to announce goes on to another such place. -/
theorem TasksAnnounced.shift (h : p.TasksAnnounced) (at_s : p.submissions[s]? = some x)
    (hqueue : q.queue = p.queue) (hworkers : q.workers = p.workers)
    (hsubmissions : q.submissions = p.submissions.set s y) (hx : x.isAnnouncing = false)
    (hy : y.isAnnouncing = false) : q.TasksAnnounced := by
  apply h.same hqueue hworkers
  have hcount := announcing_of_set at_s hsubmissions
  rw [hx, hy] at hcount
  exact hcount

/-- A task joins the queue, and is yet to be announced. -/
theorem TasksAnnounced.accept (h : p.TasksAnnounced) (at_s : p.submissions[s]? = some x)
    {task : τ} (asks : x.asking? = some task) (hqueue : q.queue = p.queue ++ [task])
    (hparked : q.parked = p.parked) (hawake : p.awake ≤ q.awake)
    (hsubmissions : q.submissions = p.submissions.set s .announcing) : q.TasksAnnounced := by
  have hcount := announcing_of_set at_s hsubmissions
  rw [isAnnouncing_of_asking asks] at hcount
  simp only [Submission.isAnnouncing, Bool.toNat_true, Bool.toNat_false] at hcount
  apply h.mono
  · intro some_parked
    omega
  · rw [hqueue, List.length_append, List.length_singleton]
    omega

/-- A task is announced: a worker wakes up for it, unless none sleeps. -/
theorem TasksAnnounced.announce (h : p.TasksAnnounced) {workers : List (Worker τ)}
    (at_s : p.submissions[s]? = some .announcing) (roused : Roused p.workers workers)
    (hqueue : q.queue = p.queue) (hworkers : q.workers = workers)
    (hsubmissions : q.submissions = p.submissions.set s (.returned none)) : q.TasksAnnounced := by
  have hcount := announcing_of_set at_s hsubmissions
  simp only [Submission.isAnnouncing, Bool.toNat_true, Bool.toNat_false] at hcount
  intro some_parked
  have hp : 0 < p.parked → p.queue.length ≤ p.awake + p.announcing := h
  unfold parked at hp some_parked
  unfold awake at hp ⊢
  rw [hworkers] at some_parked ⊢
  rw [hqueue]
  rcases roused.counts with ⟨rfl, nobody⟩ | ⟨one_less, one_more⟩
  · omega
  · have hp := hp (by omega)
    omega

/-- A worker takes a task, and there is one less of both. -/
theorem TasksAnnounced.take (h : p.TasksAnnounced) {task : τ} {rest : List τ}
    (at_w : p.workers[w]? = some v) (is_awake : v.isAwake = true)
    (queue_eq : p.queue = task :: rest)
    (hqueue : q.queue = rest) (hworkers : q.workers = p.workers.set w (.running task))
    (hsubmissions : q.submissions = p.submissions) : q.TasksAnnounced := by
  have hparked := parked_of_set at_w hworkers
  have hawake := awake_of_set at_w hworkers
  have hannouncing : q.announcing = p.announcing := by
    unfold announcing
    rw [hsubmissions]
  rw [is_awake] at hawake
  simp only [Worker.isParked, Worker.isAwake, Bool.toNat_true, Bool.toNat_false] at hparked hawake
  apply h.mono
  · intro some_parked
    omega
  · rw [queue_eq, hqueue, List.length_cons]
    omega

/-- A worker changes its place and takes no task. -/
theorem TasksAnnounced.move (h : p.TasksAnnounced) (at_w : p.workers[w]? = some v)
    (hworkers : q.workers = p.workers.set w z) (hqueue : q.queue = p.queue)
    (hannouncing : q.announcing = p.announcing) (hparked : z.isParked = false)
    (hawake : v.isAwake.toNat ≤ z.isAwake.toNat) : q.TasksAnnounced := by
  have hparked' := parked_of_set at_w hworkers
  have hawake' := awake_of_set at_w hworkers
  rw [hparked, Bool.toNat_false] at hparked'
  apply h.mono
  · intro some_parked
    omega
  · rw [hqueue]
    omega

theorem tasksAnnounced_of_empty (empty : q.queue = []) : q.TasksAnnounced := by
  intro _
  rw [empty]
  exact Nat.zero_le _

theorem TasksAnnounced.change (h : p.TasksAnnounced) {c : Cause} (hc : Change p c q) :
    q.TasksAnnounced := by
  cases hc with
  | refuseEmpty | arrive | arriveReaping => exact h.append rfl rfl rfl rfl
  | reapNone s task at_s | refuseFull s task at_s | block s task at_s | sleepOn s task told at_s
  | stirSubmitter s task at_s => exact h.shift at_s rfl rfl rfl rfl rfl
  | reap s task w rest at_s =>
    refine h.shift at_s rfl rfl rfl rfl ?_
    split <;> rfl
  | refuseClosed s x task at_s asks =>
    exact h.shift at_s rfl rfl rfl (isAnnouncing_of_asking asks) rfl
  | accept s x task at_s asks => exact h.accept at_s asks rfl rfl (Nat.le_refl _) rfl
  | acceptStarting s x task at_s asks =>
    refine h.accept at_s asks rfl ?_ ?_ rfl
    · exact List.countP_append.trans (Nat.add_zero _)
    · show p.workers.countP Worker.isAwake ≤ (p.workers ++ [Worker.starting]).countP Worker.isAwake
      rw [List.countP_append]
      exact Nat.le_add_right _ _
  | failStart s x task submissions at_s asks is_open free short told =>
    have at_s' := told.getElem? at_s (isParked_of_asking asks)
    have hcount := countP_set_add Submission.isAnnouncing at_s'
      (.returned (some (.startFailed p.name)))
    rw [isAnnouncing_of_asking asks, told.countP_eq fun _ => rfl] at hcount
    have hparked : (p.workers ++ [Worker.unstarted]).countP Worker.isParked = p.parked :=
      List.countP_append.trans (Nat.add_zero _)
    have hawake : (p.workers ++ [Worker.unstarted]).countP Worker.isAwake = p.awake :=
      List.countP_append.trans (Nat.add_zero _)
    apply h.mono
    · exact fun some_parked => hparked ▸ some_parked
    · unfold awake announcing
      unfold awake at hawake
      simp only [hawake]
      simp only [Submission.isAnnouncing] at hcount
      omega
  | announce s workers at_s roused => exact h.announce at_s roused rfl rfl rfl
  | stirWorker w at_w => exact h.move at_w rfl rfl rfl rfl (Nat.zero_le _)
  | take w x task rest at_w awake queue_eq => exact h.take at_w awake queue_eq rfl rfl rfl
  | leave w x at_w awake queue_eq | expire w at_w queue_eq | park w x at_w awake queue_eq =>
    exact tasksAnnounced_of_empty queue_eq
  | finish w task escape at_w => exact h.move at_w rfl rfl rfl rfl (Nat.le_refl _)
  | giveBack w task submissions at_w told =>
    exact h.move at_w rfl rfl (told.countP_eq fun _ => rfl) rfl (Nat.zero_le _)
  | alertWorkers =>
    -- everybody was woken, so nobody sleeps
    intro some_parked
    obtain ⟨x, hx, parked⟩ := List.countP_pos_iff.mp some_parked
    obtain ⟨x, -, rfl⟩ := List.mem_map.mp hx
    cases x <;> cases parked
  | alertSubmitters => exact h.same rfl rfl (countP_map_wakeSubmitter _ fun _ => rfl)
  | callRelease | close | join => exact h

theorem Arises.tasksAnnounced (h : p.Arises) : p.TasksAnnounced := by
  induction h with
  | create hc =>
    obtain ⟨-, -, rfl⟩ := eq_of_create hc
    exact nofun
  | change _ hc ih => exact ih.change hc

/-! ## When nobody is about to look -/

/-- A live worker sleeps, is about to look at the queue, or executes a task. -/
theorem live_eq (p : Pool τ) : p.live = p.parked + p.awake + p.executing := by
  have count (l : List (Worker τ)) : l.countP Worker.isLive
      = l.countP Worker.isParked + l.countP Worker.isAwake + l.countP Worker.isExecuting := by
    induction l with
    | nil => rfl
    | cons x l ih =>
      rw [List.countP_cons, List.countP_cons, List.countP_cons, List.countP_cons, ih]
      cases x <;>
        simp [Worker.isLive, Worker.isParked, Worker.isAwake, Worker.isExecuting] <;> omega
  exact count p.workers

/-- No task waits in a pool in which nobody is about to look for one or to announce one. -/
theorem Arises.queue_eq_nil (h : p.Arises) (none_awake : p.awake = 0)
    (none_announcing : p.announcing = 0) : p.queue = [] := by
  have hannounced : 0 < p.parked → p.queue.length ≤ p.awake + p.announcing := h.tasksAnnounced
  have hidle := h.staffed.idle_eq
  have hqueue := h.staffed.queue_le
  have hlive := p.live_eq
  apply List.length_eq_zero_iff.mp
  -- a task in the queue needs an idle worker, and that one could only sleep
  by_contra waiting
  have := hannounced (by omega)
  omega

/-! ## Who leaves -/

/-- A worker leaves its loop while the queue is empty, because the pool is closed or because it
expires. -/
theorem Change.leaves {c : Cause} (hc : Change p c q) (before : p.workers[w]? ≠ some .exited)
    (after : q.workers[w]? = some .exited) :
    p.queue = [] ∧ q.queue = [] ∧ (p.closed = true ∨ .expired w ∈ q.journal) := by
  have stays {P : Prop} (same : q.workers[w]? = p.workers[w]?) : P := absurd (same ▸ after) before
  -- another worker goes on, or this one does and does not leave
  have goes_on {P : Prop} {v : Nat} {x y : Worker τ} (at_v : p.workers[v]? = some x)
      (hworkers : q.workers = p.workers.set v y) (hy : y ≠ .exited) : P := by
    rw [hworkers, getElem?_set_at at_v] at after
    split at after
    · exact absurd (Option.some.inj after) hy
    · exact absurd after before
  have joins {P : Prop} {x : Worker τ} (hworkers : q.workers = p.workers ++ [x])
      (hx : x ≠ .exited) : P := by
    rw [hworkers, getElem?_append_one] at after
    split at after
    · exact absurd (Option.some.inj after) hx
    · exact absurd after before
  cases hc with
  | leave v x at_v awake queue_eq is_closed => exact ⟨queue_eq, queue_eq, Or.inl is_closed⟩
  | expire v at_v queue_eq =>
    rw [getElem?_set_at at_v] at after
    split at after
    · rename_i same
      rw [same]
      exact ⟨queue_eq, queue_eq, Or.inr List.mem_concat_self⟩
    · exact absurd after before
  | take v x task rest at_v | park v x at_v => exact goes_on at_v rfl nofun
  | stirWorker v at_v | finish v task escape at_v | giveBack v task submissions at_v =>
    exact goes_on at_v rfl nofun
  | acceptStarting | failStart => exact joins rfl nofun
  | announce s workers at_s roused =>
    cases roused with
    | nobody => exact stays rfl
    | one v at_v => exact goes_on at_v rfl nofun
  | alertWorkers =>
    rw [List.getElem?_map] at after
    obtain ⟨x, at_w, woken⟩ := Option.map_eq_some_iff.mp after
    have left : x = .exited := by cases x <;> first | rfl | cases woken
    exact absurd (left ▸ at_w) before
  | refuseEmpty | arrive | arriveReaping | reapNone | reap | refuseClosed | refuseFull | block
  | sleepOn | accept | stirSubmitter | callRelease | close | alertSubmitters | join =>
    exact stays rfl

theorem Change.queue_eq_nil {c : Cause} (hc : Change p c q)
    (before : p.workers[w]? ≠ some .exited) (after : q.workers[w]? = some .exited) :
    p.queue = [] ∧ q.queue = [] :=
  (hc.leaves before after).imp_right And.left

/-- In one critical section a worker gives its slot back and leaves; the queue is empty all the
while. -/
theorem queue_eq_nil_of_step {e : Event τ} (hstep : p.step e = some q)
    (before : p.workers[w]? ≠ some .exited) (after : q.workers[w]? = some .exited) :
    p.queue = [] ∧ q.queue = [] := by
  cases e with
  | submit task =>
    cases hstep
    exact (change_of_submit p task).queue_eq_nil before after
  | finish v escape => exact (change_of_finish hstep).queue_eq_nil before after
  | release own =>
    cases hstep
    exact absurd after before
  | move m =>
    by_cases gives : ∃ v alert, m = .giveBack v alert
    · obtain ⟨v, alert, rfl⟩ := gives
      obtain ⟨task, submissions, at_v, told, rfl⟩ := eq_of_giveBack hstep
      have in_range : v < p.workers.length := (List.getElem?_eq_some_iff.mp at_v).1
      let m : Pool τ := { p with
        inFlight := p.inFlight - 1
        idle := p.idle + 1
        workers := p.workers.set v .woken
        submissions }
      have looks : Change m .move (m.examine v false) :=
        change_of_examine (List.getElem?_set_self in_range) rfl nofun
      refine looks.queue_eq_nil (fun left => ?_) after
      have left : (p.workers.set v .woken)[w]? = some .exited := left
      rw [getElem?_set_at at_v] at left
      split at left
      · cases left
      · exact before left
    · exact (change_of_single hstep fun v alert hm => gives ⟨v, alert, hm⟩).queue_eq_nil before
        after

end

/-- **No lost task wakeup.**  While a worker sleeps, there are no more tasks in the queue than
workers about to look at it and submissions that have yet to tell a worker of their task; so once
there are none of both, the queue is empty.  And in a step in which a worker leaves its loop, the
queue is empty before and after. -/
theorem tasks_awaited_of_reachable {p : Pool τ} (h : p.Reachable) :
    (∀ w : Nat, p.workers[w]? = some .parked → p.queue.length ≤ p.awake + p.announcing) ∧
    (p.awake = 0 → p.announcing = 0 → p.queue = []) ∧
    ∀ (e : Event τ) (q : Pool τ) (w : Nat), p.step e = some q → p.workers[w]? ≠ some .exited →
      q.workers[w]? = some .exited → p.queue = [] ∧ q.queue = [] := by
  refine ⟨?_, h.arises.queue_eq_nil, ?_⟩
  · intro w sleeps
    exact h.arises.tasksAnnounced (countP_pos_of_getElem? sleeps rfl)
  · intro e q w hstep before after
    exact queue_eq_nil_of_step hstep before after

/-- Two workers have run a task each.  One sleeps, the other has yet to give its slot back, and a
third task is in the queue and not announced. -/
def unannouncedRun : List (Event Nat) :=
  [.submit (some 1), .move (.enter 0 true none), .move (.announce 0 none), .move (.look 0 false),
    .submit (some 2), .move (.enter 1 true none), .move (.announce 1 none), .move (.look 1 false),
    .finish 0 none, .move (.giveBack 0 none), .finish 1 none, .submit (some 3),
    .move (.enter 2 true none)]

/-- The other worker takes the third task, which is then announced to the sleeper. -/
def overtakenRun : List (Event Nat) :=
  [.move (.giveBack 1 none), .move (.announce 2 (some 0))]

/-- The third task is awaited while the first worker sleeps; when that one wakes up and its time is
over, it leaves an empty queue behind. -/
theorem tasks_awaited_of_overtaken :
    ∃ p m n q : Pool Nat, create "io" 2 1000 true = .ok p ∧ p.run unannouncedRun = some m ∧
      m.queue = [3] ∧ m.workers[0]? = some .parked ∧ m.queue.length ≤ m.awake + m.announcing ∧
      m.run overtakenRun = some n ∧ n.workers = [.woken, .running 3] ∧
      n.step (.move (.look 0 true)) = some q ∧ q.workers = [.exited, .running 3] ∧
      n.queue = [] ∧ q.queue = [] := by
  obtain ⟨p, m, n, q, hp, hm, hqueue, sleeps, hn, hn_workers, hq, hq_workers⟩ :
      ∃ p m n q : Pool Nat, create "io" 2 1000 true = .ok p ∧ p.run unannouncedRun = some m ∧
        m.queue = [3] ∧ m.workers[0]? = some .parked ∧ m.run overtakenRun = some n ∧
        n.workers = [.woken, .running 3] ∧ n.step (.move (.look 0 true)) = some q ∧
        q.workers = [.exited, .running 3] :=
    ⟨_, _, _, _, rfl, rfl, rfl, rfl, rfl, rfl, rfl, rfl⟩
  have hreachable : m.Reachable := (Reachable.create hp).run hm
  obtain ⟨awaited, -, -⟩ := tasks_awaited_of_reachable hreachable
  obtain ⟨-, -, left⟩ := tasks_awaited_of_reachable (hreachable.run hn)
  refine ⟨p, m, n, q, hp, hm, hqueue, sleeps, awaited 0 sleeps, hn, hn_workers, hq, hq_workers,
    left _ q 0 hq ?_ ?_⟩
  · rw [hn_workers]
    nofun
  · rw [hq_workers]
    rfl

end Pool

end TaskPools
