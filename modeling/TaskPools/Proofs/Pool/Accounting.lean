/-
# The books of a pool

A pool keeps its books beside the places of its threads.  They are true at the end of every
critical section: the slots in use are the queued tasks and those under way, the idle workers are
the live ones that execute nothing, and the blocked submitters are counted one by one.  The queue is
never longer than there are idle workers.  The bound on the threads rests on all of this together: a
worker is only started when every live one has a task of its own, and then a slot is free.
-/
import TaskPools.Proofs.Pool.Change

namespace TaskPools

variable {τ : Type}

/-! ## Notifications and counts -/

/-- A notification changes no count that takes sleeping and woken workers alike. -/
theorem Roused.countP_eq {l m : List (Worker τ)} (h : Roused l m) {f : Worker τ → Bool}
    (alike : f .parked = f .woken) : m.countP f = l.countP f := by
  cases h with
  | nobody => rfl
  | one w at_w =>
    have hset := countP_set_add f at_w .woken
    rw [alike] at hset
    omega

/-- A notification changes no count that takes sleeping and told submitters alike. -/
theorem Told.countP_eq {l m : List (Submission τ)} (h : Told l m) {f : Submission τ → Bool}
    (alike : ∀ task, f (.parked task) = f (.woken task true)) : m.countP f = l.countP f := by
  cases h with
  | nobody => rfl
  | one s task at_s =>
    have hset := countP_set_add f at_s (.woken task true)
    rw [alike] at hset
    omega

/-- A notification moves no submission but a sleeping one. -/
theorem Told.getElem? {l m : List (Submission τ)} (h : Told l m) {s : Nat} {x : Submission τ}
    (at_s : l[s]? = some x) (awake : x.isParked = false) : m[s]? = some x := by
  cases h with
  | nobody => exact at_s
  | one s' task at_s' =>
    rw [List.getElem?_set_ne]
    · exact at_s
    · rintro rfl
      rw [at_s] at at_s'
      cases at_s'
      cases awake

namespace Pool

theorem countP_map_wake (l : List (Worker τ)) {f : Worker τ → Bool}
    (alike : f .parked = f .woken) : (l.map wake).countP f = l.countP f := by
  rw [List.countP_map]
  congr 1
  funext x
  cases x <;> simp [wake, alike]

theorem countP_map_wakeSubmitter (l : List (Submission τ)) {f : Submission τ → Bool}
    (alike : ∀ task, f (.parked task) = f (.woken task true)) :
    (l.map wakeSubmitter).countP f = l.countP f := by
  rw [List.countP_map]
  congr 1
  funext x
  cases x <;> simp [wakeSubmitter, alike]

/-! ## Workers -/

/-- A worker that executes a task is live. -/
theorem executing_le_live (p : Pool τ) : p.executing ≤ p.live :=
  List.countP_mono_left fun x _ hx => by cases x <;> first | rfl | cases hx

/-- What the pool has noted of its workers is true, and there are enough of them for the queue but
not more than the capacity. -/
structure Staffed (p : Pool τ) : Prop where
  inFlight_eq : p.inFlight = p.queue.length + p.executing
  idle_eq : p.idle + p.executing = p.live
  queue_le : (p.queue.length : Int) ≤ p.idle
  live_le : p.live ≤ p.capacity

/-- What a worker that goes from `x` to `y` does to the number of live workers. -/
theorem live_of_set {p q : Pool τ} {w : Nat} {x y : Worker τ} (at_w : p.workers[w]? = some x)
    (hq : q.workers = p.workers.set w y) : q.live + x.isLive.toNat = p.live + y.isLive.toNat := by
  rw [live, hq]
  exact countP_set_add _ at_w y

/-- What a worker that goes from `x` to `y` does to the number of executing workers. -/
theorem executing_of_set {p q : Pool τ} {w : Nat} {x y : Worker τ}
    (at_w : p.workers[w]? = some x) (hq : q.workers = p.workers.set w y) :
    q.executing + x.isExecuting.toNat = p.executing + y.isExecuting.toNat := by
  rw [executing, hq]
  exact countP_set_add _ at_w y

theorem live_append (p q : Pool τ) (x : Worker τ) (hq : q.workers = p.workers ++ [x]) :
    q.live = p.live + x.isLive.toNat := by
  rw [live, hq, List.countP_append, List.countP_singleton]
  cases x.isLive <;> rfl

theorem executing_append (p q : Pool τ) (x : Worker τ) (hq : q.workers = p.workers ++ [x]) :
    q.executing = p.executing + x.isExecuting.toNat := by
  rw [executing, hq, List.countP_append, List.countP_singleton]
  cases x.isExecuting <;> rfl

theorem isLive_of_isAwake {x : Worker τ} (h : x.isAwake = true) :
    x.isLive = true ∧ x.isExecuting = false := by
  cases x <;> first | exact ⟨rfl, rfl⟩ | cases h

section Staffed

variable {p q : Pool τ} {w : Nat} {x : Worker τ}

/-- Nothing happens that the books of the workers show. -/
theorem Staffed.same (h : p.Staffed) (hcapacity : q.capacity = p.capacity)
    (hqueue : q.queue = p.queue) (hinFlight : q.inFlight = p.inFlight) (hidle : q.idle = p.idle)
    (hlive : q.live = p.live) (hexecuting : q.executing = p.executing) : q.Staffed := by
  constructor
  · rw [hinFlight, hqueue, hexecuting]
    exact h.inFlight_eq
  · rw [hidle, hexecuting, hlive]
    exact h.idle_eq
  · rw [hqueue, hidle]
    exact h.queue_le
  · rw [hlive, hcapacity]
    exact h.live_le

/-- A task joins the queue, and there is an idle worker for it. -/
theorem Staffed.accept (h : p.Staffed) {task : τ} (enough : (p.queue.length : Int) < p.idle)
    (hcapacity : q.capacity = p.capacity) (hqueue : q.queue = p.queue ++ [task])
    (hinFlight : q.inFlight = p.inFlight + 1) (hidle : q.idle = p.idle)
    (hworkers : q.workers = p.workers) : q.Staffed := by
  obtain ⟨hin, hid, hle, hcap⟩ := h
  have hlive : q.live = p.live := by rw [live, hworkers, live]
  have hexecuting : q.executing = p.executing := by rw [executing, hworkers, executing]
  constructor
  · rw [hinFlight, hqueue, List.length_append, List.length_singleton, hexecuting]
    omega
  · rw [hidle, hexecuting, hlive]
    exact hid
  · rw [hqueue, List.length_append, List.length_singleton, hidle]
    omega
  · rw [hlive, hcapacity]
    exact hcap

/-- A task joins the queue, and a worker is started for it.  Before that no idle worker was left
without a task in the queue, so that every live worker holds a slot; a slot is free, and the new
worker stays within the capacity. -/
theorem Staffed.acceptStarting (h : p.Staffed) {task : τ} (short : p.idle ≤ p.queue.length)
    (free : p.inFlight < p.capacity) (hcapacity : q.capacity = p.capacity)
    (hqueue : q.queue = p.queue ++ [task]) (hinFlight : q.inFlight = p.inFlight + 1)
    (hidle : q.idle = p.idle + 1) (hworkers : q.workers = p.workers ++ [.starting]) :
    q.Staffed := by
  obtain ⟨hin, hid, hle, hcap⟩ := h
  have hlive : q.live = p.live + 1 := live_append p q _ hworkers
  have hexecuting : q.executing = p.executing := executing_append p q _ hworkers
  -- `live = idle + executing ≤ queue + executing = inFlight < capacity`
  constructor
  · rw [hinFlight, hqueue, List.length_append, List.length_singleton, hexecuting]
    omega
  · rw [hidle, hexecuting, hlive]
    omega
  · rw [hqueue, List.length_append, List.length_singleton, hidle]
    omega
  · rw [hlive, hcapacity]
    omega

/-- An idle worker takes the task at the front. -/
theorem Staffed.take (h : p.Staffed) {task : τ} {rest : List τ} (at_w : p.workers[w]? = some x)
    (awake : x.isAwake = true) (queue_eq : p.queue = task :: rest)
    (hcapacity : q.capacity = p.capacity) (hqueue : q.queue = rest)
    (hinFlight : q.inFlight = p.inFlight) (hidle : q.idle = p.idle - 1)
    (hworkers : q.workers = p.workers.set w (.running task)) : q.Staffed := by
  obtain ⟨hin, hid, hle, hcap⟩ := h
  have hlive := live_of_set at_w hworkers
  have hexecuting := executing_of_set at_w hworkers
  rw [(isLive_of_isAwake awake).1] at hlive
  rw [(isLive_of_isAwake awake).2] at hexecuting
  simp only [Worker.isLive, Worker.isExecuting, Bool.toNat_true, Bool.toNat_false]
    at hlive hexecuting
  rw [queue_eq, List.length_cons] at hin hle
  constructor
  · rw [hinFlight, hqueue]
    omega
  · rw [hidle]
    omega
  · rw [hqueue, hidle]
    omega
  · rw [hcapacity]
    omega

/-- An idle worker leaves its loop while the queue is empty. -/
theorem Staffed.dismiss (h : p.Staffed) (at_w : p.workers[w]? = some x)
    (awake : x.isAwake = true) (queue_eq : p.queue = []) (hcapacity : q.capacity = p.capacity)
    (hqueue : q.queue = p.queue) (hinFlight : q.inFlight = p.inFlight)
    (hidle : q.idle = p.idle - 1) (hworkers : q.workers = p.workers.set w .exited) :
    q.Staffed := by
  obtain ⟨hin, hid, hle, hcap⟩ := h
  have hlive := live_of_set at_w hworkers
  have hexecuting := executing_of_set at_w hworkers
  rw [(isLive_of_isAwake awake).1] at hlive
  rw [(isLive_of_isAwake awake).2] at hexecuting
  simp only [Worker.isLive, Worker.isExecuting, Bool.toNat_true, Bool.toNat_false]
    at hlive hexecuting
  -- the queue is empty, so no idle worker is owed to it
  have hq := executing_le_live q
  constructor
  · rw [hinFlight, hqueue]
    omega
  · rw [hidle]
    omega
  · rw [hqueue, queue_eq, List.length_nil, hidle]
    omega
  · rw [hcapacity]
    omega

/-- A worker gives the slot of its task back and is idle again. -/
theorem Staffed.giveBack (h : p.Staffed) {task : τ} (at_w : p.workers[w]? = some (.ended task))
    (hcapacity : q.capacity = p.capacity) (hqueue : q.queue = p.queue)
    (hinFlight : q.inFlight = p.inFlight - 1) (hidle : q.idle = p.idle + 1)
    (hworkers : q.workers = p.workers.set w .woken) : q.Staffed := by
  obtain ⟨hin, hid, hle, hcap⟩ := h
  have hlive := live_of_set at_w hworkers
  have hexecuting := executing_of_set at_w hworkers
  simp only [Worker.isLive, Worker.isExecuting, Bool.toNat_true, Bool.toNat_false]
    at hlive hexecuting
  constructor
  · rw [hinFlight, hqueue]
    omega
  · rw [hidle]
    omega
  · rw [hqueue, hidle]
    omega
  · rw [hcapacity]
    omega

/-- A worker changes its place and neither gains nor loses a task or its thread. -/
theorem Staffed.shift (h : p.Staffed) {y : Worker τ} (at_w : p.workers[w]? = some x)
    (hworkers : q.workers = p.workers.set w y) (hlive : x.isLive = y.isLive)
    (hexecuting : x.isExecuting = y.isExecuting) (hcapacity : q.capacity = p.capacity)
    (hqueue : q.queue = p.queue) (hinFlight : q.inFlight = p.inFlight)
    (hidle : q.idle = p.idle) : q.Staffed := by
  have hl := live_of_set at_w hworkers
  have he := executing_of_set at_w hworkers
  rw [hlive] at hl
  rw [hexecuting] at he
  exact h.same hcapacity hqueue hinFlight hidle (by omega) (by omega)

theorem Staffed.change (h : p.Staffed) {c : Cause} (hc : Change p c q) : q.Staffed := by
  cases hc with
  | refuseEmpty | arrive | arriveReaping | reapNone | reap | refuseClosed | refuseFull | block
  | sleepOn | stirSubmitter | callRelease | close | alertSubmitters | join =>
    exact h.same rfl rfl rfl rfl rfl rfl
  | accept s x task at_s asks is_open free enough => exact h.accept enough rfl rfl rfl rfl rfl
  | acceptStarting s x task at_s asks is_open free short =>
    exact h.acceptStarting short free rfl rfl rfl rfl rfl
  -- the failed start leaves a worker that is not live, and the rest is rolled back
  | failStart =>
    exact h.same rfl rfl rfl rfl (live_append p _ .unstarted rfl)
      (executing_append p _ .unstarted rfl)
  | announce s workers at_s roused =>
    exact h.same rfl rfl rfl rfl (roused.countP_eq rfl) (roused.countP_eq rfl)
  | stirWorker w at_w => exact h.shift at_w rfl rfl rfl rfl rfl rfl rfl
  | take w x task rest at_w awake queue_eq => exact h.take at_w awake queue_eq rfl rfl rfl rfl rfl
  | leave w x at_w awake queue_eq => exact h.dismiss at_w awake queue_eq rfl rfl rfl rfl rfl
  | expire w at_w queue_eq => exact h.dismiss at_w rfl queue_eq rfl rfl rfl rfl rfl
  | park w x at_w awake =>
    exact h.shift at_w rfl (isLive_of_isAwake awake).1 (isLive_of_isAwake awake).2 rfl rfl rfl rfl
  | finish w task escape at_w => exact h.shift at_w rfl rfl rfl rfl rfl rfl rfl
  | giveBack w task submissions at_w => exact h.giveBack at_w rfl rfl rfl rfl rfl
  | alertWorkers =>
    exact h.same rfl rfl rfl rfl (countP_map_wake _ rfl) (countP_map_wake _ rfl)

theorem Arises.staffed (h : p.Arises) : p.Staffed := by
  induction h with
  | create hc =>
    obtain ⟨-, -, rfl⟩ := eq_of_create hc
    exact ⟨rfl, rfl, Int.le_refl _, Nat.zero_le _⟩
  | change _ hc ih => exact ih.change hc

end Staffed

/-! ## Blocked submitters -/

/-- The blocked submitters are counted one by one. -/
def WaitersCounted (p : Pool τ) : Prop :=
  p.waiting = p.submissions.countP Submission.isWaiting

/-- A submission that asks for a slot is awake. -/
theorem isParked_of_asking {x : Submission τ} {task : τ} (h : x.asking? = some task) :
    x.isParked = false := by
  cases x <;> first | rfl | cases h

section WaitersCounted

variable {p q : Pool τ} {s : Nat} {x y : Submission τ}

/-- A submission changes its place, and the books follow. -/
theorem WaitersCounted.set (h : p.WaitersCounted) {l : List (Submission τ)}
    (hl : l.countP Submission.isWaiting = p.submissions.countP Submission.isWaiting)
    (at_s : l[s]? = some x) (hsubmissions : q.submissions = l.set s y)
    (hwaiting : q.waiting = p.waitingWithout x + y.isWaiting.toNat) : q.WaitersCounted := by
  have hset := countP_set_add Submission.isWaiting at_s y
  rw [WaitersCounted] at h
  rw [WaitersCounted, hwaiting, hsubmissions, waitingWithout, h]
  omega

theorem WaitersCounted.append (h : p.WaitersCounted) (hwaiting : q.waiting = p.waiting)
    (hsubmissions : q.submissions = p.submissions ++ [x]) (hx : x.isWaiting = false) :
    q.WaitersCounted := by
  rw [WaitersCounted] at h
  rw [WaitersCounted, hwaiting, hsubmissions, List.countP_append, List.countP_singleton, hx, h]
  rfl

theorem WaitersCounted.change (h : p.WaitersCounted) {c : Cause} (hc : Change p c q) :
    q.WaitersCounted := by
  cases hc with
  | refuseEmpty | arrive | arriveReaping => exact h.append rfl rfl rfl
  | reapNone s task at_s | refuseFull s task at_s | announce s workers at_s =>
    refine h.set rfl at_s rfl ?_
    simp [waitingWithout, Submission.isWaiting]
  | reap s task w rest at_s =>
    refine h.set rfl at_s rfl ?_
    split <;> simp [waitingWithout, Submission.isWaiting]
  | refuseClosed s x task at_s | accept s x task at_s | acceptStarting s x task at_s =>
    refine h.set rfl at_s rfl ?_
    simp [Submission.isWaiting]
  | failStart s x task submissions at_s asks is_open free short told =>
    have awake := told.getElem? at_s (isParked_of_asking asks)
    refine h.set (told.countP_eq fun _ => rfl) awake rfl ?_
    simp [Submission.isWaiting]
  | block s task at_s | sleepOn s task told at_s | stirSubmitter s task at_s =>
    refine h.set rfl at_s rfl ?_
    simp [waitingWithout, Submission.isWaiting]
  | giveBack w task submissions at_w told =>
    rw [WaitersCounted, told.countP_eq fun _ => rfl]
    exact h
  | alertSubmitters =>
    rw [WaitersCounted, countP_map_wakeSubmitter _ fun _ => rfl]
    exact h
  | stirWorker | take | leave | expire | park | finish | callRelease | close | alertWorkers
  | join => exact h

theorem Arises.waitersCounted (h : p.Arises) : p.WaitersCounted := by
  induction h with
  | create hc =>
    obtain ⟨-, -, rfl⟩ := eq_of_create hc
    rfl
  | change _ hc ih => exact ih.change hc

end WaitersCounted

/-! ## The books are true -/

/-- **Pool accounting and bounded concurrency.**  In every reachable state the slots in use are the
queued tasks and the tasks under way, and there are never more than the capacity; the idle workers
are the live ones that execute nothing; the queue is no longer than their number; there are never
more live workers than the capacity; and no counter is below zero, as each counts something. -/
theorem books_of_reachable {p : Pool τ} (h : p.Reachable) :
    p.inFlight = p.queue.length + p.executing ∧ p.inFlight ≤ p.capacity ∧
      p.idle = p.live - p.executing ∧ p.queue.length ≤ p.idle ∧ p.live ≤ p.capacity ∧
      p.waiting = p.submissions.countP Submission.isWaiting ∧
      0 ≤ p.inFlight ∧ 0 ≤ p.idle ∧ 0 ≤ p.waiting := by
  obtain ⟨hin, hid, hle, hcap⟩ := h.arises.staffed
  have hwaiting := h.arises.waitersCounted
  rw [WaitersCounted] at hwaiting
  refine ⟨hin, ?_, ?_, hle, hcap, hwaiting, ?_, ?_, ?_⟩ <;> omega

/-- A pool of two slots takes two tasks, blocks a third submitter and is closed while its first
worker runs. -/
def drainingRun : List (Event Nat) :=
  [.submit (some 1), .move (.enter 0 true none), .submit (some 2), .move (.enter 1 true none),
    .move (.look 0 false), .submit (some 3), .move (.enter 2 true none), .release none,
    .move (.close 0)]

/-- The books are true while that pool drains. -/
theorem books_while_draining :
    ∃ p q : Pool Nat, create "io" 2 1000 false = .ok p ∧ p.run drainingRun = some q ∧
      q.closed = true ∧ q.queue = [2] ∧ q.waiting = 1 ∧
      q.inFlight = q.queue.length + q.executing ∧ q.inFlight ≤ q.capacity ∧
      q.idle = q.live - q.executing ∧ q.queue.length ≤ q.idle ∧ q.live ≤ q.capacity ∧
      q.waiting = q.submissions.countP Submission.isWaiting ∧
      0 ≤ q.inFlight ∧ 0 ≤ q.idle ∧ 0 ≤ q.waiting := by
  obtain ⟨p, q, hp, hq, hclosed, hqueue, hwaiting⟩ : ∃ p q : Pool Nat,
      create "io" 2 1000 false = .ok p ∧ p.run drainingRun = some q ∧
        q.closed = true ∧ q.queue = [2] ∧ q.waiting = 1 := ⟨_, _, rfl, rfl, rfl, rfl, rfl⟩
  have hreachable : q.Reachable := (Reachable.create hp).run hq
  exact ⟨p, q, hp, hq, hclosed, hqueue, hwaiting, books_of_reachable hreachable⟩

end Pool

end TaskPools
