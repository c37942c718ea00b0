/-
# Waiting for the workers

A submission waits for the threads of workers that expired, and those have left already
(`ExpiredLeft`).  A release waits for the threads of all workers in service, so it returns only when
each of them has left, unless it runs on the thread of one of them (`JoinedLeft`).  The release that
closes a pool takes the handles of all workers that are live then, and no worker is started after
that: so nobody is left when it returns (`Awaits`).
-/
import TaskPools.Proofs.Pool.Handles

namespace TaskPools

variable {τ : Type}

namespace Pool

/-- The handles that were set aside are of workers that have left. -/
def ExpiredLeft (p : Pool τ) : Prop :=
  ∀ w, w ∈ p.retired ∨ w ∈ p.submissions.flatMap Submission.handles →
    p.workers[w]? = some .exited

/-- A worker that was waited for has left, unless a release on its own thread let go of it. -/
def JoinedLeft (own : Nat → Prop) (p : Pool τ) : Prop :=
  ∀ w ∈ p.joined, p.workers[w]? = some .exited ∨ (p.closed = true ∧ own w)

/-- The pool is closed, and release `r`, which runs on a thread that is no worker's, holds the
handles of all live workers. -/
structure Awaits (r : Nat) (p : Pool τ) : Prop where
  closed : p.closed = true
  holds : ∃ place, p.releases[r]? = some place ∧ place.own? = none ∧
    ∀ w, p.liveAt w = true → w ∈ place.handles

section

variable {p q : Pool τ} {c : Cause} {w : Nat} {own : Nat → Prop}

/-! ## Handles of workers that have left -/

/-- A worker that has left does not come back. -/
theorem Change.still_exited (hc : Change p c q) (left : p.workers[w]? = some .exited) :
    q.workers[w]? = some .exited := by
  have other {v : Nat} {x y : Worker τ} (at_v : p.workers[v]? = some x) (hx : x ≠ .exited) :
      (p.workers.set v y)[w]? = some .exited :=
    getElem?_set_of_ne at_v left hx
  cases hc with
  | acceptStarting | failStart =>
    rw [List.getElem?_append_left (List.getElem?_eq_some_iff.mp left).1]
    exact left
  | announce s workers at_s roused =>
    cases roused with
    | nobody => exact left
    | one v at_v => exact other at_v nofun
  | take v x task rest at_v awake | leave v x at_v awake | park v x at_v awake =>
    refine other at_v ?_
    rintro rfl
    cases awake
  | stirWorker v at_v | expire v at_v | finish v task escape at_v
  | giveBack v task submissions at_v => exact other at_v nofun
  | alertWorkers =>
    rw [List.getElem?_map, left]
    rfl
  | refuseEmpty | arrive | arriveReaping | reapNone | reap | refuseClosed | refuseFull | block
  | sleepOn | accept | stirSubmitter | callRelease | close | alertSubmitters | join => exact left

theorem ExpiredLeft.change (h : p.ExpiredLeft) (hc : Change p c q) : q.ExpiredLeft := by
  -- no handle is set aside but that of a worker that expires
  have fewer (w : Nat)
      (before : w ∈ p.retired ∨ w ∈ p.submissions.flatMap Submission.handles) :
      q.workers[w]? = some .exited := hc.still_exited (h w before)
  have goes_on {l : List (Submission τ)} {s : Nat} {y : Submission τ}
      (hl : l.flatMap Submission.handles = p.submissions.flatMap Submission.handles)
      (hy : ∀ w ∈ y.handles, w ∈ p.submissions.flatMap Submission.handles) (w : Nat)
      (now : w ∈ p.retired ∨ w ∈ (l.set s y).flatMap Submission.handles) :
      w ∈ p.retired ∨ w ∈ p.submissions.flatMap Submission.handles := by
    refine now.imp_right fun held => ?_
    rcases mem_flatMap_set Submission.handles held with new | old
    · exact hy w new
    · exact hl ▸ old
  cases hc with
  | refuseEmpty | arrive =>
    intro w now
    simp only [List.flatMap_append, List.flatMap_singleton, Submission.handles, List.append_nil]
      at now
    exact fewer w now
  | arriveReaping =>
    intro w now
    simp only [List.flatMap_append, List.flatMap_singleton, Submission.handles, List.mem_append,
      List.not_mem_nil, false_or] at now
    exact fewer w now.symm
  | reapNone | refuseClosed | refuseFull | block | sleepOn | accept | acceptStarting
  | stirSubmitter | announce =>
    exact fun w now => fewer w (goes_on rfl (fun _ held => absurd held List.not_mem_nil) w now)
  | failStart s x task submissions at_s asks is_open free short told =>
    exact fun w now => fewer w (goes_on (handles_of_told told)
      (fun _ held => absurd held List.not_mem_nil) w now)
  | reap s task v rest at_s =>
    refine fun w now => fewer w (goes_on rfl (fun w held => ?_) w now)
    rw [handles_reaping] at held
    exact List.mem_flatMap.mpr ⟨_, List.mem_of_getElem? at_s, List.mem_cons_of_mem v held⟩
  | expire v at_v =>
    intro w now
    by_cases same : w = v
    · rw [same]
      exact List.getElem?_set_self (List.getElem?_eq_some_iff.mp at_v).1
    · refine fewer w (now.imp_left fun retired => ?_)
      have retired : w ∈ if p.listed.contains v then p.retired ++ [v] else p.retired := retired
      split at retired
      · rcases List.mem_append.mp retired with old | new
        · exact old
        · exact absurd (List.mem_singleton.mp new) same
      · exact retired
  | giveBack v task submissions at_v told =>
    exact fun w now => fewer w (now.imp_right fun held => handles_of_told told ▸ held)
  | alertSubmitters =>
    exact fun w now => fewer w (now.imp_right fun held => handles_of_wake p.submissions ▸ held)
  | close => exact fun w now => fewer w (Or.inr (now.resolve_left List.not_mem_nil))
  | stirWorker | take | leave | park | finish | callRelease | alertWorkers | join => exact fewer

theorem Arises.expiredLeft (h : p.Arises) : p.ExpiredLeft := by
  induction h with
  | create hc =>
    obtain ⟨-, -, rfl⟩ := eq_of_create hc
    exact fun w now => now.elim nofun nofun
  | change _ hc ih => exact ih.change hc

theorem JoinedLeft.change (h : p.JoinedLeft own) (arises : p.Arises)
    (from_own : p.ReleasedFrom own) (hc : Change p c q) : q.JoinedLeft own := by
  have still {w : Nat} (joined : w ∈ p.joined) :
      q.workers[w]? = some .exited ∨ (q.closed = true ∧ own w) :=
    (h w joined).imp hc.still_exited (And.imp_left hc.closed_mono)
  cases hc with
  | reap s task v rest at_s at_v =>
    intro w joined
    rcases List.mem_append.mp joined with before | new
    · exact still before
    · rw [List.mem_singleton.mp new]
      exact Or.inl at_v
  | join r run v rest at_r is_over =>
    intro w joined
    rcases List.mem_append.mp joined with before | new
    · exact still before
    · rw [List.mem_singleton.mp new]
      have at_r := List.mem_of_getElem? at_r
      exact is_over.symm.imp_right fun own_thread =>
        ⟨arises.sealed.closed_of _ at_r rfl, from_own _ at_r v own_thread⟩
  | _ => exact fun w joined => still joined

theorem joinedLeft_of_run {es : List (Event τ)} (h : p.JoinedLeft own) (arises : p.Arises)
    (from_own : p.ReleasedFrom own) (known : ∀ w, .release (some w) ∈ es → own w)
    (hrun : p.run es = some q) : q.JoinedLeft own := by
  induction es generalizing p with
  | nil =>
    rw [run_nil hrun]
    exact h
  | cons e es ih =>
    obtain ⟨m, hm, hrun⟩ := run_cons hrun
    have from_own' := from_own.step (fun w hw => known w (hw ▸ List.mem_cons_self)) hm
    refine ih ?_ (arises.step hm) from_own' (fun w hw => known w (List.mem_cons_of_mem e hw)) hrun
    rcases change_of_step hm with ⟨c, hc⟩ | ⟨n, hn, hc⟩
    · exact h.change arises from_own hc
    · exact (h.change arises from_own hn).change (arises.change hn) (from_own.move hn) hc

/-! ## The release that closes a pool -/

/-- Every live worker is listed, or a release holds its handle, or one on its own thread let go of
it: all others have left. -/
theorem kept_of_live (arises : p.Arises) (left : p.JoinedLeft own) (live : p.liveAt w = true) :
    w ∈ p.listed ∨ p.closed = true ∧ ((∃ r, w ∈ p.handlesAt (.release r)) ∨ own w) := by
  obtain ⟨x, at_w, alive⟩ := (Option.any_eq_true _ _).mp live
  have not_left : p.workers[w]? ≠ some .exited := by
    rw [at_w]
    rintro ⟨⟩
    cases alive
  have started : p.startedAt w = true := by
    rw [startedAt, at_w]
    cases x <;> first | rfl | cases alive
  have somewhere : w ∈ p.handles := by
    rw [← List.count_pos_iff, arises.kept w, started]
    exact Nat.one_pos
  obtain ⟨k, h⟩ := mem_handles_iff.mp somewhere
  cases k with
  | service => exact Or.inl h
  | expired => exact absurd (arises.expiredLeft w (Or.inl h)) not_left
  | submission s =>
    obtain ⟨y, at_s, held⟩ := mem_handlesAt_submission.mp h
    have among := List.mem_flatMap.mpr ⟨y, List.mem_of_getElem? at_s, held⟩
    exact absurd (arises.expiredLeft w (Or.inr among)) not_left
  | release r =>
    obtain ⟨y, at_r, held⟩ := mem_handlesAt_release.mp h
    have beyond : y.isCalled = false := by cases y <;> first | rfl | cases held
    exact Or.inr ⟨arises.sealed.closed_of y (List.mem_of_getElem? at_r) beyond, Or.inl ⟨r, h⟩⟩
  | joined =>
    rcases left w h with gone | ⟨is_closed, let_go⟩
    · exact absurd gone not_left
    · exact Or.inr ⟨is_closed, Or.inr let_go⟩

/-- In an open pool every live worker is listed. -/
theorem listed_of_live (arises : p.Arises) (left : p.JoinedLeft own) (is_open : p.closed = false)
    (live : p.liveAt w = true) : w ∈ p.listed := by
  refine (kept_of_live arises left live).resolve_right ?_
  rintro ⟨is_closed, -⟩
  rw [is_open] at is_closed
  cases is_closed

/-- The release that closes an open pool takes the handles of all live workers. -/
theorem awaits_of_close {r : Nat} (arises : p.Arises) (left : p.JoinedLeft own)
    (is_open : p.closed = false) (at_r : p.releases[r]? = some (.called none))
    (hstep : p.step (.move (.close r)) = some q) : q.Awaits r := by
  simp only [step, move, close, at_r] at hstep
  cases hstep
  refine ⟨rfl, .closed none (p.listed ++ p.retired), ?_, rfl, fun w live => ?_⟩
  · exact List.getElem?_set_self (List.getElem?_eq_some_iff.mp at_r).1
  · exact List.mem_append_left _ (listed_of_live arises left is_open live)

section Awaits

variable {r : Nat}

/-- No worker comes to life, and the releases stay where they are. -/
theorem Awaits.same (h : p.Awaits r) (hclosed : q.closed = p.closed)
    (hreleases : q.releases = p.releases)
    (alive : ∀ w, q.liveAt w = true → p.liveAt w = true) : q.Awaits r := by
  obtain ⟨closed, place, at_r, own, holds⟩ := h
  exact ⟨hclosed.trans closed, place, hreleases ▸ at_r, own, fun w live => holds w (alive w live)⟩

/-- A release goes on.  If it is the one that waits, it runs where it ran and has let go of no live
worker. -/
theorem Awaits.set (h : p.Awaits r) {r' : Nat} {old new : Release} (is_closed : q.closed = true)
    (at_r' : p.releases[r']? = some old) (hreleases : q.releases = p.releases.set r' new)
    (alive : ∀ w, q.liveAt w = true → p.liveAt w = true)
    (goes_on : old.own? = none → new.own? = none ∧
      ∀ w ∈ old.handles, p.liveAt w = true → w ∈ new.handles) : q.Awaits r := by
  obtain ⟨-, place, at_r, own, holds⟩ := h
  refine ⟨is_closed, ?_⟩
  rw [hreleases, getElem?_set_at at_r']
  by_cases same : r = r'
  · rw [if_pos same]
    subst same
    cases at_r.symm.trans at_r'
    obtain ⟨own', keeps⟩ := goes_on own
    exact ⟨new, rfl, own', fun w live => keeps w (holds w (alive w live)) (alive w live)⟩
  · rw [if_neg same]
    exact ⟨place, at_r, own, fun w live => holds w (alive w live)⟩

theorem Awaits.change (h : p.Awaits r) (hc : Change p c q) : q.Awaits r := by
  have shut {P : Prop} (is_open : p.closed = false) : P := by
    rw [h.closed] at is_open
    cases is_open
  cases hc with
  | refuseEmpty | arrive | arriveReaping | reapNone | reap | refuseClosed | stirSubmitter =>
    exact h.same rfl rfl fun _ => id
  | refuseFull s task at_s is_open | block s task at_s is_open | sleepOn s task told at_s is_open
  | accept s x task at_s asks is_open | acceptStarting s x task at_s asks is_open
  | failStart s x task submissions at_s asks is_open | expire w at_w queue_eq is_open
  | park w x at_w awake queue_eq is_open => exact shut is_open
  | announce s workers at_s roused => exact h.same rfl rfl (live_before_rouse roused rfl)
  | stirWorker w at_w | finish w task escape at_w | giveBack w task submissions at_w =>
    exact h.same rfl rfl (live_before_set at_w rfl fun _ => rfl)
  | take w x task rest at_w awake | leave w x at_w awake =>
    exact h.same rfl rfl (live_before_set at_w rfl fun _ => (isLive_of_isAwake awake).1)
  | callRelease run =>
    obtain ⟨closed, place, at_r, rest⟩ := h
    refine ⟨closed, place, ?_, rest⟩
    exact (List.getElem?_append_left (List.getElem?_eq_some_iff.mp at_r).1).trans at_r
  | close r' run at_r' => exact h.set rfl at_r' rfl (fun _ => id) fun own => ⟨own, nofun⟩
  | alertWorkers r' run handles at_r' =>
    exact h.set h.closed at_r' rfl (live_before_wake rfl) fun own => ⟨own, fun w held _ => held⟩
  | alertSubmitters r' run handles at_r' =>
    refine h.set h.closed at_r' rfl (fun _ => id) fun own => ⟨?_, fun w held _ => ?_⟩
    · split
      · rfl
      · exact own
    · rw [handles_joining]
      exact held
  | join r' run v rest at_r' is_over =>
    refine h.set h.closed at_r' rfl (fun _ => id) fun own => ⟨?_, fun w held live => ?_⟩
    · split
      · rfl
      · exact own
    · rw [handles_joining]
      rcases List.mem_cons.mp held with rfl | later
      · -- it was waited for, as it is not the worker on whose thread the release runs
        have own : run = none := own
        have left := is_over.resolve_left (by rw [own]; nofun)
        rw [liveAt, left] at live
        cases live
      · exact later

theorem Awaits.step (h : p.Awaits r) {e : Event τ} (hstep : p.step e = some q) : q.Awaits r := by
  rcases change_of_step hstep with ⟨c, hc⟩ | ⟨m, hm, hc⟩
  · exact h.change hc
  · exact (h.change hm).change hc

/-- When the release returns, nobody is left. -/
theorem Awaits.live_eq_zero (h : p.Awaits r) (returned : p.releases[r]? = some .returned) :
    p.live = 0 := by
  obtain ⟨-, place, at_r, -, holds⟩ := h
  cases at_r.symm.trans returned
  refine Pool.live_eq_zero fun w => ?_
  by_contra live
  cases holds w (by simpa using live)

end Awaits

/-! ## Handles and draining -/

/-- **Handles are conserved, and the release that closes a pool drains it.**  In every reachable
state the handle of each worker that was ever started is in exactly one place, once, and there are
no other handles; a worker that was waited for has left, unless it was let go of by a release on its
own thread.  From there on a handle is only passed on: from the pool to one call, and from that call
nowhere but to those waited for; a call that is over holds none.  A closed pool stays closed, and
lists nothing and sets nothing aside.  When the release that closed the pool returns, and it did not
run on the thread of a worker, no worker is in its loop, the queue is empty, no slot is in use and
every accepted task has ended. -/
theorem handles_conserved {name : String} {capacity : Nat} {expiry : Int64} {nonBlocking : Bool}
    {es : List (Event τ)} (hcreate : create name capacity expiry nonBlocking = .ok p)
    (hrun : p.run es = some q) :
    (∀ w, q.startedAt w = true →
      ∃ k, (q.handlesAt k).count w = 1 ∧ ∀ k', w ∈ q.handlesAt k' → k' = k) ∧
    (∀ w k, w ∈ q.handlesAt k → q.startedAt w = true) ∧
    (∀ w ∈ q.joined, q.workers[w]? = some .exited ∨ .release (some w) ∈ es) ∧
    (∀ es' q', q.run es' = some q' →
      (∀ w k, w ∈ q.handlesAt k →
        ∃ k', w ∈ q'.handlesAt k' ∧ Relation.ReflTransGen Keeper.Passes k k') ∧
      (q.closed = true → q'.closed = true ∧ q'.listed = [] ∧ q'.retired = [])) ∧
    (∀ es₁ es₂ r m, es = es₁ ++ .move (.close r) :: es₂ → p.run es₁ = some m →
      m.closed = false → m.releases[r]? = some (.called none) →
      q.releases[r]? = some .returned →
      q.live = 0 ∧ q.queue = [] ∧ q.inFlight = 0 ∧ q.ended.Perm q.accepted) := by
  have hp : p.Reachable := .create hcreate
  have hq : q.Reachable := hp.run hrun
  have kept := hq.arises.kept
  -- whatever workers releases run on, a new pool has neither workers nor releases
  have left {es : List (Event τ)} {q : Pool τ} (hrun : p.run es = some q) :
      q.JoinedLeft fun w => .release (some w) ∈ es := by
    refine joinedLeft_of_run ?_ hp.arises ?_ (fun _ => id) hrun
    all_goals
      obtain ⟨-, -, rfl⟩ := eq_of_create hcreate
      exact nofun
  refine ⟨fun w => kept.place, fun w k => kept.started, fun w joined => ?_, ?_, ?_⟩
  · exact (left hrun w joined).imp_right And.right
  · intro es' q' hrun'
    refine ⟨fun w k => passed_of_run hrun', fun is_closed => ?_⟩
    have still : q'.closed = true :=
      run_preserves (fun closed hstep => closed_of_step hstep closed) is_closed hrun'
    exact ⟨still, (hq.run hrun').arises.sealed.emptied still⟩
  · rintro es₁ es₂ r m rfl hrun₁ is_open at_r returned
    obtain ⟨m', hrun₁', hrun₂⟩ := run_append hrun
    cases hrun₁.symm.trans hrun₁'
    obtain ⟨n, hclose, hrun₂⟩ := run_cons hrun₂
    have awaits := awaits_of_close (hp.run hrun₁).arises (left hrun₁) is_open at_r hclose
    have still : q.Awaits r :=
      run_preserves (P := Awaits r) (fun h hstep => h.step hstep) awaits hrun₂
    have nobody := still.live_eq_zero returned
    obtain ⟨hqueue, hended⟩ := hq.arises.ended_perm nobody
    have hinFlight := hq.arises.staffed.inFlight_eq
    have hexecuting := executing_le_live q
    rw [hqueue, List.length_nil] at hinFlight
    exact ⟨nobody, hqueue, by omega, hended⟩

end

/-- Worker 0 runs task 7, and then it is idle until it expires.  The submission of task 8 waits for
its thread, and worker 1 is started. -/
def expiringRun : List (Event Nat) :=
  [.submit (some 7), .move (.enter 0 true none), .move (.announce 0 none), .move (.look 0 false),
    .finish 0 none, .move (.giveBack 0 none), .move (.stirWorker 0), .move (.look 0 true),
    .submit (some 8), .move (.reap 1), .move (.enter 1 true none), .release none]

/-- The pool is closed, worker 1 runs task 8 and leaves, and the release waits for it. -/
def closingRun : List (Event Nat) :=
  [.move (.alertWorkers 0), .move (.alertSubmitters 0), .move (.announce 1 none),
    .move (.look 1 false), .finish 1 none, .move (.giveBack 1 none), .move (.join 0)]

/-- Both workers of that pool were waited for, and both tasks have ended. -/
theorem handles_of_expired_and_closed :
    ∃ p m q : Pool Nat, create "io" 1 1000 false = .ok p ∧ p.run expiringRun = some m ∧
      m.joined = [0] ∧ m.listed = [1] ∧
      p.run (expiringRun ++ .move (.close 0) :: closingRun) = some q ∧ q.joined = [0, 1] ∧
      (∀ k, 1 ∈ q.handlesAt k → k = .joined) ∧ q.workers[1]? = some .exited ∧
      q.live = 0 ∧ q.queue = [] ∧ q.inFlight = 0 ∧ q.ended.Perm q.accepted := by
  obtain ⟨p, m, q, hp, hm, hjoined, hlisted, is_open, called, hq, hall, started, returned⟩ :
      ∃ p m q : Pool Nat, create "io" 1 1000 false = .ok p ∧ p.run expiringRun = some m ∧
        m.joined = [0] ∧ m.listed = [1] ∧ m.closed = false ∧
        m.releases[0]? = some (.called none) ∧
        p.run (expiringRun ++ .move (.close 0) :: closingRun) = some q ∧ q.joined = [0, 1] ∧
        q.startedAt 1 = true ∧ q.releases[0]? = some .returned :=
    ⟨_, _, _, rfl, rfl, rfl, rfl, rfl, rfl, rfl, rfl, rfl, rfl⟩
  obtain ⟨place, -, left, -, drained⟩ := handles_conserved hp hq
  obtain ⟨k, -, only⟩ := place 1 started
  have joined : 1 ∈ q.joined := by rw [hall]; decide
  refine ⟨p, m, q, hp, hm, hjoined, hlisted, hq, hall, fun k' hk' => ?_, ?_,
    drained _ _ 0 m rfl hm is_open called returned⟩
  · exact (only k' hk').trans (only .joined joined).symm
  · exact (left 1 joined).resolve_right (by decide)

end Pool

end TaskPools
