/-
# The workers in service and the live ones

A pool counts as running the workers whose handles it lists.  Those are the live workers until a
release takes all handles; from then on the pool shows no worker and all of its slots as free,
however many workers it still waits for (`running_zero_while_task_runs`).  So the figure tells when
an open pool has nobody left, and of a closed pool it tells nothing: there it is the handles held by
the releases that show who is left (`running_explained`).
-/
import TaskPools.Proofs.Pool.Staffing

namespace TaskPools

namespace Pool

section

variable {τ : Type} {p q : Pool τ} {es : List (Event τ)}

/-- No live worker is left where none is listed, no release holds a handle, and none let go of the
worker on whose thread it ran. -/
theorem live_eq_zero_of_unheld {own : Nat → Prop} (arises : q.Arises) (left : q.JoinedLeft own)
    (unlisted : q.running = 0) (unheld : ∀ place ∈ q.releases, place.handles = [])
    (kept : ∀ w, ¬ own w) : q.live = 0 := by
  refine live_eq_zero fun w => ?_
  by_contra live
  rcases kept_of_live arises left (by simpa using live) with listed | ⟨-, ⟨r, held⟩ | let_go⟩
  · rw [List.eq_nil_of_length_eq_zero unlisted] at listed
    cases listed
  · obtain ⟨place, at_r, held⟩ := mem_handlesAt_release.mp held
    rw [unheld place (List.mem_of_getElem? at_r)] at held
    cases held
  · exact kept w let_go

/-- **What the number of running workers tells.**  At every moment it makes up the capacity together
with the number of free slots, and is never more than the number of live workers.  As long as no
release has closed the pool it is that number; from then on it is zero, and all slots are shown as
free.  Who is live then is a worker whose handle a release still holds, or on whose own thread a
release was called.  Once no worker is live every accepted task has ended; so if no worker is shown
as running, it has in an open pool, and in a closed one provided that no release holds a handle any
more and none was called by a worker of the pool. -/
theorem running_explained {name : String} {capacity : Nat} {expiry : Int64} {nonBlocking : Bool}
    (created : create name capacity expiry nonBlocking = .ok p) (hrun : p.run es = some q) :
    q.running + q.free = q.capacity ∧ q.running ≤ q.live ∧
    (q.closed = false → q.running = q.live) ∧
    (q.closed = true → q.running = 0 ∧ q.free = q.capacity ∧
      ∀ w, q.liveAt w = true → (∃ r, w ∈ q.handlesAt (.release r)) ∨ .release (some w) ∈ es) ∧
    (q.live = 0 → q.queue = [] ∧ q.ended.Perm q.accepted) ∧
    (q.running = 0 → q.closed = false ∨
        (∀ place ∈ q.releases, place.handles = []) ∧ (∀ w, .release (some w) ∉ es) →
      q.live = 0 ∧ q.queue = [] ∧ q.ended.Perm q.accepted) := by
  have arises := ((Reachable.create created).run hrun).arises
  have left := joinedLeft_of_create created hrun
  have shown := arises.running_add_free
  refine ⟨shown, arises.running_le_live, running_eq_live arises left, fun is_closed => ?_,
    arises.ended_perm, fun nobody alone => ?_⟩
  · have emptied := (arises.sealed.emptied is_closed).1
    have nobody : q.running = 0 := congrArg List.length emptied
    refine ⟨nobody, by omega, fun w live => ?_⟩
    rcases kept_of_live arises left live with listed | ⟨-, kept⟩
    · rw [emptied] at listed
      cases listed
    · exact kept
  · have none_live : q.live = 0 := by
      rcases alone with is_open | ⟨unheld, from_outside⟩
      · rw [← running_eq_live arises left is_open, nobody]
      · exact live_eq_zero_of_unheld arises left nobody unheld from_outside
    exact ⟨none_live, arises.ended_perm none_live⟩

end

/-- A pool of one slot runs task 7 when a release closes it. -/
def closedWhileRunning : List (Event Nat) :=
  [.submit (some 7), .move (.enter 0 true none), .move (.announce 0 none), .move (.look 0 false),
    .release none, .move (.close 0), .move (.alertWorkers 0), .move (.alertSubmitters 0)]

/-- The task ends, its worker leaves, and the release waits for it. -/
def drainedAfterwards : List (Event Nat) :=
  [.finish 0 none, .move (.giveBack 0 none), .move (.join 0)]

/-- While the release waits for the worker of that pool it holds its handle, and the pool shows
nobody; after that nobody is left. -/
theorem running_of_draining_pool :
    ∃ p m q : Pool Nat, create "io" 1 1000 true = .ok p ∧ p.run closedWhileRunning = some m ∧
      m.liveAt 0 = true ∧ m.running = 0 ∧ m.free = m.capacity ∧ 0 ∈ m.handlesAt (.release 0) ∧
      p.run (closedWhileRunning ++ drainedAfterwards) = some q ∧ q.accepted = [7] ∧
      q.running = 0 ∧ q.live = 0 ∧ q.ended.Perm q.accepted := by
  obtain ⟨p, m, q, hp, hm, live, m_closed, held, hq, accepted, q_closed, release_returned⟩ :
      ∃ p m q : Pool Nat, create "io" 1 1000 true = .ok p ∧ p.run closedWhileRunning = some m ∧
        m.liveAt 0 = true ∧ m.closed = true ∧ m.releases = [.joining none [0]] ∧
        p.run (closedWhileRunning ++ drainedAfterwards) = some q ∧ q.accepted = [7] ∧
        q.closed = true ∧ q.releases = [.returned] :=
    ⟨_, _, _, rfl, rfl, rfl, rfl, rfl, rfl, rfl, rfl, rfl⟩
  obtain ⟨-, -, -, m_shows, -⟩ := running_explained hp hm
  obtain ⟨shows_none, shows_free, held_by⟩ := m_shows m_closed
  obtain ⟨-, -, -, q_shows, -, drained⟩ := running_explained hp hq
  have nobody := (q_shows q_closed).1
  obtain ⟨none_live, -, ended⟩ := drained nobody (Or.inr
    ⟨by simp [release_returned, Release.handles], by simp [closedWhileRunning, drainedAfterwards]⟩)
  refine ⟨p, m, q, hp, hm, live, shows_none, shows_free, ?_, hq, accepted, nobody, none_live, ended⟩
  rcases held_by 0 live with ⟨r, at_r⟩ | let_go
  · obtain ⟨place, at_place, -⟩ := mem_handlesAt_release.mp at_r
    rw [held] at at_place
    obtain rfl : r = 0 := by
      have in_range := (List.getElem?_eq_some_iff.mp at_place).1
      simpa using in_range
    exact at_r
  · simp [closedWhileRunning] at let_go

/-- A closed pool shows no running worker and a free slot while its worker runs the task that it
accepted. -/
theorem running_zero_while_task_runs :
    ∃ p q : Pool Nat, create "test" 1 10000 true = .ok p ∧ p.run closedWhileRunning = some q ∧
      q.closed = true ∧ q.running = 0 ∧ q.free = 1 ∧ q.live = 1 ∧ q.running ≠ q.live ∧
      q.accepted = [7] ∧ q.ended = [] ∧ ¬ q.ended.Perm q.accepted :=
  ⟨_, _, rfl, rfl, rfl, rfl, rfl, rfl, by decide, rfl, rfl, by decide⟩

end Pool

end TaskPools
