/-
# What a step can change in a guarded pool

`GuardedPool.Change` lists what the steps of a guarded pool do, event by event, and
`change_of_step` says that there is nothing else.  The pool inside only ever takes steps of its own,
so it is reachable as long as the guard is (`Reachable.pool`), and by itself it goes on as any pool
does (`Change.settlesOn`).
-/
import TaskPools.GuardedPool.Step
import TaskPools.Proofs.Pool.Answers

namespace TaskPools

variable {τ : Type}

namespace GuardedPool

/-- A new guarded pool, or what becomes of one by steps in any order. -/
inductive Reachable : GuardedPool τ → Prop where
  | create {config : PoolConfig} {watched : Bool} {g : GuardedPool τ} :
      create config watched = .ok g → Reachable g
  | step {g g' : GuardedPool τ} {e : Event τ} :
      Reachable g → g.step e = some g' → Reachable g'

/-- What the steps of a guarded pool do. -/
inductive Change (g : GuardedPool τ) : Event τ → GuardedPool τ → Prop where
  | submit (task : Option τ) :
      Change g (.submit task) { g with
        pool := g.pool.submit task
        replies := g.replies ++ [.pending] }
  | release (own : Option Nat) (bound : Int64) :
      Change g (.release own bound) { g with releases := g.releases ++ [.begun own bound] }
  | sample : Change g .sample { g with samples := g.samples ++ [[]] }
  | gauge (k : Nat) (figures : List Nat) (next : Gauge) (at_k : g.samples[k]? = some figures)
      (is_next : Gauge.order[figures.length]? = some next) :
      Change g (.gauge k) { g with samples := g.samples.set k (figures ++ [g.read next]) }
  | pool (m : Pool.Move) (p : Pool τ) (moves : g.pool.move m = some p) :
      Change g (.move (.pool m)) { g with pool := p }
  | answer (s : Nat) (fault : Option Fault)
      (settled : g.pool.submissions[s]? = some (.returned fault))
      (open_s : g.replies[s]? = some .pending) :
      Change g (.move (.answer s))
        { g.count fault with replies := g.replies.set s (.given (fault.map translate)) }
  | returns (w : Nat) (escape : Option Panic) (p : Pool τ)
      (finishes : g.pool.finish w none = some p) :
      Change g (.move (.conclude w none escape))
        { g with pool := p, completed := g.completed + 1 }
  | panics (w : Nat) (panic : Panic) (escape : Option Panic) (p : Pool τ)
      (finishes : g.pool.finish w (if g.watched then escape else none) = some p) :
      Change g (.move (.conclude w (some panic) escape)) { g with
        pool := p
        panicked := g.panicked + 1
        journal := g.journal ++ [if g.watched then .handled panic else .printed panic] }
  | launch (t : Nat) (own : Option Nat) (bound : Int64)
      (at_t : g.releases[t]? = some (.begun own bound)) :
      Change g (.move (.launch t true)) { g with
        pool := { g.pool with releases := g.pool.releases ++ [.called none] }
        releases := g.releases.set t (.waiting g.pool.releases.length bound) }
  | launchInline (t : Nat) (own : Option Nat) (bound : Int64)
      (at_t : g.releases[t]? = some (.begun own bound)) :
      Change g (.move (.launch t false)) { g with
        pool := { g.pool with releases := g.pool.releases ++ [.called own] }
        releases := g.releases.set t (.inline g.pool.releases.length)
        journal := g.journal ++ [.releaseInline] }
  | complete (t r : Nat)
      (at_t : (∃ bound, g.releases[t]? = some (.waiting r bound)) ∨
        g.releases[t]? = some (.inline r))
      (is_over : g.pool.releases[r]? = some .returned) :
      Change g (.move (.complete t)) { g with releases := g.releases.set t (.returned none) }
  | elapse (t r : Nat) (bound : Int64) (at_t : g.releases[t]? = some (.waiting r bound)) :
      Change g (.move (.elapse t)) { g with
        releases := g.releases.set t (.returned (some (.shutdownTimeout g.config.name))) }

theorem change_of_answer {g g' : GuardedPool τ} {s : Nat} (h : g.answer s = some g') :
    Change g (.move (.answer s)) g' := by
  rw [answer] at h
  split at h
  · rename_i fault settled open_s
    cases h
    exact Change.answer s fault settled open_s
  · cases h

theorem change_of_conclude {g g' : GuardedPool τ} {w : Nat} {panic escape : Option Panic}
    (h : g.conclude w panic escape = some g') :
    Change g (.move (.conclude w panic escape)) g' := by
  cases panic with
  | none =>
    obtain ⟨p, hp, rfl⟩ := Option.map_eq_some_iff.mp h
    exact Change.returns w escape p hp
  | some panic =>
    rw [conclude] at h
    by_cases hw : g.watched = true
    · rw [if_pos hw] at h
      obtain ⟨p, hp, rfl⟩ := Option.map_eq_some_iff.mp h
      have hchange := Change.panics (g := g) w panic escape p (by rw [if_pos hw]; exact hp)
      rw [if_pos hw] at hchange
      exact hchange
    · rw [if_neg hw] at h
      obtain ⟨p, hp, rfl⟩ := Option.map_eq_some_iff.mp h
      have hchange := Change.panics (g := g) w panic escape p (by rw [if_neg hw]; exact hp)
      rw [if_neg hw] at hchange
      exact hchange

theorem change_of_launch {g g' : GuardedPool τ} {t : Nat} {start : Bool}
    (h : g.launch t start = some g') : Change g (.move (.launch t start)) g' := by
  rw [launch] at h
  split at h
  · rename_i own bound at_t
    cases start with
    | true =>
      cases h
      exact Change.launch t own bound at_t
    | false =>
      cases h
      exact Change.launchInline t own bound at_t
  · cases h

theorem change_of_complete {g g' : GuardedPool τ} {t : Nat} (h : g.complete t = some g') :
    Change g (.move (.complete t)) g' := by
  rw [complete] at h
  split at h
  · rename_i r bound at_t
    split at h
    · rename_i is_over
      cases h
      exact Change.complete t r (Or.inl ⟨bound, at_t⟩) is_over
    · cases h
  · rename_i r at_t
    split at h
    · rename_i is_over
      cases h
      exact Change.complete t r (Or.inr at_t) is_over
    · cases h
  · cases h

theorem change_of_elapse {g g' : GuardedPool τ} {t : Nat} (h : g.elapse t = some g') :
    Change g (.move (.elapse t)) g' := by
  rw [elapse] at h
  split at h
  · rename_i r bound at_t
    cases h
    exact Change.elapse t r bound at_t
  · cases h

/-- Every step of a guarded pool is one of the changes. -/
theorem change_of_step {g g' : GuardedPool τ} {e : Event τ} (h : g.step e = some g') :
    Change g e g' := by
  cases e with
  | submit task =>
    cases h
    exact Change.submit task
  | release own bound =>
    cases h
    exact Change.release own bound
  | sample =>
    cases h
    exact Change.sample
  | gauge k =>
    obtain ⟨figures, at_k, h⟩ := Option.bind_eq_some_iff.mp h
    obtain ⟨next, is_next, h⟩ := Option.bind_eq_some_iff.mp h
    cases h
    exact Change.gauge k figures next at_k is_next
  | move m =>
    cases m with
    | pool m =>
      obtain ⟨p, hp, rfl⟩ := Option.map_eq_some_iff.mp h
      exact Change.pool m p hp
    | answer s => exact change_of_answer h
    | conclude w panic escape => exact change_of_conclude h
    | launch t start => exact change_of_launch h
    | complete t => exact change_of_complete h
    | elapse t => exact change_of_elapse h

end GuardedPool

end TaskPools
