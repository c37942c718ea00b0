/-
# Where the handles of the workers are

The thread of a worker that was started has a handle, and somebody has to wait for that thread
through it.  Handles change hands: the pool lists the workers in service, a worker that expires sets
its own aside, a submission takes those set aside, and a release takes all of them.  In every
reachable state the handle of a started worker is in exactly one of these places, or it was waited
for, once (`Kept.place`).  Along a run it goes from the pool to one call and from that call nowhere
but to those waited for (`passed_of_run`).
-/
import Mathlib.Logic.Relation
import TaskPools.Proofs.Pool.Drain

namespace TaskPools

variable {τ : Type}

/-- The handles of expired workers that a submission took and holds. -/
def Submission.handles : Submission τ → List Nat
  | reaping _ handles => handles
  | _ => []

/-- The thread of the worker was started. -/
def Worker.hasStarted : Worker τ → Bool
  | unstarted => false
  | _ => true

/-- Where the handle of a worker can be. -/
inductive Keeper where
  /-- The pool lists it among the workers in service. -/
  | service
  /-- The pool has set it aside, as that of an expired worker. -/
  | expired
  /-- Submission `s` took it. -/
  | submission (s : Nat)
  /-- Release `r` took it. -/
  | release (r : Nat)
  /-- The worker was waited for, or let go of. -/
  | joined
  deriving DecidableEq, Repr

/-- The kinds of places, by number. -/
def Keeper.kind : Keeper → Nat
  | service => 0
  | expired => 1
  | submission _ => 2
  | release _ => 3
  | joined => 4

/-- How a handle changes hands.  What a call has taken it gives to nobody else. -/
inductive Keeper.Passes : Keeper → Keeper → Prop where
  | expire : Passes service expired
  | reap (s : Nat) : Passes expired (submission s)
  | take (r : Nat) : Passes service (release r)
  | takeExpired (r : Nat) : Passes expired (release r)
  | joinExpired (s : Nat) : Passes (submission s) joined
  | join (r : Nat) : Passes (release r) joined

namespace Pool

/-- The handles in one place. -/
def handlesAt (p : Pool τ) : Keeper → List Nat
  | .service => p.listed
  | .expired => p.retired
  | .submission s => (p.submissions[s]?).elim [] Submission.handles
  | .release r => (p.releases[r]?).elim [] Release.handles
  | .joined => p.joined

/-- The handles in all places. -/
def handles (p : Pool τ) : List Nat :=
  p.listed ++ p.retired ++ p.submissions.flatMap Submission.handles ++
    p.releases.flatMap Release.handles ++ p.joined

/-- The thread of worker `w` was started. -/
def startedAt (p : Pool τ) (w : Nat) : Bool :=
  (p.workers[w]?).any Worker.hasStarted

/-- Each worker that was started has its handle in one place, and no other handle is anywhere. -/
def Kept (p : Pool τ) : Prop :=
  ∀ w, p.handles.count w = (p.startedAt w).toNat

section

variable {p q : Pool τ} {c : Cause} {w : Nat}

/-! ## Workers that were started -/

/-- A worker that goes to another place stays as started as it was. -/
theorem startedAt_of_set {x y : Worker τ} (at_w : p.workers[w]? = some x)
    (hworkers : q.workers = p.workers.set w y) (same : y.hasStarted = x.hasStarted) (v : Nat) :
    q.startedAt v = p.startedAt v := by
  rw [startedAt, hworkers, getElem?_set_at at_w, startedAt]
  split
  · rename_i hv
    rw [hv, at_w]
    exact same
  · rfl

/-- A new worker adds itself, and the others stay as started as they were. -/
theorem startedAt_of_append {x : Worker τ} (hworkers : q.workers = p.workers ++ [x]) (v : Nat) :
    q.startedAt v = if v = p.workers.length then x.hasStarted else p.startedAt v := by
  rw [startedAt, hworkers, getElem?_append_one, startedAt]
  split <;> rfl

/-- Waking a worker starts no thread. -/
theorem startedAt_of_roused {workers : List (Worker τ)} (roused : Roused p.workers workers)
    (hworkers : q.workers = workers) (v : Nat) : q.startedAt v = p.startedAt v := by
  cases roused with
  | nobody => rw [startedAt, hworkers, startedAt]
  | one w at_w => exact startedAt_of_set at_w hworkers rfl v

/-- Waking all workers starts no thread. -/
theorem startedAt_of_wake (hworkers : q.workers = p.workers.map wake) (v : Nat) :
    q.startedAt v = p.startedAt v := by
  rw [startedAt, hworkers, List.getElem?_map, startedAt]
  rcases p.workers[v]? with _ | x
  · rfl
  · cases x <;> rfl

/-- A worker that is not there yet was not started. -/
theorem startedAt_length (p : Pool τ) : p.startedAt p.workers.length = false := by
  rw [startedAt, List.getElem?_eq_none (Nat.le_refl _)]
  rfl

/-- A worker that is awake was started. -/
theorem hasStarted_of_isAwake {x : Worker τ} (h : x.isAwake = true) : x.hasStarted = true := by
  cases x <;> first | rfl | cases h

/-! ## Handles of submissions -/

/-- A submission that asks for a slot has given its handles away. -/
theorem handles_of_asking {x : Submission τ} {task : τ} (h : x.asking? = some task) :
    x.handles = [] := by
  cases x <;> first | rfl | cases h

/-- Telling a submitter moves no handles. -/
theorem handles_of_told {l m : List (Submission τ)} (told : Told l m) :
    m.flatMap Submission.handles = l.flatMap Submission.handles := by
  cases told with
  | nobody => rfl
  | one s task at_s => exact flatMap_set_same Submission.handles at_s rfl

/-- Waking the submitters moves no handles. -/
theorem handles_of_wake (l : List (Submission τ)) :
    (l.map wakeSubmitter).flatMap Submission.handles = l.flatMap Submission.handles := by
  rw [List.flatMap_map]
  congr 1
  funext x
  cases x <;> rfl

/-- A submission holds the handles that it has still to wait for, if any are left. -/
theorem handles_reaping (task : τ) (rest : List Nat) :
    (if rest = [] then Submission.entering task else .reaping task rest).handles = rest := by
  split
  · rename_i nothing
    exact nothing.symm
  · rfl

/-- A release holds the handles that it has still to wait for, if any are left. -/
theorem handles_joining (run : Option Nat) (rest : List Nat) :
    (if rest = [] then Release.returned else .joining run rest).handles = rest := by
  split
  · rename_i nothing
    exact nothing.symm
  · rfl

/-! ## Every handle is in one place -/

/-- The handles of a worker are counted place by place. -/
theorem count_handles (p : Pool τ) (w : Nat) :
    p.handles.count w = p.listed.count w + p.retired.count w
      + (p.submissions.flatMap Submission.handles).count w
      + (p.releases.flatMap Release.handles).count w + p.joined.count w := by
  simp only [handles, List.count_append]

/-- No worker is started, and all handles stay where they are. -/
theorem Kept.same (h : p.Kept) (started : ∀ w, q.startedAt w = p.startedAt w)
    (hlisted : q.listed = p.listed) (hretired : q.retired = p.retired)
    (hsubmissions : q.submissions.flatMap Submission.handles
      = p.submissions.flatMap Submission.handles)
    (hreleases : q.releases = p.releases) (hjoined : q.joined = p.joined) : q.Kept := by
  intro w
  rw [started, ← h w, handles, handles, hlisted, hretired, hsubmissions, hreleases, hjoined]

/-- A submission that holds no handle goes on to a place where it holds none. -/
theorem Kept.set (h : p.Kept) {l : List (Submission τ)} {s : Nat} {x y : Submission τ}
    (hl : l.flatMap Submission.handles = p.submissions.flatMap Submission.handles)
    (at_s : l[s]? = some x) (hx : x.handles = []) (hy : y.handles = [])
    (started : ∀ w, q.startedAt w = p.startedAt w) (hlisted : q.listed = p.listed)
    (hretired : q.retired = p.retired) (hsubmissions : q.submissions = l.set s y)
    (hreleases : q.releases = p.releases) (hjoined : q.joined = p.joined) : q.Kept := by
  refine h.same started hlisted hretired ?_ hreleases hjoined
  rw [hsubmissions, ← hl]
  exact flatMap_set_same Submission.handles at_s (hy.trans hx.symm)

/-- A submission that comes without handles misplaces none. -/
theorem Kept.append (h : p.Kept) {x : Submission τ} (hx : x.handles = [])
    (started : ∀ w, q.startedAt w = p.startedAt w) (hlisted : q.listed = p.listed)
    (hretired : q.retired = p.retired) (hsubmissions : q.submissions = p.submissions ++ [x])
    (hreleases : q.releases = p.releases) (hjoined : q.joined = p.joined) : q.Kept := by
  refine h.same started hlisted hretired ?_ hreleases hjoined
  rw [hsubmissions, List.flatMap_append, List.flatMap_singleton, hx, List.append_nil]

/-- No step loses a handle, copies one, or makes one of a worker that was not started. -/
theorem Kept.change (h : p.Kept) (hc : Change p c q) : q.Kept := by
  cases hc with
  | refuseEmpty | arrive => exact h.append rfl (fun _ => rfl) rfl rfl rfl rfl rfl
  | arriveReaping task =>
    intro w
    have hw := h w
    rw [count_handles] at hw ⊢
    simp only [List.flatMap_append, List.flatMap_singleton, Submission.handles, List.count_append,
      List.count_nil]
    simp only [startedAt] at hw ⊢
    omega
  | reapNone s task at_s | refuseFull s task at_s | block s task at_s | sleepOn s task told at_s
  | stirSubmitter s task at_s => exact h.set rfl at_s rfl rfl (fun _ => rfl) rfl rfl rfl rfl rfl
  | refuseClosed s x task at_s asks | accept s x task at_s asks =>
    exact h.set rfl at_s (handles_of_asking asks) rfl (fun _ => rfl) rfl rfl rfl rfl rfl
  | reap s task v rest at_s =>
    intro w
    have hw := h w
    have moved := count_flatMap_set Submission.handles w at_s
      (if rest = [] then .entering task else .reaping task rest)
    rw [handles_reaping] at moved
    rw [count_handles] at hw ⊢
    simp only [Submission.handles, List.count_cons, List.count_append, List.count_nil, startedAt]
      at moved hw ⊢
    omega
  | acceptStarting s x task at_s asks =>
    intro w
    have hw := h w
    have kept := flatMap_set_same Submission.handles at_s (b := .announcing)
      (handles_of_asking asks).symm
    rw [count_handles] at hw ⊢
    rw [startedAt_of_append rfl, kept, List.count_append, List.count_singleton]
    by_cases new : w = p.workers.length
    · rw [new, startedAt_length] at hw
      rw [if_pos new, if_pos (beq_iff_eq.mpr new.symm), new]
      simp only [Worker.hasStarted, Bool.toNat_true, Bool.toNat_false] at hw ⊢
      omega
    · rw [if_neg new, if_neg fun same => new (beq_iff_eq.mp same).symm]
      omega
  | failStart s x task submissions at_s asks is_open free short told =>
    -- no handle has the number of the new worker, so that the one struck out is the one just added
    have fresh : p.workers.length ∉ p.listed := by
      have none_there := h p.workers.length
      rw [startedAt_length, count_handles] at none_there
      exact List.count_eq_zero.mp (by simp only [Bool.toNat_false] at none_there; omega)
    have awake := told.getElem? at_s (isParked_of_asking asks)
    refine h.set (handles_of_told told) awake (handles_of_asking asks) rfl (fun w => ?_) ?_ rfl rfl
      rfl rfl
    · rw [startedAt_of_append rfl]
      split
      · rename_i new
        rw [new, startedAt_length]
        rfl
      · rfl
    · show (p.listed ++ [p.workers.length]).erase p.workers.length = p.listed
      rw [List.erase_append_right _ fresh, List.erase_cons_head, List.append_nil]
  | announce s workers at_s roused =>
    exact h.set rfl at_s rfl rfl (startedAt_of_roused roused rfl) rfl rfl rfl rfl rfl
  | stirWorker v at_v | finish v task escape at_v =>
    exact h.same (startedAt_of_set at_v rfl rfl) rfl rfl rfl rfl rfl
  | take v x task rest at_v awake | leave v x at_v awake | park v x at_v awake =>
    exact h.same (startedAt_of_set at_v rfl (hasStarted_of_isAwake awake).symm) rfl rfl rfl rfl rfl
  | expire v at_v =>
    intro w
    have hw := h w
    have started := startedAt_of_set (q := { p with workers := p.workers.set v .exited }) at_v rfl
      rfl w
    rw [startedAt] at started
    rw [startedAt, started, ← hw, count_handles, count_handles]
    by_cases listed : v ∈ p.listed
    · have positive := List.count_pos_iff.mpr listed
      simp only [List.contains_eq_mem, listed, decide_true, if_true, List.count_append,
        List.count_singleton, List.count_erase]
      split
      · rename_i same
        rw [beq_iff_eq.mp same] at positive
        omega
      · omega
    · simp only [List.contains_eq_mem, listed, decide_false, List.erase_of_not_mem listed]
      rfl
  | giveBack v task submissions at_v told =>
    exact h.same (startedAt_of_set at_v rfl rfl) rfl rfl (handles_of_told told) rfl rfl
  | callRelease run =>
    intro w
    rw [handles, List.flatMap_append, List.flatMap_singleton, Release.handles, List.append_nil]
    exact h w
  | close r run at_r =>
    intro w
    have hw := h w
    have moved := count_flatMap_set Release.handles w at_r (.closed run (p.listed ++ p.retired))
    rw [count_handles] at hw ⊢
    simp only [Release.handles, List.count_append, List.count_nil, startedAt] at moved hw ⊢
    omega
  | alertWorkers r run handles at_r =>
    intro w
    have kept := flatMap_set_same Release.handles at_r (b := .alerting run handles) rfl
    rw [startedAt_of_wake rfl, ← h w, count_handles, count_handles]
    simp only [kept]
  | alertSubmitters r run handles at_r =>
    intro w
    have kept := flatMap_set_same Release.handles at_r (handles_joining run handles)
    refine Eq.trans ?_ (h w)
    rw [count_handles, count_handles]
    simp only [kept, handles_of_wake]
  | join r run v rest at_r =>
    intro w
    have hw := h w
    have moved := count_flatMap_set Release.handles w at_r
      (if rest = [] then .returned else .joining run rest)
    rw [handles_joining] at moved
    rw [count_handles] at hw ⊢
    simp only [Release.handles, List.count_cons, List.count_append, List.count_nil, startedAt]
      at moved hw ⊢
    omega

/-- Each worker of a pool that was started has its handle in one place. -/
theorem Arises.kept (h : p.Arises) : p.Kept := by
  induction h with
  | create hc =>
    obtain ⟨-, -, rfl⟩ := eq_of_create hc
    exact fun _ => rfl
  | change _ hc ih => exact ih.change hc

/-! ## One place only -/

theorem mem_handlesAt_submission {s : Nat} :
    w ∈ p.handlesAt (.submission s) ↔ ∃ x, p.submissions[s]? = some x ∧ w ∈ x.handles := by
  rw [handlesAt]
  cases p.submissions[s]? <;> simp

theorem mem_handlesAt_release {r : Nat} :
    w ∈ p.handlesAt (.release r) ↔ ∃ x, p.releases[r]? = some x ∧ w ∈ x.handles := by
  rw [handlesAt]
  cases p.releases[r]? <;> simp

/-- What one keeper has is among all handles. -/
theorem handlesAt_sublist (p : Pool τ) (k : Keeper) : (p.handlesAt k).Sublist p.handles := by
  have held {α : Type} (g : α → List Nat) (l : List α) (i : Nat) :
      ((l[i]?).elim [] g).Sublist (l.flatMap g) := by
    cases at_i : l[i]? with
    | none => exact List.nil_sublist _
    | some x =>
      rw [List.flatMap_def]
      exact List.sublist_flatten_of_mem (List.mem_map_of_mem (List.mem_of_getElem? at_i))
  rw [handles]
  cases k with
  | service =>
    simp only [List.append_assoc]
    exact List.sublist_append_left p.listed _
  | expired =>
    simp only [List.append_assoc]
    exact (List.sublist_append_left p.retired _).trans (List.sublist_append_right p.listed _)
  | submission s =>
    refine (held Submission.handles p.submissions s).trans ?_
    simp only [List.append_assoc]
    exact (List.sublist_append_left _ _).trans
      ((List.sublist_append_right p.retired _).trans (List.sublist_append_right p.listed _))
  | release r =>
    refine (held Release.handles p.releases r).trans ?_
    exact (List.sublist_append_right _ _).trans (List.sublist_append_left _ p.joined)
  | joined => exact List.sublist_append_right _ p.joined

/-- A handle is somewhere if and only if it is in some place. -/
theorem mem_handles_iff : w ∈ p.handles ↔ ∃ k, w ∈ p.handlesAt k := by
  simp only [handles, List.mem_append, List.mem_flatMap]
  constructor
  · rintro ((((h | h) | ⟨x, hx, h⟩) | ⟨x, hx, h⟩) | h)
    · exact ⟨.service, h⟩
    · exact ⟨.expired, h⟩
    · obtain ⟨s, at_s⟩ := List.getElem?_of_mem hx
      exact ⟨.submission s, mem_handlesAt_submission.mpr ⟨x, at_s, h⟩⟩
    · obtain ⟨r, at_r⟩ := List.getElem?_of_mem hx
      exact ⟨.release r, mem_handlesAt_release.mpr ⟨x, at_r, h⟩⟩
    · exact ⟨.joined, h⟩
  · rintro ⟨k, h⟩
    have h := (handlesAt_sublist p k).subset h
    simpa only [handles, List.mem_append, List.mem_flatMap] using h

/-- A handle that is there once is in one place only. -/
theorem eq_of_mem_handlesAt (once : p.handles.count w ≤ 1) {k k' : Keeper}
    (h : w ∈ p.handlesAt k) (h' : w ∈ p.handlesAt k') : k = k' := by
  let kinds : List (List Nat) := [p.listed, p.retired, p.submissions.flatMap Submission.handles,
    p.releases.flatMap Release.handles, p.joined]
  have all : p.handles = kinds.flatMap id := by simp [handles, kinds]
  have among {k : Keeper} (h : w ∈ p.handlesAt k) : ∃ l, kinds[k.kind]? = some l ∧ w ∈ id l := by
    cases k with
    | service | expired | joined => exact ⟨_, rfl, h⟩
    | submission s =>
      obtain ⟨x, at_s, hx⟩ := mem_handlesAt_submission.mp h
      exact ⟨_, rfl, List.mem_flatMap.mpr ⟨x, List.mem_of_getElem? at_s, hx⟩⟩
    | release r =>
      obtain ⟨x, at_r, hx⟩ := mem_handlesAt_release.mp h
      exact ⟨_, rfl, List.mem_flatMap.mpr ⟨x, List.mem_of_getElem? at_r, hx⟩⟩
  obtain ⟨l, at_kind, hl⟩ := among h
  obtain ⟨l', at_kind', hl'⟩ := among h'
  -- the two places are of one kind, and of two calls of one kind only one has the handle
  have same : k.kind = k'.kind := eq_of_mem_flatMap id at_kind at_kind' hl hl' (all ▸ once)
  rw [count_handles] at once
  cases k with
  | submission s =>
    cases k' with
    | submission s' =>
      obtain ⟨x, at_s, hx⟩ := mem_handlesAt_submission.mp h
      obtain ⟨y, at_s', hy⟩ := mem_handlesAt_submission.mp h'
      rw [eq_of_mem_flatMap Submission.handles at_s at_s' hx hy (by omega)]
    | service | expired | release | joined => cases same
  | release r =>
    cases k' with
    | release r' =>
      obtain ⟨x, at_r, hx⟩ := mem_handlesAt_release.mp h
      obtain ⟨y, at_r', hy⟩ := mem_handlesAt_release.mp h'
      rw [eq_of_mem_flatMap Release.handles at_r at_r' hx hy (by omega)]
    | service | expired | submission | joined => cases same
  | service | expired | joined => cases k' <;> first | rfl | cases same

/-- In a reachable state the handle of a started worker is in one place, once. -/
theorem Kept.place (h : p.Kept) (started : p.startedAt w = true) :
    ∃ k, (p.handlesAt k).count w = 1 ∧ ∀ k', w ∈ p.handlesAt k' → k' = k := by
  have once : p.handles.count w = 1 := by
    rw [h w, started]
    rfl
  obtain ⟨k, hk⟩ := mem_handles_iff.mp (List.count_pos_iff.mp (once ▸ Nat.one_pos))
  have least := List.count_pos_iff.mpr hk
  have most := (handlesAt_sublist p k).count_le w
  exact ⟨k, by omega, fun k' hk' => eq_of_mem_handlesAt (Nat.le_of_eq once) hk' hk⟩

/-- No handle is anywhere but those of started workers. -/
theorem Kept.started (h : p.Kept) {k : Keeper} (hk : w ∈ p.handlesAt k) :
    p.startedAt w = true := by
  have somewhere := List.count_pos_iff.mpr (mem_handles_iff.mpr ⟨k, hk⟩)
  rw [h w] at somewhere
  cases started : p.startedAt w with
  | true => rfl
  | false =>
    rw [started] at somewhere
    cases somewhere

/-! ## From hand to hand -/

/-- What submission `s` holds it still holds after a change, or it was joined. -/
theorem Change.held_by_submission (hc : Change p c q) {s : Nat} {x : Submission τ}
    (at_s : p.submissions[s]? = some x) (held : w ∈ x.handles) :
    w ∈ q.handlesAt (.submission s) ∨ w ∈ q.joined := by
  have still (same : q.submissions[s]? = some x) :
      w ∈ q.handlesAt (.submission s) ∨ w ∈ q.joined :=
    Or.inl (mem_handlesAt_submission.mpr ⟨x, same, held⟩)
  have other {s' : Nat} {y z : Submission τ} {l : List (Submission τ)}
      (at_s' : l[s']? = some y) (hy : y.handles = []) (at_s : l[s]? = some x) :
      (l.set s' z)[s]? = some x := by
    refine getElem?_set_of_ne at_s' at_s ?_
    rintro rfl
    rw [hy] at held
    cases held
  have asleep : x.isParked = false := by cases x <;> first | rfl | cases held
  cases hc with
  | refuseEmpty | arrive | arriveReaping =>
    exact still (List.getElem?_append_left (List.getElem?_eq_some_iff.mp at_s).1 ▸ at_s)
  | reapNone s' task at_s' | refuseFull s' task at_s' | block s' task at_s'
  | sleepOn s' task told at_s' | stirSubmitter s' task at_s' | announce s' workers at_s' =>
    exact still (other at_s' rfl at_s)
  | refuseClosed s' y task at_s' asks | accept s' y task at_s' asks
  | acceptStarting s' y task at_s' asks =>
    exact still (other at_s' (handles_of_asking asks) at_s)
  | failStart s' y task submissions at_s' asks is_open free short told =>
    have awake := told.getElem? at_s' (isParked_of_asking asks)
    exact still (other awake (handles_of_asking asks) (told.getElem? at_s asleep))
  | giveBack v task submissions at_v told => exact still (told.getElem? at_s asleep)
  | alertSubmitters =>
    refine still ?_
    rw [List.getElem?_map, at_s]
    cases x <;> first | rfl | cases held
  | reap s' task v rest at_s' =>
    by_cases same : s = s'
    · subst same
      cases at_s.symm.trans at_s'
      rcases List.mem_cons.mp held with rfl | later
      · exact Or.inr (List.mem_append_right _ (List.mem_singleton_self w))
      · have now := List.getElem?_set_self (List.getElem?_eq_some_iff.mp at_s).1
          (a := if rest = [] then .entering task else .reaping task rest)
        have held : w ∈ (if rest = [] then Submission.entering task
            else .reaping task rest).handles := (handles_reaping task rest).symm ▸ later
        exact Or.inl (mem_handlesAt_submission.mpr ⟨_, now, held⟩)
    · refine still ?_
      rw [List.getElem?_set_ne (Ne.symm same)]
      exact at_s
  | stirWorker | take | leave | expire | park | finish | callRelease | close | alertWorkers
  | join => exact still at_s

/-- What release `r` holds it still holds after a change, or it was joined. -/
theorem Change.held_by_release (hc : Change p c q) {r : Nat} {x : Release}
    (at_r : p.releases[r]? = some x) (held : w ∈ x.handles) :
    w ∈ q.handlesAt (.release r) ∨ w ∈ q.joined := by
  have still {y : Release} (now : q.releases[r]? = some y) (hy : w ∈ y.handles) :
      w ∈ q.handlesAt (.release r) ∨ w ∈ q.joined :=
    Or.inl (mem_handlesAt_release.mpr ⟨y, now, hy⟩)
  -- release `r'` goes on; if it is `r`, it holds on to the handle
  have goes_on {r' : Nat} {y z : Release} (hreleases : q.releases = p.releases.set r' z)
      (at_r' : p.releases[r']? = some y) (keeps : w ∈ y.handles → w ∈ z.handles ∨ w ∈ q.joined) :
      w ∈ q.handlesAt (.release r) ∨ w ∈ q.joined := by
    by_cases same : r = r'
    · subst same
      cases at_r.symm.trans at_r'
      refine (keeps held).imp_left fun kept => mem_handlesAt_release.mpr ⟨z, ?_, kept⟩
      rw [hreleases]
      exact List.getElem?_set_self (List.getElem?_eq_some_iff.mp at_r).1
    · refine still (y := x) ?_ held
      rw [hreleases, List.getElem?_set_ne (Ne.symm same)]
      exact at_r
  cases hc with
  | callRelease =>
    exact still (List.getElem?_append_left (List.getElem?_eq_some_iff.mp at_r).1 ▸ at_r) held
  | close r' own at_r' => exact goes_on rfl at_r' nofun
  | alertWorkers r' own handles at_r' => exact goes_on rfl at_r' Or.inl
  | alertSubmitters r' own handles at_r' =>
    refine goes_on rfl at_r' fun held => Or.inl ?_
    rw [handles_joining]
    exact held
  | join r' own v rest at_r' =>
    refine goes_on rfl at_r' fun held => ?_
    rcases List.mem_cons.mp held with rfl | later
    · exact Or.inr (List.mem_append_right _ (List.mem_singleton_self w))
    · refine Or.inl ?_
      rw [handles_joining]
      exact later
  | refuseEmpty | arrive | arriveReaping | reapNone | reap | refuseClosed | refuseFull | block
  | sleepOn | accept | acceptStarting | failStart | stirSubmitter | announce | stirWorker | take
  | leave | expire | park | finish | giveBack => exact still at_r held

/-- The handle of a worker in service stays, is set aside when that leaves, or is taken by a
release. -/
theorem Change.listed_or_passed (hc : Change p c q) (listed : w ∈ p.listed) :
    w ∈ q.listed ∨ w ∈ q.retired ∨ ∃ r, w ∈ q.handlesAt (.release r) := by
  cases hc with
  | acceptStarting => exact Or.inl (List.mem_append_left _ listed)
  | failStart =>
    refine Or.inl ?_
    -- one handle was added and one of the same number struck out
    by_cases new : w = p.workers.length
    · rw [new] at listed ⊢
      rw [List.erase_append_left _ listed]
      exact List.mem_append_right _ (List.mem_singleton_self _)
    · exact (List.mem_erase_of_ne new).mpr (List.mem_append_left _ listed)
  | expire v =>
    by_cases same : w = v
    · subst same
      refine Or.inr (Or.inl ?_)
      simp only [List.contains_eq_mem, listed, decide_true, if_true]
      exact List.mem_append_right _ (List.mem_singleton_self w)
    · exact Or.inl ((List.mem_erase_of_ne same).mpr listed)
  | close r run at_r =>
    have taken := List.getElem?_set_self (List.getElem?_eq_some_iff.mp at_r).1
      (a := Release.closed run (p.listed ++ p.retired))
    refine Or.inr (Or.inr ⟨r, mem_handlesAt_release.mpr ⟨_, taken, ?_⟩⟩)
    exact List.mem_append_left _ listed
  | _ => exact Or.inl listed

/-- A handle that was set aside stays so until a submission or a release takes it. -/
theorem Change.retired_or_passed (hc : Change p c q) (retired : w ∈ p.retired) :
    w ∈ q.retired ∨ (∃ s, w ∈ q.handlesAt (.submission s)) ∨
      ∃ r, w ∈ q.handlesAt (.release r) := by
  cases hc with
  | arriveReaping task =>
    refine Or.inr (Or.inl ⟨p.submissions.length, mem_handlesAt_submission.mpr
      ⟨.reaping task p.retired, ?_, retired⟩⟩)
    exact List.getElem?_concat_length
  | expire v =>
    refine Or.inl ?_
    show w ∈ if p.listed.contains v then p.retired ++ [v] else p.retired
    split
    · exact List.mem_append_left _ retired
    · exact retired
  | close r run at_r =>
    have taken := List.getElem?_set_self (List.getElem?_eq_some_iff.mp at_r).1
      (a := Release.closed run (p.listed ++ p.retired))
    refine Or.inr (Or.inr ⟨r, mem_handlesAt_release.mpr ⟨_, taken, ?_⟩⟩)
    exact List.mem_append_right _ retired
  | _ => exact Or.inl retired

/-- A handle that was joined stays so. -/
theorem Change.still_joined (hc : Change p c q) (joined : w ∈ p.joined) : w ∈ q.joined := by
  cases hc with
  | reap | join => exact List.mem_append_left _ joined
  | _ => exact joined

/-- A handle stays where it is, or it is passed on. -/
theorem Change.passed (hc : Change p c q) {k : Keeper} (h : w ∈ p.handlesAt k) :
    ∃ k', w ∈ q.handlesAt k' ∧ (k' = k ∨ Keeper.Passes k k') := by
  cases k with
  | service =>
    rcases hc.listed_or_passed h with still | expired | ⟨r, taken⟩
    · exact ⟨.service, still, Or.inl rfl⟩
    · exact ⟨.expired, expired, Or.inr .expire⟩
    · exact ⟨.release r, taken, Or.inr (.take r)⟩
  | expired =>
    rcases hc.retired_or_passed h with still | ⟨s, taken⟩ | ⟨r, taken⟩
    · exact ⟨.expired, still, Or.inl rfl⟩
    · exact ⟨.submission s, taken, Or.inr (.reap s)⟩
    · exact ⟨.release r, taken, Or.inr (.takeExpired r)⟩
  | submission s =>
    obtain ⟨x, at_s, held⟩ := mem_handlesAt_submission.mp h
    rcases hc.held_by_submission at_s held with still | joined
    · exact ⟨.submission s, still, Or.inl rfl⟩
    · exact ⟨.joined, joined, Or.inr (.joinExpired s)⟩
  | release r =>
    obtain ⟨x, at_r, held⟩ := mem_handlesAt_release.mp h
    rcases hc.held_by_release at_r held with still | joined
    · exact ⟨.release r, still, Or.inl rfl⟩
    · exact ⟨.joined, joined, Or.inr (.join r)⟩
  | joined => exact ⟨.joined, hc.still_joined h, Or.inl rfl⟩

/-- In the course of a run a handle is passed on from hand to hand. -/
theorem passed_of_run {es : List (Event τ)} (hrun : p.run es = some q) {k : Keeper}
    (h : w ∈ p.handlesAt k) :
    ∃ k', w ∈ q.handlesAt k' ∧ Relation.ReflTransGen Keeper.Passes k k' := by
  have change {m n : Pool τ} {c : Cause} (hc : Change m c n)
      (before : ∃ k', w ∈ m.handlesAt k' ∧ Relation.ReflTransGen Keeper.Passes k k') :
      ∃ k', w ∈ n.handlesAt k' ∧ Relation.ReflTransGen Keeper.Passes k k' := by
    obtain ⟨k₁, at_k₁, so_far⟩ := before
    obtain ⟨k₂, at_k₂, rfl | passes⟩ := hc.passed at_k₁
    · exact ⟨k₂, at_k₂, so_far⟩
    · exact ⟨k₂, at_k₂, so_far.tail passes⟩
  refine run_preserves
    (P := fun m => ∃ k', w ∈ m.handlesAt k' ∧ Relation.ReflTransGen Keeper.Passes k k')
    (fun before hstep => ?_) ⟨k, h, .refl⟩ hrun
  rcases change_of_step hstep with ⟨c, hc⟩ | ⟨n, hn, hc⟩
  · exact change hc before
  · exact change hc (change hn before)

end

end Pool

end TaskPools
