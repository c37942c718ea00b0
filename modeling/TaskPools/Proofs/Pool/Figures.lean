/-
# What the figures of a pool say

A pool lists the workers in service, and they are live ones (`ListedLive`), so that those in service
and those that there is still room for make up the capacity.  As many tasks were accepted as there
are submissions that were (`AcceptancesCounted`), and no fewer than have ended.
-/
import Mathlib.Data.List.Nodup
import Mathlib.Data.List.Perm.Subperm
import TaskPools.Proofs.Pool.Joining

namespace TaskPools

variable {τ : Type}

namespace Pool

/-- What a pool was created with: its name, its capacity, its expiry, and whether it refuses. -/
def settings (p : Pool τ) : String × Nat × Int64 × Bool :=
  (p.name, p.capacity, p.expiry, p.nonBlocking)

/-- Every worker in service is live. -/
def ListedLive (p : Pool τ) : Prop :=
  ∀ w ∈ p.listed, p.liveAt w = true

/-- As many tasks were accepted as there are submissions that were accepted. -/
def AcceptancesCounted (p : Pool τ) : Prop :=
  p.accepted.length = p.submissions.countP Submission.isAccepted

section

variable {p q : Pool τ} {c : Cause} {s w : Nat} {x y : Submission τ}

/-! ## Workers in service -/

/-- No handle is listed twice. -/
theorem Arises.nodup_listed (h : p.Arises) : p.listed.Nodup := by
  have once : p.handles.Nodup := by
    rw [List.nodup_iff_count_le_one]
    intro w
    rw [h.kept w]
    exact Bool.toNat_le _
  exact once.sublist (handlesAt_sublist p .service)

/-- Workers in service stay live where one of them goes to another live place. -/
theorem ListedLive.set (h : p.ListedLive) {x y : Worker τ} (at_w : p.workers[w]? = some x)
    (alive : y.isLive = true) (hworkers : q.workers = p.workers.set w y)
    (hlisted : q.listed = p.listed) : q.ListedLive := by
  intro v listed
  rw [hlisted] at listed
  rw [liveAt_of_set at_w hworkers]
  split
  · exact alive
  · exact h v listed

/-- The next number of a worker is on no list yet. -/
theorem ListedLive.unlisted (h : p.ListedLive) : p.workers.length ∉ p.listed := by
  intro listed
  have live := h _ listed
  rw [liveAt, List.getElem?_eq_none (Nat.le_refl _)] at live
  cases live

/-- A handle that is added for a worker that does not start is struck out again. -/
theorem ListedLive.erase_unstarted (h : p.ListedLive) :
    (p.listed ++ [p.workers.length]).erase p.workers.length = p.listed := by
  rw [List.erase_append_right _ h.unlisted, List.erase_cons_head, List.append_nil]

/-- In every step the workers in service stay live. -/
theorem ListedLive.change (h : p.ListedLive) (arises : p.Arises) (hc : Change p c q) :
    q.ListedLive := by
  cases hc with
  | acceptStarting =>
    intro w listed
    rw [liveAt_of_append rfl]
    split
    · rfl
    · rename_i other
      exact h w ((List.mem_append.mp listed).resolve_right (other ∘ List.mem_singleton.mp))
  | failStart =>
    intro w listed
    rw [h.erase_unstarted] at listed
    rw [liveAt_of_append rfl, if_neg]
    · exact h w listed
    · rintro rfl
      exact h.unlisted listed
  | announce s workers at_s roused =>
    cases roused with
    | nobody => exact h
    | one w at_w => exact h.set at_w rfl rfl rfl
  | stirWorker w at_w | finish w task escape at_w | giveBack w task submissions at_w =>
    exact h.set at_w rfl rfl rfl
  | take w x task rest at_w | park w x at_w => exact h.set at_w rfl rfl rfl
  | leave w x at_w awake queue_eq is_closed =>
    intro v listed
    rw [(arises.sealed.emptied is_closed).1] at listed
    cases listed
  | expire w at_w =>
    intro v listed
    have other : v ≠ w := by
      rintro rfl
      exact arises.nodup_listed.not_mem_erase listed
    rw [liveAt_of_set at_w rfl, if_neg other]
    exact h v (List.mem_of_mem_erase listed)
  | close =>
    intro w listed
    cases listed
  | alertWorkers =>
    intro w listed
    have live := h w listed
    rw [liveAt] at live ⊢
    rw [List.getElem?_map]
    cases at_w : p.workers[w]? with
    | none =>
      rw [at_w] at live
      cases live
    | some x =>
      rw [at_w] at live
      cases x <;> first | rfl | cases live
  | refuseEmpty | arrive | arriveReaping | reapNone | reap | refuseClosed | refuseFull | block
  | sleepOn | accept | stirSubmitter | callRelease | alertSubmitters | join => exact h

/-- The workers in service of a pool are live. -/
theorem Arises.listedLive (h : p.Arises) : p.ListedLive := by
  induction h with
  | create hc =>
    obtain ⟨-, -, rfl⟩ := eq_of_create hc
    exact nofun
  | change arises hc ih => exact ih.change arises hc

/-- The workers in service are some of the live ones. -/
theorem Arises.running_le_live (h : p.Arises) : p.running ≤ p.live := by
  have among : p.listed ⊆ (List.range p.workers.length).filter p.liveAt := by
    intro w listed
    have live := h.listedLive w listed
    refine List.mem_filter.mpr ⟨List.mem_range.mpr ?_, live⟩
    by_contra beyond
    rw [liveAt, List.getElem?_eq_none (Nat.le_of_not_lt beyond)] at live
    cases live
  have hle := (List.Nodup.subperm h.nodup_listed among).length_le
  rw [← List.countP_eq_length_filter] at hle
  exact Nat.le_trans hle (Nat.le_of_eq (countP_range_getElem? Worker.isLive p.workers))

/-- No step changes the settings of a pool. -/
theorem Change.settings_eq (hc : Change p c q) : q.settings = p.settings := by
  cases hc <;> rfl

/-- A pool keeps what it was created with. -/
theorem settings_of_step {e : Event τ} (hstep : p.step e = some q) : q.settings = p.settings := by
  rcases change_of_step hstep with ⟨c, hc⟩ | ⟨m, hm, hq⟩
  · exact hc.settings_eq
  · exact hq.settings_eq.trans hm.settings_eq

theorem capacity_of_step {e : Event τ} (hstep : p.step e = some q) : q.capacity = p.capacity :=
  congrArg (fun settings => settings.2.1) (settings_of_step hstep)

/-- The workers in service and those that there is room for make up the capacity. -/
theorem Arises.running_add_free (h : p.Arises) : p.running + p.free = p.capacity := by
  have hle := Nat.le_trans h.running_le_live h.staffed.live_le
  rw [free]
  omega

/-! ## Accepted submissions -/

/-- The count of acceptances stays where a submission goes to a place that is as accepted. -/
theorem AcceptancesCounted.set (h : p.AcceptancesCounted) {l : List (Submission τ)}
    (hl : l.countP Submission.isAccepted = p.submissions.countP Submission.isAccepted)
    (at_s : l[s]? = some x) (hsubmissions : q.submissions = l.set s y)
    (same : y.isAccepted = x.isAccepted) (haccepted : q.accepted = p.accepted) :
    q.AcceptancesCounted := by
  have hset := countP_set_add Submission.isAccepted at_s y
  rw [same, hl] at hset
  rw [AcceptancesCounted, haccepted, hsubmissions, h]
  exact (Nat.add_right_cancel hset).symm

/-- A submission that begins is not accepted yet. -/
theorem AcceptancesCounted.append (h : p.AcceptancesCounted) (refused : x.isAccepted = false)
    (hsubmissions : q.submissions = p.submissions ++ [x]) (haccepted : q.accepted = p.accepted) :
    q.AcceptancesCounted := by
  rw [AcceptancesCounted, haccepted, hsubmissions, List.countP_append, List.countP_singleton,
    refused, h]
  rfl

/-- A submission that is accepted adds one to both counts. -/
theorem AcceptancesCounted.accept (h : p.AcceptancesCounted) {task : τ}
    (at_s : p.submissions[s]? = some x) (asks : x.asking? = some task)
    (hsubmissions : q.submissions = p.submissions.set s .announcing)
    (hjournal : q.journal = p.journal ++ [.accepted task]) : q.AcceptancesCounted := by
  have hset := countP_set_add Submission.isAccepted at_s .announcing
  rw [(task?_of_asking asks).2] at hset
  rw [AcceptancesCounted] at h ⊢
  rw [accepted_append hjournal, hsubmissions, List.length_append, h]
  exact hset.symm

/-- Telling a submitter accepts nothing. -/
theorem countP_isAccepted_of_told {l m : List (Submission τ)} (told : Told l m) :
    m.countP Submission.isAccepted = l.countP Submission.isAccepted :=
  told.countP_eq fun _ => rfl

/-- In every step as many tasks are accepted as submissions. -/
theorem AcceptancesCounted.change (h : p.AcceptancesCounted) (hc : Change p c q) :
    q.AcceptancesCounted := by
  cases hc with
  | refuseEmpty | arrive | arriveReaping => exact h.append rfl rfl rfl
  | accept s x task at_s asks | acceptStarting s x task at_s asks =>
    exact h.accept at_s asks rfl rfl
  | reapNone s task at_s | refuseFull s task at_s | block s task at_s | sleepOn s task told at_s
  | stirSubmitter s task at_s | announce s workers at_s => exact h.set rfl at_s rfl rfl rfl
  | reap s task w rest at_s =>
    refine h.set rfl at_s rfl ?_ rfl
    split <;> rfl
  | refuseClosed s x task at_s asks =>
    exact h.set rfl at_s rfl (task?_of_asking asks).2.symm rfl
  | failStart s x task submissions at_s asks is_open free short told =>
    have awake := told.getElem? at_s (isParked_of_asking asks)
    exact h.set (countP_isAccepted_of_told told) awake rfl (task?_of_asking asks).2.symm
      (accepted_of_other rfl rfl)
  | giveBack w task submissions at_w told =>
    exact Eq.trans h (countP_isAccepted_of_told told).symm
  | alertSubmitters =>
    exact Eq.trans h (countP_map_wakeSubmitter _ fun _ => rfl).symm
  | take | expire | finish => exact (congrArg List.length (accepted_of_other rfl rfl)).trans h
  | join r own w rest =>
    refine Eq.trans (congrArg List.length ?_) h
    by_cases last : rest = []
    · exact accepted_of_other (if_pos last) rfl
    · simp only [accepted, if_neg last]
  | stirWorker | leave | park | callRelease | close | alertWorkers => exact h

/-- As many tasks were accepted as there are submissions that were accepted. -/
theorem Arises.acceptancesCounted (h : p.Arises) : p.AcceptancesCounted := by
  induction h with
  | create hc =>
    obtain ⟨-, -, rfl⟩ := eq_of_create hc
    rfl
  | change _ hc ih => exact ih.change hc

/-- No more tasks have ended than were accepted. -/
theorem Arises.ended_le_accepted (h : p.Arises) : p.ended.length ≤ p.accepted.length := by
  have hcount := h.accepted_count fun _ => true
  simp only [List.countP_true] at hcount
  omega

end

end Pool

end TaskPools
