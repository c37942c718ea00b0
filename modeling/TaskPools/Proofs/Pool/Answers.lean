/-
# What a pool answers

A submission that has returned stays returned, with the same answer.  A fault among the answers has
a reason: in particular a submission is told that the pool is closed only if it is.  And a pool is
closed only by a release.
-/
import TaskPools.Proofs.Pool.Settlement

namespace TaskPools

variable {τ : Type}

/-- Telling a submitter adds no submission. -/
theorem Told.length_eq {l m : List (Submission τ)} (h : Told l m) : m.length = l.length := by
  cases h with
  | nobody => rfl
  | one => exact List.length_set

namespace Pool

section

variable {p q : Pool τ} {c : Cause}

/-! ## Lengths -/

/-- A pool makes no submissions of itself. -/
theorem Change.length_submissions (hc : Change p .move q) :
    q.submissions.length = p.submissions.length := by
  cases hc with
  | failStart s x task submissions at_s asks is_open free short told =>
    exact List.length_set.trans told.length_eq
  | giveBack w task submissions at_w told => exact told.length_eq
  | alertSubmitters => exact List.length_map _
  | reapNone | reap | refuseClosed | refuseFull | block | sleepOn | accept | acceptStarting
  | stirSubmitter | announce => exact List.length_set
  | stirWorker | take | leave | expire | park | finish | close | alertWorkers | join => rfl

/-- A pool makes no releases of itself. -/
theorem Change.length_releases (hc : Change p .move q) :
    q.releases.length = p.releases.length := by
  cases hc with
  | close | alertWorkers | alertSubmitters | join => exact List.length_set
  | failStart | giveBack | reapNone | reap | refuseClosed | refuseFull | block | sleepOn | accept
  | acceptStarting | stirSubmitter | announce | stirWorker | take | leave | expire | park
  | finish => rfl

/-! ## Returned submissions -/

/-- A place that does not change keeps what it holds. -/
theorem getElem?_set_of_ne {α : Type} {l : List α} {i j : Nat} {a b c : α} (at_i : l[i]? = some a)
    (at_j : l[j]? = some b) (hab : a ≠ b) : (l.set i c)[j]? = some b := by
  rw [List.getElem?_set_ne]
  · exact at_j
  · rintro rfl
    exact hab (Option.some.inj (at_i.symm.trans at_j))

/-- An answer that was given stays as it is. -/
theorem Change.returned (hc : Change p c q) {s : Nat} {fault : Option Fault}
    (h : p.submissions[s]? = some (.returned fault)) :
    q.submissions[s]? = some (.returned fault) := by
  cases hc with
  | refuseEmpty | arrive | arriveReaping =>
    rw [List.getElem?_append_left (List.getElem?_eq_some_iff.mp h).1]
    exact h
  | reapNone s' task at_s | reap s' task w rest at_s | refuseFull s' task at_s
  | block s' task at_s | sleepOn s' task told at_s | stirSubmitter s' task at_s
  | announce s' workers at_s => exact getElem?_set_of_ne at_s h nofun
  | refuseClosed s' x task at_s asks | accept s' x task at_s asks
  | acceptStarting s' x task at_s asks =>
    refine getElem?_set_of_ne at_s h ?_
    rintro rfl
    cases asks
  | failStart s' x task submissions at_s asks is_open free short told =>
    have awake := told.getElem? at_s (isParked_of_asking asks)
    refine getElem?_set_of_ne awake (told.getElem? h rfl) ?_
    rintro rfl
    cases asks
  | giveBack w task submissions at_w told => exact told.getElem? h rfl
  | alertSubmitters =>
    rw [List.getElem?_map, h]
    rfl
  | stirWorker | take | leave | expire | park | finish | callRelease | close | alertWorkers
  | join => exact h

/-- An answer that was given stays as it is, whatever happens next. -/
theorem step_returned {e : Event τ} (hstep : p.step e = some q) {s : Nat} {fault : Option Fault}
    (h : p.submissions[s]? = some (.returned fault)) :
    q.submissions[s]? = some (.returned fault) := by
  rcases change_of_step hstep with ⟨c, hc⟩ | ⟨m, hm, hq⟩
  · exact hc.returned h
  · exact hq.returned (hm.returned h)

/-! ## Reasons of faults -/

/-- The faults with which a pool can settle a submission, with the reason where it lasts. -/
def Explains (p : Pool τ) : Fault → Prop
  | .emptyTask | .startFailed _ | .poolFull _ _ => True
  | .poolClosed _ => p.closed = true
  | _ => False

/-- Every fault among the answers has a reason. -/
def FaultsExplained (p : Pool τ) : Prop :=
  ∀ (s : Nat) (fault : Fault),
    p.submissions[s]? = some (.returned (some fault)) → p.Explains fault

/-- An explanation of a fault stays one, as long as the pool is not opened again. -/
theorem Explains.mono {fault : Fault} (h : p.Explains fault)
    (hclosed : p.closed = true → q.closed = true) : q.Explains fault := by
  cases fault <;> first | exact h | exact hclosed h

/-- No answer is new. -/
theorem FaultsExplained.same (h : p.FaultsExplained)
    (hq : ∀ (s : Nat) (fault : Fault), q.submissions[s]? = some (.returned (some fault)) →
      p.submissions[s]? = some (.returned (some fault)))
    (hclosed : p.closed = true → q.closed = true) : q.FaultsExplained :=
  fun s fault hs => (h s fault (hq s fault hs)).mono hclosed

/-- One answer may be new. -/
theorem FaultsExplained.set (h : p.FaultsExplained) {s : Nat} {y : Submission τ}
    (hq : q.submissions = p.submissions.set s y) (hclosed : p.closed = true → q.closed = true)
    (hy : ∀ fault, y = .returned (some fault) → q.Explains fault) : q.FaultsExplained := by
  intro s' fault hs
  rw [hq, List.getElem?_set] at hs
  by_cases hne : s = s'
  · rw [if_pos hne] at hs
    split at hs
    · exact hy fault (Option.some.inj hs)
    · cases hs
  · rw [if_neg hne] at hs
    exact (h s' fault hs).mono hclosed

/-- A submission that begins has nothing to explain, or explains its fault at once. -/
theorem FaultsExplained.append (h : p.FaultsExplained) {y : Submission τ}
    (hq : q.submissions = p.submissions ++ [y]) (hclosed : p.closed = true → q.closed = true)
    (hy : ∀ fault, y = .returned (some fault) → q.Explains fault) : q.FaultsExplained := by
  intro s fault hs
  rw [hq, getElem?_append_one] at hs
  split at hs
  · exact hy fault (Option.some.inj hs)
  · exact (h s fault hs).mono hclosed

/-- Telling a submitter answers nobody. -/
theorem FaultsExplained.told (h : p.FaultsExplained) (told : Told p.submissions q.submissions)
    (hclosed : p.closed = true → q.closed = true) : q.FaultsExplained := by
  generalize hq : q.submissions = l at told
  cases told with
  | nobody => exact h.same (fun s fault hs => by rwa [hq] at hs) hclosed
  | one s task at_s => exact h.set hq hclosed nofun

/-- In every step each fault that is answered has its reason in the pool. -/
theorem FaultsExplained.change (h : p.FaultsExplained) (hc : Change p c q) :
    q.FaultsExplained := by
  cases hc with
  | refuseEmpty =>
    refine h.append rfl id ?_
    rintro fault ⟨⟩
    trivial
  | arrive | arriveReaping => exact h.append rfl id nofun
  | reapNone | block | sleepOn | accept | acceptStarting | stirSubmitter | announce =>
    exact h.set rfl id nofun
  | reap s task w rest =>
    refine h.set rfl id fun fault hy => ?_
    split at hy <;> cases hy
  | refuseClosed s x task at_s asks is_closed =>
    refine h.set rfl id ?_
    rintro fault ⟨⟩
    exact is_closed
  | refuseFull =>
    refine h.set rfl id ?_
    rintro fault ⟨⟩
    trivial
  | failStart s x task submissions at_s asks is_open free short told =>
    have first : FaultsExplained { p with submissions } := h.told told id
    refine first.set rfl id ?_
    rintro fault ⟨⟩
    trivial
  | giveBack w task submissions at_w told => exact h.told told id
  | alertSubmitters =>
    refine h.same (fun s fault hs => ?_) id
    rw [List.getElem?_map] at hs
    obtain ⟨x, hx, hwake⟩ := Option.map_eq_some_iff.mp hs
    rw [hx]
    cases x <;> first | exact congrArg some hwake | cases hwake
  | close => exact h.same (fun s fault hs => hs) fun _ => rfl
  | stirWorker | take | leave | expire | park | finish | callRelease | alertWorkers | join =>
    exact h

/-- Each fault that a pool has answered has its reason in the pool. -/
theorem Arises.faultsExplained (h : p.Arises) : p.FaultsExplained := by
  induction h with
  | create hc =>
    obtain ⟨-, -, rfl⟩ := eq_of_create hc
    intro s fault hs
    cases hs
  | change _ hc ih => exact ih.change hc

/-! ## Closing -/

/-- A pool is closed only by a release. -/
def ClosedByRelease (p : Pool τ) : Prop :=
  p.closed = true → 0 < p.releases.length

/-- In every step a pool is closed only by a release. -/
theorem ClosedByRelease.change (h : p.ClosedByRelease) (hc : Change p c q) :
    q.ClosedByRelease := by
  cases hc with
  | close r own at_r =>
    have in_range : r < p.releases.length := (List.getElem?_eq_some_iff.mp at_r).1
    rw [ClosedByRelease, List.length_set]
    exact fun _ => Nat.zero_lt_of_lt in_range
  | alertWorkers | alertSubmitters | join =>
    rw [ClosedByRelease, List.length_set]
    exact h
  | callRelease =>
    rw [ClosedByRelease, List.length_append]
    exact fun _ => Nat.succ_pos _
  | refuseEmpty | arrive | arriveReaping | reapNone | reap | refuseClosed | refuseFull | block
  | sleepOn | accept | acceptStarting | failStart | stirSubmitter | announce | stirWorker | take
  | leave | expire | park | finish | giveBack => exact h

/-- A pool that is closed was released. -/
theorem Arises.closedByRelease (h : p.Arises) : p.ClosedByRelease := by
  induction h with
  | create hc =>
    obtain ⟨-, -, rfl⟩ := eq_of_create hc
    exact nofun
  | change _ hc ih => exact ih.change hc

end

end Pool

end TaskPools
