/-
# Submissions on their way

A submission can always go on until it is settled or sleeps, and no task needs to end for that
(`Arises.settlesOrSleeps`): the workers that it waits for have left, and whoever is to be told of
something can be told.  It sleeps only in a pool that is set to make submitters wait, and it is
turned away because the pool is full only in one that is set to refuse tasks (`Arises.doesAsSet`).
-/
import TaskPools.Proofs.Pool.Admission
import TaskPools.Proofs.Pool.Joining
import TaskPools.Proofs.Pool.QuietState

namespace TaskPools

variable {τ : Type}

/-- Only a pool that is set to make submitters wait does so, and only one that is set to refuse
tasks says that it is full. -/
def Submission.suits (nonBlocking : Bool) : Submission τ → Bool
  | parked _ | woken _ _ => !nonBlocking
  | returned (some (.poolFull _ _)) => nonBlocking
  | _ => true

namespace Pool

section

variable {p q : Pool τ} {s : Nat} {starts : Bool} {a : τ} {x y : Submission τ}

/-! ## A submission can go on -/

theorem exists_grantSlot (p : Pool τ) (in_range : s < p.submissions.length) (a : τ)
    (start : Bool) : ∃ alert q y, p.grantSlot s a start alert = some q ∧
      q.submissions[s]? = some y ∧ (y = .announcing ∨ y.isReturned = true) := by
  have announces : (p.submissions.set s .announcing)[s]? = some .announcing :=
    List.getElem?_set_self in_range
  simp only [grantSlot]
  split
  · exact ⟨none, _, _, rfl, announces, Or.inl rfl⟩
  · split
    · exact ⟨none, _, _, rfl, announces, Or.inl rfl⟩
    · obtain ⟨alert, m, hm⟩ := exists_alertSubmitter
        ((p.enqueue a).hire.rollBack (p.enqueue a).workers.length)
      let refused : Pool τ :=
        (m.setSubmission s (.returned (some (.startFailed m.name)))).report .startFailed
      refine ⟨alert, refused, .returned (some (.startFailed m.name)), ?_, ?_, Or.inr rfl⟩
      · exact Option.bind_eq_some_iff.mpr ⟨m, hm, rfl⟩
      · obtain ⟨submissions, told, rfl⟩ := told_of_alertSubmitter hm
        refine List.getElem?_set_self ?_
        rw [told.length_eq]
        exact in_range

/-- A submission can always ask for a slot, and then it is told of one, turned away or put to sleep.
-/
theorem exists_enter (at_s : p.submissions[s]? = some (.entering a)) (start : Bool) :
    ∃ alert q y, p.enter s start alert = some q ∧ q.submissions[s]? = some y ∧
      (y = .announcing ∨ y.isReturned = true ∨ y.isParked = true) := by
  have in_range := (List.getElem?_eq_some_iff.mp at_s).1
  simp only [Pool.enter, at_s]
  split
  · exact ⟨none, _, _, rfl, List.getElem?_set_self in_range, Or.inr (Or.inl rfl)⟩
  · split
    · split
      · exact ⟨none, _, _, rfl, List.getElem?_set_self in_range, Or.inr (Or.inl rfl)⟩
      · exact ⟨none, _, _, rfl, List.getElem?_set_self in_range, Or.inr (Or.inr rfl)⟩
    · obtain ⟨alert, q, y, hq, hy, settled⟩ := exists_grantSlot p in_range a start
      exact ⟨alert, q, y, hq, hy, settled.imp_right Or.inl⟩

/-- The same holds when it asks again. -/
theorem exists_ask_again {told : Bool} (at_s : p.submissions[s]? = some (.woken a told))
    (start : Bool) : ∃ alert q y, p.resume s start alert = some q ∧ q.submissions[s]? = some y ∧
      (y = .announcing ∨ y.isReturned = true ∨ y.isParked = true) := by
  have in_range := (List.getElem?_eq_some_iff.mp at_s).1
  simp only [Pool.resume, at_s]
  split
  · exact ⟨none, _, _, rfl, List.getElem?_set_self in_range, Or.inr (Or.inl rfl)⟩
  · split
    · obtain ⟨alert, q, y, hq, hy, settled⟩ :=
        exists_grantSlot { p with waiting := p.waiting - 1 } in_range a start
      exact ⟨alert, q, y, hq, hy, settled.imp_right Or.inl⟩
    · exact ⟨none, _, _, rfl, List.getElem?_set_self in_range, Or.inr (Or.inr rfl)⟩

/-- The pool makes an ordinary move. -/
def Proceeds (starts : Bool) (p q : Pool τ) : Prop :=
  ∃ m : Move, m.isOrdinary starts = true ∧ p.move m = some q

/-- Submission `s` can be settled, or put to sleep. -/
def SettlesOrSleeps (starts : Bool) (s : Nat) (p : Pool τ) : Prop :=
  ∃ q x, Relation.ReflTransGen (Proceeds starts) p q ∧ q.submissions[s]? = some x ∧
    (x.isReturned = true ∨ x.isParked = true)

theorem SettlesOrSleeps.before (h : q.SettlesOrSleeps starts s) (proceeds : Proceeds starts p q) :
    p.SettlesOrSleeps starts s := by
  obtain ⟨q', x, hq', rest⟩ := h
  exact ⟨q', x, .head proceeds hq', rest⟩

theorem settlesOrSleeps_of_announcing (at_s : p.submissions[s]? = some .announcing) :
    p.SettlesOrSleeps starts s := by
  obtain ⟨alert, q, hq⟩ := exists_alertWorker (p.setSubmission s (.returned none))
  have announces : Proceeds starts p q := by
    refine ⟨.announce s alert, rfl, ?_⟩
    rw [Pool.move, Pool.announce, at_s]
    exact hq
  obtain ⟨workers, roused, rfl⟩ := roused_of_alertWorker hq
  exact ⟨_, _, .single announces, List.getElem?_set_self (List.getElem?_eq_some_iff.mp at_s).1,
    Or.inl rfl⟩

/-- What a submission that asked for a slot comes to. -/
theorem settlesOrSleeps_of_asked (at_s : p.submissions[s]? = some x)
    (asked : x = .announcing ∨ x.isReturned = true ∨ x.isParked = true) :
    p.SettlesOrSleeps starts s := by
  rcases asked with rfl | settled
  · exact settlesOrSleeps_of_announcing at_s
  · exact ⟨p, x, .refl, at_s, settled⟩

theorem settlesOrSleeps_of_entering (at_s : p.submissions[s]? = some (.entering a)) :
    p.SettlesOrSleeps starts s := by
  obtain ⟨alert, q, y, hq, hy, asked⟩ := exists_enter at_s starts
  have enters : Proceeds starts p q :=
    ⟨.enter s starts alert, by rw [Move.isOrdinary]; exact beq_self_eq_true starts, hq⟩
  exact (settlesOrSleeps_of_asked hy asked).before enters

/-- Every expired worker has left, so nobody has to wait for one. -/
theorem settlesOrSleeps_of_reaping {handles : List Nat} (arises : p.Arises)
    (at_s : p.submissions[s]? = some (.reaping a handles)) : p.SettlesOrSleeps starts s := by
  induction handles generalizing p with
  | nil =>
    let entered : Pool τ := p.setSubmission s (.entering a)
    have reaps : Proceeds starts p entered := ⟨.reap s, rfl, by rw [Pool.move, Pool.reap, at_s]⟩
    refine (settlesOrSleeps_of_entering (a := a) ?_).before reaps
    exact List.getElem?_set_self (List.getElem?_eq_some_iff.mp at_s).1
  | cons w rest ih =>
    have among : w ∈ p.submissions.flatMap Submission.handles :=
      List.mem_flatMap.mpr ⟨_, List.mem_of_getElem? at_s, List.mem_cons_self⟩
    have left : p.hasExited w = true := hasExited_iff.mpr (arises.expiredLeft w (Or.inr among))
    let place : Submission τ := if rest = [] then .entering a else .reaping a rest
    let reaped : Pool τ := { p.setSubmission s place with joined := p.joined ++ [w] }
    have moved : p.move (.reap s) = some reaped := by
      rw [Pool.move, Pool.reap, at_s]
      exact if_pos left
    have now : reaped.submissions[s]? = some place :=
      List.getElem?_set_self (List.getElem?_eq_some_iff.mp at_s).1
    refine SettlesOrSleeps.before ?_ ⟨.reap s, rfl, moved⟩
    by_cases last : rest = []
    · exact settlesOrSleeps_of_entering (now.trans (congrArg some (if_pos last)))
    · exact ih (arises.step (e := .move (.reap s)) moved) (now.trans (congrArg some (if_neg last)))

/-- A submission can always go on until it is settled or sleeps, and no task needs to end for
that. -/
theorem Arises.settlesOrSleeps (arises : p.Arises) (at_s : p.submissions[s]? = some x)
    (starts : Bool) : p.SettlesOrSleeps starts s := by
  cases x with
  | reaping a handles => exact settlesOrSleeps_of_reaping arises at_s
  | entering a => exact settlesOrSleeps_of_entering at_s
  | woken a told =>
    obtain ⟨alert, q, y, hq, hy, asked⟩ := exists_ask_again at_s starts
    have resumes : Proceeds starts p q :=
      ⟨.resume s starts alert, by rw [Move.isOrdinary]; exact beq_self_eq_true starts, hq⟩
    exact (settlesOrSleeps_of_asked hy asked).before resumes
  | announcing => exact settlesOrSleeps_of_announcing at_s
  | parked => exact ⟨p, _, .refl, at_s, Or.inr rfl⟩
  | returned => exact ⟨p, _, .refl, at_s, Or.inl rfl⟩

/-! ## Blocking and refusing -/

/-- What the pool does when it is full is what it is set to do. -/
def DoesAsSet (p : Pool τ) : Prop :=
  ∀ x ∈ p.submissions, x.suits p.nonBlocking = true

theorem doesAsSet_of_set {l : List (Submission τ)}
    (hl : ∀ x ∈ l, x.suits p.nonBlocking = true) (hy : y.suits p.nonBlocking = true)
    (hsubmissions : q.submissions = l.set s y) (hnonBlocking : q.nonBlocking = p.nonBlocking) :
    q.DoesAsSet := by
  intro x hx
  rw [hsubmissions] at hx
  rw [hnonBlocking]
  rcases List.mem_or_eq_of_mem_set hx with before | rfl
  · exact hl x before
  · exact hy

theorem DoesAsSet.append (h : p.DoesAsSet) (hy : y.suits p.nonBlocking = true)
    (hsubmissions : q.submissions = p.submissions ++ [y])
    (hnonBlocking : q.nonBlocking = p.nonBlocking) : q.DoesAsSet := by
  intro x hx
  rw [hsubmissions] at hx
  rw [hnonBlocking]
  rcases List.mem_append.mp hx with before | new
  · exact h x before
  · rw [List.mem_singleton.mp new]
    exact hy

/-- Whoever is told of a slot waits for one already. -/
theorem DoesAsSet.told (h : p.DoesAsSet) {l : List (Submission τ)} (told : Told p.submissions l) :
    ∀ x ∈ l, x.suits p.nonBlocking = true := by
  cases told with
  | nobody => exact h
  | one t a at_t =>
    intro x hx
    rcases List.mem_or_eq_of_mem_set hx with before | rfl
    · exact h x before
    · exact h (.parked a) (List.mem_of_getElem? at_t)

theorem DoesAsSet.change (h : p.DoesAsSet) {c : Cause} (hc : Change p c q) : q.DoesAsSet := by
  cases hc with
  | refuseEmpty | arrive | arriveReaping => exact h.append rfl rfl rfl
  | reapNone | refuseClosed | accept | acceptStarting | announce =>
    exact doesAsSet_of_set h rfl rfl rfl
  | reap s task w rest =>
    refine doesAsSet_of_set h ?_ rfl rfl
    split <;> rfl
  | refuseFull s task at_s is_open full refuses =>
    refine doesAsSet_of_set h ?_ rfl rfl
    exact refuses
  | block s task at_s is_open full blocks =>
    refine doesAsSet_of_set h ?_ rfl rfl
    rw [Submission.suits, blocks]
    rfl
  | sleepOn s task told at_s | stirSubmitter s task at_s =>
    refine doesAsSet_of_set h ?_ rfl rfl
    have before := h _ (List.mem_of_getElem? at_s)
    exact before
  | failStart s x task submissions at_s asks is_open free short told =>
    exact doesAsSet_of_set (h.told told) rfl rfl rfl
  | giveBack w task submissions at_w told => exact h.told told
  | alertSubmitters =>
    intro x hx
    obtain ⟨y, hy, rfl⟩ := List.mem_map.mp hx
    have suits := h y hy
    cases y <;> exact suits
  | stirWorker | take | leave | expire | park | finish | callRelease | close | alertWorkers
  | join => exact h

theorem Arises.doesAsSet (h : p.Arises) : p.DoesAsSet := by
  induction h with
  | create hc =>
    obtain ⟨-, -, rfl⟩ := eq_of_create hc
    exact nofun
  | change _ hc ih => exact ih.change hc

end

end Pool

end TaskPools
