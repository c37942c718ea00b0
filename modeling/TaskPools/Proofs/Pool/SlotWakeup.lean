/-
# No wakeup for a slot is lost

A slot that becomes free is announced to one blocked submitter, and another submission may take it
before that one asks again.  What the pool never does is leave a submitter asleep beside a slot that
nobody will ask for: while somebody sleeps in an open pool, there are at least as many submitters
told of a slot and not yet asking as there are free slots.
-/
import TaskPools.Proofs.Pool.Accounting

namespace TaskPools

variable {τ : Type}

/-! ## Sleeping and told submitters -/

namespace Pool

/-- The number of submitters that sleep. -/
def asleep (p : Pool τ) : Nat := p.submissions.countP Submission.isParked

/-- The number of submitters that were told of a slot and have not asked for it yet. -/
def told (p : Pool τ) : Nat := p.submissions.countP Submission.isTold

end Pool

/-- Being told moves one submitter from the sleeping ones to the told ones, if there is any. -/
theorem Told.counts {l m : List (Submission τ)} (h : Told l m) :
    (m = l ∧ l.countP Submission.isParked = 0) ∨
      (m.countP Submission.isParked + 1 = l.countP Submission.isParked ∧
        m.countP Submission.isTold = l.countP Submission.isTold + 1) := by
  cases h with
  | nobody asleep =>
    refine Or.inl ⟨rfl, List.countP_eq_zero.mpr fun x hx => ?_⟩
    rw [asleep x hx]
    exact Bool.false_ne_true
  | one s task at_s =>
    have hparked := countP_set_add Submission.isParked at_s (.woken task true)
    have htold := countP_set_add Submission.isTold at_s (.woken task true)
    exact Or.inr ⟨hparked, htold⟩

namespace Pool

section SlotsAnnounced

variable {p q : Pool τ} {s : Nat} {x y : Submission τ}

theorem asleep_of_set (at_s : p.submissions[s]? = some x)
    (hsubmissions : q.submissions = p.submissions.set s y) :
    q.asleep + x.isParked.toNat = p.asleep + y.isParked.toNat := by
  rw [asleep, hsubmissions]
  exact countP_set_add _ at_s y

theorem told_of_set (at_s : p.submissions[s]? = some x)
    (hsubmissions : q.submissions = p.submissions.set s y) :
    q.told + x.isTold.toNat = p.told + y.isTold.toNat := by
  rw [told, hsubmissions]
  exact countP_set_add _ at_s y

/-- While a submitter sleeps in an open pool, the free slots are no more than the told submitters.
-/
def SlotsAnnounced (p : Pool τ) : Prop :=
  p.closed = false → 0 < p.asleep → p.capacity - p.inFlight ≤ p.told

/-- Nothing happens to the free slots or to the submitters that were told of one. -/
theorem SlotsAnnounced.same (h : p.SlotsAnnounced) (hclosed : q.closed = p.closed)
    (hcapacity : q.capacity = p.capacity) (hinFlight : q.inFlight = p.inFlight)
    (hasleep : q.asleep ≤ p.asleep) (htold : q.told = p.told) : q.SlotsAnnounced := by
  intro is_open some_asleep
  rw [hclosed] at is_open
  rw [hcapacity, hinFlight, htold]
  exact h is_open (by omega)

theorem SlotsAnnounced.append (h : p.SlotsAnnounced) (hclosed : q.closed = p.closed)
    (hcapacity : q.capacity = p.capacity) (hinFlight : q.inFlight = p.inFlight)
    (hsubmissions : q.submissions = p.submissions ++ [x]) (hparked : x.isParked = false)
    (htold : x.isTold = false) : q.SlotsAnnounced := by
  apply h.same hclosed hcapacity hinFlight
  · rw [asleep, hsubmissions, List.countP_append, List.countP_singleton, hparked]
    exact Nat.le_refl _
  · rw [told, hsubmissions, List.countP_append, List.countP_singleton, htold]
    rfl

/-- A submission that was not told changes its place, and does not go to sleep. -/
theorem SlotsAnnounced.shift (h : p.SlotsAnnounced) (at_s : p.submissions[s]? = some x)
    (hsubmissions : q.submissions = p.submissions.set s y) (hclosed : q.closed = p.closed)
    (hcapacity : q.capacity = p.capacity) (hinFlight : q.inFlight = p.inFlight)
    (hparked : y.isParked = false) (hx : x.isTold = false) (hy : y.isTold = false) :
    q.SlotsAnnounced := by
  have hasleep := asleep_of_set at_s hsubmissions
  have htold := told_of_set at_s hsubmissions
  rw [hparked, Bool.toNat_false] at hasleep
  rw [hx, hy] at htold
  exact h.same hclosed hcapacity hinFlight (by omega) (by omega)

/-- A submission takes a free slot: if it was told of one, there is one told submitter less and one
free slot less. -/
theorem SlotsAnnounced.fill (h : p.SlotsAnnounced) (at_s : p.submissions[s]? = some x)
    (hsubmissions : q.submissions = p.submissions.set s .announcing)
    (hclosed : q.closed = p.closed) (hcapacity : q.capacity = p.capacity)
    (hinFlight : q.inFlight = p.inFlight + 1) : q.SlotsAnnounced := by
  have hasleep : q.asleep + x.isParked.toNat = p.asleep := asleep_of_set at_s hsubmissions
  have htold : q.told + x.isTold.toNat = p.told := told_of_set at_s hsubmissions
  have hx := Bool.toNat_le x.isTold
  intro is_open some_asleep
  rw [hclosed] at is_open
  have hp := h is_open (by omega)
  rw [hcapacity, hinFlight]
  omega

/-- No slot is free, and then nobody has to be told of one. -/
theorem slotsAnnounced_of_full (full : (q.capacity : Int) ≤ q.inFlight) : q.SlotsAnnounced := by
  intro _ _
  omega

/-- After one submitter is told there is room for one more free slot, if anybody still sleeps. -/
theorem SlotsAnnounced.tell (h : p.SlotsAnnounced) {m : List (Submission τ)}
    (told : Told p.submissions m) (is_open : p.closed = false)
    (some_asleep : 0 < m.countP Submission.isParked) :
    p.capacity - p.inFlight + 1 ≤ m.countP Submission.isTold := by
  have hp := h is_open
  rw [asleep, Pool.told] at hp
  rcases told.counts with ⟨rfl, nobody⟩ | ⟨one_less, one_more⟩
  · omega
  · have := hp (by omega)
    omega

/-- A slot that no worker could be started for is free again, and one submitter is told. -/
theorem SlotsAnnounced.failStart (h : p.SlotsAnnounced) {m : List (Submission τ)}
    (told : Told p.submissions m) (at_s : m[s]? = some x)
    (hsubmissions : q.submissions = m.set s y) (hparked : y.isParked = false)
    (hclosed : q.closed = p.closed) (hcapacity : q.capacity = p.capacity)
    (hinFlight : q.inFlight = p.inFlight) : q.SlotsAnnounced := by
  have hasleep := countP_set_add Submission.isParked at_s y
  have htold := countP_set_add Submission.isTold at_s y
  rw [hparked, Bool.toNat_false] at hasleep
  -- the submission that gives up may itself be a told one, and the telling makes up for it
  have hx := Bool.toNat_le x.isTold
  intro is_open some_asleep
  rw [hclosed] at is_open
  rw [hcapacity, hinFlight, Pool.told, hsubmissions]
  rw [asleep, hsubmissions] at some_asleep
  have hp := h.tell told is_open (by omega)
  omega

/-- A slot is given back, and one submitter is told. -/
theorem SlotsAnnounced.giveBack (h : p.SlotsAnnounced) {m : List (Submission τ)}
    (told : Told p.submissions m) (hsubmissions : q.submissions = m)
    (hclosed : q.closed = p.closed) (hcapacity : q.capacity = p.capacity)
    (hinFlight : q.inFlight = p.inFlight - 1) : q.SlotsAnnounced := by
  intro is_open some_asleep
  rw [hclosed] at is_open
  rw [hcapacity, hinFlight, Pool.told, hsubmissions]
  rw [asleep, hsubmissions] at some_asleep
  have hp := h.tell told is_open some_asleep
  omega

theorem SlotsAnnounced.change (h : p.SlotsAnnounced) {c : Cause} (hc : Change p c q) :
    q.SlotsAnnounced := by
  cases hc with
  | refuseEmpty | arrive | arriveReaping => exact h.append rfl rfl rfl rfl rfl rfl
  | reapNone s task at_s | refuseFull s task at_s | announce s workers at_s =>
    exact h.shift at_s rfl rfl rfl rfl rfl rfl rfl
  | reap s task w rest at_s =>
    refine h.shift at_s rfl rfl rfl rfl ?_ rfl ?_ <;> split <;> rfl
  | refuseClosed s x task at_s asks is_closed =>
    intro is_open
    rw [is_closed] at is_open
    cases is_open
  -- a submitter falls asleep only while no slot is free
  | block s task at_s is_open full | sleepOn s task told at_s is_open full =>
    exact slotsAnnounced_of_full full
  | accept s x task at_s | acceptStarting s x task at_s => exact h.fill at_s rfl rfl rfl rfl
  | failStart s x task submissions at_s asks is_open free short told =>
    have awake := told.getElem? at_s (isParked_of_asking asks)
    exact h.failStart told awake rfl rfl rfl rfl rfl
  | stirSubmitter s task at_s => exact h.shift at_s rfl rfl rfl rfl rfl rfl rfl
  | giveBack w task submissions at_w told => exact h.giveBack told rfl rfl rfl rfl
  | close => exact nofun
  | alertSubmitters =>
    -- everybody was woken, so nobody sleeps
    intro _ some_asleep
    obtain ⟨x, hx, parked⟩ := List.countP_pos_iff.mp some_asleep
    obtain ⟨x, -, rfl⟩ := List.mem_map.mp hx
    cases x <;> cases parked
  | stirWorker | take | leave | expire | park | finish | callRelease | alertWorkers | join =>
    exact h

theorem Arises.slotsAnnounced (h : p.Arises) : p.SlotsAnnounced := by
  induction h with
  | create hc =>
    obtain ⟨-, -, rfl⟩ := eq_of_create hc
    exact nofun
  | change _ hc ih => exact ih.change hc

end SlotsAnnounced

/-- **No lost slot wakeup.**  While a submitter sleeps in an open pool, there are no more free slots
than submitters that were told of one and have not asked for it yet; so if there is no such
submitter, every slot is in use. -/
theorem slots_awaited_of_asleep {p : Pool τ} (h : p.Reachable) (is_open : p.closed = false)
    {s : Nat} {task : τ} (sleeps : p.submissions[s]? = some (.parked task)) :
    p.capacity - p.inFlight ≤ p.told ∧ (p.told = 0 → p.inFlight = p.capacity) := by
  have some_asleep : 0 < p.asleep := countP_pos_of_getElem? sleeps rfl
  have hslots := h.arises.slotsAnnounced is_open some_asleep
  obtain ⟨hin, hid, hle, hcap⟩ := h.arises.staffed
  refine ⟨hslots, fun none_told => ?_⟩
  omega

/-- A pool of one slot runs a task while two submitters sleep, and then the task ends and one of
them is told of its slot. -/
def tellingRun : List (Event Nat) :=
  [.submit (some 1), .move (.enter 0 true none), .move (.look 0 false), .submit (some 2),
    .move (.enter 1 true none), .submit (some 3), .move (.enter 2 true none), .finish 0 none,
    .move (.giveBack 0 (some 1))]

/-- The free slot of that pool is awaited by the submitter that was told of it. -/
theorem slots_awaited_after_telling :
    ∃ p q : Pool Nat, create "io" 1 1000 false = .ok p ∧ p.run tellingRun = some q ∧
      q.closed = false ∧ q.submissions[2]? = some (.parked 3) ∧
      q.capacity - q.inFlight = 1 ∧ q.told = 1 ∧
      q.capacity - q.inFlight ≤ q.told ∧ (q.told = 0 → q.inFlight = q.capacity) := by
  obtain ⟨p, q, hp, hq, hopen, hsleeps, hfree, htold⟩ : ∃ p q : Pool Nat,
      create "io" 1 1000 false = .ok p ∧ p.run tellingRun = some q ∧ q.closed = false ∧
        q.submissions[2]? = some (.parked 3) ∧ q.capacity - q.inFlight = 1 ∧ q.told = 1 :=
    ⟨_, _, rfl, rfl, rfl, rfl, rfl, rfl⟩
  have hreachable : q.Reachable := (Reachable.create hp).run hq
  exact ⟨p, q, hp, hq, hopen, hsleeps, hfree, htold,
    slots_awaited_of_asleep hreachable hopen hsleeps⟩

end Pool

end TaskPools
