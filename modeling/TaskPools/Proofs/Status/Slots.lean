/-
# Slots with buffers are slots with values

Each operation does to the statuses in the buffers what it does to a row of plain statuses
(`Sound.apply`), and leaves every slot with a buffer of its own.  So after any operations nobody can
tell the two rows apart, and no buffer is shared (`seen_as_values`).
-/
import TaskPools.Proofs.Status.Buffers

namespace TaskPools

namespace SlotOp

/-- The message in an operation, if there is one, has a length that fits into four bytes. -/
def Fits : SlotOp → Prop
  | .set _ _ message => message.length < 2 ^ 32
  | _ => True

instance : DecidablePred Fits
  | .set _ _ message => inferInstanceAs (Decidable (message.length < 2 ^ 32))
  | .clear _ | .copy _ _ | .move _ _ | .copyVia _ _ | .moveVia _ _ | .swap _ _ => .isTrue trivial

/-- The operations that hand the status of a slot to the slot itself. -/
def onItself (i : Nat) : List SlotOp :=
  [copy i i, move i i, copyVia i i, moveVia i i, swap i i]

/-- The operations that move the status of one slot into another. -/
def moves (dst src : Nat) : List SlotOp := [move dst src, moveVia dst src]

/-- What is done to a slot with itself brings no message along. -/
theorem fits_onItself (i : Nat) : ∀ op ∈ onItself i, op.Fits := by
  simp [onItself, Fits]

/-- Moving brings no message along. -/
theorem fits_moves (dst src : Nat) : ∀ op ∈ moves dst src, op.Fits := by
  simp [moves, Fits]

end SlotOp

/-! ## Operations on values -/

namespace ValueSlots

variable {dst src : Nat}

@[simp] theorem length_apply (v : ValueSlots) (op : SlotOp) : (v.apply op).length = v.length := by
  cases op with
  | move dst src | moveVia dst src =>
    rw [apply]
    split
    · rfl
    · rw [List.length_set, List.length_set]
  | _ => simp [apply]

/-- Operations add no slots and remove none. -/
theorem length_run (v : ValueSlots) (ops : List SlotOp) :
    (ops.foldl apply v).length = v.length := by
  induction ops generalizing v with
  | nil => rfl
  | cons op ops ih => rw [List.foldl_cons, ih, length_apply]

/-- To clear the source before the destination is set makes no difference. -/
theorem set_clear (v : ValueSlots) (different : dst ≠ src) :
    List.set (List.set v src none) dst (v.get src) = v.apply (.move dst src) := by
  rw [apply, if_neg different, List.set_comm _ _ different.symm]

/-- Clearing one slot leaves the others. -/
theorem get_clear (v : ValueSlots) (different : dst ≠ src) :
    get (List.set v dst none) src = v.get src := by
  rw [get_set, if_neg different.symm]

/-- Clearing both slots first makes no difference to an exchange. -/
theorem set_exchange (v : ValueSlots) (different : dst ≠ src) :
    List.set (List.set (List.set (List.set v dst none) src none) dst
      (get (List.set v dst none) src)) src (v.get dst) = v.apply (.swap dst src) := by
  rw [get_clear v different, List.set_comm _ _ different.symm, List.set_set, List.set_set, apply]

/-- Copying, moving or swapping a slot with itself changes nothing. -/
theorem apply_onItself (v : ValueSlots) (i : Nat) : ∀ op ∈ SlotOp.onItself i, v.apply op = v := by
  have swapped : v.apply (.swap i i) = v := by
    rw [apply, List.set_set, set_get]
  simp only [SlotOp.onItself, List.forall_mem_cons]
  exact ⟨set_get v i, if_pos rfl, set_get v i, if_pos rfl, swapped, nofun⟩

/-- A slot from which a status was moved holds success. -/
theorem get_moved (v : ValueSlots) (different : dst ≠ src) :
    ∀ op ∈ SlotOp.moves dst src, (v.apply op).get src = none := by
  have moved : (v.apply (.move dst src)).get src = none := by
    rw [apply, if_neg different, get_set, if_pos rfl, ite_self]
  simp only [SlotOp.moves, List.forall_mem_cons]
  exact ⟨moved, moved, nofun⟩

end ValueSlots

/-! ## Operations on buffers -/

namespace Slots

variable {s : Slots} {dst src : Nat}

theorem replace_of_empty {i : Nat} (empty : s.address i = none) (a : Option Nat) :
    s.replace i a = s.point i a := by
  rw [replace, empty, free]

/-- Cloning a buffer leaves every slot at its address. -/
theorem address_clone (s : Slots) (a : Option Nat) (i : Nat) :
    (s.clone a).1.address i = s.address i := by
  cases a <;> rfl

/-- To copy into another slot is to clear it and then to copy into it by way of a temporary. -/
theorem copy_eq (different : dst ≠ src) :
    s.apply (.copy dst src) = (s.replace dst none).apply (.copyVia dst src) := by
  have kept : (s.replace dst none).address src = s.address src := by
    rw [address_replace, if_neg different.symm]
  -- the slot refers to nothing any more, so the temporary has nothing to give back
  have cleared : ((s.replace dst none).clone (s.address src)).1.address dst = none := by
    rw [address_clone, address_replace, if_pos rfl, ite_self]
  calc s.apply (.copy dst src)
    _ = ((s.replace dst none).clone (s.address src)).1.point dst
          ((s.replace dst none).clone (s.address src)).2 := if_neg different
    _ = ((s.replace dst none).clone (s.address src)).1.replace dst
          ((s.replace dst none).clone (s.address src)).2 := (replace_of_empty cleared _).symm
    _ = (s.replace dst none).apply (.copyVia dst src) := by rw [apply, kept]

theorem swap_eq (s : Slots) (dst src : Nat) :
    s.apply (.swap dst src) = ((s.take dst).1.moveInto dst src).replace src (s.take dst).2 := rfl

theorem moveInto_self (s : Slots) (i : Nat) : s.moveInto i i = s := if_pos rfl

/-- **One operation.**  The slots stay sound, and their statuses change as values do. -/
theorem Sound.apply (h : s.Sound) (op : SlotOp) (fits : op.Fits) :
    (s.apply op).Sound ∧ (s.apply op).values = s.values.apply op := by
  cases op with
  | set dst code message =>
    have made := h.carries_allocate (StatusRecord.whole_encode code message)
    rw [StatusRecord.code_encode, StatusRecord.message_encode fits] at made
    exact made.replace dst
  | clear dst => exact h.carries_none.replace dst
  -- a slot that is copied onto itself by way of a temporary ends with another buffer
  | copyVia dst src => exact (h.carries_clone src).replace dst
  | copy dst src =>
    by_cases same : dst = src
    · subst same
      rw [Slots.apply, if_pos rfl, ValueSlots.apply, ValueSlots.set_get]
      exact ⟨h, rfl⟩
    · obtain ⟨sound, values⟩ := h.carries_none.replace dst
      rw [copy_eq same]
      have copied := (sound.carries_clone src).replace dst
      rw [values, ValueSlots.get_clear _ same, List.set_set] at copied
      exact copied
  | moveVia dst src =>
    have moved := (h.carries_take src).replace dst
    by_cases same : dst = src
    · subst same
      rw [List.set_set, ValueSlots.set_get] at moved
      rw [ValueSlots.apply, if_pos rfl]
      exact moved
    · rw [ValueSlots.set_clear _ same] at moved
      exact moved
  | move dst src =>
    by_cases same : dst = src
    · subst same
      rw [Slots.apply, moveInto_self, ValueSlots.apply, if_pos rfl]
      exact ⟨h, rfl⟩
    · have moved := (h.carries_take src).replace dst
      rw [ValueSlots.set_clear _ same] at moved
      rw [Slots.apply, moveInto_eq same]
      exact moved
  | swap dst src =>
    have taken := h.carries_take dst
    by_cases same : dst = src
    · subst same
      -- nothing is moved, and the slot gets back what was taken out of it
      have put_back := taken.replace dst
      rw [List.set_set] at put_back
      rw [swap_eq, moveInto_self, ValueSlots.apply, List.set_set]
      exact put_back
    · have exchanged := (taken.moveInto same).replace src
      rw [ValueSlots.set_exchange _ same] at exchanged
      exact exchanged

/-- **Many operations.** -/
theorem Sound.run (h : s.Sound) (ops : List SlotOp) (fits : ∀ op ∈ ops, op.Fits) :
    (ops.foldl Slots.apply s).Sound ∧
      (ops.foldl Slots.apply s).values = ops.foldl ValueSlots.apply s.values := by
  induction ops generalizing s with
  | nil => exact ⟨h, rfl⟩
  | cons op ops ih =>
    obtain ⟨first, rest⟩ := List.forall_mem_cons.mp fits
    obtain ⟨sound, values⟩ := h.apply op first
    rw [List.foldl_cons, List.foldl_cons, ← values]
    exact ih sound rest

/-- **Slots with buffers are seen as slots with values.**  After any operations, whose messages may
be empty or hold any bytes as long as their lengths fit into four, whether each slot counts as
success, its code, its message and its text are those of a row of plain statuses under the same
operations; every buffer that a slot refers to is in use, and no two slots refer to the same one.
Whatever is then copied onto, moved onto or exchanged with itself keeps its status, and what is
moved into another slot leaves plain success behind. -/
theorem seen_as_values (n : Nat) (ops : List SlotOp) (fits : ∀ op ∈ ops, op.Fits) :
    let s := ops.foldl apply (create n)
    let v := ops.foldl ValueSlots.apply (ValueSlots.create n)
    v.length = n ∧ s.views = v.map ByteStatus.view ∧
      (∀ i x, s.address i = some x → ∃ r, s.buffers[x]? = some (some r)) ∧
      (∀ i j x, s.address i = some x → s.address j = some x → i = j) ∧
      (∀ i, ∀ op ∈ SlotOp.onItself i, (s.apply op).views = s.views) ∧
      ∀ dst src, dst ≠ src → ∀ op ∈ SlotOp.moves dst src,
        (s.apply op).view src = ByteStatus.view none := by
  intro s v
  obtain ⟨sound, values⟩ := (sound_create n).run ops fits
  rw [values_create] at values
  refine ⟨?_, ?_, fun i x refers => ?_, fun i j x at_i at_j => ?_, fun i op among => ?_,
    fun dst src different op among => ?_⟩
  · rw [ValueSlots.length_run, ValueSlots.create, List.length_replicate]
  · rw [views_eq, values]
  · obtain ⟨r, held, -⟩ := sound.keeps i x refers
    exact ⟨r, held⟩
  · by_contra different
    exact sound.apart i j different x at_i at_j
  · have kept := (sound.apply op (SlotOp.fits_onItself i op among)).2
    rw [ValueSlots.apply_onItself _ i op among] at kept
    rw [views_eq, views_eq, kept]
  · have moved := (sound.apply op (SlotOp.fits_moves dst src op among)).2
    rw [view_eq, moved, ValueSlots.get_moved _ different op among]

/-- Operations on three slots, with a negative code, bytes that are zero, and an empty message. -/
def exchanges : List SlotOp :=
  [.set 0 (-7) [0, 0, 255], .set 1 0 [], .copy 2 0, .swap 0 1, .swap 1 1, .moveVia 2 2, .move 0 2,
   .copyVia 1 1]

/-- The copy ends in the first slot and the original in the second, and they share nothing. -/
theorem exchanges_seen :
    (∀ op ∈ exchanges, op.Fits) ∧
      (exchanges.foldl apply (create 3)).views =
        [{ isOk := false, code := -7, message := [0, 0, 255],
           text := textBytes "Error code(-7): " ++ [0, 0, 255] },
         { isOk := false, code := -7, message := [0, 0, 255],
           text := textBytes "Error code(-7): " ++ [0, 0, 255] },
         { isOk := true, code := 0, message := textBytes "OK", text := textBytes "OK" }] ∧
      (exchanges.foldl apply (create 3)).address 0 ≠
        (exchanges.foldl apply (create 3)).address 1 := by
  have fits : ∀ op ∈ exchanges, op.Fits := by decide
  obtain ⟨-, views, -, apart, -, -⟩ := seen_as_values 3 exchanges fits
  have values : exchanges.foldl ValueSlots.apply (ValueSlots.create 3) =
      [some (-7, [0, 0, 255]), some (-7, [0, 0, 255]), none] := rfl
  have first : (exchanges.foldl apply (create 3)).address 0 = some 2 := rfl
  refine ⟨fits, ?_, fun same => ?_⟩
  · rw [views, values]
    rfl
  · cases apart 0 1 2 first (same ▸ first)

end Slots

end TaskPools
