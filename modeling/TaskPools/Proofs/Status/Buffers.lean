/-
# Slots and their buffers

Whoever refers to a buffer, be it a slot or a temporary, is the only one that does (`Sound`,
`Loose`).  So a buffer can be given back, handed over or filled and nobody else notices: each way to
come by a temporary leaves the statuses in the slots as they are or takes one out, and a temporary
that replaces a slot brings its status there and nothing else (`Carries`).
-/
import TaskPools.Status.Slots
import TaskPools.Proofs.Status.Record

namespace TaskPools

/-! ## Rows of values -/

/-- After a write the place that was written holds the new value, and all others hold what they
held. -/
theorem getD_set {α : Type} (l : List (Option α)) (i j : Nat) (a : Option α) :
    (l.set i a)[j]?.getD none =
      if j = i then if i < l.length then a else none else l[j]?.getD none := by
  rw [List.getElem?_set]
  by_cases same : j = i
  · subst same
    rw [if_pos rfl, if_pos rfl]
    split <;> rfl
  · rw [if_neg (Ne.symm same), if_neg same]

namespace ValueSlots

variable {v w : ValueSlots} {t : ByteStatus} {i j : Nat}

/-- After a write the slot that was written holds the new status, and all others hold what they
held. -/
theorem get_set (v : ValueSlots) (i j : Nat) (t : ByteStatus) :
    get (List.set v i t) j = if j = i then if i < v.length then t else none else v.get j :=
  getD_set v i j t

/-- Two rows of slots are the same if each slot holds the same status. -/
theorem ext_get (same_length : v.length = w.length) (same : ∀ i, v.get i = w.get i) : v = w := by
  apply List.ext_getElem same_length
  intro i hv hw
  have at_i := same i
  rw [get, get, List.getElem?_eq_getElem hv, List.getElem?_eq_getElem hw] at at_i
  exact at_i

/-- Nothing changes if a slot gets the status that it holds. -/
theorem set_get (v : ValueSlots) (i : Nat) : List.set v i (v.get i) = v := by
  refine ext_get List.length_set fun j => ?_
  rw [get_set]
  split
  · rename_i same
    subst same
    split
    · rfl
    · rename_i outside
      rw [get, List.getElem?_eq_none (Nat.not_lt.mp outside)]
      rfl
  · rfl

end ValueSlots

namespace Slots

variable {s : Slots} {v : ValueSlots} {a b : Option Nat} {t : ByteStatus} {i j x : Nat}
  {r : List UInt8}

/-! ## The statuses in the slots -/

/-- The status that is kept at an address. -/
def status (s : Slots) : Option Nat → ByteStatus
  | some x => some (StatusRecord.code (s.record x), StatusRecord.message (s.record x))
  | none => none

/-- The statuses in all slots. -/
def values (s : Slots) : ValueSlots := s.slots.map s.status

@[simp] theorem length_values (s : Slots) : s.values.length = s.slots.length := List.length_map _

/-- The status in a slot is the one kept at its address. -/
theorem get_values (s : Slots) (i : Nat) : s.values.get i = s.status (s.address i) := by
  rw [ValueSlots.get, values, List.getElem?_map, address]
  cases s.slots[i]? <;> rfl

/-- What is seen of a slot is what is seen of its status. -/
theorem view_eq (s : Slots) (i : Nat) : s.view i = (s.values.get i).view := by
  rw [view, get_values]
  cases s.address i <;> rfl

/-- All that can be seen of the slots can be seen of their statuses. -/
theorem views_eq (s : Slots) : s.views = s.values.map ByteStatus.view := by
  apply List.ext_getElem (by simp [views])
  intro i inside _
  have in_row : i < s.values.length := by simpa [views] using inside
  simp [views, view_eq, ValueSlots.get, List.getElem?_eq_getElem in_row]

/-! ## Buffers of one's own -/

/-- Two that do not refer to the same buffer. -/
def Apart (a b : Option Nat) : Prop := ∀ x, a = some x → b ≠ some x

/-- Keeping apart is mutual. -/
theorem Apart.symm (h : Apart a b) : Apart b a := fun x b_eq a_eq => h x a_eq b_eq

/-- Who refers to no buffer keeps apart from everybody. -/
theorem apart_none (b : Option Nat) : Apart none b := nofun

/-- The buffer referred to, if any, is in use and has a whole record in it. -/
def Keeps (s : Slots) (a : Option Nat) : Prop :=
  ∀ x, a = some x → ∃ r, s.buffers[x]? = some (some r) ∧ StatusRecord.Whole r

/-- Every slot keeps a whole record in a buffer of its own. -/
structure Sound (s : Slots) : Prop where
  keeps : ∀ i, s.Keeps (s.address i)
  apart : ∀ i j, i ≠ j → Apart (s.address i) (s.address j)

/-- A temporary keeps a whole record in a buffer that no slot refers to. -/
structure Loose (s : Slots) (a : Option Nat) : Prop where
  keeps : s.Keeps a
  apart : ∀ i, Apart a (s.address i)

/-- The slots hold the statuses `v`, and a temporary holds the status `t`. -/
structure Carries (s : Slots) (v : ValueSlots) (a : Option Nat) (t : ByteStatus) : Prop where
  sound : s.Sound
  loose : s.Loose a
  values_eq : s.values = v
  status_eq : s.status a = t

/-- Slots alone, where the temporary holds plain success. -/
theorem Sound.carries_none (h : s.Sound) : s.Carries s.values none none where
  sound := h
  loose := ⟨nofun, fun _ => apart_none _⟩
  values_eq := rfl
  status_eq := rfl

/-- New slots refer to no buffer, so each buffer has at most one owner. -/
theorem sound_create (n : Nat) : (create n).Sound := by
  have empty (i : Nat) : (create n).address i = none := by
    rw [address, create, List.getElem?_replicate]
    split <;> rfl
  exact ⟨fun i => by rw [empty]; exact nofun, fun i j _ => by rw [empty]; exact apart_none _⟩

/-- New slots all hold the status of success. -/
theorem values_create (n : Nat) : (create n).values = ValueSlots.create n :=
  List.map_replicate

/-! ## A new buffer -/

/-- An address that is kept is one of a buffer. -/
theorem Keeps.lt (h : s.Keeps a) (refers : a = some x) : x < s.buffers.length := by
  obtain ⟨r, held, -⟩ := h x refers
  exact (List.getElem?_eq_some_iff.mp held).1

/-- A new buffer takes no address away. -/
theorem Keeps.allocate (h : s.Keeps a) (r : List UInt8) : (s.allocate r).1.Keeps a := by
  intro x refers
  obtain ⟨r', held, whole⟩ := h x refers
  exact ⟨r', (List.getElem?_append_left (h.lt refers)).trans held, whole⟩

/-- A new buffer changes no status that is kept. -/
theorem Keeps.status_allocate (h : s.Keeps a) (r : List UInt8) :
    (s.allocate r).1.status a = s.status a := by
  cases a with
  | none => rfl
  | some x =>
    have same : (s.allocate r).1.record x = s.record x := by
      rw [record, Slots.allocate, List.getElem?_append_left (h.lt rfl), record]
    rw [status, same, status]

/-- A new buffer is nobody's yet. -/
theorem Sound.carries_allocate (h : s.Sound) (whole : StatusRecord.Whole r) :
    (s.allocate r).1.Carries s.values (s.allocate r).2
      (some (StatusRecord.code r, StatusRecord.message r)) := by
  have filled : (s.allocate r).1.buffers[s.buffers.length]? = some (some r) :=
    List.getElem?_concat_length
  refine ⟨⟨fun i => (h.keeps i).allocate r, h.apart⟩, ⟨?_, ?_⟩, ?_, ?_⟩
  · rintro x ⟨⟩
    exact ⟨r, filled, whole⟩
  · rintro i x ⟨⟩ refers
    exact Nat.lt_irrefl _ ((h.keeps i).lt refers)
  · refine ValueSlots.ext_get (by simp [Slots.allocate]) fun i => ?_
    rw [get_values, get_values]
    exact (h.keeps i).status_allocate r
  · rw [Slots.allocate] at filled ⊢
    rw [status, record, filled]
    rfl

/-- A copy has a buffer of its own. -/
theorem Sound.carries_clone (h : s.Sound) (i : Nat) :
    (s.clone (s.address i)).1.Carries s.values (s.clone (s.address i)).2 (s.values.get i) := by
  rw [get_values]
  cases refers : s.address i with
  | none => exact h.carries_none
  | some x =>
    obtain ⟨r, held, whole⟩ := h.keeps i x refers
    have record_eq : s.record x = r := by
      rw [record, held]
      rfl
    rw [clone, status, record_eq, whole.copy_eq]
    exact h.carries_allocate whole

/-! ## A buffer given back -/

/-- Giving one buffer back leaves the other addresses. -/
theorem Keeps.free (h : s.Keeps b) (apart : Apart a b) : (s.free a).Keeps b := by
  cases a with
  | none => exact h
  | some x =>
    intro y refers
    obtain ⟨r, held, whole⟩ := h y refers
    have other : x ≠ y := fun same => apart x rfl (same ▸ refers)
    exact ⟨r, (List.getElem?_set_ne other).trans held, whole⟩

/-- Giving one buffer back leaves the statuses at other addresses. -/
theorem status_free (apart : Apart a b) : (s.free a).status b = s.status b := by
  cases a with
  | none => rfl
  | some x =>
    cases b with
    | none => rfl
    | some y =>
      have other : x ≠ y := fun same => apart x rfl (same ▸ rfl)
      have same : (s.free (some x)).record y = s.record y := by
        rw [record, Slots.free, List.getElem?_set_ne other, record]
      rw [status, same, status]

theorem slots_free (s : Slots) (a : Option Nat) : (s.free a).slots = s.slots := by
  cases a <;> rfl

theorem address_free (s : Slots) (a : Option Nat) (i : Nat) :
    (s.free a).address i = s.address i := by
  rw [address, slots_free, address]

/-! ## A buffer handed over -/

/-- Only the slot that is pointed elsewhere gets another address. -/
theorem address_point (s : Slots) (i j : Nat) (a : Option Nat) :
    (s.point i a).address j =
      if j = i then if i < s.slots.length then a else none else s.address j :=
  getD_set s.slots i j a

/-- Only the slot whose buffer is replaced gets another address. -/
theorem address_replace (s : Slots) (i j : Nat) (a : Option Nat) :
    (s.replace i a).address j =
      if j = i then if i < s.slots.length then a else none else s.address j := by
  rw [replace, address_point, address_free, slots_free]

/-- A slot that is pointed at a buffer holds the status kept there. -/
theorem values_point (s : Slots) (i : Nat) (a : Option Nat) :
    (s.point i a).values = List.set s.values i (s.status a) :=
  List.map_set

/-- Replacing the buffer of one slot leaves the statuses at other addresses. -/
theorem status_replace (apart : Apart (s.address i) b) (a : Option Nat) :
    (s.replace i a).status b = s.status b :=
  status_free apart

/-- A temporary stays out of reach of the slots when one of them is emptied. -/
theorem Loose.point_none (h : s.Loose a) (i : Nat) : (s.point i none).Loose a := by
  refine ⟨h.keeps, fun j => ?_⟩
  rw [address_point, ite_self]
  split
  · exact (apart_none a).symm
  · exact h.apart j

/-- A temporary stays out of reach of the slots when one of them gets another buffer. -/
theorem Loose.replace (h : s.Loose b) (apart : Apart b a) (i : Nat) : (s.replace i a).Loose b := by
  refine ⟨h.keeps.free (h.apart i).symm, fun j => ?_⟩
  rw [address_replace]
  split
  · split
    · exact apart
    · exact (apart_none b).symm
  · exact h.apart j

/-- What is taken out of a slot is loose, and the slot then holds plain success. -/
theorem Sound.carries_take (h : s.Sound) (i : Nat) :
    (s.take i).1.Carries (List.set s.values i none) (s.take i).2 (s.values.get i) := by
  refine ⟨⟨fun j => ?_, fun j k different => ?_⟩, ⟨h.keeps i, fun j => ?_⟩, values_point s i none,
    (get_values s i).symm⟩
  · rw [take, address_point, ite_self]
    split
    · exact nofun
    · exact h.keeps j
  · rw [take, address_point, address_point, ite_self]
    split
    · exact apart_none _
    · split
      · exact (apart_none _).symm
      · exact h.apart j k different
  · rw [take, address_point, ite_self]
    split
    · exact (apart_none _).symm
    · rename_i other
      exact h.apart i j (Ne.symm other)

/-- A slot gives its buffer back and gets that of the temporary, and with it the status. -/
theorem Carries.replace (h : s.Carries v a t) (i : Nat) :
    (s.replace i a).Sound ∧ (s.replace i a).values = List.set v i t := by
  obtain ⟨sound, loose, rfl, rfl⟩ := h
  refine ⟨⟨fun j => ?_, fun j k different => ?_⟩, ?_⟩
  · rw [address_replace]
    split
    · split
      · exact loose.keeps.free (loose.apart i).symm
      · exact nofun
    · rename_i other
      exact (sound.keeps j).free (sound.apart i j (Ne.symm other))
  · rw [address_replace, address_replace]
    by_cases at_j : j = i
    · have other : k ≠ i := fun at_k => different (at_j.trans at_k.symm)
      rw [if_pos at_j, if_neg other]
      split
      · exact loose.apart k
      · exact apart_none _
    · rw [if_neg at_j]
      split
      · split
        · exact (loose.apart j).symm
        · exact (apart_none _).symm
      · exact sound.apart j k different
  -- whatever the buffer given back held, only slot `i` could show it
  · rw [Slots.replace, values_point, status_free (loose.apart i).symm]
    refine ValueSlots.ext_get (by simp [slots_free]) fun j => ?_
    rw [ValueSlots.get_set, ValueSlots.get_set, length_values, length_values, slots_free]
    split
    · rfl
    · rename_i other
      rw [get_values, get_values, address_free]
      exact status_free (sound.apart i j (Ne.symm other))

/-- Moving one slot into another is taking the one out and putting it into the other. -/
theorem moveInto_eq {dst src : Nat} (different : dst ≠ src) :
    s.moveInto dst src = (s.take src).1.replace dst (s.take src).2 := by
  have same : (s.point src none).address dst = s.address dst := by
    rw [address_point, if_neg different]
  rw [moveInto, if_neg different, take, Slots.replace, Slots.replace, same]
  cases s.address dst <;>
    rw [free, free, point, point, point, point, List.set_comm _ _ different]

/-- A temporary can wait while one slot is moved into another. -/
theorem Carries.moveInto (h : s.Carries v a t) {dst src : Nat} (different : dst ≠ src) :
    (s.moveInto dst src).Carries (List.set (List.set v src none) dst (v.get src)) a t := by
  obtain ⟨sound, loose, rfl, rfl⟩ := h
  rw [moveInto_eq different]
  -- now there are two temporaries, and they are apart because the second was still in its slot
  have waiting := loose.point_none src
  have moved := (sound.carries_take src).replace dst
  exact ⟨moved.1, waiting.replace (loose.apart src) dst, moved.2,
    status_replace (waiting.apart dst).symm _⟩

end Slots

end TaskPools
