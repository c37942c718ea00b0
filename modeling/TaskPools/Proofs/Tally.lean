/-
# Counting the places in a list

Workers, submissions and calls stand in lists, by number, and a step puts one of them to another
place or adds one at the end.  The lemmas here say what that does to a count over the list: nothing
that does not belong to the one entry that moved.
-/
import Mathlib.Algebra.GroupWithZero.Nat
import Mathlib.Data.List.Forall2

namespace TaskPools

variable {α β : Type}

/-- Putting one entry to another place takes the old one out of a count and the new one in. -/
theorem countP_set_add (f : α → Bool) {l : List α} {i : Nat} {a : α} (h : l[i]? = some a) (b : α) :
    (l.set i b).countP f + (f a).toNat = l.countP f + (f b).toNat := by
  induction l generalizing i with
  | nil => simp at h
  | cons x l ih =>
    cases i with
    | zero =>
      simp only [List.getElem?_cons_zero, Option.some.injEq] at h
      subst h
      rw [List.set_cons_zero, List.countP_cons, List.countP_cons]
      cases f x <;> cases f b <;> simp
    | succ i =>
      rw [List.getElem?_cons_succ] at h
      rw [List.set_cons_succ, List.countP_cons, List.countP_cons]
      have := ih h
      omega

/-- The same of a sum. -/
theorem sum_map_set_add (f : α → Nat) {l : List α} {i : Nat} {a : α} (h : l[i]? = some a) (b : α) :
    ((l.set i b).map f).sum + f a = (l.map f).sum + f b := by
  induction l generalizing i with
  | nil => simp at h
  | cons x l ih =>
    cases i with
    | zero =>
      simp only [List.getElem?_cons_zero, Option.some.injEq] at h
      subst h
      simp only [List.set_cons_zero, List.map_cons, List.sum_cons]
      omega
    | succ i =>
      rw [List.getElem?_cons_succ] at h
      have := ih h
      simp only [List.set_cons_succ, List.map_cons, List.sum_cons]
      omega

/-- An entry that counts makes the count positive. -/
theorem countP_pos_of_getElem? {f : α → Bool} {l : List α} {i : Nat} {a : α} (h : l[i]? = some a)
    (ha : f a = true) : 0 < l.countP f :=
  List.countP_pos_iff.mpr ⟨a, List.mem_of_getElem? h, ha⟩

/-- No entry counts if and only if none does at any index. -/
theorem countP_eq_zero_iff_any {f : α → Bool} {l : List α} :
    l.countP f = 0 ↔ ∀ i : Nat, (l[i]?).any f = false := by
  rw [List.countP_eq_zero]
  constructor
  · intro none_counts i
    cases at_i : l[i]? with
    | none => rfl
    | some a => simpa using none_counts a (List.mem_of_getElem? at_i)
  · intro none_counts a ha
    obtain ⟨i, at_i⟩ := List.getElem?_of_mem ha
    have at_a := none_counts i
    rw [at_i] at at_a
    simpa using at_a

/-- To count the entries of a list is to count their indices. -/
theorem countP_range_getElem? (f : α → Bool) (l : List α) :
    (List.range l.length).countP (fun i => (l[i]?).any f) = l.countP f := by
  induction l with
  | nil => rfl
  | cons a l ih =>
    rw [List.length_cons, List.range_succ_eq_map, List.countP_cons, List.countP_map,
      List.countP_cons, ← ih]
    rfl

/-- What is counted falls into two kinds. -/
theorem countP_eq_add {f g h : α → Bool} {l : List α}
    (split : ∀ a ∈ l, (f a).toNat = (g a).toNat + (h a).toNat) :
    l.countP f = l.countP g + l.countP h := by
  induction l with
  | nil => rfl
  | cons a l ih =>
    have first := split a List.mem_cons_self
    have rest := ih fun b hb => split b (List.mem_cons_of_mem a hb)
    simp only [List.countP_cons, rest]
    cases hf : f a <;> cases hg : g a <;> cases hh : h a <;> simp_all <;> omega

/-- A list of seven entries, entry by entry. -/
theorem exists_of_length_eq_seven {l : List α} (h : l.length = 7) :
    ∃ a b c d e f g, l = [a, b, c, d, e, f, g] :=
  let [a, b, c, d, e, f, g] := l
  ⟨a, b, c, d, e, f, g, rfl⟩

/-- An entry added at the end is found behind all others. -/
theorem getElem?_append_one (l : List α) (a : α) (i : Nat) :
    (l ++ [a])[i]? = if i = l.length then some a else l[i]? := by
  by_cases hi : i = l.length
  · rw [if_pos hi, hi, List.getElem?_concat_length]
  · rw [if_neg hi]
    rcases Nat.lt_or_gt_of_ne hi with h | h
    · exact List.getElem?_append_left h
    · rw [List.getElem?_eq_none, List.getElem?_eq_none]
      · exact Nat.le_of_lt h
      · rw [List.length_append]
        exact h

/-- An entry put to another place is found there, and every other one where it was. -/
theorem getElem?_set_at {l : List α} {i : Nat} {a : α} (h : l[i]? = some a) (b : α) (j : Nat) :
    (l.set i b)[j]? = if j = i then some b else l[j]? := by
  by_cases hj : j = i
  · rw [if_pos hj, hj]
    exact List.getElem?_set_self (List.getElem?_eq_some_iff.mp h).1
  · rw [if_neg hj]
    exact List.getElem?_set_ne (Ne.symm hj)

/-- An entry that now has more belonging to it adds just that to the whole. -/
theorem flatMap_set_perm (g : α → List β) {l : List α} {i : Nat} {a b : α} {more : List β}
    (h : l[i]? = some a) (hb : g b = g a ++ more) :
    ((l.set i b).flatMap g).Perm (l.flatMap g ++ more) := by
  induction l generalizing i with
  | nil => simp at h
  | cons x l ih =>
    cases i with
    | zero =>
      simp only [List.getElem?_cons_zero, Option.some.injEq] at h
      subst h
      rw [List.set_cons_zero, List.flatMap_cons, List.flatMap_cons, hb, List.append_assoc,
        List.append_assoc]
      exact List.perm_append_comm.append_left (g x)
    | succ i =>
      rw [List.getElem?_cons_succ] at h
      rw [List.set_cons_succ, List.flatMap_cons, List.flatMap_cons, List.append_assoc]
      exact (ih h).append_left (g x)

/-- An entry that stands for the same as before leaves the whole as it is. -/
theorem flatMap_set_same (g : α → List β) {l : List α} {i : Nat} {a b : α} (h : l[i]? = some a)
    (hb : g b = g a) : (l.set i b).flatMap g = l.flatMap g := by
  obtain ⟨in_range, rfl⟩ := List.getElem?_eq_some_iff.mp h
  rw [List.flatMap_def, List.flatMap_def, List.map_set, hb]
  congr 1
  rw [← List.getElem_map g, List.set_getElem_self]
  rw [List.length_map]
  exact in_range

theorem mem_flatMap_set (g : α → List β) {l : List α} {i : Nat} {a : α} {b : β}
    (h : b ∈ (l.set i a).flatMap g) : b ∈ g a ∨ b ∈ l.flatMap g := by
  obtain ⟨x, hx, hb⟩ := List.mem_flatMap.mp h
  rcases List.mem_or_eq_of_mem_set hx with before | rfl
  · exact Or.inr (List.mem_flatMap.mpr ⟨x, before, hb⟩)
  · exact Or.inl hb

/-- Putting one entry to another place takes what belonged to it out of the whole and puts in what
belongs to it there. -/
theorem count_flatMap_set [BEq β] (g : α → List β) (b : β) {l : List α} {i : Nat} {a : α}
    (h : l[i]? = some a) (a' : α) :
    ((l.set i a').flatMap g).count b + (g a).count b = (l.flatMap g).count b + (g a').count b := by
  rw [List.count_flatMap, List.count_flatMap]
  exact sum_map_set_add (List.count b ∘ g) h a'

/-- What counts no more in each part counts no more in the whole. -/
theorem countP_flatMap_le {g h : α → List β} (f : β → Bool) {l : List α}
    (hle : ∀ a ∈ l, (g a).countP f ≤ (h a).countP f) :
    (l.flatMap g).countP f ≤ (l.flatMap h).countP f := by
  induction l with
  | nil => exact Nat.le_refl _
  | cons x l ih =>
    rw [List.flatMap_cons, List.flatMap_cons, List.countP_append, List.countP_append]
    exact Nat.add_le_add (hle x List.mem_cons_self)
      (ih fun a ha => hle a (List.mem_cons_of_mem x ha))

/-- A change of one call takes what belonged to it out of the whole and puts in what belongs to it
now. -/
theorem count_flatMap_modify [BEq β] (g : α → List β) (f : α → α) (b : β) {l : List α} {i : Nat}
    {a : α} (h : l[i]? = some a) :
    ((l.modify i f).flatMap g).count b + (g a).count b
      = (l.flatMap g).count b + (g (f a)).count b := by
  induction l generalizing i with
  | nil => simp at h
  | cons x l ih =>
    cases i with
    | zero =>
      simp only [List.getElem?_cons_zero, Option.some.injEq] at h
      subst h
      rw [List.modify_zero_cons, List.flatMap_cons, List.flatMap_cons, List.count_append,
        List.count_append]
      omega
    | succ i =>
      rw [List.getElem?_cons_succ] at h
      rw [List.modify_succ_cons, List.flatMap_cons, List.flatMap_cons, List.count_append,
        List.count_append]
      have := ih h
      omega

/-- What counts only once in the whole belongs to one entry only. -/
theorem eq_of_mem_flatMap [BEq β] [LawfulBEq β] (g : α → List β) {b : β} {l : List α} {i j : Nat}
    {x y : α} (hi : l[i]? = some x) (hj : l[j]? = some y) (hx : b ∈ g x) (hy : b ∈ g y)
    (once : (l.flatMap g).count b ≤ 1) : i = j := by
  have later {l : List α} {i : Nat} {x : α} (hi : l[i]? = some x) (hx : b ∈ g x) :
      0 < (l.flatMap g).count b :=
    List.count_pos_iff.mpr (List.mem_flatMap.mpr ⟨x, List.mem_of_getElem? hi, hx⟩)
  induction l generalizing i j with
  | nil => cases hi
  | cons z l ih =>
    rw [List.flatMap_cons, List.count_append] at once
    cases i with
    | zero =>
      cases j with
      | zero => rfl
      | succ j =>
        obtain rfl : z = x := Option.some.inj hi
        rw [List.getElem?_cons_succ] at hj
        have := List.count_pos_iff.mpr hx
        have := later hj hy
        omega
    | succ i =>
      cases j with
      | zero =>
        obtain rfl : z = y := Option.some.inj hj
        rw [List.getElem?_cons_succ] at hi
        have := List.count_pos_iff.mpr hy
        have := later hi hx
        omega
      | succ j => rw [ih hi hj (by omega)]

/-! ## A list behind another -/

/-- Behind other entries each entry keeps its place, counted from their end. -/
theorem getElem?_append_add (l l' : List α) (i : Nat) : (l ++ l')[l.length + i]? = l'[i]? := by
  rw [List.getElem?_append_right (Nat.le_add_right _ _), Nat.add_sub_cancel_left]

theorem set_append_add (l l' : List α) (i : Nat) (a : α) :
    (l ++ l').set (l.length + i) a = l ++ l'.set i a := by
  rw [List.set_append_right _ _ (Nat.le_add_right _ _), Nat.add_sub_cancel_left]

theorem modify_append_add (l l' : List α) (i : Nat) (f : α → α) :
    (l ++ l').modify (l.length + i) f = l ++ l'.modify i f := by
  induction l with
  | nil => rw [List.length_nil, Nat.zero_add, List.nil_append, List.nil_append]
  | cons a l ih => rw [List.length_cons, Nat.add_right_comm, List.cons_append,
      List.modify_succ_cons, ih, List.cons_append]

theorem modify_append_left (l l' : List α) {i : Nat} (hi : i < l.length) (f : α → α) :
    (l ++ l').modify i f = l.modify i f ++ l' := by
  induction l generalizing i with
  | nil => cases hi
  | cons a l ih =>
    cases i with
    | zero => rfl
    | succ i =>
      rw [List.cons_append, List.modify_succ_cons, List.modify_succ_cons,
        ih (Nat.lt_of_succ_lt_succ hi), List.cons_append]

/-- An entry may be changed before or after the whole list is mapped. -/
theorem modify_map {g : α → β} {f : α → α} {k : β → β} (h : ∀ a, k (g a) = g (f a)) (l : List α)
    (i : Nat) : (l.map g).modify i k = (l.modify i f).map g := by
  induction l generalizing i with
  | nil => rw [List.modify_nil, List.map_nil, List.modify_nil]
  | cons a l ih =>
    cases i with
    | zero => exact congrArg (· :: l.map g) (h a)
    | succ i => exact congrArg (g a :: ·) (ih i)

/-- Where an entry is always changed to the same, it is replaced in what the list maps to. -/
theorem map_modify_const {g : α → β} {f : α → α} {b : β} (h : ∀ a, g (f a) = b) (l : List α)
    (i : Nat) : (l.modify i f).map g = (l.map g).set i b := by
  induction l generalizing i with
  | nil => rw [List.modify_nil, List.map_nil, List.set_nil]
  | cons a l ih =>
    cases i with
    | zero => exact congrArg (· :: l.map g) (h a)
    | succ i => exact congrArg (g a :: ·) (ih i)

/-! ## The entries of one kind -/

/-- An entry of a kind stands among those of its kind behind as many as stand before it. -/
theorem getElem?_filter_countP (p : α → Bool) {l : List α} {i : Nat} {a : α} (at_i : l[i]? = some a)
    (ha : p a = true) : (l.filter p)[(l.take i).countP p]? = some a := by
  induction l generalizing i with
  | nil => cases at_i
  | cons x l ih =>
    cases i with
    | zero =>
      cases at_i
      rw [List.filter_cons_of_pos ha, List.take_zero, List.countP_nil, List.getElem?_cons_zero]
    | succ i =>
      rw [List.getElem?_cons_succ] at at_i
      rw [List.take_succ_cons]
      cases hx : p x with
      | true =>
        rw [List.filter_cons_of_pos hx, List.countP_cons_of_pos hx, List.getElem?_cons_succ]
        exact ih at_i
      | false =>
        have neg : ¬ p x = true := by rw [hx]; nofun
        rw [List.filter_cons_of_neg neg, List.countP_cons_of_neg neg]
        exact ih at_i

/-- An entry among those of a kind is one of the list, behind as many of its kind. -/
theorem exists_of_getElem?_filter (p : α → Bool) {l : List α} {k : Nat} {a : α}
    (at_k : (l.filter p)[k]? = some a) :
    ∃ i, l[i]? = some a ∧ (l.take i).countP p = k ∧ p a = true := by
  induction l generalizing k with
  | nil => cases at_k
  | cons x l ih =>
    cases hx : p x with
    | true =>
      rw [List.filter_cons_of_pos hx] at at_k
      cases k with
      | zero =>
        cases at_k
        exact ⟨0, rfl, rfl, hx⟩
      | succ k =>
        obtain ⟨i, at_i, count_eq, ha⟩ := ih (List.getElem?_cons_succ ▸ at_k)
        refine ⟨i + 1, List.getElem?_cons_succ.trans at_i, ?_, ha⟩
        rw [List.take_succ_cons, List.countP_cons_of_pos hx, count_eq]
    | false =>
      have neg : ¬ p x = true := by rw [hx]; nofun
      rw [List.filter_cons_of_neg neg] at at_k
      obtain ⟨i, at_i, count_eq, ha⟩ := ih at_k
      refine ⟨i + 1, List.getElem?_cons_succ.trans at_i, ?_, ha⟩
      rw [List.take_succ_cons, List.countP_cons_of_neg neg, count_eq]

/-- An entry that stays of its kind is replaced among those of its kind. -/
theorem filter_set_of_pos (p : α → Bool) {l : List α} {i : Nat} {a b : α} (at_i : l[i]? = some a)
    (ha : p a = true) (hb : p b = true) :
    (l.set i b).filter p = (l.filter p).set ((l.take i).countP p) b := by
  induction l generalizing i with
  | nil => cases at_i
  | cons x l ih =>
    cases i with
    | zero =>
      cases at_i
      rw [List.set_cons_zero, List.filter_cons_of_pos hb, List.filter_cons_of_pos ha,
        List.take_zero, List.countP_nil, List.set_cons_zero]
    | succ i =>
      rw [List.getElem?_cons_succ] at at_i
      rw [List.set_cons_succ, List.take_succ_cons]
      cases hx : p x with
      | true =>
        rw [List.filter_cons_of_pos hx, List.filter_cons_of_pos hx, List.countP_cons_of_pos hx,
          List.set_cons_succ, ih at_i]
      | false =>
        have neg : ¬ p x = true := by rw [hx]; nofun
        rw [List.filter_cons_of_neg neg, List.filter_cons_of_neg neg, List.countP_cons_of_neg neg,
          ih at_i]

/-- An entry of another kind may be replaced by one of another kind. -/
theorem filter_set_of_neg (p : α → Bool) {l : List α} {i : Nat} {a b : α} (at_i : l[i]? = some a)
    (ha : p a = false) (hb : p b = false) : (l.set i b).filter p = l.filter p := by
  have not_a : ¬ p a = true := by rw [ha]; nofun
  have not_b : ¬ p b = true := by rw [hb]; nofun
  induction l generalizing i with
  | nil => cases at_i
  | cons x l ih =>
    cases i with
    | zero =>
      cases at_i
      rw [List.set_cons_zero, List.filter_cons_of_neg not_b, List.filter_cons_of_neg not_a]
    | succ i =>
      rw [List.getElem?_cons_succ] at at_i
      rw [List.set_cons_succ, List.filter_cons, List.filter_cons, ih at_i]

/-! ## Two lists, entry by entry -/

/-- One entry goes on, and what it was related to stays related to it. -/
theorem forall₂_set {R : α → β → Prop} {l : List α} {m : List β} (h : List.Forall₂ R l m) {i : Nat}
    {b c : β} (at_i : m[i]? = some b) (hc : ∀ a, R a b → R a c) : List.Forall₂ R l (m.set i c) := by
  induction h generalizing i with
  | nil => cases at_i
  | cons hab rest ih =>
    cases i with
    | zero =>
      cases at_i
      exact List.Forall₂.cons (hc _ hab) rest
    | succ i =>
      rw [List.getElem?_cons_succ] at at_i
      exact List.Forall₂.cons hab (ih at_i)

theorem exists_of_forall₂ {R : α → β → Prop} {l : List α} {m : List β} (h : List.Forall₂ R l m)
    {b : β} (hb : b ∈ m) : ∃ a ∈ l, R a b := by
  induction h with
  | nil => cases hb
  | cons hab rest ih =>
    rcases List.mem_cons.mp hb with rfl | hb
    · exact ⟨_, List.mem_cons_self, hab⟩
    · obtain ⟨a, ha, hab⟩ := ih hb
      exact ⟨a, List.mem_cons_of_mem _ ha, hab⟩

end TaskPools
