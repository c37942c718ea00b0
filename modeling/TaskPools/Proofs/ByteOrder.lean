/-
# The order of names is the order of their bytes

Names are ordered character by character.  In UTF-8 a greater character has a longer encoding, which
begins with a greater byte, or one of the same length with a greater digit where the two first
differ (`encode_lt`).  So a list of names that ascends also ascends byte by byte (`bytesOf_lt`).
-/
import Mathlib.Data.String.Basic

namespace TaskPools

/-- The bytes of a text in UTF-8. -/
def bytesOf (s : String) : List UInt8 := s.toByteArray.data.toList

theorem bytesOf_eq (s : String) : bytesOf s = s.toList.flatMap String.utf8EncodeChar := by
  rw [bytesOf, ← String.utf8Encode_toList]
  exact List.toList_data_toByteArray

theorem bytesOf_append (s t : String) : bytesOf (s ++ t) = bytesOf s ++ bytesOf t := by
  rw [bytesOf_eq, bytesOf_eq, bytesOf_eq, String.toList_append, List.flatMap_append]

/-- Of two numbers one is less before the last digit, or they agree there and the last digit
decides. -/
theorem lt_by_digit {v w : Nat} (k : Nat) (h : v < w) :
    v / k < w / k ∨ v / k = w / k ∧ v % k < w % k := by
  rcases Nat.lt_or_eq_of_le (Nat.div_le_div_right (c := k) h.le) with before | same
  · exact Or.inl before
  · have hv := Nat.div_add_mod v k
    have hw := Nat.div_add_mod w k
    rw [same] at hv
    exact Or.inr ⟨same, by omega⟩

/-- Of two characters the lesser one has the lesser bytes, whatever follows. -/
theorem encode_lt {c d : Char} (h : c < d) (l m : List UInt8) :
    String.utf8EncodeChar c ++ l < String.utf8EncodeChar d ++ m := by
  have hlt : c.val.toNat < d.val.toNat := UInt32.lt_iff_toNat_lt.mp h
  have hmax : d.val.toNat < 0x110000 := by
    rcases d.valid with low | ⟨-, high⟩
    · exact Nat.lt_trans low (by decide)
    · exact high
  -- the digits have six bits each
  have last := lt_by_digit 64 hlt
  have third := lt_by_digit 4096 hlt
  have second := lt_by_digit 262144 hlt
  unfold String.utf8EncodeChar
  generalize c.val.toNat = v at *
  generalize d.val.toNat = w at *
  simp only
  split_ifs <;>
    simp (disch := omega) only [List.cons_append, List.nil_append, List.cons_lt_cons_iff,
      UInt8.lt_iff_toNat_lt, ← UInt8.toNat_inj, UInt8.toNat_ofNat', Nat.mod_eq_of_lt] <;>
    omega

theorem encodeAll_lt {l m : List Char} (h : l < m) :
    l.flatMap String.utf8EncodeChar < m.flatMap String.utf8EncodeChar := by
  induction h with
  | nil =>
    rename_i c m
    rw [List.flatMap_nil, List.flatMap_cons]
    have first := String.length_utf8EncodeChar c
    have positive := c.utf8Size_pos
    cases hc : String.utf8EncodeChar c with
    | nil =>
      rw [hc, List.length_nil] at first
      omega
    | cons b bs => exact List.nil_lt_cons b _
  | rel hlt =>
    rw [List.flatMap_cons, List.flatMap_cons]
    exact encode_lt hlt _ _
  | cons _ ih =>
    rw [List.flatMap_cons, List.flatMap_cons]
    exact List.append_left_lt ih

/-- Of two texts the lesser one has the lesser bytes. -/
theorem bytesOf_lt {s t : String} (h : s < t) : bytesOf s < bytesOf t := by
  rw [bytesOf_eq, bytesOf_eq]
  exact encodeAll_lt h

end TaskPools
