/-
# Which bytes are the text of an integer

The text of an integer is blanks, an optional sign and at least one decimal digit
(`Integer.Numeral`).  What `Integer.scan` finds at the front of a value is the longest beginning
that is the text of an integer (`scan_eq_some_iff`).  The word of 64 bits that the number becomes
tells whether a word of 32 bits can hold it (`isCut_iff`), and so `Integer.read` accepts exactly the
texts of the integers between its limits (`read_eq_ok_iff`) and blames every other value for the
first thing that is wrong with it (`read_eq_error_iff`).
-/
import Mathlib.Data.List.Induction
import Mathlib.Data.List.TakeWhile
import TaskPools.Environment
import TaskPools.Proofs.ByteOrder

namespace TaskPools

namespace Integer

/-! ## The grammar -/

/-- The blanks: the space, the tab, the line feed, the vertical tab, the form feed and the carriage
return. -/
def blanks : List UInt8 := [32, 9, 10, 11, 12, 13]

/-- The byte of a decimal digit. -/
def digitByte (d : Nat) : UInt8 := UInt8.ofNat (48 + d)

/-- The bytes are decimal digits of the number, which may have zeros in front. -/
inductive Decimal : List UInt8 → Nat → Prop where
  | digit (d : Nat) (lt : d < 10) : Decimal [digitByte d] d
  | append (s : List UInt8) (n d : Nat) (front : Decimal s n) (lt : d < 10) :
      Decimal (s ++ [digitByte d]) (10 * n + d)

/-- The bytes are a sign, or none, that multiplies a number by this factor. -/
inductive Sign : List UInt8 → Int → Prop where
  | absent : Sign [] 1
  | plus : Sign [43] 1
  | minus : Sign [45] (-1)

/-- The bytes are the text of the integer: blanks, a sign or none, and digits up to the end. -/
inductive Numeral : List UInt8 → Int → Prop where
  | intro (front sign digits : List UInt8) (factor : Int) (n : Nat)
      (blank : ∀ b ∈ front, b ∈ blanks) (signed : Sign sign factor) (decimal : Decimal digits n) :
      Numeral (front ++ (sign ++ digits)) (factor * n)

/-- Of the beginnings of `s` that are the text of an integer, `p` is the longest, and it is that of
`v`. -/
structure LongestNumeral (s p : List UInt8) (v : Int) : Prop where
  front : p <+: s
  numeral : Numeral p v
  longest : ∀ q w, q <+: s → Numeral q w → q.length ≤ p.length

/-- The longest beginning that is the text of an integer is that of one which no word of 32 bits can
hold, whatever follows it. -/
def Oversized (s : List UInt8) : Prop :=
  ∃ p v, LongestNumeral s p v ∧ ¬ (-2147483648 ≤ v ∧ v ≤ 2147483647)

/-- The first thing that is wrong with a value which is not the text of an integer between `lo` and
`hi`. -/
def Faulty (lo hi : Int32) (s : List UInt8) : IntegerFault → Prop
  | .overflow => Oversized s
  | .malformed => ¬ Oversized s ∧ ∀ v, ¬ Numeral s v
  | .outOfRange => ¬ Oversized s ∧ ∃ v, Numeral s v ∧ ¬ (lo.toInt ≤ v ∧ v ≤ hi.toInt)

variable {s p front sgn digits rest : List UInt8} {b : UInt8} {d n : Nat} {v w factor : Int}

/-! ## Blanks, digits and signs -/

theorem isBlank_iff : isBlank b = true ↔ b ∈ blanks := by
  simp only [isBlank, blanks, Bool.or_eq_true, beq_iff_eq, Bool.and_eq_true, decide_eq_true_eq,
    UInt8.le_iff_toNat_le, List.mem_cons, List.not_mem_nil, or_false, ← UInt8.toNat_inj,
    UInt8.reduceToNat]
  omega

theorem isDigit_iff : isDigit b = true ↔ 48 ≤ b.toNat ∧ b.toNat ≤ 57 := by
  simp only [isDigit, Bool.and_eq_true, decide_eq_true_eq, UInt8.le_iff_toNat_le,
    UInt8.reduceToNat]

theorem toNat_digitByte (lt : d < 10) : (digitByte d).toNat = 48 + d := by
  rw [digitByte, UInt8.toNat_ofNat']
  omega

/-- The byte of a digit is a digit. -/
theorem isDigit_digitByte (lt : d < 10) : isDigit (digitByte d) = true := by
  rw [isDigit_iff, toNat_digitByte lt]
  omega

/-- Every digit is the byte of its value. -/
theorem digitByte_of_isDigit (h : isDigit b = true) : b = digitByte (b.toNat - 48) := by
  have bounds := isDigit_iff.mp h
  rw [← UInt8.toNat_inj, toNat_digitByte (by omega)]
  omega

/-- No digit is a blank. -/
theorem isBlank_of_isDigit (h : isDigit b = true) : isBlank b = false := by
  have bounds := isDigit_iff.mp h
  rw [Bool.eq_false_iff, ne_eq, isBlank_iff]
  intro blank
  simp only [blanks, List.mem_cons, List.not_mem_nil, or_false, ← UInt8.toNat_inj,
    UInt8.reduceToNat] at blank
  omega

/-- A digit is no sign. -/
theorem sign_of_isDigit (h : isDigit b = true) : sign (b :: rest) = (false, b :: rest) := by
  unfold sign
  split
  · rename_i same
    cases same
    cases h
  · rename_i same
    cases same
    cases h
  · rfl

/-- In front of a digit the scanner finds the sign, or finds that there is none. -/
theorem sign_append (signed : Sign sgn factor) (h : isDigit b = true) (rest : List UInt8) :
    ∃ negative, sign (sgn ++ b :: rest) = (negative, b :: rest) ∧
      factor = if negative then -1 else 1 := by
  cases signed with
  | absent => exact ⟨false, sign_of_isDigit h, rfl⟩
  | plus => exact ⟨false, rfl, rfl⟩
  | minus => exact ⟨true, rfl, rfl⟩

/-- What is split off is a sign or nothing. -/
theorem exists_sign (s : List UInt8) :
    ∃ sgn, s = sgn ++ (sign s).2 ∧ Sign sgn (if (sign s).1 then -1 else 1) := by
  unfold sign
  split
  · exact ⟨[45], rfl, .minus⟩
  · exact ⟨[43], rfl, .plus⟩
  · exact ⟨[], rfl, .absent⟩

/-! ## The digits of a number -/

/-- One digit more makes the value ten times as large, and adds itself. -/
theorem value_append (s : List UInt8) (b : UInt8) :
    value (s ++ [b]) = 10 * value s + (b.toNat - 48) := by
  rw [value, List.foldl_append]
  rfl

/-- The scanner computes the number of which the bytes are the digits. -/
theorem Decimal.value_eq (h : Decimal s n) : value s = n := by
  induction h with
  | digit d lt =>
    have same := toNat_digitByte lt
    simp only [value, List.foldl_cons, List.foldl_nil]
    omega
  | append s n d front lt ih =>
    rw [value_append, ih, toNat_digitByte lt]
    omega

/-- The digits of a number are digits. -/
theorem Decimal.isDigit (h : Decimal s n) : ∀ b ∈ s, Integer.isDigit b = true := by
  induction h with
  | digit d lt => exact List.forall_mem_singleton.mpr (isDigit_digitByte lt)
  | append s n d front lt ih =>
    exact List.forall_mem_append.mpr ⟨ih, List.forall_mem_singleton.mpr (isDigit_digitByte lt)⟩

/-- No number is without digits. -/
theorem Decimal.ne_nil (h : Decimal s n) : s ≠ [] := by
  cases h with
  | digit => exact List.cons_ne_nil _ _
  | append => exact List.append_ne_nil_of_right_ne_nil _ (List.cons_ne_nil _ _)

/-- Digits are the digits of the number that they denote. -/
theorem decimal_value (some_digit : digits ≠ []) (all : ∀ b ∈ digits, isDigit b = true) :
    Decimal digits (value digits) := by
  induction digits using List.reverseRecOn with
  | nil => exact absurd rfl some_digit
  | append_singleton s b ih =>
    obtain ⟨before, last⟩ := List.forall_mem_append.mp all
    have digit := List.forall_mem_singleton.mp last
    have bounds := isDigit_iff.mp digit
    have lt : b.toNat - 48 < 10 := by omega
    have same : s ++ [b] = s ++ [digitByte (b.toNat - 48)] := by rw [← digitByte_of_isDigit digit]
    rw [value_append, same]
    by_cases only : s = []
    · subst only
      have zero : 10 * value [] + (b.toNat - 48) = b.toNat - 48 := Nat.zero_add _
      rw [zero]
      exact .digit _ lt
    · exact .append s _ _ (ih only before) lt

/-! ## The number at the front -/

/-- Behind blanks, a sign or none, and digits, a scan goes on to the last digit. -/
theorem scan_append (blank : ∀ b ∈ front, b ∈ blanks) (signed : Sign sgn factor)
    (decimal : Decimal digits n) (rest : List UInt8) :
    scan (front ++ (sgn ++ (digits ++ rest))) =
      some (factor * value (digits ++ rest.takeWhile isDigit), rest.dropWhile isDigit) := by
  obtain ⟨b, tail, rfl⟩ := List.exists_cons_of_ne_nil decimal.ne_nil
  have all := decimal.isDigit
  have first : isDigit b = true := all b List.mem_cons_self
  have skipped : (front ++ (sgn ++ (b :: tail ++ rest))).dropWhile isBlank =
      sgn ++ (b :: tail ++ rest) := by
    rw [List.dropWhile_append_of_pos fun b among => isBlank_iff.mpr (blank b among)]
    cases signed with
    | absent => exact List.dropWhile_cons_of_neg (by simp [isBlank_of_isDigit first])
    | plus => rfl
    | minus => rfl
  obtain ⟨negative, split_off, rfl⟩ := sign_append signed first (tail ++ rest)
  have taken : (b :: (tail ++ rest)).takeWhile isDigit = b :: (tail ++ rest.takeWhile isDigit) :=
    List.takeWhile_append_of_pos all
  have dropped : (b :: (tail ++ rest)).dropWhile isDigit = rest.dropWhile isDigit :=
    List.dropWhile_append_of_pos all
  rw [scan, skipped, List.cons_append, split_off]
  simp only [taken, dropped, List.cons_append]
  cases negative <;> simp

/-- What a scan finds is the text of an integer. -/
theorem exists_of_scan (h : scan s = some (v, rest)) : ∃ p, s = p ++ rest ∧ Numeral p v := by
  obtain ⟨sgn, unsigned, signed⟩ := exists_sign (s.dropWhile isBlank)
  simp only [scan] at h
  generalize sign (s.dropWhile isBlank) = split at h unsigned signed
  obtain ⟨negative, t⟩ := split
  simp only at h unsigned signed
  split at h
  · cases h
  · rename_i digits some_digit
    cases h
    have all : ∀ b ∈ t.takeWhile isDigit, isDigit b = true :=
      fun b among => List.mem_takeWhile_imp among
    have decimal := decimal_value (fun empty => some_digit empty) all
    have blank : ∀ b ∈ s.takeWhile isBlank, b ∈ blanks :=
      fun b among => isBlank_iff.mp (List.mem_takeWhile_imp among)
    refine ⟨s.takeWhile isBlank ++ (sgn ++ t.takeWhile isDigit), ?_, ?_⟩
    · rw [List.append_assoc, List.append_assoc, List.takeWhile_append_dropWhile, ← unsigned,
        List.takeWhile_append_dropWhile]
    · convert Numeral.intro _ _ _ _ _ blank signed decimal using 1
      cases negative <;> simp

/-- The text of an integer with more digits behind it is the text of another integer. -/
theorem Numeral.append (h : Numeral p v) (all : ∀ b ∈ digits, isDigit b = true) :
    ∃ w, Numeral (p ++ digits) w := by
  obtain ⟨front, sgn, before, factor, n, blank, signed, decimal⟩ := h
  have longer : Decimal (before ++ digits) (value (before ++ digits)) :=
    decimal_value (List.append_ne_nil_of_left_ne_nil decimal.ne_nil _)
      (List.forall_mem_append.mpr ⟨decimal.isDigit, all⟩)
  rw [List.append_assoc, List.append_assoc]
  exact ⟨_, .intro front sgn _ factor _ blank signed longer⟩

/-- A text of an integer at the front is found, up to the last of the digits that follow. -/
theorem Numeral.scan_append (h : Numeral p v) (rest : List UInt8) :
    ∃ w, scan (p ++ rest) = some (w, rest.dropWhile isDigit) ∧
      (rest.takeWhile isDigit = [] → w = v) := by
  obtain ⟨front, sgn, digits, factor, n, blank, signed, decimal⟩ := h
  have found := Integer.scan_append blank signed decimal rest
  rw [← List.append_assoc sgn, ← List.append_assoc front] at found
  refine ⟨_, found, fun none => ?_⟩
  rw [none, List.append_nil, decimal.value_eq]

/-- **A scan finds the longest beginning that is the text of an integer.** -/
theorem scan_eq_some_iff :
    scan s = some (v, rest) ↔ ∃ p, s = p ++ rest ∧ LongestNumeral s p v := by
  constructor
  · intro h
    obtain ⟨p, rfl, numeral⟩ := exists_of_scan h
    refine ⟨p, rfl, List.prefix_append p rest, numeral, ?_⟩
    rintro q w ⟨behind, same⟩ other
    obtain ⟨u, found, -⟩ := other.scan_append behind
    rw [same, h] at found
    cases found
    have fewer := List.length_dropWhile_le isDigit behind
    have lengths := congrArg List.length same
    simp only [List.length_append] at lengths
    omega
  · rintro ⟨p, rfl, longest⟩
    have all : ∀ b ∈ rest.takeWhile isDigit, isDigit b = true :=
      fun b among => List.mem_takeWhile_imp among
    -- with the digits that follow it would be longer
    have none : rest.takeWhile isDigit = [] := by
      obtain ⟨w, longer⟩ := longest.numeral.append all
      have front : p ++ rest.takeWhile isDigit <+: p ++ rest :=
        (List.prefix_append_right_inj p).mpr (List.takeWhile_prefix isDigit)
      have bound := longest.longest _ w front longer
      rw [List.length_append] at bound
      exact List.length_eq_zero_iff.mp (by omega)
    obtain ⟨w, found, same⟩ := longest.numeral.scan_append rest
    have all_rest := List.takeWhile_append_dropWhile (p := isDigit) (l := rest)
    rw [none, List.nil_append] at all_rest
    rw [found, same none, all_rest]

/-- The scanner gets through to the end for the texts of integers, and for these only. -/
theorem numeral_iff_scan : Numeral s v ↔ scan s = some (v, []) := by
  rw [scan_eq_some_iff]
  constructor
  · intro h
    exact ⟨s, (List.append_nil s).symm, List.prefix_rfl, h, fun q w front _ => front.length_le⟩
  · rintro ⟨p, same, longest⟩
    rw [List.append_nil] at same
    rw [same]
    exact longest.numeral

/-- The scanner stops behind a number that fits no word of 32 bits for oversized values, and for
these only. -/
theorem oversized_iff_scan :
    Oversized s ↔ ∃ v rest, scan s = some (v, rest) ∧ ¬ (-2147483648 ≤ v ∧ v ≤ 2147483647) := by
  constructor
  · rintro ⟨p, v, longest, outside⟩
    obtain ⟨rest, same⟩ := longest.front
    exact ⟨v, rest, scan_eq_some_iff.mpr ⟨p, same.symm, longest⟩, outside⟩
  · rintro ⟨v, rest, found, outside⟩
    obtain ⟨p, -, longest⟩ := scan_eq_some_iff.mp found
    exact ⟨p, v, longest, outside⟩

/-! ## The word for a number -/

/-- The word is one of 64 bits only: none of 32 bits can hold the number. -/
def IsCut (n : Int) : Prop :=
  (saturate n).2 = true ∨ Int32.maxValue.toInt64 < (saturate n).1 ∨
    (saturate n).1 < Int32.minValue.toInt64

/-- The number is cut off at 64 bits, or its word holds it. -/
theorem saturate_cases (n : Int) :
    ((saturate n).2 = true ∧ ¬ (-9223372036854775808 ≤ n ∧ n ≤ 9223372036854775807)) ∨
      saturate n = (Int64.ofInt n, false) ∧ (Int64.ofInt n).toInt = n := by
  have least : Int64.minValue.toInt = -9223372036854775808 := by decide
  have greatest : Int64.maxValue.toInt = 9223372036854775807 := by decide
  rw [saturate, least, greatest]
  split
  · exact Or.inl ⟨rfl, by omega⟩
  · split
    · exact Or.inl ⟨rfl, by omega⟩
    · exact Or.inr ⟨rfl, Int64.toInt_ofInt_of_le (by omega) (by omega)⟩

/-- What fits no word of 32 bits is what lies outside their limits. -/
theorem isCut_iff (n : Int) : IsCut n ↔ ¬ (-2147483648 ≤ n ∧ n ≤ 2147483647) := by
  have low : Int32.minValue.toInt64.toInt = -2147483648 := by decide
  have high : Int32.maxValue.toInt64.toInt = 2147483647 := by decide
  rcases saturate_cases n with ⟨cut, outside⟩ | ⟨same, held⟩
  · exact iff_of_true (Or.inl cut) (by omega)
  · rw [IsCut, same]
    simp only [Int64.lt_iff_toInt_lt, held, low, high, Bool.false_eq_true, false_or]
    omega

/-- A number that a word of 32 bits can hold is not changed on its way there. -/
theorem toInt_saturate (h : ¬ IsCut v) : (saturate v).1.toInt32.toInt = v := by
  rw [isCut_iff, not_not] at h
  rcases saturate_cases v with ⟨-, outside⟩ | ⟨same, -⟩
  · omega
  · rw [same, Int64.toInt32_ofInt]
    exact Int32.toInt_ofInt_of_le (by omega) (by omega)

/-! ## Reading -/

variable {lo hi word word' : Int32} {fault fault' : IntegerFault}

/-- The value is the text of an integer between `lo` and `hi`. -/
def Accepted (lo hi : Int32) (s : List UInt8) (word : Int32) : Prop :=
  Numeral s word.toInt ∧ lo ≤ word ∧ word ≤ hi

/-- A text is that of one integer. -/
theorem Numeral.unique (h : Numeral s v) (h' : Numeral s w) : v = w := by
  rw [numeral_iff_scan] at h h'
  rw [h] at h'
  cases h'
  rfl

/-- A scan that finds a number finds the only one that there is. -/
theorem oversized_iff_of_scan (h : scan s = some (v, rest)) :
    Oversized s ↔ ¬ (-2147483648 ≤ v ∧ v ≤ 2147483647) := by
  rw [oversized_iff_scan]
  constructor
  · rintro ⟨w, rest', found, outside⟩
    rw [h] at found
    cases found
    exact outside
  · exact fun outside => ⟨v, rest, h, outside⟩

/-- The text of an integer is oversized if and only if that lies outside the limits of 32 bits. -/
theorem Numeral.oversized_iff (h : Numeral s v) :
    Oversized s ↔ ¬ (-2147483648 ≤ v ∧ v ≤ 2147483647) :=
  oversized_iff_of_scan (numeral_iff_scan.mp h)

/-- Nothing is wrong with a value that is accepted. -/
theorem Accepted.not_faulty (h : Accepted lo hi s word) : ¬ Faulty lo hi s fault := by
  obtain ⟨numeral, ge, le⟩ := h
  have fits : -2147483648 ≤ word.toInt ∧ word.toInt ≤ 2147483647 :=
    ⟨word.le_toInt, Int.le_of_lt_add_one word.toInt_lt⟩
  cases fault with
  | overflow => exact fun oversized => numeral.oversized_iff.mp oversized fits
  | malformed => exact fun wrong => wrong.2 _ numeral
  | outOfRange =>
    rintro ⟨-, v, other, outside⟩
    cases numeral.unique other
    exact outside ⟨Int32.le_iff_toInt_le.mp ge, Int32.le_iff_toInt_le.mp le⟩

/-- Only one thing is the first to be wrong with a value. -/
theorem Faulty.unique (h : Faulty lo hi s fault) (h' : Faulty lo hi s fault') : fault = fault' := by
  cases fault with
  | overflow =>
    cases fault' with
    | overflow => rfl
    | malformed | outOfRange => exact absurd h h'.1
  | malformed =>
    cases fault' with
    | overflow => exact absurd h' h.1
    | malformed => rfl
    | outOfRange =>
      obtain ⟨-, v, numeral, -⟩ := h'
      exact absurd numeral (h.2 v)
  | outOfRange =>
    obtain ⟨small, v, numeral, -⟩ := h
    cases fault' with
    | overflow => exact absurd h' small
    | malformed => exact absurd numeral (h'.2 v)
    | outOfRange => rfl

/-- What is read is accepted, or there is the fault that is told. -/
theorem accepted_or_faulty (lo hi : Int32) (s : List UInt8) :
    (∃ word, read lo hi s = .ok word ∧ Accepted lo hi s word) ∨
      ∃ fault, read lo hi s = .error fault ∧ Faulty lo hi s fault := by
  rw [read]
  cases found : scan s with
  | none =>
    refine Or.inr ⟨.malformed, rfl, fun oversized => ?_, fun v numeral => ?_⟩
    · obtain ⟨v, rest, other, -⟩ := oversized_iff_scan.mp oversized
      rw [found] at other
      cases other
    · rw [numeral_iff_scan, found] at numeral
      cases numeral
  | some number =>
    obtain ⟨v, rest⟩ := number
    have oversized := oversized_iff_of_scan found
    rw [← isCut_iff] at oversized
    simp only
    split
    · rename_i cut
      exact Or.inr ⟨.overflow, rfl, oversized.mpr cut⟩
    · rename_i uncut
      have same : (saturate v).1.toInt32.toInt = v := toInt_saturate uncut
      have small : ¬ Oversized s := fun large => uncut (oversized.mp large)
      split
      · rename_i more
        refine Or.inr ⟨.malformed, rfl, small, fun w numeral => ?_⟩
        rw [numeral_iff_scan, found] at numeral
        cases numeral
        exact more rfl
      · rename_i no_more
        rw [not_not] at no_more
        subst no_more
        have numeral : Numeral s v := numeral_iff_scan.mpr found
        split
        · rename_i inside
          exact Or.inl ⟨_, rfl, same.symm ▸ numeral, inside⟩
        · rename_i outside
          rw [Int32.le_iff_toInt_le, Int32.le_iff_toInt_le, same] at outside
          exact Or.inr ⟨.outOfRange, rfl, small, v, numeral, outside⟩

/-- **What is accepted.** -/
theorem read_eq_ok_iff : read lo hi s = .ok word ↔ Accepted lo hi s word := by
  constructor
  · intro h
    rcases accepted_or_faulty lo hi s with ⟨word', same, accepted⟩ | ⟨fault, other, -⟩
    · rw [h] at same
      cases same
      exact accepted
    · rw [h] at other
      cases other
  · intro accepted
    rcases accepted_or_faulty lo hi s with ⟨word', same, accepted'⟩ | ⟨fault, -, faulty⟩
    · rw [same, Int32.toInt_inj.mp (accepted.1.unique accepted'.1)]
    · exact absurd faulty accepted.not_faulty

/-- **What is blamed, and for what.** -/
theorem read_eq_error_iff : read lo hi s = .error fault ↔ Faulty lo hi s fault := by
  constructor
  · intro h
    rcases accepted_or_faulty lo hi s with ⟨word, other, -⟩ | ⟨fault', same, faulty⟩
    · rw [h] at other
      cases other
    · rw [h] at same
      cases same
      exact faulty
  · intro faulty
    rcases accepted_or_faulty lo hi s with ⟨word, -, accepted⟩ | ⟨fault', same, faulty'⟩
    · exact absurd faulty accepted.not_faulty
    · rw [same, faulty.unique faulty']

/-! ## The decimal text of an integer -/

/-- The text of a number with one digit is this digit. -/
theorem bytesOf_repr_of_lt : ∀ d < 10, bytesOf (Nat.repr d) = [digitByte d] := by decide

/-- All digits but the last are those of the tenth part. -/
theorem decimal_repr (n : Nat) : Decimal (bytesOf (Nat.repr n)) n := by
  induction n using Nat.strongRecOn with
  | _ n ih =>
    by_cases one_digit : n < 10
    · rw [bytesOf_repr_of_lt n one_digit]
      exact .digit n one_digit
    · have last : n % 10 < 10 := Nat.mod_lt n (by decide)
      have front := ih (n / 10) (by omega)
      have split : 10 * (n / 10) + n % 10 = n := Nat.div_add_mod n 10
      have whole := Decimal.append _ _ _ front last
      rw [split] at whole
      rw [Nat.repr_eq_repr_append_repr (Nat.not_lt.mp one_digit), bytesOf_append,
        bytesOf_repr_of_lt _ last]
      exact whole

/-- The decimal text of an integer is a text of it. -/
theorem numeral_toString (v : Int) : Numeral (bytesOf (toString v)) v := by
  have none : ∀ b ∈ ([] : List UInt8), b ∈ blanks := nofun
  rw [Int.toString_eq_repr, Int.repr_eq_if]
  split
  · rename_i nonneg
    have numeral := Numeral.intro [] [] _ 1 _ none .absent (decimal_repr v.toNat)
    rw [Int.one_mul, Int.toNat_of_nonneg nonneg] at numeral
    exact numeral
  · rename_i negative
    have numeral := Numeral.intro [] [45] _ (-1) _ none .minus (decimal_repr (-v).toNat)
    have same : (((-v).toNat : Nat) : Int) = -v := Int.toNat_of_nonneg (by omega)
    rw [same, Int.neg_one_mul, Int.neg_neg] at numeral
    rw [bytesOf_append]
    exact numeral

end Integer

end TaskPools
