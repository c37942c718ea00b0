/-
# What a variable is read as

A variable that holds the text of an integer between the limits of its reader stands for that
integer, and every other value for the default and for one warning, which names the first thing that
is wrong with the value (`integers_accepted_exactly`).  A variable that holds one of the eight words
for a truth value, in any mixture of capital and small letters, stands for that truth value, and
every other value for the default (`flag_of_says`, `flag_of_not_says`).
-/
import Mathlib.Data.List.Forall2
import TaskPools.Proofs.Environment.Integer

namespace TaskPools

namespace Environment

/-! ## What a variable holds -/

/-- The words for a truth value. -/
def wordsFor : Bool → List String
  | true => ["true", "1", "yes", "on"]
  | false => ["false", "0", "no", "off"]

/-- The first letter is the second one or the capital of it. -/
def SameLetter (c d : Char) : Prop := c = d ∨ c.isUpper = true ∧ c.toNat + 32 = d.toNat

/-- Letter by letter the word is the other one, or has the capital of it. -/
def Spells (word small : String) : Prop := List.Forall₂ SameLetter word.toList small.toList

/-- The variable holds a word for the truth value. -/
def Says (env : Environment) (name : String) (b : Bool) : Prop :=
  ∃ word, env.get? name = some word ∧ ∃ small ∈ wordsFor b, Spells word small

/-- The variable holds a text of the integer. -/
def Holds (env : Environment) (name : String) (v : Int) : Prop :=
  ∃ value, env.get? name = some value ∧ Integer.Numeral (bytesOf value) v

section

variable {env : Environment} {name word small : String} {b fallback : Bool} {c d : Char}

/-! ## Words for truth values -/

/-- A capital letter stands 32 places before its small letter. -/
theorem toNat_toLower (upper : c.isUpper = true) : c.toLower.toNat = c.toNat + 32 := by
  have between : c.val ≥ 'A'.val ∧ c.val ≤ 'Z'.val := of_decide_eq_true upper
  have le : c.val.toNat ≤ 90 := UInt32.le_iff_toNat_le.mp between.2
  have step : ('a'.val - 'A'.val).toNat = 32 := rfl
  have lowered : c.toLower.val = c.val + ('a'.val - 'A'.val) := congrArg Char.val (dif_pos between)
  rw [Char.toNat, Char.toNat, lowered, UInt32.toNat_add, step]
  omega

/-- Who becomes a small letter is this letter, small or capital. -/
theorem toLower_eq_iff (plain : d.isUpper = false) : c.toLower = d ↔ SameLetter c d := by
  by_cases upper : c.isUpper = true
  · have lowered := toNat_toLower upper
    constructor
    · rintro rfl
      exact Or.inr ⟨upper, lowered.symm⟩
    · rintro (rfl | ⟨-, same⟩)
      · rw [upper] at plain
        cases plain
      · rw [← Char.toNat_inj, lowered, same]
  · have same : c.toLower = c := dif_neg fun between => upper (decide_eq_true between)
    rw [same]
    exact ⟨Or.inl, fun h => h.resolve_right fun other => upper other.1⟩

/-- Who becomes a word of small letters is this word, each letter small or capital. -/
theorem map_toLower_eq_iff {l m : List Char} (plain : ∀ d ∈ m, d.isUpper = false) :
    l.map Char.toLower = m ↔ List.Forall₂ SameLetter l m := by
  induction m generalizing l with
  | nil => rw [List.map_eq_nil_iff, List.forall₂_nil_right_iff]
  | cons d m ih =>
    obtain ⟨first, others⟩ := List.forall_mem_cons.mp plain
    cases l with
    | nil => exact iff_of_false (List.cons_ne_nil d m).symm nofun
    | cons c l =>
      rw [List.map_cons, List.cons.injEq, List.forall₂_cons, toLower_eq_iff first, ih others]

/-- A word becomes a word of small letters if and only if it spells that. -/
theorem toLower_eq_iff_spells (plain : ∀ d ∈ small.toList, d.isUpper = false) :
    word.toLower = small ↔ Spells word small := by
  have lowered : word.toLower.toList = word.toList.map Char.toLower := String.toList_map
  rw [← String.toList_inj, lowered, map_toLower_eq_iff plain, Spells]

/-- The words for flags have small letters only. -/
theorem plain_of_mem_wordsFor (b : Bool) :
    ∀ small ∈ wordsFor b, ∀ d ∈ small.toList, d.isUpper = false := by
  have all : ∀ small ∈ wordsFor b, small.toList.all (!·.isUpper) = true := by cases b <;> decide
  intro small among d in_word
  rw [← Bool.not_eq_true']
  exact List.all_eq_true.mp (all small among) d in_word

/-- No word stands for both truth values. -/
theorem eq_of_mem_wordsFor : ∀ b b', ∀ small ∈ wordsFor b, small ∈ wordsFor b' → b = b' := by decide

/-- A word says a flag if and only if it spells one of the words for it. -/
theorem toLower_mem_wordsFor_iff :
    word.toLower ∈ wordsFor b ↔ ∃ small ∈ wordsFor b, Spells word small := by
  constructor
  · exact fun among => ⟨_, among, (toLower_eq_iff_spells (plain_of_mem_wordsFor b _ among)).mp rfl⟩
  · rintro ⟨small, among, spells⟩
    rw [(toLower_eq_iff_spells (plain_of_mem_wordsFor b small among)).mpr spells]
    exact among

/-- The flag that is read from a word is the one for which it spells a word. -/
theorem flagOfWord?_eq_some_iff :
    flagOfWord? word = some b ↔ ∃ small ∈ wordsFor b, Spells word small := by
  have yes : (["true", "1", "yes", "on"].contains word.toLower) = true ↔
      word.toLower ∈ wordsFor true := List.contains_iff_mem
  have no : (["false", "0", "no", "off"].contains word.toLower) = true ↔
      word.toLower ∈ wordsFor false := List.contains_iff_mem
  rw [← toLower_mem_wordsFor_iff, flagOfWord?]
  simp only [yes, no]
  split
  · rename_i among
    rw [Option.some.injEq]
    exact ⟨fun same => same ▸ among, fun other => eq_of_mem_wordsFor _ _ _ among other⟩
  · rename_i not_true
    split
    · rename_i among
      rw [Option.some.injEq]
      exact ⟨fun same => same ▸ among, fun other => eq_of_mem_wordsFor _ _ _ among other⟩
    · rename_i not_false
      refine iff_of_false nofun ?_
      cases b
      · exact not_false
      · exact not_true

/-! ## Flags -/

/-- A variable that says a flag decides. -/
theorem flag_of_says (h : env.Says name b) : (env.flag name fallback).1 = b := by
  obtain ⟨word, held, spelled⟩ := h
  rw [flag, held]
  simp only [flagOfWord?_eq_some_iff.mpr spelled]

/-- A variable that says no flag leaves the fallback. -/
theorem flag_of_not_says (h : ∀ b, ¬ env.Says name b) : (env.flag name fallback).1 = fallback := by
  rw [flag]
  split
  · rfl
  · rename_i word held
    split
    · rename_i b meant
      exact absurd ⟨word, held, flagOfWord?_eq_some_iff.mp meant⟩ (h b)
    · rfl

end

/-! ## Integers -/

section

variable {env : Environment} {name value : String} {fallback lo hi n : Int32} {s : List UInt8}
  {fault : IntegerFault}

/-- An integer is read without a warning if and only if the value is the text of one within the
limits. -/
theorem readInteger_eq_none_iff :
    readInteger fallback lo hi (some s) = (n, none) ↔ Integer.Accepted lo hi s n := by
  rw [← Integer.read_eq_ok_iff, readInteger]
  cases Integer.read lo hi s <;> simp

/-- A warning is written if and only if something is wrong with the value, and then the fallback is
read. -/
theorem readInteger_eq_some_iff :
    readInteger fallback lo hi (some s) = (n, some fault) ↔
      n = fallback ∧ Integer.Faulty lo hi s fault := by
  rw [← Integer.read_eq_error_iff, readInteger]
  cases Integer.read lo hi s <;> simp [eq_comm]

theorem integer_eq (env : Environment) (name : String) (fallback lo hi : Int32) :
    env.integer name fallback lo hi =
      ((readInteger fallback lo hi ((env.get? name).map bytesOf)).1,
        (readInteger fallback lo hi ((env.get? name).map bytesOf)).2.toList.map fun fault =>
          warning name ((env.get? name).getD "") (describe lo hi fault)
            (toString fallback.toInt)) :=
  rfl

/-- A variable that is not set leaves the fallback without a warning. -/
theorem integer_of_unset (unset : env.get? name = none) :
    env.integer name fallback lo hi = (fallback, []) := by
  rw [integer_eq, unset]
  rfl

/-- The text of an integer within the limits is read as that. -/
theorem integer_of_accepted (held : env.get? name = some value)
    (accepted : Integer.Accepted lo hi (bytesOf value) n) :
    env.integer name fallback lo hi = (n, []) := by
  rw [integer_eq, held, Option.map_some, readInteger_eq_none_iff.mpr accepted]
  rfl

/-- A value with which something is wrong leaves the fallback, and the warning says what it is. -/
theorem integer_of_faulty (held : env.get? name = some value)
    (faulty : Integer.Faulty lo hi (bytesOf value) fault) :
    env.integer name fallback lo hi =
      (fallback, [warning name value (describe lo hi fault) (toString fallback.toInt)]) := by
  rw [integer_eq, held, Option.map_some, readInteger_eq_some_iff.mpr ⟨rfl, faulty⟩]
  rfl

/-- **Which values stand for integers.**  A value, of whatever bytes, stands for an integer between
the limits if it is blanks, an optional sign and decimal digits of that integer, and then nothing is
told.  Every other value stands for the default, and the first thing that is wrong with it is told:
first that the longest beginning which is the text of an integer is that of one too large for 32
bits, whatever follows, then that the value is no text of an integer, then that the integer lies
outside the limits.  A variable is read by its bytes, and what is told of it is one warning; of one
that is not set nothing is told. -/
theorem integers_accepted_exactly (fallback lo hi : Int32) :
    (∀ s n, readInteger fallback lo hi (some s) = (n, none) ↔ Integer.Accepted lo hi s n) ∧
    (∀ s n fault, readInteger fallback lo hi (some s) = (n, some fault) ↔
      n = fallback ∧ Integer.Faulty lo hi s fault) ∧
    (∀ n, lo ≤ n → n ≤ hi → Integer.Accepted lo hi (bytesOf (toString n.toInt)) n) ∧
    (∀ env name, get? env name = none → integer env name fallback lo hi = (fallback, [])) ∧
    ∀ env name value, get? env name = some value → ∀ n outputs,
      integer env name fallback lo hi = (n, outputs) ↔
        outputs = [] ∧ Integer.Accepted lo hi (bytesOf value) n ∨
        n = fallback ∧ ∃ fault, Integer.Faulty lo hi (bytesOf value) fault ∧
          outputs = [warning name value (describe lo hi fault) (toString fallback.toInt)] := by
  refine ⟨fun s n => readInteger_eq_none_iff, fun s n fault => readInteger_eq_some_iff,
    fun n ge le => ⟨Integer.numeral_toString n.toInt, ge, le⟩, fun env name => integer_of_unset,
    fun env name value held n outputs => ⟨fun result => ?_, ?_⟩⟩
  · rcases Integer.accepted_or_faulty lo hi (bytesOf value) with
      ⟨m, -, accepted⟩ | ⟨fault, -, faulty⟩
    · rw [integer_of_accepted held accepted] at result
      cases result
      exact Or.inl ⟨rfl, accepted⟩
    · rw [integer_of_faulty held faulty] at result
      cases result
      exact Or.inr ⟨rfl, fault, faulty, rfl⟩
  · rintro (⟨rfl, accepted⟩ | ⟨rfl, fault, faulty, rfl⟩)
    · exact integer_of_accepted held accepted
    · exact integer_of_faulty held faulty

/-- A good value, one too large with something behind it, one with something behind it, and one
beyond the limits. -/
def fourIntegers : Environment where
  entries := [("A", "\t -042"), ("B", "99999999999999999999 ms"), ("C", "12 ms"), ("D", "+101")]

/-- The first value is accepted, and each of the others is blamed for something else. -/
theorem four_integers_read :
    fourIntegers.integer "A" 7 (-100) 100 = (-42, []) ∧
    fourIntegers.integer "B" 7 (-100) 100 = (7, [.text .out
      ("[ConfigLimits] Warning: B=99999999999999999999 ms out of range (overflow), " ++
        "using default 7\n")]) ∧
    fourIntegers.integer "C" 7 (-100) 100 = (7, [.text .out
      "[ConfigLimits] Warning: C=12 ms invalid integer, using default 7\n"]) ∧
    fourIntegers.integer "D" 7 (-100) 100 = (7, [.text .out
      "[ConfigLimits] Warning: D=+101 out of range [-100, 100], using default 7\n"]) ∧
    fourIntegers.get? "E" = none ∧ fourIntegers.integer "E" 7 (-100) 100 = (7, []) ∧
    Integer.Accepted (-100) 100 (bytesOf "-100") (-100) := by
  obtain ⟨accepts, blames, texts, unset, set⟩ := integers_accepted_exactly 7 (-100) 100
  have good : Integer.Accepted (-100) 100 (bytesOf "\t -042") (-42) :=
    (accepts _ _).mp rfl
  have large : Integer.Faulty (-100) 100 (bytesOf "99999999999999999999 ms") .overflow :=
    ((blames _ 7 _).mp rfl).2
  have longer : Integer.Faulty (-100) 100 (bytesOf "12 ms") .malformed :=
    ((blames _ 7 _).mp rfl).2
  have beyond : Integer.Faulty (-100) 100 (bytesOf "+101") .outOfRange :=
    ((blames _ 7 _).mp rfl).2
  have none : fourIntegers.get? "E" = none := rfl
  refine ⟨?_, ?_, ?_, ?_, none, unset _ _ none, texts (-100) (by decide) (by decide)⟩
  · exact (set _ _ _ rfl _ _).mpr (Or.inl ⟨rfl, good⟩)
  · exact (set _ _ _ rfl _ _).mpr (Or.inr ⟨rfl, _, large, rfl⟩)
  · exact (set _ _ _ rfl _ _).mpr (Or.inr ⟨rfl, _, longer, rfl⟩)
  · exact (set _ _ _ rfl _ _).mpr (Or.inr ⟨rfl, _, beyond, rfl⟩)

end

end Environment

end TaskPools
