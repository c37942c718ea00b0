/-
# The first rule that settings break

The strict check has one rule for the timeout, one for the list of pools and four for each pool
(`Settings.Rule`), and `Settings.Breaks` says what it is to break one of them.  They are checked in
the order of their `rank`: the timeout first, then the list, then pool by pool.  The check fails if
and only if a rule is broken, and then its answer names the first rule that is
(`validate_eq_some_iff`, `strict_check_exact`).
-/
import TaskPools.Proofs.Settings

namespace TaskPools

/-! ## The rules for one pool -/

/-- A rule for one pool of the settings. -/
inductive PoolRule where
  /-- It has a name. -/
  | named
  /-- No pool before it has the same name. -/
  | unique
  /-- Its size lies inside the limits. -/
  | size
  /-- Its expiry is not negative. -/
  | expiry
  deriving DecidableEq, Repr

/-- The place of a rule among those for one pool. -/
def PoolRule.rank : PoolRule → Nat
  | named => 0
  | unique => 1
  | size => 2
  | expiry => 3

namespace PoolSettings

/-- Behind the pools `earlier` these settings break the rule. -/
def Breaks (p : PoolSettings) (earlier : List PoolSettings) : PoolRule → Prop
  | .named => p.name = ""
  | .unique => ∃ q ∈ earlier, q.name = p.name
  | .size => ¬ (1 ≤ p.size.toInt ∧ p.size.toInt ≤ 10000)
  | .expiry => p.expirySeconds.toInt < 0

instance (p : PoolSettings) (earlier : List PoolSettings) (rule : PoolRule) :
    Decidable (p.Breaks earlier rule) :=
  match rule with
  | .named => inferInstanceAs (Decidable (p.name = ""))
  | .unique => inferInstanceAs (Decidable (∃ q ∈ earlier, q.name = p.name))
  | .size => inferInstanceAs (Decidable (¬ (1 ≤ p.size.toInt ∧ p.size.toInt ≤ 10000)))
  | .expiry => inferInstanceAs (Decidable (p.expirySeconds.toInt < 0))

/-- Of the rules for one pool this is the first that the settings break. -/
structure BreaksFirst (p : PoolSettings) (earlier : List PoolSettings) (rule : PoolRule) :
    Prop where
  breaks : p.Breaks earlier rule
  first : ∀ other : PoolRule, other.rank < rule.rank → ¬ p.Breaks earlier other

/-- What is wrong with a pool of this name that breaks the rule at place `i`. -/
def faultFor (name : String) (i : Nat) : PoolRule → Fault
  | .named => .nameRequired i
  | .unique => .duplicateName name
  | .size => .sizeOutOfRange name 1 10000
  | .expiry => .expiryNegative name

/-- What is said of a pool of this name that breaks the rule at place `i`. -/
def complaint (name : String) (i : Nat) : PoolRule → String
  | .named => "pool " ++ toString i ++ ": name is required"
  | .unique => "duplicate pool name: " ++ name
  | .size => "pool " ++ name ++ ": size must be between 1 and 10000"
  | .expiry => "pool " ++ name ++ ": expiry must be non-negative"

end PoolSettings

/-! ## All rules -/

namespace Settings

/-- A rule of the strict check. -/
inductive Rule where
  /-- The timeout lies inside its limits. -/
  | timeout
  /-- There is a pool. -/
  | somePool
  /-- The pool at place `i` keeps to a rule. -/
  | pool (i : Nat) (rule : PoolRule)
  deriving DecidableEq, Repr

/-- The place of a rule in the order in which the rules are checked. -/
def Rule.rank : Rule → Nat
  | timeout => 0
  | somePool => 1
  | pool i rule => 4 * i + rule.rank + 2

/-- The settings break the rule.  Where no pools are wanted, only the timeout matters. -/
def Breaks (s : Settings) : Rule → Prop
  | .timeout => ¬ (1 ≤ s.shutdownTimeout.toInt ∧ s.shutdownTimeout.toInt ≤ 600000)
  | .somePool => s.enabled = true ∧ s.pools = []
  | .pool i rule => s.enabled = true ∧ ∃ p, s.pools[i]? = some p ∧ p.Breaks (s.pools.take i) rule

/-- The settings break the rule and none that comes before it. -/
structure BreaksFirst (s : Settings) (rule : Rule) : Prop where
  breaks : s.Breaks rule
  first : ∀ other : Rule, other.rank < rule.rank → ¬ s.Breaks other

/-- The name of the pool at this place. -/
def nameAt (s : Settings) (i : Nat) : String := (s.pools[i]?.map PoolSettings.name).getD ""

/-- What is wrong with settings that break the rule. -/
def faultFor (s : Settings) : Rule → Fault
  | .timeout => .timeoutOutOfRange s.shutdownTimeout.toInt 1 600000
  | .somePool => .noPools
  | .pool i rule => PoolSettings.faultFor (s.nameAt i) i rule

/-- What is said of settings that break the rule. -/
def complaint (s : Settings) : Rule → String
  | .timeout =>
    "shutdown timeout " ++ toString s.shutdownTimeout.toInt ++ "ms must be between 1 and 600000ms"
  | .somePool => "executor enabled but no pools configured"
  | .pool i rule => PoolSettings.complaint (s.nameAt i) i rule

variable {s : Settings} {rule rule' : Rule} {part : PoolRule} {p : PoolSettings}
  {earlier ps : List PoolSettings} {i index : Nat} {fault : Fault}

/-! ## The order of the rules -/

theorem rank_lt (part : PoolRule) : part.rank < 4 := by cases part <;> decide

theorem part_eq_of_rank {a b : PoolRule} (h : a.rank = b.rank) : a = b := by
  cases a <;> cases b <;> simp_all [PoolRule.rank]

/-- The rules for one pool come before those for the next. -/
theorem rank_injective (h : rule.rank = rule'.rank) : rule = rule' := by
  rcases rule with _ | _ | ⟨i, a⟩ <;> rcases rule' with _ | _ | ⟨j, b⟩ <;>
    simp only [Rule.rank] at h
  · rfl
  · cases h
  · omega
  · cases h
  · rfl
  · omega
  · omega
  · omega
  · have ha := rank_lt a
    have hb := rank_lt b
    have place : i = j := by omega
    have same : a.rank = b.rank := by omega
    rw [place, part_eq_of_rank same]

/-- The rules for pools are checked pool by pool. -/
theorem rank_pool_lt_iff {a b : PoolRule} {i j : Nat} :
    (Rule.pool j b).rank < (Rule.pool i a).rank ↔ j < i ∨ j = i ∧ b.rank < a.rank := by
  have ha := rank_lt a
  have hb := rank_lt b
  simp only [Rule.rank]
  omega

/-- One rule at most is the first that is broken. -/
theorem BreaksFirst.unique (h : s.BreaksFirst rule) (h' : s.BreaksFirst rule') : rule = rule' := by
  rcases Nat.lt_trichotomy rule.rank rule'.rank with before | same | after
  · exact absurd h.breaks (h'.first rule before)
  · exact rank_injective same
  · exact absurd h'.breaks (h.first rule' after)

/-! ## Limits -/

theorem timeoutInRange_iff :
    s.timeoutInRange = true ↔ 1 ≤ s.shutdownTimeout.toInt ∧ s.shutdownTimeout.toInt ≤ 600000 := by
  have least : minTimeout.toInt64.toInt = 1 := rfl
  have greatest : maxTimeout.toInt64.toInt = 600000 := rfl
  rw [timeoutInRange, Bool.and_eq_true, decide_eq_true_eq, decide_eq_true_eq,
    Int64.le_iff_toInt_le, Int64.le_iff_toInt_le, least, greatest]

theorem size_outside_iff : p.size < minPoolSize ∨ maxPoolSize < p.size ↔
    ¬ (1 ≤ p.size.toInt ∧ p.size.toInt ≤ 10000) := by
  rw [size_lt_min_iff, max_lt_size_iff]
  omega

theorem expiry_neg_iff : p.expirySeconds < 0 ↔ p.expirySeconds.toInt < 0 := Int32.lt_iff_toInt_lt

/-! ## What the check finds -/

/-- The check of a pool finds nothing, or the first of its rules that is broken. -/
theorem poolFault_cases (earlier : List PoolSettings) (index : Nat) (p : PoolSettings) :
    (poolFault (earlier.map PoolSettings.name) index p = none ∧ ∀ part, ¬ p.Breaks earlier part) ∨
      ∃ part, poolFault (earlier.map PoolSettings.name) index p =
        some (PoolSettings.faultFor p.name index part) ∧ p.BreaksFirst earlier part := by
  have used : (earlier.map PoolSettings.name).contains p.name = true ↔
      p.Breaks earlier .unique := by
    rw [List.contains_iff_mem, List.mem_map]
    rfl
  rw [poolFault]
  split
  · rename_i empty
    exact Or.inr ⟨.named, rfl, empty, fun other before => absurd before (Nat.not_lt_zero _)⟩
  · rename_i named
    split
    · rename_i again
      refine Or.inr ⟨.unique, rfl, used.mp again, fun other before => ?_⟩
      cases other with
      | named => exact named
      | unique | size | expiry => exact absurd before (by decide)
    · rename_i unused
      have new : ¬ p.Breaks earlier .unique := fun again => unused (used.mpr again)
      split
      · rename_i outside
        refine Or.inr ⟨.size, rfl, size_outside_iff.mp outside, fun other before => ?_⟩
        cases other with
        | named => exact named
        | unique => exact new
        | size | expiry => exact absurd before (by decide)
      · rename_i inside
        have fits : ¬ p.Breaks earlier .size := fun outside => inside (size_outside_iff.mpr outside)
        split
        · rename_i negative
          refine Or.inr ⟨.expiry, rfl, expiry_neg_iff.mp negative, fun other before => ?_⟩
          cases other with
          | named => exact named
          | unique => exact new
          | size => exact fits
          | expiry => exact absurd before (by decide)
        · rename_i nonneg
          refine Or.inl ⟨rfl, fun part => ?_⟩
          cases part with
          | named => exact named
          | unique => exact new
          | size => exact fits
          | expiry => exact fun negative => nonneg (expiry_neg_iff.mpr negative)

/-- The check of a list finds nothing, or the first rule that is broken by the first pool that
breaks one.  The places of the pools count those in `earlier`. -/
theorem poolsFault_cases (earlier ps : List PoolSettings) :
    (poolsFault (earlier.map PoolSettings.name) ps = none ∧
        ∀ (i : Nat) (p : PoolSettings) (part : PoolRule), ps[i]? = some p →
          ¬ p.Breaks (earlier ++ ps.take i) part) ∨
      ∃ (i : Nat) (p : PoolSettings) (part : PoolRule), ps[i]? = some p ∧
        p.BreaksFirst (earlier ++ ps.take i) part ∧
        (∀ j < i, ∀ (q : PoolSettings) (other : PoolRule), ps[j]? = some q →
          ¬ q.Breaks (earlier ++ ps.take j) other) ∧
        poolsFault (earlier.map PoolSettings.name) ps =
          some (PoolSettings.faultFor p.name (earlier.length + i) part) := by
  induction ps generalizing earlier with
  | nil => exact Or.inl ⟨rfl, fun i p part at_i => absurd at_i (Option.not_mem_none p)⟩
  | cons p rest ih =>
    rw [poolsFault, List.length_map]
    rcases poolFault_cases earlier earlier.length p with ⟨found, keeps⟩ | ⟨part, found, first⟩
    · -- the search goes on behind the first pool
      have behind (i : Nat) : earlier ++ (p :: rest).take (i + 1) =
          earlier ++ [p] ++ rest.take i := by
        rw [List.take_succ_cons, List.append_assoc]
        rfl
      have here (part : PoolRule) : ¬ p.Breaks (earlier ++ (p :: rest).take 0) part := by
        rw [List.take_zero, List.append_nil]
        exact keeps part
      rw [found]
      simp only
      rw [← List.map_singleton (f := PoolSettings.name), ← List.map_append]
      rcases ih (earlier ++ [p]) with ⟨none, all_keep⟩ | ⟨i, q, part, at_i, first, before, some⟩
      · refine Or.inl ⟨none, fun i q part at_i => ?_⟩
        cases i with
        | zero =>
          cases at_i
          exact here part
        | succ i =>
          rw [behind]
          exact all_keep i q part at_i
      · have first : q.BreaksFirst (earlier ++ (p :: rest).take (i + 1)) part := by
          rw [behind]
          exact first
        refine Or.inr ⟨i + 1, q, part, at_i, first, fun j hj r other at_j => ?_, ?_⟩
        · cases j with
          | zero =>
            cases at_j
            exact here other
          | succ j =>
            rw [behind]
            exact before j (Nat.lt_of_succ_lt_succ hj) r other at_j
        · rw [some, List.length_append, List.length_singleton, Nat.add_assoc, Nat.add_comm 1 i]
    · rw [found]
      refine Or.inr ⟨0, p, part, rfl, ?_, fun j before => absurd before (Nat.not_lt_zero j), rfl⟩
      rw [List.take_zero, List.append_nil]
      exact first

/-- A rule for a pool is the first that is broken if it is the first for this pool, and the timeout
and all pools before it keep to theirs. -/
theorem breaksFirst_pool (timed : ¬ s.Breaks .timeout) (wanted : s.enabled = true)
    (at_i : s.pools[i]? = some p) (here : p.BreaksFirst (s.pools.take i) part)
    (before : ∀ j < i, ∀ (q : PoolSettings) (other : PoolRule), s.pools[j]? = some q →
      ¬ q.Breaks (s.pools.take j) other) : s.BreaksFirst (.pool i part) := by
  refine ⟨⟨wanted, p, at_i, here.breaks⟩, fun other earlier => ?_⟩
  rcases other with _ | _ | ⟨j, other⟩
  · exact timed
  · rintro ⟨-, empty⟩
    rw [empty] at at_i
    cases at_i
  · rintro ⟨-, q, at_j, breaks⟩
    rcases rank_pool_lt_iff.mp earlier with left | ⟨rfl, lower⟩
    · exact before j left q other at_j breaks
    · cases at_i.symm.trans at_j
      exact here.first other lower breaks

/-- Where pools are wanted and there are some, the check of their list decides. -/
theorem validate_cases_of_listed (timed : ¬ s.Breaks .timeout) (wanted : s.enabled = true)
    (listed : ¬ s.Breaks .somePool) :
    (poolsFault [] s.pools = none ∧ ∀ rule, ¬ s.Breaks rule) ∨
      ∃ rule, poolsFault [] s.pools = some (s.faultFor rule) ∧ s.BreaksFirst rule := by
  rcases poolsFault_cases [] s.pools with ⟨none, keep⟩ | ⟨i, p, part, at_i, here, before, some⟩
  · refine Or.inl ⟨none, fun rule => ?_⟩
    rcases rule with _ | _ | ⟨i, part⟩
    · exact timed
    · exact listed
    · rintro ⟨-, p, at_i, breaks⟩
      exact keep i p part at_i breaks
  · have name_eq : s.nameAt i = p.name := by
      rw [nameAt, at_i]
      rfl
    refine Or.inr ⟨.pool i part, ?_, breaksFirst_pool timed wanted at_i here before⟩
    rw [faultFor, name_eq, ← Nat.zero_add i]
    exact some

/-- The strict check finds nothing, or the first rule that is broken. -/
theorem validate_cases (s : Settings) :
    (s.validate = none ∧ ∀ rule, ¬ s.Breaks rule) ∨
      ∃ rule, s.validate = some (s.faultFor rule) ∧ s.BreaksFirst rule := by
  rw [validate]
  by_cases in_range : s.timeoutInRange = true
  · have timed : ¬ s.Breaks .timeout := fun outside => outside (timeoutInRange_iff.mp in_range)
    rw [in_range]
    by_cases wanted : s.enabled = true
    · rw [wanted]
      by_cases empty : s.pools = []
      · rw [if_pos empty]
        refine Or.inr ⟨.somePool, rfl, ⟨wanted, empty⟩, fun other before => ?_⟩
        rcases other with _ | _ | ⟨i, part⟩
        · exact timed
        · exact absurd before (Nat.lt_irrefl _)
        · simp only [Rule.rank] at before
          omega
      · rw [if_neg empty]
        exact validate_cases_of_listed timed wanted fun h => empty h.2
    · rw [Bool.not_eq_true] at wanted
      rw [wanted]
      refine Or.inl ⟨rfl, fun rule => ?_⟩
      rcases rule with _ | _ | ⟨i, part⟩
      · exact timed
      · exact fun h => Bool.false_ne_true (wanted.symm.trans h.1)
      · exact fun h => Bool.false_ne_true (wanted.symm.trans h.1)
  · have outside : s.Breaks .timeout := fun inside => in_range (timeoutInRange_iff.mpr inside)
    rw [Bool.not_eq_true] at in_range
    rw [in_range]
    exact Or.inr ⟨.timeout, rfl, outside, fun other before => absurd before (Nat.not_lt_zero _)⟩

/-- **The check answers with the first rule that is broken.** -/
theorem validate_eq_some_iff :
    s.validate = some fault ↔ ∃ rule, s.BreaksFirst rule ∧ fault = s.faultFor rule := by
  rcases validate_cases s with ⟨none, keeps⟩ | ⟨rule, some, first⟩
  · rw [none]
    refine iff_of_false nofun ?_
    rintro ⟨rule, first, -⟩
    exact keeps rule first.breaks
  · rw [some, Option.some.injEq]
    constructor
    · exact fun same => ⟨rule, first, same.symm⟩
    · rintro ⟨rule', first', rfl⟩
      rw [first.unique first']

theorem message_timeoutOutOfRange (timeout : Int) :
    (Fault.timeoutOutOfRange timeout 1 600000).message = "invalid config: " ++
      ("shutdown timeout " ++ toString timeout ++ "ms must be between 1 and 600000ms") := by
  have limits : "ms must be between " ++ (toString (1 : Int) ++ (" and " ++
      (toString (600000 : Int) ++ "ms"))) = "ms must be between 1 and 600000ms" := by cbv
  unfold Fault.message Fault.invalid
  simp only [String.append_assoc, limits]

theorem message_sizeOutOfRange (pool : String) :
    (Fault.sizeOutOfRange pool 1 10000).message = "invalid config: " ++
      ("pool " ++ pool ++ ": size must be between 1 and 10000") := by
  have limits : ": size must be between " ++ (toString (1 : Int) ++ (" and " ++
      toString (10000 : Int))) = ": size must be between 1 and 10000" := by cbv
  unfold Fault.message Fault.invalid
  simp only [String.append_assoc, limits]

theorem status_faultFor (s : Settings) (rule : Rule) :
    (s.faultFor rule).status =
      .coded Code.invalidConfig ("invalid config: " ++ s.complaint rule) := by
  rcases rule with _ | _ | ⟨i, _ | _ | _ | _⟩
  · exact congrArg (Status.coded _) (message_timeoutOutOfRange _)
  · rfl
  · rfl
  · rfl
  · exact congrArg (Status.coded _) (message_sizeOutOfRange _)
  · rfl

theorem sound_iff : p.Sound ↔
    p.name ≠ "" ∧ (1 ≤ p.size.toInt ∧ p.size.toInt ≤ 10000) ∧ 0 ≤ p.expirySeconds.toInt := by
  constructor
  · rintro ⟨named, ge, le, nonneg⟩
    exact ⟨named, ⟨min_le_size_iff.mp ge, size_le_max_iff.mp le⟩, Int32.le_iff_toInt_le.mp nonneg⟩
  · rintro ⟨named, ⟨ge, le⟩, nonneg⟩
    exact ⟨named, min_le_size_iff.mpr ge, size_le_max_iff.mpr le,
      Int32.le_iff_toInt_le.mpr nonneg⟩

theorem ofFault?_eq_ok_iff {fault : Option Fault} : Status.ofFault? fault = .ok ↔ fault = none := by
  cases fault with
  | none => exact iff_of_true rfl rfl
  | some fault => exact iff_of_false nofun nofun

/-- **The strict check is exact.**  It succeeds if and only if the timeout lies inside its limits
and, unless pools are switched off, there is a pool, no two share a name, and each has a name, a
size inside its limits and no negative expiry.  Otherwise some rule is the first that is broken, and
whichever that is, the answer has the code of an invalid configuration and the words for this
rule. -/
theorem strict_check_exact (s : Settings) :
    (Status.ofFault? s.validate = .ok ↔
      (1 ≤ s.shutdownTimeout.toInt ∧ s.shutdownTimeout.toInt ≤ 600000) ∧
        (s.enabled = false ∨ s.pools ≠ [] ∧ (s.pools.map PoolSettings.name).Nodup ∧
          ∀ p ∈ s.pools, p.name ≠ "" ∧ (1 ≤ p.size.toInt ∧ p.size.toInt ≤ 10000) ∧
            0 ≤ p.expirySeconds.toInt)) ∧
    (Status.ofFault? s.validate ≠ .ok → ∃ rule, s.BreaksFirst rule) ∧
    ∀ rule, s.BreaksFirst rule → Status.ofFault? s.validate =
      .coded Code.invalidConfig ("invalid config: " ++ s.complaint rule) := by
  refine ⟨?_, fun failed => ?_, fun rule first => ?_⟩
  · rw [ofFault?_eq_ok_iff, validate_eq_none_iff, timeoutInRange_iff]
    refine and_congr_right fun _ => ?_
    cases s.enabled with
    | false => simp
    | true => simp only [sound_iff, forall_const, Bool.true_eq_false, false_or, and_comm]
  · rcases validate_cases s with ⟨none, -⟩ | ⟨rule, -, first⟩
    · exact absurd (ofFault?_eq_ok_iff.mpr none) failed
    · exact ⟨rule, first⟩
  · rw [validate_eq_some_iff.mpr ⟨rule, first, rfl⟩, Status.ofFault?, status_faultFor]

/-- The settings of two pools with the same name, the second of which breaks two more rules. -/
def twins : Settings where
  pools := [{ name := "io" }, { name := "io", size := 0, expirySeconds := -1 }]

/-- Of the three rules that the second pool breaks, the answer names the first. -/
theorem twins_answered :
    twins.BreaksFirst (.pool 1 .unique) ∧ twins.Breaks (.pool 1 .size) ∧
      twins.Breaks (.pool 1 .expiry) ∧ Status.ofFault? twins.validate ≠ .ok ∧
      Status.ofFault? twins.validate =
        .coded 60005 ("invalid config: " ++ "duplicate pool name: io") := by
  have again : twins.BreaksFirst (.pool 1 .unique) := by
    refine ⟨⟨rfl, _, rfl, _, List.mem_singleton_self _, rfl⟩, fun other earlier => ?_⟩
    rcases other with _ | _ | ⟨_ | _ | i, part⟩
    · exact fun outside => outside (by decide)
    · exact nofun
    · -- the first pool keeps to all rules
      rintro ⟨-, p, at_zero, breaks⟩
      cases at_zero
      cases part <;> exact absurd breaks (by decide)
    · cases part with
      | named =>
        rintro ⟨-, p, at_one, breaks⟩
        cases at_one
        exact absurd breaks (by decide)
      | unique | size | expiry => exact absurd earlier (by decide)
    · simp only [Rule.rank, PoolRule.rank] at earlier
      omega
  have failed : Status.ofFault? twins.validate ≠ .ok := by decide
  exact ⟨again, ⟨rfl, _, rfl, by decide⟩, ⟨rfl, _, rfl, by decide⟩, failed,
    (strict_check_exact twins).2.2 _ again⟩

end Settings

end TaskPools
