/-
# What the environment makes of settings

The environment has the last word on the flag and on the timeout, as far as it holds a word for a
truth value and the text of an integer inside the limits of the timeout (`Settings.Overridden`).
Whatever it holds, the timeout that comes of it lies inside the limits, the same environment changes
nothing when it is applied again, and only the list of pools can then break a rule of the strict
check.  So the built-in settings can always be used (`overrides_usable`).
-/
import TaskPools.Proofs.Environment.Variables
import TaskPools.Proofs.Settings.Rules

namespace TaskPools

namespace Settings

/-! ## What the environment asks for -/

/-- The environment holds the text of an integer inside the limits of the timeout. -/
def Asks (env : Environment) (v : Int) : Prop :=
  env.Holds timeoutVariable v ∧ 1 ≤ v ∧ v ≤ 600000

/-- The settings `t` are the settings `s` with the overrides of the environment. -/
structure Overridden (env : Environment) (s t : Settings) : Prop where
  pools_eq : t.pools = s.pools
  flag_taken : ∀ b, env.Says enabledVariable b → t.enabled = b
  flag_kept : (∀ b, ¬ env.Says enabledVariable b) → t.enabled = s.enabled
  timeout_taken : ∀ v, Asks env v → t.shutdownTimeout.toInt = v
  timeout_kept : (∀ v, ¬ Asks env v) →
    1 ≤ s.shutdownTimeout.toInt ∧ s.shutdownTimeout.toInt ≤ 600000 →
      t.shutdownTimeout = s.shutdownTimeout
  timeout_replaced : (∀ v, ¬ Asks env v) →
    ¬ (1 ≤ s.shutdownTimeout.toInt ∧ s.shutdownTimeout.toInt ≤ 600000) →
      t.shutdownTimeout.toInt = 5000

/-- The timeout that is used unless the environment asks for another. -/
def ownTimeout (s : Settings) : Int32 :=
  if s.timeoutInRange then s.shutdownTimeout.toInt32 else defaultTimeout

variable {env : Environment} {s t u : Settings} {v : Int} {fallback : Int32} {fault : Fault}

/-! ## The timeout -/

/-- A timeout inside its limits survives the way to 32 bits and back. -/
theorem ownTimeout_of_in_range
    (in_range : 1 ≤ s.shutdownTimeout.toInt ∧ s.shutdownTimeout.toInt ≤ 600000) :
    s.ownTimeout.toInt64 = s.shutdownTimeout := by
  have same : s.shutdownTimeout.toInt32.toInt = s.shutdownTimeout.toInt := by
    rw [Int64.toInt_toInt32]
    exact Int.bmod_eq_of_le (by omega) (by omega)
  rw [ownTimeout, if_pos (timeoutInRange_iff.mpr in_range), ← Int64.toInt_inj,
    Int32.toInt_toInt64, same]

theorem ownTimeout_of_out_of_range
    (outside : ¬ (1 ≤ s.shutdownTimeout.toInt ∧ s.shutdownTimeout.toInt ≤ 600000)) :
    s.ownTimeout = defaultTimeout :=
  if_neg fun in_range => outside (timeoutInRange_iff.mp in_range)

theorem accepted_timeout_iff {value : String} {n : Int32} :
    Integer.Accepted minTimeout maxTimeout (bytesOf value) n ↔
      Integer.Numeral (bytesOf value) n.toInt ∧ 1 ≤ n.toInt ∧ n.toInt ≤ 600000 := by
  rw [Integer.Accepted, Int32.le_iff_toInt_le, Int32.le_iff_toInt_le]
  rfl

theorem integer_of_asks (asks : Asks env v) :
    (env.integer timeoutVariable fallback minTimeout maxTimeout).1.toInt = v := by
  obtain ⟨⟨value, held, numeral⟩, ge, le⟩ := asks
  have same : (Int32.ofInt v).toInt = v :=
    Int32.toInt_ofInt_of_le (by omega) (by omega)
  have accepted : Integer.Accepted minTimeout maxTimeout (bytesOf value) (Int32.ofInt v) := by
    rw [accepted_timeout_iff, same]
    exact ⟨numeral, ge, le⟩
  rw [Environment.integer_of_accepted held accepted, same]

theorem integer_of_not_asks (quiet : ∀ v, ¬ Asks env v) :
    (env.integer timeoutVariable fallback minTimeout maxTimeout).1 = fallback := by
  cases held : env.get? timeoutVariable with
  | none => rw [Environment.integer_of_unset held]
  | some value =>
    rcases Integer.accepted_or_faulty minTimeout maxTimeout (bytesOf value) with
      ⟨n, -, accepted⟩ | ⟨fault, -, faulty⟩
    · obtain ⟨numeral, in_range⟩ := accepted_timeout_iff.mp accepted
      exact absurd ⟨⟨value, held, numeral⟩, in_range⟩ (quiet n.toInt)
    · rw [Environment.integer_of_faulty held faulty]

/-! ## The overrides -/

theorem override_fst (env : Environment) (s : Settings) :
    (s.override env).1 =
      { pools := s.pools
        enabled := (env.flag enabledVariable s.enabled).1
        shutdownTimeout :=
          (env.integer timeoutVariable s.ownTimeout minTimeout maxTimeout).1.toInt64 } := by
  have own : s.ownTimeout =
      if s.timeoutInRange then s.shutdownTimeout.toInt32 else defaultTimeout := rfl
  by_cases in_range : s.timeoutInRange = true
  · simp only [override, own, if_pos in_range]
  · simp only [override, own, if_neg in_range]

theorem overridden_override (env : Environment) (s : Settings) :
    Overridden env s (s.override env).1 := by
  rw [override_fst]
  constructor
  case pools_eq => rfl
  case flag_taken => exact fun b meant => Environment.flag_of_says meant
  case flag_kept => exact fun quiet => Environment.flag_of_not_says quiet
  case timeout_taken =>
    intro v asks
    rw [Int32.toInt_toInt64, integer_of_asks asks]
  case timeout_kept =>
    intro quiet in_range
    simp only [integer_of_not_asks quiet, ownTimeout_of_in_range in_range]
  case timeout_replaced =>
    intro quiet outside
    simp only [integer_of_not_asks quiet, ownTimeout_of_out_of_range outside]
    rfl

namespace Overridden

theorem timeout_in_range (h : Overridden env s t) :
    1 ≤ t.shutdownTimeout.toInt ∧ t.shutdownTimeout.toInt ≤ 600000 := by
  by_cases asks : ∃ v, Asks env v
  · obtain ⟨v, asks⟩ := asks
    rw [h.timeout_taken v asks]
    exact asks.2
  · have quiet := not_exists.mp asks
    by_cases in_range : 1 ≤ s.shutdownTimeout.toInt ∧ s.shutdownTimeout.toInt ≤ 600000
    · rw [h.timeout_kept quiet in_range]
      exact in_range
    · rw [h.timeout_replaced quiet in_range]
      decide

/-- Settings and environment leave no choice. -/
theorem unique (h : Overridden env s t) (h' : Overridden env s u) : t = u := by
  have flags : t.enabled = u.enabled := by
    by_cases meant : ∃ b, env.Says enabledVariable b
    · obtain ⟨b, meant⟩ := meant
      rw [h.flag_taken b meant, h'.flag_taken b meant]
    · have quiet := not_exists.mp meant
      rw [h.flag_kept quiet, h'.flag_kept quiet]
  have timeouts : t.shutdownTimeout.toInt = u.shutdownTimeout.toInt := by
    by_cases asks : ∃ v, Asks env v
    · obtain ⟨v, asks⟩ := asks
      rw [h.timeout_taken v asks, h'.timeout_taken v asks]
    · have quiet := not_exists.mp asks
      by_cases in_range : 1 ≤ s.shutdownTimeout.toInt ∧ s.shutdownTimeout.toInt ≤ 600000
      · rw [h.timeout_kept quiet in_range, h'.timeout_kept quiet in_range]
      · rw [h.timeout_replaced quiet in_range, h'.timeout_replaced quiet in_range]
  have pools : t.pools = u.pools := h.pools_eq.trans h'.pools_eq.symm
  cases t
  cases u
  rw [mk.injEq]
  exact ⟨flags, pools, Int64.toInt_inj.mp timeouts⟩

/-- Settings that come of the overrides are what these make of them again. -/
theorem again (h : Overridden env s t) : Overridden env t t where
  pools_eq := rfl
  flag_taken := h.flag_taken
  flag_kept := fun _ => rfl
  timeout_taken := h.timeout_taken
  timeout_kept := fun _ _ => rfl
  timeout_replaced := fun _ outside => absurd h.timeout_in_range outside

end Overridden

/-! ## What can be wrong afterwards -/

/-- A timeout inside its limits leaves only the pools to be blamed. -/
theorem blamed_of_in_range
    (in_range : 1 ≤ s.shutdownTimeout.toInt ∧ s.shutdownTimeout.toInt ≤ 600000)
    (failed : s.validate = some fault) :
    s.enabled = true ∧ ∃ rule ≠ .timeout, s.BreaksFirst rule ∧ fault = s.faultFor rule := by
  obtain ⟨rule, first, rfl⟩ := validate_eq_some_iff.mp failed
  cases rule with
  | timeout => exact absurd in_range first.breaks
  | somePool => exact ⟨first.breaks.1, _, Rule.noConfusion, first, rfl⟩
  | pool i part => exact ⟨first.breaks.1, _, Rule.noConfusion, first, rfl⟩

theorem builtIn_sound : ∀ p ∈ builtIn.pools, p.Sound := by
  simp only [sound_iff]
  decide

/-- The strict check has nothing against the built-in pools. -/
theorem validate_of_builtIn_pools (pools_eq : s.pools = builtIn.pools)
    (in_range : 1 ≤ s.shutdownTimeout.toInt ∧ s.shutdownTimeout.toInt ≤ 600000) :
    s.validate = none := by
  rw [validate_eq_none_iff, pools_eq]
  exact ⟨timeoutInRange_iff.mpr in_range, fun _ => ⟨by decide, builtIn_sound, by decide⟩⟩

theorem load_without_file (source : Source) (env : Environment) :
    load source env "" = (.ok (builtIn.override env).1, (builtIn.override env).2) := by
  have overridden := overridden_override env builtIn
  have valid := validate_of_builtIn_pools overridden.pools_eq overridden.timeout_in_range
  simp only [load, if_true, List.nil_append, valid]

/-- **The overrides leave usable settings.**  Whatever the settings and whatever the environment
holds, the pools stay as they are, the flag and the timeout come from the environment as far as it
holds a usable value, and the timeout lies inside its limits.  The same environment then changes
nothing more, and if the strict check fails afterwards, pools are wanted and the first broken rule
is one for them.  Without a file the built-in settings are loaded so, in every environment. -/
theorem overrides_usable (env : Environment) :
    (∀ s : Settings, ∃ t outputs, s.override env = (t, outputs) ∧ Overridden env s t ∧
      (1 ≤ t.shutdownTimeout.toInt ∧ t.shutdownTimeout.toInt ≤ 600000) ∧
      (t.override env).1 = t ∧
      ∀ fault, t.validate = some fault → t.enabled = true ∧
        ∃ rule ≠ .timeout, t.BreaksFirst rule ∧ fault = t.faultFor rule) ∧
    ∀ source, ∃ t outputs, load source env "" = (.ok t, outputs) ∧ t.pools = builtIn.pools ∧
      Overridden env builtIn t := by
  refine ⟨fun s => ?_, fun source => ?_⟩
  · have overridden := overridden_override env s
    have in_range := overridden.timeout_in_range
    have twice := overridden_override env (s.override env).1
    exact ⟨_, _, rfl, overridden, in_range, twice.unique overridden.again,
      fun fault failed => blamed_of_in_range in_range failed⟩
  · have overridden := overridden_override env builtIn
    exact ⟨_, _, load_without_file source env, overridden.pools_eq, overridden⟩

/-- Settings without pools and with the longest timeout there is. -/
def endless : Settings where
  enabled := false
  shutdownTimeout := 9223372036854775807

/-- An environment that wants pools, and a timeout just beyond the limits. -/
def eager : Environment where
  entries := [(enabledVariable, "yEs"), (timeoutVariable, "600001")]

/-- Neither timeout can be used, and then it is the missing pools that are blamed. -/
theorem endless_overridden :
    ∃ t outputs, endless.override eager = (t, outputs) ∧ Overridden eager endless t ∧
      t = { enabled := true, pools := [], shutdownTimeout := 5000 } ∧
      t.validate = some .noPools ∧
      ∃ rule ≠ .timeout, t.BreaksFirst rule ∧ Fault.noPools = t.faultFor rule := by
  obtain ⟨t, outputs, result, overridden, -, -, blamed⟩ := (overrides_usable eager).1 endless
  have spelled : Environment.Spells "yEs" "yes" :=
    .cons (.inl rfl) (.cons (.inr ⟨rfl, rfl⟩) (.cons (.inl rfl) .nil))
  have wanted : eager.Says enabledVariable true := ⟨"yEs", rfl, "yes", by decide, spelled⟩
  have quiet : ∀ v, ¬ Asks eager v := by
    rintro v ⟨⟨value, held, numeral⟩, -, le⟩
    obtain rfl : value = "600001" := Option.some.inj (held.symm.trans rfl)
    have other : Integer.Numeral (bytesOf "600001") 600001 := Integer.numeral_iff_scan.mpr rfl
    have same := numeral.unique other
    omega
  have replaced := overridden.timeout_replaced quiet (by decide)
  have t_eq : t = { enabled := true, pools := [], shutdownTimeout := 5000 } := by
    have flag_eq := overridden.flag_taken true wanted
    have timeout_eq : t.shutdownTimeout = 5000 := Int64.toInt_inj.mp replaced
    have pools_eq : t.pools = [] := overridden.pools_eq
    cases t
    rw [mk.injEq]
    exact ⟨flag_eq, pools_eq, timeout_eq⟩
  have failed : t.validate = some .noPools := by
    rw [t_eq]
    rfl
  exact ⟨t, outputs, result, overridden, t_eq, failed, (blamed _ failed).2⟩

end Settings

end TaskPools
