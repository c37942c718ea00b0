/-
# All pools of a list, or none

A construction goes through three stages: it builds pools, or it clears away what it has built, or
it is done (`Construction.Stage`).  Every step keeps to the stages (`Stage.change`), each step of
its own brings it nearer to its end (`Stage.stepsLeft_add_le`), and until then it can always take
one (`Stage.goesOn`), whether threads can be started or not.  So it ends with a pool for each
configuration of the list, or with none and with the fault of the first one that offends
(`builds_all_or_none`).  Its caller keeps what he has in hand until the new batch is complete
(`Change.hand_eq`, `hand_of_run`).
-/
import TaskPools.Fleet.Construction
import TaskPools.Proofs.Fleet.Assembly
import TaskPools.Proofs.Fleet.Clearance

namespace TaskPools

variable {τ : Type}

/-- What an assembly that got through the configurations `ready` has made of the pools from number
`n` on. -/
def Assembly.Leaves (n : Nat) (ready : List PoolConfig) (f : Fleet τ) : Assembly → Prop
  | .building _ batch | .done (.ok batch) => batch.Made n ready f
  | .discarding _ r => r.Clears n f
  | .done (.error _) => ({ todo := [] } : Retirement).Clears n f

/-- How many steps an assembly takes before it is done, its pools aside. -/
def Assembly.stepsLeft : Assembly → Nat
  | .building todo batch => 8 * todo.length + 7 * batch.length + 2
  | .discarding _ r => 7 * r.todo.length + r.underWay.length + 1
  | .done _ => 0

/-- The pool to which a batch gives this name. -/
def Fleet.find? (f : Fleet τ) (batch : Batch) (name : String) : Option (GuardedPool τ) :=
  (batch.lookup name).bind fun i => f.pools[i]?

/-- The fleet `f₀` has become `f`, in which the batch names a new pool for each configuration of the
list, and nothing else. -/
structure Fleet.Provides (f₀ f : Fleet τ) (configs : List PoolConfig) (batch : Batch) : Prop where
  numbers : batch.pools = List.range' f₀.pools.length configs.length
  keys : ∀ name, (batch.lookup name).isSome = true ↔ name ∈ configs.map PoolConfig.name
  found : ∀ config ∈ configs, ∃ g, f.find? batch config.name = some g ∧
    GuardedPool.create config f₀.options.watched = .ok g ∧ g.IsNew config

/-- The fleet `f₀` has become `f`, because the configuration at place `k` is the first that offends:
as many pools were built, and each of them was released once. -/
structure Fleet.Refuses (f₀ f : Fleet τ) (configs : List PoolConfig) (k : Nat) (fault : Fault) :
    Prop where
  first : PoolConfig.FirstOffence configs k fault
  reported : ∃ config, configs[k]? = some config ∧
    ((config.name = "" ∧
        fault.status = .coded Code.invalidConfig "invalid config: pool name is empty") ∨
      (config.name ∈ (configs.take k).map PoolConfig.name ∧ fault.status = .coded Code.invalidConfig
        ("invalid config: " ++ ("duplicate pool name: " ++ config.name))))
  length_eq : f.pools.length = f₀.pools.length + k
  released : ∀ (i : Nat) (g : GuardedPool τ), f₀.pools.length ≤ i → f.pools[i]? = some g →
    ∃ outcome, g.releases = [.returned outcome]

namespace Construction

/-! ## What a step of a construction does -/

/-- Let events happen one after the other. -/
def run (c : Construction τ) (es : List Event) : Option (Construction τ) :=
  es.foldlM step c

/-- The event is a step of the construction itself or of a pool that it built, where the numbers of
those begin with `n`. -/
def Event.isOwn (n : Nat) : Event → Bool
  | .advance | .launch _ _ | .collect _ => true
  | .pool i _ => decide (n ≤ i)

/-- Whether the thread that an event needs, if it needs one, can be started. -/
def Event.start? : Event → Option Bool
  | .launch _ start | .pool _ (.launch _ start) | .pool _ (.pool (.enter _ start _))
  | .pool _ (.pool (.resume _ start _)) => some start
  | _ => none

/-- A step of the construction itself or of a pool that it built is possible, if threads can be
started or not as `start` says. -/
def GoesOn (c : Construction τ) (n : Nat) (start : Bool) : Prop :=
  ∃ e d, c.step e = some d ∧ e.isOwn n = true ∧ ∀ needed, e.start? = some needed → needed = start

/-- What a step of a construction does. -/
inductive Change (c : Construction τ) : Event → Construction τ → Prop where
  | advance (f : Fleet τ) (a : Assembly) (advances : c.assembly.advance c.fleet = some (f, a)) :
      Change c .advance ⟨f, a, a.handOver c.hand⟩
  | launch (i : Nat) (start : Bool) (fault : Fault) (r r' : Retirement) (f : Fleet τ)
      (discards : c.assembly = .discarding fault r)
      (launches : r.Launch c.fleet i none start f r') :
      Change c (.launch i start) ⟨f, .discarding fault r', c.hand⟩
  | collect (k : Option Nat) (fault : Fault) (r r' : Retirement) (f : Fleet τ)
      (discards : c.assembly = .discarding fault r)
      (collects : r.collect c.fleet k = some (f, r')) :
      Change c (.collect k) ⟨f, .discarding fault r', c.hand⟩
  | pool (i : Nat) (m : GuardedPool.Move) (g g' : GuardedPool τ)
      (at_i : c.fleet.pools[i]? = some g) (moves : g.step (.move m) = some g') :
      Change c (.pool i m) ⟨{ c.fleet with pools := c.fleet.pools.set i g' }, c.assembly, c.hand⟩

/-- A construction for a list that began with the fleet `f₀` and got through the configurations
`ready`. -/
structure Stage (f₀ : Fleet τ) (configs ready : List PoolConfig) (c : Construction τ) : Prop where
  tells : c.assembly.Tells configs ready
  grows : f₀.Grows c.fleet ready.length
  leaves : c.assembly.Leaves f₀.pools.length ready c.fleet

/-- How many steps a construction takes before it is done and its pools have no release under
way. -/
def stepsLeft (c : Construction τ) (n : Nat) : Nat :=
  c.assembly.stepsLeft + c.fleet.stepsLeft n

section

variable {c d : Construction τ} {e : Event} {es : List Event} {f₀ : Fleet τ}
  {configs ready : List PoolConfig} {hand : Batch}

theorem run_nil (h : c.run [] = some d) : d = c := (Option.some.inj h).symm

/-- A run begins with its first step. -/
theorem run_cons (h : c.run (e :: es) = some d) :
    ∃ c', c.step e = some c' ∧ c'.run es = some d := by
  rw [run, List.foldlM_cons] at h
  exact Option.bind_eq_some_iff.mp h

theorem run_of_step (hstep : c.step e = some d) (es : List Event) :
    c.run (e :: es) = d.run es := by
  rw [run, List.foldlM_cons, hstep]
  rfl

/-- A construction takes no other steps than these. -/
theorem change_of_step (h : c.step e = some d) : Change c e d := by
  cases e with
  | advance =>
    obtain ⟨⟨f, a⟩, advances, h⟩ := Option.map_eq_some_iff.mp h
    cases h
    exact .advance f a advances
  | launch i start =>
    simp only [step] at h
    split at h
    · rename_i fault r discards
      obtain ⟨⟨f, r'⟩, launches, h⟩ := Option.map_eq_some_iff.mp h
      cases h
      exact .launch i start fault r r' f discards (Retirement.launch_of_eq launches)
    · cases h
  | collect k =>
    simp only [step] at h
    split at h
    · rename_i fault r discards
      obtain ⟨⟨f, r'⟩, collects, h⟩ := Option.map_eq_some_iff.mp h
      cases h
      exact .collect k fault r r' f discards collects
    · cases h
  | pool i m =>
    obtain ⟨f, moves, h⟩ := Option.map_eq_some_iff.mp h
    cases h
    obtain ⟨g, at_i, moves⟩ := Option.bind_eq_some_iff.mp moves
    obtain ⟨g', moved, h⟩ := Option.bind_eq_some_iff.mp moves
    cases h
    exact .pool i m g g' at_i moved

/-! ## What the caller has in hand -/

/-- A step leaves to the caller what he has in hand, and completes nothing, or it completes the
batch and hands that over to him. -/
theorem Change.hand_eq (hc : Change c e d) :
    (d.hand = c.hand ∧ ∀ hand, d.assembly.handOver hand = c.assembly.handOver hand) ∨
      ∃ batch, c.assembly = .building [] batch ∧ d.assembly = .done (.ok batch) ∧
        d.hand = batch := by
  obtain ⟨fleet, assembly, inHand⟩ := c
  cases hc with
  | advance f a advances =>
    rcases assembly with ⟨_ | ⟨config, rest⟩, batch⟩ | ⟨fault, r⟩ | result
    · cases advances
      exact Or.inr ⟨batch, rfl, rfl, rfl⟩
    · rw [Assembly.advance] at advances
      split at advances
      · cases advances
        exact Or.inl ⟨rfl, fun _ => rfl⟩
      · cases advances
        exact Or.inl ⟨rfl, fun _ => rfl⟩
    · obtain ⟨-, ⟨⟩⟩ := Option.ite_none_right_eq_some.mp advances
      exact Or.inl ⟨rfl, fun _ => rfl⟩
    · cases advances
  | launch i start fault r r' f discards | collect k fault r r' f discards =>
    subst discards
    exact Or.inl ⟨rfl, fun _ => rfl⟩
  | pool => exact Or.inl ⟨rfl, fun _ => rfl⟩

/-- After a run the caller has the new batch in hand if it is complete, and otherwise what he had
before. -/
theorem hand_of_run (kept : c.hand = c.assembly.handOver hand) (hrun : c.run es = some d) :
    d.hand = d.assembly.handOver hand := by
  induction es generalizing c with
  | nil =>
    rw [run_nil hrun]
    exact kept
  | cons e es ih =>
    obtain ⟨c', hstep, hrun⟩ := run_cons hrun
    refine ih ?_ hrun
    rcases (change_of_step hstep).hand_eq with ⟨same, nothing⟩ | ⟨batch, -, complete, given⟩
    · rw [same, kept, nothing]
    · rw [given, complete]
      rfl

/-! ## Every step leads to a stage -/

/-- A construction that begins is at a stage. -/
theorem stage_ofConfigs (f₀ : Fleet τ) (configs : List PoolConfig) (hand : Batch) :
    Stage f₀ configs [] (ofConfigs f₀ configs hand) where
  tells := Assembly.tells_ofConfigs configs
  grows := .refl f₀
  leaves := Batch.made_nil f₀

/-- An assembly that goes on leads to a stage. -/
theorem Stage.advance (h : Stage f₀ configs ready c) {f : Fleet τ} {a : Assembly}
    (advances : c.assembly.advance c.fleet = some (f, a)) :
    ∃ ready', Stage f₀ configs ready' ⟨f, a, a.handOver c.hand⟩ := by
  obtain ⟨ready', hc, tells⟩ := h.tells.advance advances
  suffices kept : f₀.Grows f ready'.length ∧ a.Leaves f₀.pools.length ready' f from
    ⟨ready', tells, kept.1, kept.2⟩
  obtain ⟨fleet, assembly, inHand⟩ := c
  obtain ⟨-, grows, leaves⟩ := h
  cases hc with
  | build config rest batch g created =>
    rw [List.length_append]
    exact ⟨grows.build created, leaves.build grows.length_eq created⟩
  | allBuilt batch => exact ⟨grows, leaves⟩
  | discard config rest batch fault => exact ⟨grows, leaves.clears grows.length_eq⟩
  | discarded fault r is_over => exact ⟨grows, leaves.finish is_over⟩

/-- What an assembly leaves, no move of a pool spoils: while it builds, the new pools do not
move. -/
theorem Stage.move (h : Stage f₀ configs ready c) {i : Nat} {m : GuardedPool.Move}
    {g g' : GuardedPool τ} (at_i : c.fleet.pools[i]? = some g)
    (moves : g.step (.move m) = some g') :
    Stage f₀ configs ready
      ⟨{ c.fleet with pools := c.fleet.pools.set i g' }, c.assembly, c.hand⟩ where
  tells := h.tells
  grows := by
    refine h.grows.set at_i (fun _ => ⟨m, moves⟩) (fun new => ?_) c.fleet.notices
    obtain ⟨reachable, unused⟩ := h.grows.newer i g new at_i
    exact ⟨reachable.step moves, (reachable.stepsLeft_lt unused moves).1⟩
  leaves := by
    obtain ⟨fleet, assembly, inHand⟩ := c
    obtain ⟨-, grows, leaves⟩ := h
    rcases assembly with ⟨todo, batch⟩ | ⟨fault, r⟩ | ⟨fault | batch⟩
    · exact (leaves.move grows.length_eq at_i moves).2
    · exact leaves.move at_i moves
    · exact leaves.move at_i moves
    · exact (leaves.move grows.length_eq at_i moves).2

/-- Every step leads to a stage. -/
theorem Stage.change (h : Stage f₀ configs ready c) (hc : Change c e d) :
    ∃ ready', Stage f₀ configs ready' d := by
  cases hc with
  | advance f a advances => exact h.advance advances
  | launch i start fault r r' f discards launches =>
    obtain ⟨tells, grows, leaves⟩ := h
    rw [discards] at tells leaves
    refine ⟨ready, ?_, ?_, leaves.launch launches⟩
    · cases tells with
      | discarding _ _ first => exact .discarding fault r' first
    · obtain ⟨g, own, notices, hperm, at_i, rfl, -⟩ := launches.eq
      have new := (leaves.built i (hperm.mem_iff.mpr List.mem_cons_self)).1
      refine grows.set at_i (fun old => absurd old (Nat.not_lt.mpr new)) (fun _ => ?_) notices
      obtain ⟨reachable, unused⟩ := grows.newer i g new at_i
      exact ⟨reachable.step (e := .release own c.fleet.options.timeout) rfl, unused⟩
  | collect k fault r r' f discards collects =>
    obtain ⟨tells, grows, leaves⟩ := h
    rw [discards] at tells leaves
    refine ⟨ready, ?_, ?_, leaves.collect collects⟩
    · cases tells with
      | discarding _ _ first => exact .discarding fault r' first
    · obtain ⟨-, ⟨notices, rfl⟩, -⟩ := Retirement.eq_of_collect collects
      exact ⟨grows.options_eq, grows.length_eq, grows.older, grows.newer⟩
  | pool i m g g' at_i moves => exact ⟨ready, h.move at_i moves⟩

/-! ## A construction comes to an end -/

/-- Every step of its own brings a construction nearer to its end, and no other step takes it
farther away. -/
theorem Stage.stepsLeft_add_le (h : Stage f₀ configs ready c) (hc : Change c e d) :
    d.stepsLeft f₀.pools.length + (e.isOwn f₀.pools.length).toNat
      ≤ c.stepsLeft f₀.pools.length := by
  obtain ⟨fleet, assembly, inHand⟩ := c
  obtain ⟨tells, grows, leaves⟩ := h
  have base : f₀.pools.length ≤ fleet.pools.length := by
    rw [grows.length_eq]
    exact Nat.le_add_right _ _
  cases hc with
  | advance f a advances =>
    obtain ⟨ready', hc, -⟩ := tells.advance advances
    cases hc with
    | build config rest batch g created =>
      have total := Fleet.stepsLeft_build base { fleet with pools := fleet.pools ++ [g] } rfl
      rw [(GuardedPool.isNew_of_create created).stepsLeft_eq] at total
      simp only [Construction.stepsLeft, Assembly.stepsLeft, List.length_cons, List.length_append,
        List.length_nil, Event.isOwn, Bool.toNat_true]
      omega
    | allBuilt batch =>
      simp only [Construction.stepsLeft, Assembly.stepsLeft, Event.isOwn, Bool.toNat_true]
      omega
    | discard config rest batch fault =>
      have todo : (Retirement.ofBatch batch).todo.length = batch.length := by
        rw [Retirement.ofBatch, Batch.pools, List.length_map]
      have nobody : (Retirement.ofBatch batch).underWay.length = 0 := rfl
      simp only [Construction.stepsLeft, Assembly.stepsLeft, List.length_cons, todo, nobody,
        Event.isOwn, Bool.toNat_true]
      omega
    | discarded fault r is_over =>
      simp only [Construction.stepsLeft, Assembly.stepsLeft, Event.isOwn, Bool.toNat_true]
      omega
  | launch i start fault r r' f discards launches =>
    subst discards
    obtain ⟨g, own, notices, hperm, at_i, rfl, started⟩ := launches.eq
    have new := (leaves.built i (hperm.mem_iff.mpr List.mem_cons_self)).1
    have total := Fleet.stepsLeft_set (f := fleet) at_i new { fleet with
      pools := fleet.pools.set i
        { g with releases := g.releases ++ [.begun own fleet.options.timeout] }
      notices } rfl
    rw [GuardedPool.stepsLeft_release] at total
    simp only [Construction.stepsLeft, Assembly.stepsLeft, hperm.length_eq, started,
      List.length_cons, List.length_append, List.length_nil, Event.isOwn, Bool.toNat_true]
    omega
  | collect k fault r r' f discards collects =>
    subst discards
    obtain ⟨todo_eq, ⟨notices, rfl⟩, i, t, g, outcome, hperm, -⟩ :=
      Retirement.eq_of_collect collects
    have same : Fleet.stepsLeft { fleet with notices } f₀.pools.length
      = fleet.stepsLeft f₀.pools.length := rfl
    simp only [Construction.stepsLeft, Assembly.stepsLeft, todo_eq, hperm.length_eq, same,
      List.length_cons, Event.isOwn, Bool.toNat_true]
    omega
  | pool i m g g' at_i moves =>
    by_cases new : f₀.pools.length ≤ i
    · obtain ⟨reachable, unused⟩ := grows.newer i g new at_i
      have nearer := (reachable.stepsLeft_lt unused moves).2
      have total := Fleet.stepsLeft_set (f := fleet) at_i new
        { fleet with pools := fleet.pools.set i g' } rfl
      simp only [Construction.stepsLeft, Event.isOwn, decide_eq_true new, Bool.toNat_true]
      omega
    · have total := Fleet.stepsLeft_set_of_lt (Nat.not_le.mp new)
        { fleet with pools := fleet.pools.set i g' } rfl
      simp only [Construction.stepsLeft, Event.isOwn, decide_eq_false new, Bool.toNat_false, total]
      exact Nat.le_refl _

/-- A release asks for a thread only to start, and gets it or not as `start` says. -/
theorem start_of_release {i : Nat} {m : GuardedPool.Move} {start : Bool}
    (of_release : m.ofRelease start = true) (needed : Bool)
    (asked : (Event.pool i m).start? = some needed) : needed = start := by
  cases m with
  | launch t started =>
    cases asked
    exact eq_of_beq of_release
  | pool m =>
    cases m with
    | enter | resume => cases of_release
    | _ => cases asked
  | answer | conclude | complete | elapse => cases asked

/-- As long as it is not done, a construction can go on, whether threads can be started or not. -/
theorem Stage.goesOn (h : Stage f₀ configs ready c) (going : ∀ result, c.assembly ≠ .done result)
    (start : Bool) : c.GoesOn f₀.pools.length start := by
  obtain ⟨fleet, assembly, inHand⟩ := c
  obtain ⟨-, grows, leaves⟩ := h
  have advances {f : Fleet τ} {a : Assembly} (ahead : assembly.advance fleet = some (f, a)) :
      GoesOn ⟨fleet, assembly, inHand⟩ f₀.pools.length start :=
    ⟨.advance, ⟨f, a, a.handOver inHand⟩, by rw [step, ahead]; rfl, rfl, nofun⟩
  rcases assembly with ⟨_ | ⟨config, rest⟩, batch⟩ | ⟨fault, r⟩ | result
  · exact advances rfl
  · cases built : fleet.build batch config with
    | ok made => exact advances (by rw [Assembly.advance, built])
    | error fault => exact advances (by rw [Assembly.advance, built])
  · by_cases busy : r.underWay = []
    · cases todo_eq : r.todo with
      | nil => exact advances (if_pos (Retirement.isOver_iff.mpr ⟨todo_eq, busy⟩))
      | cons i rest =>
        have free : r.inline = none := by
          rw [Retirement.underWay, List.append_eq_nil_iff, Option.toList_eq_nil_iff] at busy
          exact busy.2
        have among : i ∈ r.todo := by
          rw [todo_eq]
          exact List.mem_cons_self
        obtain ⟨f', r', launches⟩ := Retirement.exists_launch among free
          (List.getElem?_eq_getElem (leaves.built i among).2) none start
        refine ⟨.launch i start, ⟨f', .discarding fault r', inHand⟩, ?_, rfl,
          fun needed asked => ?_⟩
        · simp only [step, launches]
          rfl
        · exact (Option.some.inj asked).symm
    · obtain ⟨i, t, k, r', sees, -, -, collects⟩ := @Retirement.exists_collect τ r busy
      obtain ⟨new, g, place, at_i, at_t⟩ := leaves.begun i t sees
      by_cases is_open : place.hasReturned = false
      · obtain ⟨reachable, unused⟩ := grows.newer i g new at_i
        obtain ⟨m, g', of_release, moves⟩ := reachable.exists_move unused at_t is_open start
        refine ⟨.pool i m,
          ⟨{ fleet with pools := fleet.pools.set i g' }, .discarding fault r, inHand⟩, ?_,
          decide_eq_true new, start_of_release of_release⟩
        simp only [step, Fleet.onPool, show fleet.pools[i]? = some g from at_i, Option.bind_eq_bind,
          Option.bind_some, moves]
        rfl
      · cases place with
        | returned outcome =>
          obtain ⟨f', noted⟩ := Retirement.takeNote_of_returned at_i at_t
          refine ⟨.collect k, ⟨f', .discarding fault r', inHand⟩, ?_, rfl, fun needed asked => ?_⟩
          · simp only [step, collects fleet f' noted]
            rfl
          · cases asked
        | begun | waiting | inline => exact absurd rfl is_open
  · exact absurd rfl (going result)

/-! ## A whole construction -/

/-- Every run leads to a stage, and has no more steps of its own than were left. -/
theorem Stage.run (h : Stage f₀ configs ready c) (hrun : c.run es = some d) :
    (∃ ready', Stage f₀ configs ready' d) ∧
      d.stepsLeft f₀.pools.length + es.countP (Event.isOwn f₀.pools.length)
        ≤ c.stepsLeft f₀.pools.length := by
  induction es generalizing c ready with
  | nil =>
    rw [run_nil hrun]
    exact ⟨⟨ready, h⟩, Nat.le_refl _⟩
  | cons e es ih =>
    obtain ⟨c', hstep, hrun⟩ := run_cons hrun
    have hc := change_of_step hstep
    obtain ⟨ready', next⟩ := h.change hc
    have first := h.stepsLeft_add_le hc
    obtain ⟨stage, rest⟩ := ih next hrun
    refine ⟨stage, ?_⟩
    rw [List.countP_cons]
    cases own : e.isOwn f₀.pools.length with
    | false => simp only [Bool.false_eq_true, if_false]; omega
    | true =>
      rw [own, Bool.toNat_true] at first
      rw [if_pos rfl]
      omega

/-- How many steps a construction that begins has left. -/
theorem stepsLeft_ofConfigs (f₀ : Fleet τ) (configs : List PoolConfig) (hand : Batch) :
    (ofConfigs f₀ configs hand).stepsLeft f₀.pools.length = 8 * configs.length + 2 := by
  have nothing_new : (ofConfigs f₀ configs hand).fleet.pools.drop f₀.pools.length = [] :=
    List.drop_length
  rw [stepsLeft, Fleet.stepsLeft, nothing_new]
  rfl

/-- Where the batch is complete, the list is usable and there is a pool for each configuration. -/
theorem Stage.provides (h : Stage f₀ configs ready c) {batch : Batch}
    (built : c.assembly = .done (.ok batch)) :
    PoolConfig.Usable configs ∧ f₀.Provides c.fleet configs batch := by
  obtain ⟨tells, grows, leaves⟩ := h
  rw [built] at tells leaves
  cases tells with
  | built _ complete usable names =>
    subst complete
    have distinct : (batch.map Prod.fst).Nodup := by
      rw [names]
      exact usable.2
    refine ⟨usable, leaves.pools_eq, fun name => ?_, fun config among => ?_⟩
    · rw [← names, List.lookup_isSome_iff, List.mem_map]
      simp only [beq_iff_eq]
      exact exists_congr fun entry => and_congr_right fun _ => eq_comm
    · obtain ⟨j, at_j⟩ := List.mem_iff_getElem?.mp among
      obtain ⟨g, created, at_place⟩ := leaves.created j config at_j
      have entry : (config.name, f₀.pools.length + j) ∈ batch := by
        refine List.mem_of_getElem? (i := j) ?_
        rw [leaves.batch_eq, List.getElem?_zipIdx, List.getElem?_map, at_j]
        rfl
      rw [grows.options_eq] at created
      refine ⟨g, ?_, created, GuardedPool.isNew_of_create created⟩
      rw [Fleet.find?, lookup_eq_of_mem distinct entry]
      exact at_place

/-- Where the construction has failed, the list is not usable and what was built is released. -/
theorem Stage.refuses (h : Stage f₀ configs ready c) {fault : Fault}
    (failed : c.assembly = .done (.error fault)) :
    ¬ PoolConfig.Usable configs ∧ ∃ k, f₀.Refuses c.fleet configs k fault := by
  obtain ⟨tells, grows, leaves⟩ := h
  rw [failed] at tells leaves
  cases tells with
  | failed _ first =>
    obtain ⟨config, at_k, offends⟩ := first.offends
    exact ⟨first.not_usable, ready.length, first, ⟨config, at_k, offends.status_eq⟩,
      grows.length_eq, fun i g => leaves.released⟩

/-- In whatever order the configurations stand, the same pools are found under the same names. -/
theorem find?_eq_of_perm {f₀' f f' : Fleet τ} {configs' : List PoolConfig} {batch batch' : Batch}
    (same : configs.Perm configs') (options_eq : f₀'.options = f₀.options)
    (h : f₀.Provides f configs batch) (h' : f₀'.Provides f' configs' batch') (name : String) :
    f.find? batch name = f'.find? batch' name := by
  by_cases among : name ∈ configs.map PoolConfig.name
  · obtain ⟨config, hconfig, rfl⟩ := List.mem_map.mp among
    obtain ⟨g, found, created, -⟩ := h.found config hconfig
    obtain ⟨g', found', created', -⟩ := h'.found config (same.mem_iff.mp hconfig)
    rw [options_eq] at created'
    cases created.symm.trans created'
    rw [found, found']
  · have among' : name ∉ configs'.map PoolConfig.name := by
      rw [← (same.map PoolConfig.name).mem_iff]
      exact among
    rw [← h.keys, Option.not_isSome_iff_eq_none] at among
    rw [← h'.keys, Option.not_isSome_iff_eq_none] at among'
    rw [Fleet.find?, Fleet.find?, among, among']
    rfl

end

/-- What holds of a construction for this list that began with the fleet `f₀`, and whose caller had
`hand` in hand then, after the events `es`. -/
structure AllOrNone (f₀ : Fleet τ) (configs : List PoolConfig) (hand : Batch) (es : List Event)
    (c : Construction τ) : Prop where
  /-- It and its pools take no more than so many steps. -/
  bounded : es.countP (Event.isOwn f₀.pools.length) ≤ 8 * configs.length + 2
  /-- It is done or can take one, whether threads can be started or not. -/
  goesOn : (∃ result, c.assembly = .done result) ∨ ∀ start, c.GoesOn f₀.pools.length start
  /-- As long as the new batch is not complete, the caller keeps the one in hand. -/
  keeps : (∀ batch, c.assembly ≠ .done (.ok batch)) → c.hand = hand
  /-- The pools that were there before only move. -/
  older : ∀ (i : Nat) (g : GuardedPool τ), f₀.pools[i]? = some g →
    ∃ g', c.fleet.pools[i]? = some g' ∧ Relation.ReflTransGen GuardedPool.Moves g g'
  succeeds_iff : ∀ result, c.assembly = .done result →
    ((∃ batch, result = .ok batch) ↔ PoolConfig.Usable configs)
  provides : ∀ batch, c.assembly = .done (.ok batch) →
    c.hand = batch ∧ f₀.Provides c.fleet configs batch
  refuses : ∀ fault, c.assembly = .done (.error fault) →
    c.hand = hand ∧ ∃ k, f₀.Refuses c.fleet configs k fault

/-- **All pools of a list are built, or none.**  A construction comes to its end whether threads can
be started or not, and then all names of the list were given and different, and there is a new pool
for each configuration, and the caller gets these in the place of what he had in hand; or the first
configuration that offends against this is reported, each pool that was built before was released
once, and the caller keeps what he had.  Whether it succeeds, and which pool is found under which
name, does not depend on the order of the list. -/
theorem builds_all_or_none :
    (∀ (f₀ : Fleet τ) (configs : List PoolConfig) (hand : Batch) (es : List Event)
      (c : Construction τ), (ofConfigs f₀ configs hand).run es = some c →
        c.AllOrNone f₀ configs hand es) ∧
    ∀ (f₀ f₀' : Fleet τ) (configs configs' : List PoolConfig) (hand hand' : Batch)
      (es es' : List Event) (c c' : Construction τ) (result result' : Except Fault Batch),
      (ofConfigs f₀ configs hand).run es = some c →
      (ofConfigs f₀' configs' hand').run es' = some c' →
      configs.Perm configs' → f₀'.options = f₀.options →
      c.assembly = .done result → c'.assembly = .done result' →
        ((∃ batch, result = .ok batch) ↔ ∃ batch, result' = .ok batch) ∧
        ∀ batch batch', result = .ok batch → result' = .ok batch' →
          ∀ name, c.fleet.find? batch name = c'.fleet.find? batch' name := by
  have whole (f₀ : Fleet τ) (configs : List PoolConfig) (hand : Batch) (es : List Event)
      (c : Construction τ) (hrun : (ofConfigs f₀ configs hand).run es = some c) :
      c.AllOrNone f₀ configs hand es := by
    obtain ⟨⟨ready, stage⟩, steps⟩ := (stage_ofConfigs f₀ configs hand).run hrun
    have in_hand : c.hand = c.assembly.handOver hand := hand_of_run rfl hrun
    rw [stepsLeft_ofConfigs] at steps
    refine ⟨Nat.le_trans (Nat.le_add_left _ _) steps, ?_, fun incomplete => ?_, stage.grows.older,
      fun result is_done => ?_, fun batch is_done => ⟨?_, (stage.provides is_done).2⟩,
      fun fault is_done => ⟨?_, (stage.refuses is_done).2⟩⟩
    · by_cases finished : ∃ result, c.assembly = .done result
      · exact Or.inl finished
      · exact Or.inr (stage.goesOn fun result is_done => finished ⟨result, is_done⟩)
    · rw [in_hand]
      rcases place : c.assembly with ⟨todo, batch⟩ | ⟨fault, r⟩ | ⟨fault | batch⟩
      · rfl
      · rfl
      · rfl
      · exact absurd place (incomplete batch)
    · cases result with
      | ok batch => exact iff_of_true ⟨batch, rfl⟩ (stage.provides is_done).1
      | error fault => exact iff_of_false nofun (stage.refuses is_done).1
    · rw [in_hand, is_done]
      rfl
    · rw [in_hand, is_done]
      rfl
  refine ⟨whole, ?_⟩
  intro f₀ f₀' configs configs' hand hand' es es' c c' result result' hrun hrun' same options_eq
    is_done is_done'
  have first := whole f₀ configs hand es c hrun
  have second := whole f₀' configs' hand' es' c' hrun'
  refine ⟨?_, ?_⟩
  · rw [first.succeeds_iff result is_done, second.succeeds_iff result' is_done']
    exact ⟨fun usable => usable.perm same, fun usable => usable.perm same.symm⟩
  · rintro batch batch' rfl rfl
    exact find?_eq_of_perm same options_eq (first.provides batch is_done).2
      (second.provides batch' is_done').2

/-- Two pools of different names. -/
def twoPools : List PoolConfig := [{ name := "a", size := 1 }, { name := "b", size := 0 }]

/-- Both pools are built, then the name of the first comes again.  The second pool is released on
the thread of the construction; for the first one a thread is started, and the time of its release
is over before the pool is released. -/
def duplicateName : List Event :=
  [.advance, .advance, .advance, .launch 1 false, .pool 1 (.launch 0 false),
    .pool 1 (.pool (.close 0)), .pool 1 (.pool (.alertWorkers 0)),
    .pool 1 (.pool (.alertSubmitters 0)), .pool 1 (.complete 0), .collect none, .launch 0 true,
    .pool 0 (.launch 0 true), .pool 0 (.elapse 0), .collect (some 0), .advance]

/-- Where a third pool has the name of the first, both pools before it are released once and the
caller keeps what he had in hand; and in whatever order the two stand, the same pools are found
under their names. -/
theorem two_pools_built_or_released :
    (∃ c : Construction Nat,
      (ofConfigs {} (twoPools ++ [{ name := "a" }]) [("old", 7)]).run duplicateName = some c ∧
      c.assembly = .done (.error (.duplicateName "a")) ∧ c.hand = [("old", 7)] ∧
      c.fleet.pools.map GuardedPool.releases
        = [[.returned (some (.shutdownTimeout "a"))], [.returned none]] ∧
      ∃ k, ({} : Fleet Nat).Refuses c.fleet (twoPools ++ [{ name := "a" }]) k
        (.duplicateName "a")) ∧
    ∃ (c c' : Construction Nat) (batch batch' : Batch),
      (ofConfigs {} twoPools [("old", 7)]).run [.advance, .advance, .advance] = some c ∧
      (ofConfigs {} twoPools.reverse []).run [.advance, .advance, .advance] = some c' ∧
      c.assembly = .done (.ok batch) ∧ c'.assembly = .done (.ok batch') ∧ c.hand = batch ∧
      ∀ name, c.fleet.find? batch name = c'.fleet.find? batch' name := by
  constructor
  · obtain ⟨c, hrun, failed, released⟩ : ∃ c : Construction Nat,
        (ofConfigs {} (twoPools ++ [{ name := "a" }]) [("old", 7)]).run duplicateName = some c ∧
        c.assembly = .done (.error (.duplicateName "a")) ∧
        c.fleet.pools.map GuardedPool.releases
          = [[.returned (some (.shutdownTimeout "a"))], [.returned none]] :=
      ⟨_, rfl, rfl, rfl⟩
    obtain ⟨kept, refused⟩ := (builds_all_or_none.1 _ _ _ _ _ hrun).refuses _ failed
    exact ⟨c, hrun, failed, kept, released, refused⟩
  · refine ⟨_, _, _, _, rfl, rfl, rfl, rfl, rfl, ?_⟩
    exact (builds_all_or_none.2 {} {} twoPools twoPools.reverse [("old", 7)] []
      [.advance, .advance, .advance] [.advance, .advance, .advance] _ _ _ _ rfl rfl
      (List.reverse_perm twoPools).symm rfl rfl rfl).2 _ _ rfl rfl

end Construction

end TaskPools
