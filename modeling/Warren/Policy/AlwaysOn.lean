import Warren.Basic

/-! The `always-on` policy: a health poll feeding a consecutive-failure counter. The state
leaves `starting` on the first healthy probe and becomes `degraded` once `maxFailures`
probes in a row have failed; `Reflects` says how the state and the counter determine, and
are determined by, the probe history of a run. `Tracks` says the same of every run, however
long its failure streaks: the counter then wraps around, and the state stays right. -/

namespace Warren.Policy

/-- The values `AlwaysOn.state` holds; the Go code stores them as the strings
`"starting"`, `"ready"` and `"degraded"`. -/
inductive State
  | starting
  | ready
  | degraded
deriving DecidableEq, Repr

structure AlwaysOnConfig where
  agent : List UInt8
  healthURL : List UInt8
  checkInterval : Int
  maxFailures : Int
deriving DecidableEq, Repr

structure AlwaysOn where
  agent : List UInt8
  healthURL : List UInt8
  checkInterval : Int
  maxFailures : Int
  state : State
  failures : Int
deriving DecidableEq, Repr

def newAlwaysOn (cfg : AlwaysOnConfig) : AlwaysOn where
  agent := cfg.agent
  healthURL := cfg.healthURL
  checkInterval := cfg.checkInterval
  maxFailures := cfg.maxFailures
  state := .starting
  failures := 0

namespace AlwaysOn

def onHealthy (a : AlwaysOn) : AlwaysOn := { a with state := .ready, failures := 0 }

def onUnhealthy (a : AlwaysOn) : AlwaysOn :=
  let failures := goInt (a.failures + 1)
  { a with failures, state := if failures ≥ a.maxFailures then .degraded else a.state }

/-- One tick of `Start`'s loop; `healthy` is whether `container.CheckHealth` returned nil. -/
def tick (a : AlwaysOn) (healthy : Bool) : AlwaysOn :=
  if healthy then a.onHealthy else a.onUnhealthy

/-- The ticks `Start` runs before its context is cancelled, one probe outcome each. -/
def start (a : AlwaysOn) (outcomes : List Bool) : AlwaysOn := outcomes.foldl tick a

@[simp] theorem tick_true (a : AlwaysOn) : a.tick true = a.onHealthy := rfl

@[simp] theorem tick_false (a : AlwaysOn) : a.tick false = a.onUnhealthy := rfl

@[simp] theorem tick_maxFailures (a : AlwaysOn) (o : Bool) :
    (a.tick o).maxFailures = a.maxFailures := by
  cases o <;> rfl

@[simp] theorem start_nil (a : AlwaysOn) : a.start [] = a := rfl

@[simp] theorem start_append_singleton (a : AlwaysOn) (os : List Bool) (o : Bool) :
    a.start (os ++ [o]) = (a.start os).tick o := List.foldl_append ..

@[simp] theorem start_maxFailures (a : AlwaysOn) (os : List Bool) :
    (a.start os).maxFailures = a.maxFailures := by
  induction os using List.reverseRecOn with
  | nil => rfl
  | append_singleton os o ih => simp [ih]

theorem tick_ne_starting (a : AlwaysOn) (o : Bool) (h : a.state ≠ .starting) :
    (a.tick o).state ≠ .starting := by
  cases o
  · simp only [tick_false, onUnhealthy]
    split <;> simp_all
  · simp [onHealthy]

theorem eq_true_of_tick_leaves_degraded (a : AlwaysOn) (o : Bool) (h : a.state = .degraded)
    (h' : (a.tick o).state ≠ .degraded) : o = true := by
  cases o
  · simp only [tick_false, onUnhealthy] at h'
    split at h' <;> simp_all
  · rfl

end AlwaysOn

/-- The probes that failed since the last healthy one, or since the start if none was. -/
def trailingFailures (outcomes : List Bool) : Nat :=
  (outcomes.reverse.takeWhile (fun o => !o)).length

@[simp] theorem trailingFailures_nil : trailingFailures [] = 0 := rfl

@[simp] theorem trailingFailures_append_true (os : List Bool) :
    trailingFailures (os ++ [true]) = 0 := by
  simp [trailingFailures]

@[simp] theorem trailingFailures_append_false (os : List Bool) :
    trailingFailures (os ++ [false]) = trailingFailures os + 1 := by
  simp [trailingFailures]

/-- The degradation invariant: after the probe history `outcomes`, with `m` failures in a
row needed to degrade, the counter holds the failures since the last success, and the
state is `degraded`, `ready` or `starting` exactly as that count and the presence of a
success say. -/
structure Reflects (m : Int) (a : AlwaysOn) (outcomes : List Bool) : Prop where
  failures_eq : a.failures = trailingFailures outcomes
  degraded_iff : a.state = .degraded ↔ m ≤ trailingFailures outcomes
  ready_iff : a.state = .ready ↔ trailingFailures outcomes < m ∧ true ∈ outcomes
  starting_iff : a.state = .starting ↔ trailingFailures outcomes < m ∧ true ∉ outcomes

theorem reflects_newAlwaysOn (cfg : AlwaysOnConfig) :
    Reflects (max cfg.maxFailures 1) (newAlwaysOn cfg) [] where
  failures_eq := rfl
  degraded_iff := by
    simp only [newAlwaysOn, reduceCtorEq, trailingFailures_nil, Int.Nat.cast_ofNat_Int, false_iff]
    omega
  ready_iff := by simp [newAlwaysOn]
  starting_iff := by
    simp only [newAlwaysOn, trailingFailures_nil, Int.Nat.cast_ofNat_Int, List.not_mem_nil,
      not_false_eq_true, and_true, true_iff]
    omega

theorem reflects_tick_true {m : Int} (a : AlwaysOn) (os : List Bool)
    (hm : m = max a.maxFailures 1) : Reflects m (a.tick true) (os ++ [true]) where
  failures_eq := by simp [AlwaysOn.onHealthy]
  degraded_iff := by
    simp only [AlwaysOn.tick_true, AlwaysOn.onHealthy, reduceCtorEq, trailingFailures_append_true,
      Int.Nat.cast_ofNat_Int, false_iff]
    omega
  ready_iff := by
    simp only [AlwaysOn.tick_true, AlwaysOn.onHealthy, trailingFailures_append_true,
      List.mem_append, List.mem_singleton, or_true, and_true, true_iff]
    omega
  starting_iff := by simp [AlwaysOn.onHealthy]

theorem Reflects.tick_false {m : Int} {a : AlwaysOn} {os : List Bool} (h : Reflects m a os)
    (hm : m = max a.maxFailures 1) (hb : trailingFailures os + 1 < 2 ^ 63) :
    Reflects m (a.tick false) (os ++ [false]) := by
  have hf : goInt (a.failures + 1) = trailingFailures os + 1 := by
    rw [h.failures_eq]
    exact goInt_of_lt (by omega) (by omega)
  have hfail : (a.tick false).failures = trailingFailures (os ++ [false]) := by
    simp [AlwaysOn.onUnhealthy, hf]
  have hmem : true ∈ os ++ [false] ↔ true ∈ os := by simp
  by_cases hc : a.maxFailures ≤ trailingFailures os + 1
  · -- the counter reaches `maxFailures`, hence `m`: the policy degrades
    have hs : (a.tick false).state = .degraded := by simp [AlwaysOn.onUnhealthy, hf, hc]
    refine ⟨hfail, ?_, ?_, ?_⟩ <;>
      simp only [hs, trailingFailures_append_false, reduceCtorEq, true_iff, false_iff] <;> omega
  · -- below the threshold the state is kept
    have hs : (a.tick false).state = a.state := by simp [AlwaysOn.onUnhealthy, hf, hc]
    refine ⟨hfail, ?_, ?_, ?_⟩ <;> rw [hs, trailingFailures_append_false]
    · rw [h.degraded_iff]; push_cast; omega
    · rw [h.ready_iff, hmem]; exact and_congr_left fun _ => by push_cast; omega
    · rw [h.starting_iff, hmem]; exact and_congr_left fun _ => by push_cast; omega

theorem reflects_start (cfg : AlwaysOnConfig) (outcomes : List Bool)
    (hrun : trailingFailures outcomes < 2 ^ 63 - 1) :
    Reflects (max cfg.maxFailures 1) ((newAlwaysOn cfg).start outcomes) outcomes := by
  induction outcomes using List.reverseRecOn with
  | nil => exact reflects_newAlwaysOn cfg
  | append_singleton os o ih =>
    rw [AlwaysOn.start_append_singleton]
    cases o
    · rw [trailingFailures_append_false] at hrun
      exact (ih (by omega)).tick_false (by simp [newAlwaysOn]) (by omega)
    · exact reflects_tick_true _ os (by simp [newAlwaysOn])

theorem alwaysOn_degradation_invariant (cfg : AlwaysOnConfig) (outcomes : List Bool)
    (hrun : trailingFailures outcomes < 2 ^ 63 - 1) :
    Reflects (max cfg.maxFailures 1) ((newAlwaysOn cfg).start outcomes) outcomes ∧
      ∀ o : Bool,
        (((newAlwaysOn cfg).start outcomes).state ≠ .starting →
          ((newAlwaysOn cfg).start (outcomes ++ [o])).state ≠ .starting) ∧
        (((newAlwaysOn cfg).start outcomes).state = .degraded →
          ((newAlwaysOn cfg).start (outcomes ++ [o])).state ≠ .degraded → o = true) := by
  refine ⟨reflects_start cfg outcomes hrun, fun o => ⟨fun h => ?_, fun h h' => ?_⟩⟩
  · simpa using AlwaysOn.tick_ne_starting _ o h
  · exact AlwaysOn.eq_true_of_tick_leaves_degraded _ o h (by simpa using h')

theorem alwaysOn_degradation_after_recovery :
    trailingFailures [false, true, false, false, false] < 2 ^ 63 - 1 ∧
      Reflects (max 3 1)
        ((newAlwaysOn ⟨ascii "api", ascii "http://api:8080/health", 5, 3⟩).start
          [false, true, false, false, false]) [false, true, false, false, false] :=
  ⟨by decide, (alwaysOn_degradation_invariant ⟨ascii "api", ascii "http://api:8080/health", 5, 3⟩
    [false, true, false, false, false] (by decide)).1⟩

/-! ### Past the counter's overflow -/

/-- The state the policy should be in after the probe history `outcomes`, with `m` failures
in a row needed to degrade. -/
def expectedState (m : Int) (outcomes : List Bool) : State :=
  if m ≤ trailingFailures outcomes then .degraded
  else if true ∈ outcomes then .ready else .starting

/-- The policy's state and counter after a run, with no bound on the length of a failure
streak: the counter is the streak wrapped to a Go `int`, and the state is what the history
calls for even once the counter has overflowed. -/
structure Tracks (m : Int) (a : AlwaysOn) (outcomes : List Bool) : Prop where
  failures_eq : a.failures = goInt (trailingFailures outcomes)
  state_eq : a.state = expectedState m outcomes

theorem Tracks.tick_true {m : Int} {a : AlwaysOn} {os : List Bool} (hm : m = max a.maxFailures 1) :
    Tracks m (a.tick true) (os ++ [true]) where
  failures_eq := by
    simp only [AlwaysOn.tick_true, AlwaysOn.onHealthy, trailingFailures_append_true]
    rfl
  state_eq := by
    simp only [AlwaysOn.tick_true, AlwaysOn.onHealthy, expectedState, trailingFailures_append_true,
      List.mem_append, List.mem_singleton, or_true, if_true]
    rw [if_neg (by omega)]

theorem Tracks.tick_false {m : Int} {a : AlwaysOn} {os : List Bool} (h : Tracks m a os)
    (hm : m = max a.maxFailures 1) (hmax : a.maxFailures < 2 ^ 63) :
    Tracks m (a.tick false) (os ++ [false]) := by
  have hf : goInt (a.failures + 1) = goInt (trailingFailures os + 1) := by
    rw [h.failures_eq, goInt_goInt_add]
  have hmem : true ∈ os ++ [false] ↔ true ∈ os := by simp
  refine ⟨by simp [AlwaysOn.onUnhealthy, hf], ?_⟩
  simp only [AlwaysOn.tick_false, AlwaysOn.onUnhealthy, hf, expectedState,
    trailingFailures_append_false, hmem]
  by_cases hsmall : trailingFailures os + 1 < 2 ^ 63
  · -- no overflow: the counter holds the streak and is compared as it is
    rw [goInt_of_lt (by omega) (by exact_mod_cast hsmall)]
    by_cases hc : m ≤ ((trailingFailures os + 1 : Nat) : Int)
    · rw [if_pos (by push_cast at hc ⊢; omega), if_pos hc]
    · rw [if_neg (by push_cast at hc ⊢; omega), if_neg hc, h.state_eq, expectedState,
        if_neg (by push_cast at hc ⊢; omega)]
  · -- the streak has outgrown every `maxFailures`: the policy was already degraded
    have hdeg : a.state = .degraded := by
      rw [h.state_eq, expectedState, if_pos (by omega)]
    rw [if_pos (show m ≤ ((trailingFailures os + 1 : Nat) : Int) by push_cast; omega), hdeg,
      ite_self]

theorem tracks_newAlwaysOn (cfg : AlwaysOnConfig) :
    Tracks (max cfg.maxFailures 1) (newAlwaysOn cfg) [] where
  failures_eq := rfl
  state_eq := by
    simp only [newAlwaysOn, expectedState, trailingFailures_nil, List.not_mem_nil, if_false]
    rw [if_neg (by omega)]

theorem alwaysOn_state_eq_expected (cfg : AlwaysOnConfig) (outcomes : List Bool)
    (hmax : cfg.maxFailures < 2 ^ 63) :
    ((newAlwaysOn cfg).start outcomes).state = expectedState (max cfg.maxFailures 1) outcomes ∧
      ((newAlwaysOn cfg).start outcomes).failures = goInt (trailingFailures outcomes) := by
  suffices h : Tracks (max cfg.maxFailures 1) ((newAlwaysOn cfg).start outcomes) outcomes from
    ⟨h.state_eq, h.failures_eq⟩
  induction outcomes using List.reverseRecOn with
  | nil => exact tracks_newAlwaysOn cfg
  | append_singleton os o ih =>
    rw [AlwaysOn.start_append_singleton]
    cases o
    · exact ih.tick_false (by simp [newAlwaysOn]) (by simpa [newAlwaysOn] using hmax)
    · exact Tracks.tick_true (by simp [newAlwaysOn])

theorem alwaysOn_state_eq_expected_after_recovery :
    (3 : Int) < 2 ^ 63 ∧
      (((newAlwaysOn ⟨ascii "api", ascii "http://api:8080/health", 5, 3⟩).start
          [false, true, false, false, false]).state =
        expectedState (max 3 1) [false, true, false, false, false] ∧
      ((newAlwaysOn ⟨ascii "api", ascii "http://api:8080/health", 5, 3⟩).start
          [false, true, false, false, false]).failures =
        goInt (trailingFailures [false, true, false, false, false])) :=
  ⟨by decide, alwaysOn_state_eq_expected _ _ (by decide)⟩

end Warren.Policy
