import P2Panda.Library.Runs

/-!
# Backoff of the discovery

The backoff gets incremented by random values until it hits a ceiling, and is reset after a random
time. Durations and instants count nanoseconds.
-/

namespace P2Panda.Net.Discovery

open P2Panda.Library

/-- An addition beyond `Duration::MAX` panics. -/
def durationMax : Nat := UInt64.size * 1000000000 - 1

def fromSecs (secs : Nat) : Nat := secs * 1000000000

def fromMillis (millis : Nat) : Nat := millis * 1000000

def asMillis (duration : Nat) : Nat := duration / 1000000

structure Config where
  initialValue : Nat
  minIncrement : Nat
  maxIncrement : Nat
  maxValue : Nat
  minReset : Nat
  maxReset : Nat

def Config.default : Config :=
  ⟨fromSecs 0, fromSecs 1, fromSecs 5, fromSecs 30, fromSecs 60, fromSecs (60 * 3)⟩

/-- What `random_range` can return. -/
abbrev RandomRange (start stop : Nat) := {n : Nat // asMillis start ≤ n ∧ n < asMillis stop}

abbrev Config.Increment (config : Config) := RandomRange config.minIncrement config.maxIncrement

abbrev Config.Reset (config : Config) := RandomRange config.minReset config.maxReset

structure Backoff (config : Config) where
  value : Nat
  lastResetAt : Nat
  resetAfter : Nat

variable {config : Config}

def randomIncrement (range : config.Increment) : Nat := fromMillis (range.1 % UInt64.size)

def randomResetAfter (range : config.Reset) : Nat := fromMillis (range.1 % UInt64.size)

namespace Backoff

def reset (self : Backoff config) (now : Nat) (range : config.Reset) : Backoff config :=
  { self with
    value := config.initialValue
    lastResetAt := now
    resetAfter := randomResetAfter range }

def new (now later : Nat) (range : config.Reset) : Backoff config :=
  reset ⟨config.initialValue, now, 0⟩ later range

/-- Increment until the maximum is reached, and reset after the waiting time. -/
def increment (self : Backoff config) (step : config.Increment) (now later : Nat)
    (range : config.Reset) : Option (Backoff config) := do
  let value ←
    if config.maxValue < self.value then some config.maxValue
    else if self.value < config.maxValue then
      let value := self.value + randomIncrement step
      if value ≤ durationMax then some value else none
    else some self.value
  let self : Backoff config := { self with value }
  -- `elapsed` is zero for an instant that lies ahead
  return if self.resetAfter ≤ now - self.lastResetAt then self.reset later range else self

/-- A call with its random numbers and clock readings. -/
inductive Call (config : Config) where
  | increment (step : config.Increment) (now later : Nat) (range : config.Reset)
  | reset (now : Nat) (range : config.Reset)

def call (self : Option (Backoff config)) : Call config → Option (Backoff config)
  | .increment step now later range => self.bind (·.increment step now later range)
  | .reset now range => self.map (·.reset now range)

def AtMost (self : Option (Backoff config)) : Prop :=
  ∀ backoff ∈ self, backoff.value ≤ config.maxValue

/-- The call increments to at most the maximum, panics or resets the value it has reached. -/
def Fits (self : Option (Backoff config)) : Call config → Prop
  | .increment step now _ _ => ∀ backoff ∈ self, config.maxValue ≤ backoff.value ∨
      backoff.value + randomIncrement step ≤ config.maxValue ∨
      durationMax < backoff.value + randomIncrement step ∨
      backoff.resetAfter ≤ now - backoff.lastResetAt
  | .reset _ _ => True

instance (self : Option (Backoff config)) : DecidablePred (Fits self)
  | .increment _ _ _ _ => inferInstanceAs (Decidable (∀ _ ∈ _, _))
  | .reset _ _ => inferInstanceAs (Decidable True)

theorem atMost_call (h : config.initialValue ≤ config.maxValue) {self : Option (Backoff config)}
    (hself : AtMost self) (next : Call config) : AtMost (call self next) ↔ Fits self next := by
  cases self with
  | none =>
    cases next with
    | increment step now later range => exact iff_of_true nofun nofun
    | reset now range => exact iff_of_true nofun trivial
  | some backoff =>
    have hval := hself backoff rfl
    cases next with
    | reset now range =>
      refine iff_of_true ?_ trivial
      rintro _ ⟨⟩
      exact h
    | increment step now later range =>
      simp only [AtMost, Fits, call, increment, Option.bind_some, Option.mem_def,
        Option.some.injEq, forall_eq']
      rw [if_neg (by omega)]
      by_cases hbelow : backoff.value < config.maxValue
      · rw [if_pos hbelow]
        by_cases hfits : backoff.value + randomIncrement step ≤ durationMax
        · by_cases hreset : backoff.resetAfter ≤ now - backoff.lastResetAt
          · simp [hfits, hreset, reset, h]
          · simp [hfits, hreset, Nat.not_le.mpr hbelow, Nat.not_lt.mpr hfits]
        · simp [hfits, Nat.lt_of_not_le hfits]
      · rw [if_neg hbelow]
        by_cases hreset : backoff.resetAfter ≤ now - backoff.lastResetAt
        · simp [hreset, reset, h]
        · simp [hreset, hval, Nat.le_of_not_lt hbelow]

theorem atMost_iff_fits (h : config.initialValue ≤ config.maxValue) (now later : Nat)
    (range : config.Reset) (calls : List (Call config)) :
    (∀ done, done <+: calls → AtMost (done.foldl call (some (new now later range)))) ↔
      ∀ done next, done ++ [next] <+: calls →
        Fits (done.foldl call (some (new now later range))) next := by
  apply Runs.goal_iff_forall
  · rintro _ ⟨⟩
    exact h
  · intro done next _ hself
    exact atMost_call h hself next

def started : Option (Backoff Config.default) := some (new 0 0 ⟨60000, by decide⟩)

/-- Increments of almost five seconds, right after the start. -/
def increments (n : Nat) : List (Call Config.default) :=
  .replicate n (.increment ⟨4999, by decide⟩ 0 0 ⟨60000, by decide⟩)

theorem not_atMost_sevenIncrements : ¬AtMost ((increments 7).foldl call started) := by
  have hval : ((increments 7).foldl call started).map value = some (fromMillis 34993) := by
    decide +kernel
  obtain ⟨backoff, hmem, heq⟩ := Option.map_eq_some_iff.mp hval
  exact fun h => absurd (heq ▸ h backoff hmem) (by decide)

/-- Six of them stay below the maximum, and so does another one after a reset. -/
theorem atMost_sixIncrements : Config.default.initialValue ≤ Config.default.maxValue ∧
    ∀ done, done <+: increments 6 ++ .reset 0 ⟨60000, by decide⟩ :: increments 1 →
      AtMost (done.foldl call started) :=
  ⟨by decide, (atMost_iff_fits (by decide) 0 0 _ _).mpr
    (Runs.forall_step_of_get (by decide +kernel))⟩

end Backoff

end P2Panda.Net.Discovery
