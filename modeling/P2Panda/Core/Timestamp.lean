import Mathlib.Data.List.Count
import P2Panda.Library.Overflow

/-!
# Timestamps

A hybrid timestamp is the system time in microseconds, and a logical clock for the events of one
microsecond.
-/

namespace P2Panda.Core

open P2Panda.Library Outcome List

abbrev Timestamp := UInt64

abbrev LamportTimestamp := UInt64

/-- Nanoseconds since the UNIX epoch. -/
abbrev SystemTime := Int

@[ext]
structure HybridTimestamp where
  timestamp : Timestamp
  logical : LamportTimestamp
  deriving DecidableEq, Repr

instance : LT HybridTimestamp where
  lt a b := a.timestamp < b.timestamp ∨ (a.timestamp = b.timestamp ∧ a.logical < b.logical)

instance (a b : HybridTimestamp) : Decidable (a < b) :=
  inferInstanceAs (Decidable (_ ∨ _))

variable {ε : Type}

inductive SystemTimeError where
  | beforeEpoch

def Timestamp.asMicros (systemTime : SystemTime) : Timestamp :=
  UInt64.ofNat (systemTime.toNat / 1000)

def Timestamp.tryFrom (systemTime : SystemTime) : Outcome SystemTimeError Timestamp :=
  if systemTime < 0 then .err .beforeEpoch else .ok (asMicros systemTime)

def Timestamp.now (systemTime : SystemTime) : Outcome ε Timestamp :=
  (Timestamp.tryFrom systemTime).expectOk "system time went backwards"

def LamportTimestamp.increment (checks : Bool) (logical : LamportTimestamp) :
    Outcome ε LamportTimestamp :=
  addU64 checks logical 1

def HybridTimestamp.increment (checks : Bool) (systemTime : SystemTime) (self : HybridTimestamp) :
    Outcome ε HybridTimestamp := do
  let timestamp ← Timestamp.now systemTime
  if timestamp = self.timestamp then do
    let logical ← LamportTimestamp.increment checks self.logical
    return ⟨timestamp, logical⟩
  else return ⟨timestamp, 0⟩

/-- Each timestamp is greater than the one before. -/
def Ascends (checks : Bool) : HybridTimestamp → List SystemTime → Prop
  | _, [] => True
  | self, systemTime :: readings =>
    (self.increment checks systemTime : Outcome Empty HybridTimestamp).Returns fun next =>
      self < next ∧ Ascends checks next readings

/-- The microseconds of the events up to a timestamp which have its microsecond, and of those after
it. -/
def HybridTimestamp.history (start : HybridTimestamp) (readings : List SystemTime) :
    List Timestamp :=
  List.replicate (start.logical.toNat + 1) start.timestamp ++ readings.map Timestamp.asMicros

/-- The clock does not go backwards, and the logical clock has a value for every event of a
microsecond. -/
structure Paced (start : HybridTimestamp) (readings : List SystemTime) : Prop where
  epoch : ∀ systemTime ∈ readings, 0 ≤ systemTime
  forward : (start.history readings).Pairwise (· ≤ ·)
  room : ∀ timestamp, (start.history readings).count timestamp ≤ 2 ^ 64

variable {checks : Bool} {self : HybridTimestamp} {systemTime : SystemTime}

theorem lt_add_one_iff {logical : LamportTimestamp} :
    logical < logical + 1 ↔ logical.toNat + 1 < 2 ^ 64 := by
  change logical.toNat < (logical.toNat + 1) % 2 ^ 64 ↔ _
  omega

theorem returns_increment {p : HybridTimestamp → Prop} :
    (self.increment checks systemTime : Outcome ε _).Returns (fun next => self < next ∧ p next) ↔
      0 ≤ systemTime ∧ ((Timestamp.asMicros systemTime = self.timestamp ∧
          self.logical.toNat + 1 < 2 ^ 64 ∧ p ⟨self.timestamp, self.logical + 1⟩) ∨
        (self.timestamp < Timestamp.asMicros systemTime ∧
          p ⟨Timestamp.asMicros systemTime, 0⟩)) := by
  unfold HybridTimestamp.increment Timestamp.now Timestamp.tryFrom
  by_cases hep : systemTime < 0
  · rw [if_pos hep]
    refine iff_of_false ?_ fun h => absurd h.1 (Int.not_le.mpr hep)
    rintro ⟨next, hnext, -⟩
    cases hnext
  rw [if_neg hep, expectOk_ok, ok_bind, and_iff_right (Int.not_lt.mp hep)]
  by_cases heq : Timestamp.asMicros systemTime = self.timestamp
  · rw [if_pos heq, heq, or_iff_left fun h => UInt64.lt_irrefl _ h.1, and_iff_right rfl,
      ← lt_add_one_iff, LamportTimestamp.increment]
    constructor
    · rintro ⟨next, hnext, hlt, hp⟩
      obtain ⟨logical, hadd, hnext⟩ := bind_eq_ok.mp hnext
      cases hnext
      cases overflowing_eq_ok hadd
      exact ⟨(hlt.resolve_left (UInt64.lt_irrefl _)).2, hp⟩
    · rintro ⟨hlt, hp⟩
      rw [addU64_of_lt (lt_add_one_iff.mp hlt)]
      exact ⟨_, rfl, Or.inr ⟨rfl, hlt⟩, hp⟩
  · rw [if_neg heq, pure_eq, returns_ok, or_iff_right fun h => heq h.1]
    exact and_congr_left' (or_iff_left fun h => heq h.1.symm)

variable {start : HybridTimestamp} {readings : List SystemTime}

theorem paced_cons_of_eq (hep : 0 ≤ systemTime)
    (heq : Timestamp.asMicros systemTime = start.timestamp) :
    Paced start (systemTime :: readings) ↔
      start.logical.toNat + 1 < 2 ^ 64 ∧ Paced ⟨start.timestamp, start.logical + 1⟩ readings := by
  have hhist (hfits : start.logical.toNat + 1 < 2 ^ 64) :
      (HybridTimestamp.mk start.timestamp (start.logical + 1)).history readings =
        start.history (systemTime :: readings) := by
    have hnext : (start.logical + 1).toNat = (start.logical.toNat + 1) % 2 ^ 64 :=
      UInt64.toNat_add ..
    unfold HybridTimestamp.history
    rw [hnext, Nat.mod_eq_of_lt hfits, replicate_succ', append_assoc, map_cons, heq]
    rfl
  constructor
  · rintro ⟨hepochs, hfwd, hcnt⟩
    have hfits : start.logical.toNat + 1 < 2 ^ 64 := by
      have := hcnt start.timestamp
      rw [HybridTimestamp.history, map_cons, heq, count_append, count_replicate_self,
        count_cons_self] at this
      omega
    rw [← hhist hfits] at hfwd hcnt
    exact ⟨hfits, (forall_mem_cons.mp hepochs).2, hfwd, hcnt⟩
  · rintro ⟨hfits, hepochs, hfwd, hcnt⟩
    rw [hhist hfits] at hfwd hcnt
    exact ⟨forall_mem_cons.mpr ⟨hep, hepochs⟩, hfwd, hcnt⟩

theorem paced_cons_of_lt (hep : 0 ≤ systemTime)
    (hlt : start.timestamp < Timestamp.asMicros systemTime) :
    Paced start (systemTime :: readings) ↔ Paced ⟨Timestamp.asMicros systemTime, 0⟩ readings := by
  have hhist : start.history (systemTime :: readings) =
      List.replicate (start.logical.toNat + 1) start.timestamp ++
        (HybridTimestamp.mk (Timestamp.asMicros systemTime) 0).history readings := rfl
  constructor
  · rintro ⟨hepochs, hfwd, hcnt⟩
    refine ⟨(forall_mem_cons.mp hepochs).2, (pairwise_append.mp hfwd).2.1, ?_⟩
    intro timestamp
    exact Nat.le_trans ((sublist_append_right ..).count_le _) (hcnt timestamp)
  · rintro ⟨hepochs, hfwd, hcnt⟩
    have hgt : ∀ t ∈ (HybridTimestamp.mk (Timestamp.asMicros systemTime) 0).history readings,
        start.timestamp < t := by
      refine forall_mem_cons.mpr ⟨hlt, fun t ht => UInt64.lt_of_lt_of_le hlt ?_⟩
      exact (pairwise_cons.mp hfwd).1 t ht
    refine ⟨forall_mem_cons.mpr ⟨hep, hepochs⟩, ?_, fun timestamp => ?_⟩
    · rw [hhist, pairwise_append]
      refine ⟨pairwise_replicate.mpr (Or.inr (UInt64.le_refl _)), hfwd, ?_⟩
      intro a ha t ht
      rw [eq_of_mem_replicate ha]
      exact UInt64.le_of_lt (hgt t ht)
    · rw [hhist, count_append, count_replicate]
      split
      · rename_i hsame
        cases beq_iff_eq.mp hsame
        rw [count_eq_zero.mpr fun h => UInt64.lt_irrefl _ (hgt _ h)]
        exact start.logical.toNat_lt
      · rw [Nat.zero_add]
        exact hcnt timestamp

theorem ascends_iff (checks : Bool) (start : HybridTimestamp) (readings : List SystemTime) :
    Ascends checks start readings ↔ Paced start readings := by
  induction readings generalizing start with
  | nil =>
    refine iff_of_true trivial ⟨nofun, ?_, fun timestamp => ?_⟩
    · rw [HybridTimestamp.history, map_nil, append_nil, pairwise_replicate]
      exact Or.inr (UInt64.le_refl _)
    · apply Nat.le_trans count_le_length
      rw [HybridTimestamp.history, map_nil, append_nil, length_replicate]
      exact start.logical.toNat_lt
  | cons systemTime readings ih =>
    rw [Ascends, returns_increment]
    simp only [ih]
    constructor
    · rintro ⟨hep, ⟨heq, hpaced⟩ | ⟨hlt, hpaced⟩⟩
      · exact (paced_cons_of_eq hep heq).mpr hpaced
      · exact (paced_cons_of_lt hep hlt).mpr hpaced
    · intro hpaced
      have hep := hpaced.epoch systemTime mem_cons_self
      have hle := (pairwise_append.mp hpaced.forward).2.2 _ mem_cons_self _ mem_cons_self
      refine ⟨hep, ?_⟩
      by_cases heq : Timestamp.asMicros systemTime = start.timestamp
      · exact Or.inl ⟨heq, (paced_cons_of_eq hep heq).mp hpaced⟩
      · have hlt := UInt64.lt_of_le_of_ne hle (Ne.symm heq)
        exact Or.inr ⟨hlt, (paced_cons_of_lt hep hlt).mp hpaced⟩

/-- The clock goes back by a microsecond. -/
theorem not_ascends_backwards : ¬Ascends true ⟨2, 0⟩ [1000] := by
  rintro ⟨next, hnext, hlt, -⟩
  cases hnext
  revert hlt
  decide

end P2Panda.Core
