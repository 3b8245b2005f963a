import Mathlib.Order.Defs.LinearOrder
import Mathlib.Tactic.Cases

/-!
# Access levels

The comparison of access values is not an order: two values with equal conditions and levels compare
as `Greater`, and a value without conditions is `Greater` than one with conditions at its level,
which is `Equal` to it.
-/

namespace P2Panda.Auth

/-- The bounds on a conditions type: an equality test and a partial comparison, not assumed
lawful. -/
class Conditions (C : Type) extends BEq C where
  partialCmp : C → C → Option Ordering

instance : Conditions Unit where
  partialCmp _ _ := some .eq

inductive AccessLevel where
  | pull
  | read
  | write
  | manage
  deriving DecidableEq, Repr

namespace AccessLevel

def rank : AccessLevel → Nat
  | pull => 0
  | read => 1
  | write => 2
  | manage => 3

def cmp (self other : AccessLevel) : Ordering := compare self.rank other.rank

theorem rank_injective {a b : AccessLevel} (h : a.rank = b.rank) : a = b := by
  cases a <;> cases b <;> first | rfl | cases h

theorem rank_le_three (a : AccessLevel) : a.rank ≤ 3 := by
  cases a <;> decide

end AccessLevel

structure Access (C : Type) where
  conditions : Option C
  level : AccessLevel
  deriving DecidableEq, Repr

namespace Access

variable {C : Type}

def pull : Access C := ⟨none, .pull⟩

def read : Access C := ⟨none, .read⟩

def write : Access C := ⟨none, .write⟩

def manage : Access C := ⟨none, .manage⟩

def isPull (a : Access C) : Bool := a.level == .pull

def isManage (a : Access C) : Bool := a.level == .manage

def Unconditional (a : Access C) : Prop := a.conditions = none

instance (a : Access C) : Decidable a.Unconditional :=
  decidable_of_iff (a.conditions.isNone = true) Option.isNone_iff_eq_none

variable [Conditions C] {a b : Access C}

instance : BEq (Access C) where
  beq a b := a.conditions == b.conditions && a.level == b.level

def partialCmp (self other : Access C) : Option Ordering :=
  match self.conditions, other.conditions with
  | some selfCond, some otherCond =>
    match Conditions.partialCmp selfCond otherCond with
    | some .gt | some .eq =>
      match self.level.cmp other.level with
      | .lt => some .lt
      | .eq | .gt => some .gt
    | some .lt => some .lt
    | none => none
  | none, some _ =>
    match self.level.cmp other.level with
    | .lt => some .lt
    | .eq | .gt => some .gt
  | _, _ => some (self.level.cmp other.level)

def lt (self other : Access C) : Bool := self.partialCmp other == some .lt

def le (self other : Access C) : Bool :=
  self.partialCmp other == some .lt || self.partialCmp other == some .eq

theorem lt_iff_rank (ha : a.Unconditional) : a.lt b = true ↔ a.level.rank < b.level.rank := by
  have hcmp : a.partialCmp b = some .lt ↔ a.level.cmp b.level = .lt := by
    unfold partialCmp
    rw [ha]
    cases b.conditions with
    | none => simp
    | some c => cases h : a.level.cmp b.level <;> simp
  rw [lt, beq_iff_eq, hcmp, AccessLevel.cmp, Nat.compare_eq_lt]

theorem partialCmp_of_unconditional (ha : a.Unconditional) (hb : b.Unconditional) :
    a.partialCmp b = some (a.level.cmp b.level) := by
  unfold partialCmp
  rw [ha, hb]

theorem le_iff_rank (ha : a.Unconditional) (hb : b.Unconditional) :
    a.le b = true ↔ a.level.rank ≤ b.level.rank := by
  rw [le, partialCmp_of_unconditional ha hb, AccessLevel.cmp]
  rcases Nat.lt_trichotomy a.level.rank b.level.rank with h | h | h
  · simp [Nat.compare_eq_lt.mpr h, Nat.le_of_lt h]
  · simp [h]
  · simp [Nat.compare_eq_gt.mpr h, h]

omit [Conditions C] in
theorem eq_of_rank (ha : a.Unconditional) (hb : b.Unconditional) (h : a.level.rank = b.level.rank) :
    a = b := by
  obtain ⟨ac, al⟩ := a
  obtain ⟨bc, bl⟩ := b
  cases ha
  cases hb
  have hlvl : al = bl := AccessLevel.rank_injective h
  rw [hlvl]

end Access

end P2Panda.Auth
