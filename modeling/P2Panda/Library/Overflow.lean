import Mathlib.Algebra.Group.Int.Defs
import Mathlib.Algebra.Group.Nat.Defs
import P2Panda.Library.Outcome

/-!
# Arithmetic on machine integers

A result that does not fit its type panics with overflow checks and wraps around without.
-/

namespace P2Panda.Library

variable {ε α : Type}

/-- The result of an operation, given whether it overflows. -/
def overflowing (checks overflows : Bool) (message : String) (wrapped : α) : Outcome ε α :=
  if checks && overflows then .panic message else .ok wrapped

def addU32 (checks : Bool) (a b : UInt32) : Outcome ε UInt32 :=
  overflowing checks (2 ^ 32 ≤ a.toNat + b.toNat) "attempt to add with overflow" (a + b)

def addU64 (checks : Bool) (a b : UInt64) : Outcome ε UInt64 :=
  overflowing checks (2 ^ 64 ≤ a.toNat + b.toNat) "attempt to add with overflow" (a + b)

def asI32 (n : UInt32) : Int :=
  if n.toNat < 2 ^ 31 then n.toNat else n.toNat - 2 ^ 32

/-- The `i32` with the same lower bits. -/
def wrapI32 (i : Int) : Int :=
  if i < -2 ^ 31 then i + 2 ^ 32 else if 2 ^ 31 ≤ i then i - 2 ^ 32 else i

def subI32 (checks : Bool) (a b : Int) : Outcome ε Int :=
  overflowing checks (a - b < -2 ^ 31 ∨ 2 ^ 31 ≤ a - b) "attempt to subtract with overflow"
    (wrapI32 (a - b))

theorem overflowing_eq_ok {checks overflows : Bool} {message : String} {wrapped a : α}
    (h : overflowing checks overflows message wrapped = (.ok a : Outcome ε α)) : wrapped = a := by
  unfold overflowing at h
  split at h
  · cases h
  · exact Outcome.ok.inj h

theorem panicsOnly_addU64 (checks : Bool) (a b : UInt64) :
    (addU64 checks a b : Outcome ε UInt64).PanicsOnly "attempt to add with overflow" := by
  unfold addU64 overflowing
  split
  · intro m h
    cases h
    rfl
  · exact Outcome.panicsOnly_ok _ _

theorem addU32_of_lt {checks : Bool} {a b : UInt32} (h : a.toNat + b.toNat < 2 ^ 32) :
    addU32 checks a b = (.ok (a + b) : Outcome ε UInt32) := by
  unfold addU32 overflowing
  rw [decide_eq_false (by omega), Bool.and_false]
  rfl

theorem addU64_of_lt {checks : Bool} {a b : UInt64} (h : a.toNat + b.toNat < 2 ^ 64) :
    addU64 checks a b = (.ok (a + b) : Outcome ε UInt64) := by
  unfold addU64 overflowing
  rw [decide_eq_false (by omega), Bool.and_false]
  rfl

theorem lt_of_addU64_eq_ok {a b n : UInt64} (h : addU64 true a b = (.ok n : Outcome ε UInt64)) :
    a.toNat + b.toNat < 2 ^ 64 := by
  by_contra hlt
  unfold addU64 overflowing at h
  rw [decide_eq_true (Nat.le_of_not_lt hlt)] at h
  cases h

end P2Panda.Library
