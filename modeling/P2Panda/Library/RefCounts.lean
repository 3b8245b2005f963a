import Mathlib.Data.List.Basic

/-!
# Reference counts

A shared counter goes up when it gets an owner and down when one is dropped, so that it has the
number of its owners.
-/

namespace P2Panda.Library

open List

/-- All counters, in the order of their creation. -/
structure RefCounts where
  counts : List Nat

namespace RefCounts

def empty : RefCounts := ⟨[]⟩

def get (self : RefCounts) (i : Nat) : Nat := self.counts[i]?.getD 0

/-- The place of the counter created next. -/
def next (self : RefCounts) : Nat := self.counts.length

def create (self : RefCounts) (initial : Nat) : RefCounts := ⟨self.counts ++ [initial]⟩

def increment (self : RefCounts) (i : Nat) : RefCounts := ⟨self.counts.modify i (· + 1)⟩

def decrement (self : RefCounts) (i : Nat) : RefCounts := ⟨self.counts.modify i (· - 1)⟩

variable {self : RefCounts} {i j : Nat}

@[simp] theorem next_create (initial : Nat) : (self.create initial).next = self.next + 1 :=
  length_append

@[simp] theorem next_increment : (self.increment i).next = self.next := length_modify ..

@[simp] theorem next_decrement : (self.decrement i).next = self.next := length_modify ..

theorem get_eq_zero_of_next_le (h : self.next ≤ i) : self.get i = 0 := by
  rw [get, getElem?_eq_none h, Option.getD_none]

theorem get_create_zero : (self.create 0).get i = self.get i := by
  by_cases hi : i < self.next
  · rw [get, create, getElem?_append_left hi, get]
  · rw [Nat.not_lt] at hi
    rw [get_eq_zero_of_next_le hi, get, create, getElem?_append_right hi]
    cases i - self.counts.length <;> rfl

theorem get_increment (hi : i < self.next) :
    (self.increment i).get j = if i = j then self.get j + 1 else self.get j := by
  rw [get, increment]
  split
  case isTrue heq =>
    subst heq
    rw [getElem?_modify_eq, get, getElem?_eq_getElem hi]
    rfl
  case isFalse hne => rw [getElem?_modify_ne _ _ hne, get]

theorem get_decrement :
    (self.decrement i).get j = if i = j then self.get j - 1 else self.get j := by
  rw [get, decrement]
  split
  case isTrue heq =>
    subst heq
    rw [getElem?_modify_eq, get]
    cases self.counts[i]? <;> rfl
  case isFalse hne => rw [getElem?_modify_ne _ _ hne, get]

def Counts (self : RefCounts) (owners : List Nat) : Prop := ∀ i, self.get i = owners.count i

variable {owners owners' : List Nat}

theorem counts_empty : empty.Counts [] := fun _ => rfl

theorem Counts.get_eq_zero_iff (h : self.Counts owners) : self.get i = 0 ↔ i ∉ owners := by
  rw [h i, count_eq_zero]

theorem Counts.perm (h : self.Counts owners) (hperm : owners.Perm owners') : self.Counts owners' :=
  fun i => (h i).trans (hperm.count_eq i)

theorem Counts.create (h : self.Counts owners) : (self.create 0).Counts owners :=
  fun i => get_create_zero.trans (h i)

theorem Counts.increment (h : self.Counts owners) (hi : i < self.next) :
    (self.increment i).Counts (owners ++ [i]) := by
  intro j
  rw [get_increment hi, count_append, h j]
  by_cases heq : i = j <;> simp [heq]

theorem Counts.decrement (h : self.Counts (i :: owners)) : (self.decrement i).Counts owners := by
  intro j
  rw [get_decrement, h j]
  by_cases heq : i = j <;> simp [heq]

end RefCounts

end P2Panda.Library
