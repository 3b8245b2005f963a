import Mathlib.Data.List.DropRight

/-!
# Sliding windows

At most `size` last values of a sequence, the latest first.
-/

namespace P2Panda.Library

open List

variable {α : Type} {size head n : Nat}

/-- The values of `f` before `head`, the latest first. -/
def slidingWindow (size head : Nat) (f : Nat → α) : List α :=
  (List.range (min head size)).map fun i => f (head - 1 - i)

theorem getElem?_slidingWindow (size head : Nat) (f : Nat → α) (i : Nat) :
    (slidingWindow size head f)[i]? =
      if i < min head size then some (f (head - 1 - i)) else none := by
  rw [slidingWindow, getElem?_map]
  split
  · rename_i h
    rw [getElem?_range h]
    rfl
  · have hlen : (List.range (min head size)).length ≤ i := by
      rw [length_range]
      omega
    rw [getElem?_eq_none hlen]
    rfl

theorem length_slidingWindow (size head : Nat) (f : Nat → α) :
    (slidingWindow size head f).length = min head size := by
  rw [slidingWindow, length_map, length_range]

theorem getElem?_slidingWindow_of_lt (f : Nat → α) (hn : n < head) (hsize : head - n ≤ size) :
    (slidingWindow size head f)[head - n - 1]? = some (f n) := by
  rw [getElem?_slidingWindow, if_pos (by omega)]
  congr 2
  omega

theorem take_slidingWindow {f g : Nat → α} {a : α} (ha : g (head + n) = a)
    (hg : ∀ m < head + n, g m = f m) :
    (a :: ((List.range n).map (fun i => f (head + n - 1 - i)) ++
      slidingWindow size head f)).take size = slidingWindow size (head + n + 1) g := by
  apply ext_getElem?
  intro i
  rw [getElem?_take, getElem?_slidingWindow]
  cases i with
  | zero =>
    by_cases hsize : 0 < size
    · rw [if_pos hsize, if_pos (by omega), ← ha]
      rfl
    · rw [if_neg hsize, if_neg (by omega)]
  | succ i =>
    rw [getElem?_cons_succ]
    by_cases hi : i < n
    · have hlen : i < ((List.range n).map fun i => f (head + n - 1 - i)).length := by
        rwa [length_map, length_range]
      rw [getElem?_append_left hlen, getElem?_map, getElem?_range hi]
      by_cases hsize : i + 1 < size
      · rw [if_pos hsize, if_pos (by omega), hg _ (by omega), Option.map_some]
        congr 2
        omega
      · rw [if_neg hsize, if_neg (by omega)]
    · have hlen : ((List.range n).map fun i => f (head + n - 1 - i)).length = n := by
        rw [length_map, length_range]
      rw [getElem?_append_right (by omega), getElem?_slidingWindow]
      by_cases hsize : i + 1 < size
      · by_cases hhead : i - n < head
        · rw [if_pos hsize, if_pos (by omega), if_pos (by omega), hg _ (by omega)]
          congr 2
          omega
        · rw [if_pos hsize, if_neg (by omega), if_neg (by omega)]
      · rw [if_neg hsize, if_neg (by omega)]

theorem set_slidingWindow {f g : Nat → α} {a : α} (hn : n < head) (ha : g n = a)
    (hg : ∀ m < head, m ≠ n → g m = f m) :
    (slidingWindow size head f).set (head - n - 1) a = slidingWindow size head g := by
  apply ext_getElem?
  intro i
  rw [getElem?_set, length_slidingWindow, getElem?_slidingWindow, getElem?_slidingWindow]
  by_cases hi : head - n - 1 = i
  · rw [if_pos hi, hi]
    by_cases hlt : i < min head size
    · rw [if_pos hlt, if_pos hlt, ← ha]
      congr 2
      omega
    · rw [if_neg hlt, if_neg hlt]
  · rw [if_neg hi]
    by_cases hlt : i < min head size
    · rw [if_pos hlt, if_pos hlt, hg _ (by omega) (by omega)]
    · rw [if_neg hlt, if_neg hlt]

theorem length_rtake (n : Nat) (values : List α) :
    (values.rtake n).length = min values.length n := by
  rw [rtake, length_drop]
  omega

theorem rtake_concat (h : 1 ≤ n) (values : List α) (a : α) :
    (values ++ [a]).rtake n =
      (if n ≤ values.length then (values.rtake n).tail else values.rtake n) ++ [a] := by
  rw [rtake, length_append, length_singleton, drop_append_of_le_length (by omega)]
  split_ifs with hfull
  · rw [rtake, ← drop_add_one_eq_tail_drop, Nat.sub_add_comm hfull]
  · rw [rtake, Nat.sub_eq_zero_of_le (by omega), Nat.sub_eq_zero_of_le (by omega)]

theorem rtake_append_eq_iff {old left : List α} (h : left.length ≤ n) :
    left = (old ++ left).rtake n ↔ left.length = n ∨ old = [] := by
  constructor
  · intro heq
    have hlen := congrArg length heq
    rw [length_rtake, length_append] at hlen
    rw [← length_eq_zero_iff]
    omega
  · rintro (rfl | rfl)
    · rw [rtake, length_append, Nat.add_sub_cancel, drop_left]
    · rw [nil_append, rtake, Nat.sub_eq_zero_of_le h, drop_zero]

theorem length_le_one_of_dropLast_eq_tail {l : List α} (h : l.Nodup)
    (heq : l.dropLast = l.tail) : l.length ≤ 1 := by
  rcases l with _ | ⟨a, _ | ⟨b, rest⟩⟩
  · exact Nat.zero_le 1
  · exact Nat.le_refl 1
  · grind

end P2Panda.Library
