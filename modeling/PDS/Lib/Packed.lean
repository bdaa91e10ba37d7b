import Mathlib.Data.List.Perm.Basic
import Mathlib.Data.List.Nodup

/-!
# Packed arrays

The first `n` cells of an array are in use, in no order. A new element goes into the cell behind them, and an element is
taken out by moving the last one into its cell.
-/

namespace PDS.Packed
open scoped List

variable {α : Type*} {l : List α} {n i : Nat} {x z d : α}

/-- Putting an element behind those in use. -/
lemma take_push (lt : n < l.length) : (l.set n x).take (n + 1) = l.take n ++ [x] := by
  have lt' : n < (l.set n x).length := by
    rw [List.length_set]
    exact lt
  rw [List.take_succ_eq_append_getElem lt', List.take_set_of_le (Nat.le_refl n), List.getElem_set_self]

/-- The last of the elements takes the place of another one, or of itself. -/
lemma fill_perm (le : i ≤ n) (lt : n < l.length) : l[i] :: (l.take n).set i l[n] ~ l.take (n + 1) := by
  rw [List.take_succ_eq_append_getElem lt]
  obtain rfl | ne := eq_or_ne i n
  · rw [List.set_eq_of_length_le (List.length_take_le i l)]
    exact (List.perm_append_singleton _ _).symm
  · have here : i < (l.take n).length := by
      rw [List.length_take]
      omega
    have get : l[i] = (l.take n)[i] := List.getElem_take.symm
    rw [get]
    calc (l.take n)[i] :: (l.take n).set i l[n]
      _ ~ (l.take n)[i] :: (l[n] :: (l.take n).eraseIdx i) := (List.set_perm_cons_eraseIdx here _).cons _
      _ ~ l[n] :: ((l.take n)[i] :: (l.take n).eraseIdx i) := .swap _ _ _
      _ ~ l[n] :: l.take n := (List.getElem_cons_eraseIdx_perm here).cons _
      _ ~ l.take n ++ [l[n]] := (List.perm_append_singleton _ _).symm

/-- The same when the elements are a list of their own. -/
lemma dropLast_fill (le : i ≤ n) (lt : n < l.length) :
    ((l.take (n + 1)).set i ((l.take (n + 1)).getLastD d)).dropLast = (l.take n).set i l[n] := by
  rw [List.take_succ_eq_append_getElem lt, List.getLastD_concat]
  have length : (l.take n).length = n := List.length_take_of_le (Nat.le_of_lt lt)
  obtain rfl | ne := eq_or_ne i n
  · have last : [l[i]].set (i - (l.take i).length) l[i] = [l[i]] := by
      rw [length, Nat.sub_self]
      rfl
    rw [List.set_append_right _ _ (Nat.le_of_eq length), last, List.dropLast_concat,
      List.set_eq_of_length_le (Nat.le_of_eq length)]
  · rw [List.set_append_left _ _ (by omega), List.dropLast_concat]

/-- Filling a gap with the last element keeps the others. -/
lemma dropLast_fill_perm (lt : i < l.length) : l[i] :: (l.set i (l.getLastD d)).dropLast ~ l := by
  obtain ⟨n, length⟩ : ∃ n, l.length = n + 1 := ⟨l.length - 1, by omega⟩
  have fill := fill_perm (l := l) (n := n) (i := i) (by omega) (by omega)
  have whole : l.take (n + 1) = l := length ▸ List.take_length
  rwa [← dropLast_fill (d := d) (by omega) (by omega), whole] at fill

/-- The last of `n` elements is moved to the cell `i`, where `z` is written before. -/
def swapRemove (l : List α) (n i : Nat) (z : α) : List α := (l.set i z).set i ((l.set i z).getD (n - 1) z)

/-- Removing by a swap leaves the length alone. -/
@[simp] lemma length_swapRemove : (swapRemove l n i z).length = l.length := by
  rw [swapRemove, List.length_set, List.length_set]

/-- What is in use after removing by a swap. -/
lemma take_swapRemove (le : i ≤ n) (lt : n < l.length) :
    (swapRemove l (n + 1) i z).take n = (l.take n).set i l[n] := by
  rw [swapRemove, List.set_set, Nat.add_sub_cancel, List.take_set]
  obtain rfl | ne := eq_or_ne i n
  · -- the cell is not in use any more
    have out : (l.take i).length ≤ i := List.length_take_le i l
    rw [List.set_eq_of_length_le out, List.set_eq_of_length_le out]
  · rw [List.getD_eq_getElem?_getD, List.getElem?_set_ne ne, List.getElem?_eq_getElem lt, Option.getD_some]

end PDS.Packed
