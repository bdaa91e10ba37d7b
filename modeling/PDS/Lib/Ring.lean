import Mathlib.Tactic

/-!
# Ring buffers

A ring of `n` slots between a tail and a head. Positions are counted without wrapping: `t` have been taken out, `h` have
been put in, and the position `k` is in the slot `k % n`. `Window n slots l t h` says that the slots hold the entries of
`l` from `t` up to `h`.
-/

namespace Ring

variable {α : Type*} {n t h : Nat}

/-- The number of entries between two slots. -/
def unread (n head tail : Nat) : Nat := (head + n - tail) % n

/-- Different positions that are not a round apart are in different slots. -/
lemma slot_ne {j k : Nat} (lt : j < k) (near : k < j + n) : k % n ≠ j % n := by
  intro same
  have dvd : n ∣ k - j := (Nat.modEq_iff_dvd' lt.le).1 same.symm
  have le := Nat.le_of_dvd (Nat.sub_pos_of_lt lt) dvd
  omega

/-- How much is unread, from the two positions. -/
lemma unread_eq (le : t ≤ h) (lt : h < t + n) : unread n (h % n) (t % n) = h - t := by
  have pos : 0 < n := by omega
  have small := Nat.mod_lt t pos
  have same : h % n + n - t % n ≡ h - t [MOD n] := by
    apply Nat.ModEq.add_right_cancel' (t % n)
    rw [Nat.sub_add_cancel (small.le.trans (Nat.le_add_left ..))]
    calc h % n + n ≡ h [MOD n] := (Nat.add_modEq_right).trans (Nat.mod_modEq ..)
      _ = h - t + t := (Nat.sub_add_cancel le).symm
      _ ≡ h - t + t % n [MOD n] := (Nat.mod_modEq t n).symm.add_left _
  exact Eq.trans same (Nat.mod_eq_of_lt (by omega))

/-- The next slot. -/
lemma next (n h : Nat) : (h % n + 1) % n = (h + 1) % n := Nat.mod_add_mod ..

/-- The ring is full when the next slot is that of the tail. -/
lemma full_iff (le : t ≤ h) (lt : h < t + n) : (h + 1) % n = t % n ↔ h + 1 = t + n := by
  constructor
  · intro same
    by_contra ne
    exact slot_ne (Nat.lt_succ_of_le le) (by omega) same
  · intro e
    rw [e, Nat.add_mod_right]

/-- The slots hold the entries of `l` from `t` up to `h`. -/
def Window (n : Nat) (slots : Nat → α) (l : List α) (t h : Nat) : Prop :=
  ∀ k, t ≤ k → k < h → l[k]? = some (slots (k % n))

namespace Window

variable {slots : Nat → α} {l : List α} {x : α}

/-- Nothing is unread where the positions are the same. -/
lemma empty : Window n slots l t t := fun _ le lt => absurd lt le.not_gt

/-- More entries are to come. -/
lemma append (w : Window n slots l t h) : Window n slots (l ++ [x]) t h := by
  intro k le lt
  have entry := w k le lt
  rw [List.getElem?_append_left (List.getElem?_eq_some_iff.1 entry).1, entry]

/-- The slot after the last one is not one of the window. -/
lemma update (w : Window n slots l t h) (lt : h < t + n) : Window n (Function.update slots (h % n) x) l t h := by
  intro k le below
  have ne : h % n ≠ k % n := slot_ne below (by omega)
  rw [w k le below, Function.update_of_ne ne.symm]

/-- The entry after the last one is in its slot. -/
lemma push (w : Window n slots l t h) (entry : l[h]? = some (slots (h % n))) : Window n slots l t (h + 1) := by
  intro k le lt
  obtain below | rfl := Nat.lt_succ_iff_lt_or_eq.1 lt
  · exact w k le below
  · exact entry

/-- The first entry is taken out. -/
lemma pop (w : Window n slots l t h) : Window n slots l (t + 1) h := fun k le => w k (Nat.le_of_succ_le le)

end Window

end Ring
