import Mathlib.Tactic

/-!
# Families that change at one index

`sum_update_add` says what happens to a sum when one of its terms is replaced, without subtraction.
`tally p s` is the number of indices of a finite family `s` of states that satisfy `p`. `Holds p s lock` says
that the holder of a lock is the one index whose state satisfies `p`, as it is when the states are the program
points of threads.
-/

namespace Family

variable {ι α M : Type*} [Fintype ι] [DecidableEq ι]

/-- A sum over a family of which one member has been replaced. -/
lemma sum_update_add [AddCommMonoid M] (f : ι → M) (i : ι) (x : M) :
    ∑ j, Function.update f i x j + f i = ∑ j, f j + x := by
  have others : ∀ j ∈ Finset.univ.erase i, Function.update f i x j = f j := by
    intro j h
    exact Function.update_of_ne (Finset.ne_of_mem_erase h) ..
  rw [← Finset.add_sum_erase _ (Function.update f i x) (Finset.mem_univ i),
    ← Finset.add_sum_erase _ f (Finset.mem_univ i), Finset.sum_congr rfl others, Function.update_self,
    add_right_comm, add_comm x, add_right_comm, add_comm (f i)]

/-- The number of indices whose state satisfies `p`. -/
def tally (p : α → Bool) (s : ι → α) : Nat := ∑ i, (p (s i)).toNat

/-- One index changes its state. -/
lemma tally_update (p : α → Bool) (s : ι → α) (i : ι) (a : α) :
    tally p (Function.update s i a) + (p (s i)).toNat = tally p s + (p a).toNat := by
  have h := sum_update_add (fun j => (p (s j)).toNat) i (p a).toNat
  rw [tally, tally, ← h]
  congr 1
  refine Finset.sum_congr rfl (fun j _ => ?_)
  by_cases same : j = i
  · subst same
    rw [Function.update_self, Function.update_self]
  · rw [Function.update_of_ne same, Function.update_of_ne same]

omit [DecidableEq ι] in
/-- An index that satisfies `p` is counted. -/
lemma tally_pos {p : α → Bool} {s : ι → α} {i : ι} (h : p (s i) = true) : 0 < tally p s := by
  have le := Finset.single_le_sum (f := fun j => (p (s j)).toNat) (fun _ _ => Nat.zero_le _) (Finset.mem_univ i)
  rw [h] at le
  exact le

section Lock

omit [Fintype ι]

/-- The holder of the lock is the one index whose state satisfies `p`. -/
def Holds (p : α → Bool) (s : ι → α) (lock : Option ι) : Prop := ∀ i, p (s i) = true ↔ lock = some i

variable {p : α → Bool} {s : ι → α} {lock : Option ι} {i : ι} {a : α}

/-- The lock is kept by a step that stays on the same side of it. -/
lemma Holds.keep (h : Holds p s lock) (same : p a = p (s i)) : Holds p (Function.update s i a) lock := by
  intro j
  by_cases e : j = i
  · subst e
    rw [Function.update_self, same]
    exact h j
  · rw [Function.update_of_ne e]
    exact h j

/-- A free lock is taken by one of the family. -/
lemma Holds.acquire (h : Holds p s none) (pa : p a = true) : Holds p (Function.update s i a) (some i) := by
  intro j
  by_cases e : j = i
  · subst e
    rw [Function.update_self]
    exact iff_of_true pa rfl
  · rw [Function.update_of_ne e, h j]
    exact iff_of_false nofun (fun h => e (Option.some.inj h).symm)

/-- The one that holds the lock lets it go. -/
lemma Holds.release (h : Holds p s lock) (held : p (s i) = true) (pa : p a = false) :
    Holds p (Function.update s i a) none := by
  intro j
  by_cases e : j = i
  · subst e
    rw [Function.update_self, pa]
    exact iff_of_false nofun nofun
  · rw [Function.update_of_ne e, h j, (h i).1 held]
    exact iff_of_false (fun h => e (Option.some.inj h).symm) nofun

omit [DecidableEq ι] in
/-- There is one holder. -/
lemma Holds.unique (h : Holds p s lock) {j : ι} (hi : p (s i) = true) (hj : p (s j) = true) : j = i :=
  Option.some.inj (((h j).1 hj).symm.trans ((h i).1 hi))

end Lock

omit [DecidableEq ι] in
/-- The number of indices whose state satisfies `p` is that of the holders. -/
lemma Holds.tally_eq {p : α → Bool} {s : ι → α} {lock : Option ι} (h : Holds p s lock) :
    tally p s = if lock = none then 0 else 1 := by
  cases lock with
  | none =>
    rw [if_pos rfl, tally]
    refine Finset.sum_eq_zero fun i _ => ?_
    have no : p (s i) = false := Bool.eq_false_iff.2 fun yes => nomatch (h i).1 yes
    rw [no]
    rfl
  | some i =>
    rw [if_neg nofun, tally, Finset.sum_eq_single i]
    · rw [(h i).2 rfl]
      rfl
    · intro j _ ne
      have no : p (s j) = false := Bool.eq_false_iff.2 fun yes => ne (Option.some.inj ((h j).1 yes)).symm
      rw [no]
      rfl
    · exact fun out => absurd (Finset.mem_univ i) out

end Family
