import Mathlib.Tactic
import Mathlib.Data.Set.Card

/-!
# Tables of slots

A finite map that is kept in a table: a slot is free or holds a key with its value, and the order of the slots
means nothing. As long as no key is in two slots, filling a free slot with a new key adds it to the map, and
clearing a slot removes its key; all other keys keep their values. `Slots.count` is the number of keys with a
value.
-/

/-- A table of slots. -/
abbrev Slots (κ ν : Type) : Type := Nat → Option (κ × ν)

namespace Slots

variable {κ ν : Type} {t : Slots κ ν} {i n : Nat} {k : κ} {v w : ν}

/-- No key is in two slots. -/
def Distinct (t : Slots κ ν) : Prop := ∀ ⦃i j : Nat⦄ ⦃k : κ⦄ ⦃v w : ν⦄, t i = some (k, v) → t j = some (k, w) → i = j

open Classical in
/-- The map that a table represents. -/
noncomputable def map (t : Slots κ ν) (k : κ) : Option ν :=
  if h : ∃ v i, t i = some (k, v) then some h.choose else none

/-- Nothing is mapped to a key that no slot holds. -/
lemma map_eq_none : t.map k = none ↔ ∀ i v, t i ≠ some (k, v) := by
  rw [map]
  split_ifs with h
  · refine iff_of_false nofun ?_
    obtain ⟨v, i, hold⟩ := h
    intro no
    exact no i v hold
  · refine iff_of_true rfl ?_
    intro i v hold
    exact h ⟨v, i, hold⟩

/-- A key is mapped to the value of the slot that holds it. -/
lemma Distinct.map_eq_some (d : t.Distinct) : t.map k = some v ↔ ∃ i, t i = some (k, v) := by
  rw [map]
  split_ifs with h
  · obtain ⟨i, hold⟩ := h.choose_spec
    rw [Option.some.injEq]
    constructor
    · rintro rfl
      exact ⟨i, hold⟩
    · rintro ⟨j, hold'⟩
      have same := d hold hold'
      rw [same, hold'] at hold
      exact (congrArg Prod.snd (Option.some.inj hold)).symm
  · refine iff_of_false nofun ?_
    rintro ⟨i, hold⟩
    exact h ⟨v, i, hold⟩

/-- The map is the one function that agrees with the slots. -/
lemma Distinct.map_ext (d : t.Distinct) {m : κ → Option ν} (h : ∀ k v, (∃ i, t i = some (k, v)) ↔ m k = some v) :
    t.map = m := by
  funext k
  apply Option.ext
  intro v
  rw [d.map_eq_some]
  exact h k v

/-- Keys stay distinct when a new one is put into a slot. -/
lemma Distinct.fill (d : t.Distinct) (absent : t.map k = none) : Distinct (Function.update t i (some (k, v))) := by
  have no := map_eq_none.1 absent
  intro j j' k' w w' hold hold'
  by_cases e : j = i
  · by_cases e' : j' = i
    · exact e.trans e'.symm
    · rw [e, Function.update_self] at hold
      rw [Function.update_of_ne e'] at hold'
      obtain ⟨rfl, rfl⟩ := Prod.mk.inj (Option.some.inj hold)
      exact absurd hold' (no j' w')
  · rw [Function.update_of_ne e] at hold
    by_cases e' : j' = i
    · rw [e', Function.update_self] at hold'
      obtain ⟨rfl, rfl⟩ := Prod.mk.inj (Option.some.inj hold')
      exact absurd hold (no j w)
    · rw [Function.update_of_ne e'] at hold'
      exact d hold hold'

/-- Filling a free slot adds one key to the map. -/
lemma Distinct.map_fill [DecidableEq κ] (d : t.Distinct) (free : t i = none) (absent : t.map k = none) :
    map (Function.update t i (some (k, v))) = Function.update t.map k (some v) := by
  refine (d.fill absent).map_ext ?_
  intro k' w
  constructor
  · rintro ⟨j, hold⟩
    by_cases e : j = i
    · rw [e, Function.update_self] at hold
      obtain ⟨rfl, rfl⟩ := Prod.mk.inj (Option.some.inj hold)
      exact Function.update_self ..
    · rw [Function.update_of_ne e] at hold
      have other : k' ≠ k := by
        rintro rfl
        exact map_eq_none.1 absent j w hold
      rw [Function.update_of_ne other]
      exact d.map_eq_some.2 ⟨j, hold⟩
  · intro eq
    by_cases same : k' = k
    · subst same
      rw [Function.update_self] at eq
      exact ⟨i, by rw [Function.update_self, Option.some.inj eq]⟩
    · rw [Function.update_of_ne same] at eq
      obtain ⟨j, hold⟩ := d.map_eq_some.1 eq
      refine ⟨j, ?_⟩
      rw [Function.update_of_ne, hold]
      rintro rfl
      rw [free] at hold
      cases hold

/-- Keys stay distinct when a slot is emptied. -/
lemma Distinct.clear (d : t.Distinct) : Distinct (Function.update t i none) := by
  intro j j' k' w w' hold hold'
  have ne : j ≠ i := by
    rintro rfl
    rw [Function.update_self] at hold
    cases hold
  have ne' : j' ≠ i := by
    rintro rfl
    rw [Function.update_self] at hold'
    cases hold'
  rw [Function.update_of_ne ne] at hold
  rw [Function.update_of_ne ne'] at hold'
  exact d hold hold'

/-- Emptying a slot takes its key out of the map. -/
lemma Distinct.map_clear [DecidableEq κ] (d : t.Distinct) (hold : t i = some (k, v)) :
    map (Function.update t i none) = Function.update t.map k none := by
  refine d.clear.map_ext ?_
  intro k' w
  constructor
  · rintro ⟨j, hold'⟩
    have ne : j ≠ i := by
      rintro rfl
      rw [Function.update_self] at hold'
      cases hold'
    rw [Function.update_of_ne ne] at hold'
    have other : k' ≠ k := by
      rintro rfl
      exact ne (d hold' hold)
    rw [Function.update_of_ne other]
    exact d.map_eq_some.2 ⟨j, hold'⟩
  · intro eq
    have other : k' ≠ k := by
      rintro rfl
      rw [Function.update_self] at eq
      cases eq
    rw [Function.update_of_ne other] at eq
    obtain ⟨j, hold'⟩ := d.map_eq_some.1 eq
    refine ⟨j, ?_⟩
    rw [Function.update_of_ne, hold']
    rintro rfl
    rw [hold] at hold'
    exact other (congrArg Prod.fst (Option.some.inj hold')).symm

/-- The number of keys with a value. -/
noncomputable def count (m : κ → Option ν) (v : ν) : Nat := { k | m k = some v }.ncard

/-- The slots from `n` on are free. -/
def Below (t : Slots κ ν) (n : Nat) : Prop := ∀ i, n ≤ i → t i = none

/-- The keys of a value are held by slots below the bound. -/
lemma Below.keys_subset (b : t.Below n) (d : t.Distinct) :
    some '' { k | t.map k = some v } ⊆ (fun i => (t i).map Prod.fst) '' Set.Iio n := by
  rintro _ ⟨k, mem, rfl⟩
  obtain ⟨i, hold⟩ := d.map_eq_some.1 mem
  refine ⟨i, ?_, by simp [hold]⟩
  by_contra le
  rw [b i (by simpa using le)] at hold
  cases hold

/-- So there are finitely many keys of a value. -/
lemma Below.finite (b : t.Below n) (d : t.Distinct) : { k | t.map k = some v }.Finite := by
  refine Set.Finite.of_finite_image ?_ (Option.some_injective κ).injOn
  exact ((Set.finite_Iio n).image _).subset (b.keys_subset d)

/-- And no more of them than slots. -/
lemma Below.count_le (b : t.Below n) (d : t.Distinct) : count t.map v ≤ n := by
  have finite := (Set.finite_Iio n).image fun i => (t i).map Prod.fst
  calc count t.map v = (some '' { k | t.map k = some v }).ncard :=
        (Set.ncard_image_of_injective _ (Option.some_injective κ)).symm
    _ ≤ ((fun i => (t i).map Prod.fst) '' Set.Iio n).ncard := Set.ncard_le_ncard (b.keys_subset d) finite
    _ ≤ (Set.Iio n).ncard := Set.ncard_image_le (Set.finite_Iio n)
    _ = n := by rw [← Finset.coe_range, Set.ncard_coe_finset, Finset.card_range]

/-- The count of a value is positive exactly if some key has it. -/
lemma count_pos_iff {m : κ → Option ν} (finite : { k | m k = some v }.Finite) : 0 < count m v ↔ ∃ k, m k = some v :=
  Set.ncard_pos finite

/-- A new key adds one to the count of its value. -/
lemma count_fill [DecidableEq κ] [DecidableEq ν] {m : κ → Option ν} (finite : { k | m k = some w }.Finite)
    (absent : m k = none) : count (Function.update m k (some v)) w = count m w + if w = v then 1 else 0 := by
  have other (k' : κ) (hold : m k' = some w) : k' ≠ k := by
    rintro rfl
    rw [absent] at hold
    cases hold
  split_ifs with same
  · subst same
    rw [count, count, ← Set.ncard_insert_of_notMem (a := k) (fun hold => other k hold rfl) finite]
    congr 1
    ext k'
    by_cases e : k' = k
    · simp [e]
    · simp [e]
  · rw [count, count, Nat.add_zero]
    congr 1
    ext k'
    by_cases e : k' = k
    · simp [e, absent, Ne.symm same]
    · simp [e]

/-- Removing a key takes one from the count of its value. -/
lemma count_clear [DecidableEq κ] [DecidableEq ν] {m : κ → Option ν} (finite : { k | m k = some w }.Finite)
    (hold : m k = some v) : count m w = count (Function.update m k none) w + if w = v then 1 else 0 := by
  have finite' : { k' | Function.update m k none k' = some w }.Finite := by
    refine finite.subset ?_
    intro k' mem
    by_cases e : k' = k
    · simp [e] at mem
    · simpa [e] using mem
  rw [← count_fill finite' (Function.update_self ..), Function.update_idem, ← hold, Function.update_eq_self]

end Slots
