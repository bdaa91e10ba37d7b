import Mathlib.Data.Finset.Card
import Mathlib.Tactic

/-!
# Tables that never evict

A table with room for `cap` keys, such as a TLB that is filled on demand: an access to a key that the
table does not hold enters it, and fails when there is no room. Nothing is ever replaced, but the whole
table is emptied from time to time; `flush` says before which accesses.

`run_isSome_iff` counts: on a table that begins empty, a sequence of accesses succeeds exactly when from
one flush to the next at most `cap` different keys are accessed.
-/

namespace PDS

variable {α : Type}

/-- The state of a table after `clock` accesses. -/
structure Table (α : Type) where
  keys : Finset α
  room : Nat
  clock : Nat

namespace Table

/-- What is left of the table when an access begins. -/
def tick (cap : Nat) (flush : Nat → Bool) (t : Table α) : Table α :=
  if flush t.clock then ⟨∅, cap, t.clock + 1⟩ else ⟨t.keys, t.room, t.clock + 1⟩

/-- A table without keys. -/
def empty (cap clock : Nat) : Table α := ⟨∅, cap, clock⟩

variable {cap clock : Nat} {flush : Nat → Bool} {t : Table α} {a : α} {l l' : List α}
  {keys keys' : Finset α}

variable [DecidableEq α]

/-- Enters a key that the table does not have. -/
def enter (t : Table α) (a : α) : Option (Table α) :=
  if a ∈ t.keys then some t
  else if t.room = 0 then none
  else some ⟨insert a t.keys, t.room - 1, t.clock⟩

/-- An access. -/
def access (cap : Nat) (flush : Nat → Bool) (t : Table α) (a : α) : Option (Table α) :=
  (t.tick cap flush).enter a

/-- A sequence of accesses; it stops at the first one that fails. -/
def run (cap : Nat) (flush : Nat → Bool) (t : Table α) (l : List α) : Option (Table α) :=
  l.foldlM (access cap flush) t

/-- From one flush to the next at most `cap` different keys are accessed: this is said of every stretch of
the accesses, those from number `i` to `i + n - 1`, in the midst of which there is no flush. -/
def Fits (cap : Nat) (flush : Nat → Bool) (clock : Nat) (l : List α) : Prop :=
  ∀ i n, (∀ k, i < k → k < i + n → flush (clock + k) = false) → ((l.drop i).take n).toFinset.card ≤ cap

/-- Nothing is accessed. -/
@[simp] lemma run_nil : run cap flush t [] = some t := rfl

/-- One access after the other. -/
@[simp] lemma run_cons : run cap flush t (a :: l) = (access cap flush t a).bind (run cap flush · l) := rfl

/-- One sequence of accesses after the other. -/
lemma run_append : run cap flush t (l ++ l') = (run cap flush t l).bind (run cap flush · l') :=
  List.foldlM_append

/-- A table that has room for all keys never runs out of it. -/
lemma fits_of_card_le (few : l.toFinset.card ≤ cap) : Fits cap flush clock l := by
  intro i n _
  refine (Finset.card_le_card ?_).trans few
  intro a mem
  rw [List.mem_toFinset] at mem ⊢
  exact List.mem_of_mem_drop (List.mem_of_mem_take mem)

/-- The keys that are there already fit together with those that are accessed up to the first flush. -/
def Joins (cap : Nat) (flush : Nat → Bool) (clock : Nat) (keys : Finset α) (l : List α) : Prop :=
  ∀ n, (∀ k < n, flush (clock + k) = false) → (keys ∪ (l.take n).toFinset).card ≤ cap

/-- The keys that are there fit. -/
lemma Joins.card_le (joins : Joins cap flush clock keys l) : keys.card ≤ cap := by
  have now := joins 0 fun k lt => absurd lt (Nat.not_lt_zero k)
  rwa [List.take_zero, List.toFinset_nil, Finset.union_empty] at now

/-- Fewer keys fit as well. -/
lemma Joins.subset (joins : Joins cap flush clock keys' l) (sub : keys ⊆ keys') : Joins cap flush clock keys l :=
  fun n none => (Finset.card_le_card (Finset.union_subset_union_left sub)).trans (joins n none)

/-- Before a flush the accesses do not count. -/
lemma joins_of_flush (fl : flush clock) (few : keys.card ≤ cap) : Joins cap flush clock keys l := by
  intro n none
  cases n with
  | zero => rwa [List.take_zero, List.toFinset_nil, Finset.union_empty]
  | succ n =>
    have first := none 0 (Nat.succ_pos n)
    rw [Nat.add_zero, fl] at first
    cases first

/-- With no flush before it, an access adds its key. -/
lemma joins_cons (fl : flush clock = false) :
    Joins cap flush clock keys (a :: l) ↔ Joins cap flush (clock + 1) (insert a keys) l := by
  constructor
  · intro joins n none
    have more := joins (n + 1) ?_
    · rwa [List.take_succ_cons, List.toFinset_cons, Finset.union_insert, ← Finset.insert_union] at more
    · intro k lt
      cases k with
      | zero => exact fl
      | succ k =>
        rw [Nat.add_comm k, ← Nat.add_assoc]
        exact none k (by omega)
  · intro joins n none
    cases n with
    | zero =>
      rw [List.take_zero, List.toFinset_nil, Finset.union_empty]
      exact (Finset.card_le_card (Finset.subset_insert a keys)).trans joins.card_le
    | succ n =>
      rw [List.take_succ_cons, List.toFinset_cons, Finset.union_insert, ← Finset.insert_union]
      refine joins n fun k lt => ?_
      rw [Nat.add_assoc, Nat.add_comm 1]
      exact none (k + 1) (by omega)

/-- The stretches that begin with the first access, and the others. -/
lemma fits_cons :
    Fits cap flush clock (a :: l) ↔ Joins cap flush (clock + 1) {a} l ∧ Fits cap flush (clock + 1) l := by
  constructor
  · intro fits
    refine ⟨fun n none => ?_, fun i n none => ?_⟩
    · have first := fits 0 (n + 1) ?_
      · rwa [List.drop_zero, List.take_succ_cons, List.toFinset_cons, Finset.insert_eq] at first
      · intro k pos lt
        have later := none (k - 1) (by omega)
        rwa [show clock + 1 + (k - 1) = clock + k by omega] at later
    · refine fits (i + 1) n ?_
      intro k gt lt
      have later := none (k - 1) (by omega) (by omega)
      rwa [show clock + 1 + (k - 1) = clock + k by omega] at later
  · rintro ⟨first, rest⟩ i n none
    cases i with
    | zero =>
      cases n with
      | zero => exact Nat.zero_le _
      | succ n =>
        rw [List.drop_zero, List.take_succ_cons, List.toFinset_cons, Finset.insert_eq]
        refine first n fun k lt => ?_
        rw [Nat.add_assoc]
        exact none (1 + k) (by omega) (by omega)
    | succ i =>
      refine rest i n ?_
      intro k gt lt
      rw [Nat.add_assoc]
      exact none (1 + k) (by omega) (by omega)

/-- Accesses to a table that may hold some keys already: up to the first flush, these count as well. -/
lemma run_isSome_iff_keys (flush : Nat → Bool) (t : Table α) (full : t.keys.card + t.room = cap) :
    (run cap flush t l).isSome ↔ Joins cap flush t.clock t.keys l ∧ Fits cap flush t.clock l := by
  induction l generalizing t with
  | nil =>
    refine iff_of_true rfl ⟨fun n _ => ?_, fits_of_card_le (Nat.zero_le _)⟩
    rw [List.take_nil, List.toFinset_nil, Finset.union_empty]
    omega
  | cons a l ih =>
    rw [run_cons, access, fits_cons]
    by_cases fl : flush t.clock
    · -- nothing is left, and the stretches begin with this access
      rw [tick, if_pos fl, enter, if_neg (Finset.notMem_empty a), and_iff_right (joins_of_flush fl (by omega))]
      dsimp only
      split_ifs with none
      · refine iff_of_false Bool.false_ne_true fun both => ?_
        have one := both.1.card_le
        rw [Finset.card_singleton] at one
        omega
      · have one : (insert a (∅ : Finset α)).card + (cap - 1) = cap := by
          rw [Finset.card_insert_of_notMem (Finset.notMem_empty a), Finset.card_empty]
          omega
        exact ih ⟨insert a ∅, cap - 1, t.clock + 1⟩ one
    · -- the keys count on
      have alone (joins : Joins cap flush (t.clock + 1) (insert a t.keys) l) : Joins cap flush (t.clock + 1) {a} l :=
        joins.subset (Finset.singleton_subset_iff.2 (Finset.mem_insert_self a t.keys))
      rw [joins_cons (Bool.eq_false_iff.2 fl), ← and_assoc, and_iff_left_of_imp alone, tick, if_neg fl, enter]
      dsimp only
      split_ifs with has none
      · rw [Finset.insert_eq_of_mem has]
        exact ih ⟨t.keys, t.room, t.clock + 1⟩ full
      · refine iff_of_false Bool.false_ne_true fun both => ?_
        have one := both.1.card_le
        rw [Finset.card_insert_of_notMem has] at one
        omega
      · have one : (insert a t.keys).card + (t.room - 1) = cap := by
          rw [Finset.card_insert_of_notMem has]
          omega
        exact ih ⟨insert a t.keys, t.room - 1, t.clock + 1⟩ one

/-- On an empty table, accesses succeed exactly when from one flush to the next they fit. -/
theorem run_isSome_iff (flush : Nat → Bool) (l : List α) :
    (run cap flush (empty cap clock) l).isSome ↔ Fits cap flush clock l := by
  rw [run_isSome_iff_keys flush (empty cap clock) (Nat.zero_add cap)]
  refine and_iff_right_of_imp fun fits n none => ?_
  have first := fits 0 n fun k _ lt => none k (by omega)
  rwa [List.drop_zero, ← Finset.empty_union ((l.take n).toFinset)] at first

end Table

end PDS
