import Mathlib.Data.List.Basic
import Mathlib.Data.List.Range
import Mathlib.Tactic

/-!
# Sets of bits

A set of numbers in an array of `w`-bit words: the number `i` is bit `i % w` of word `i / w`. A number is put into the
set with a mask of one bit, taken out with its complement, and the least number that is not in the set is found by
looking at the words one after the other.
-/

namespace BitSet

variable {w : Nat} {v : List (BitVec w)} {i ix offset : Nat}

/-- The number `i` is in the set. -/
def Mem (v : List (BitVec w)) (i : Nat) : Prop := (v[i / w]?.getD 0).getLsbD (i % w) = true

instance : Decidable (Mem v i) := inferInstanceAs (Decidable (_ = _))

/-- The mask of one bit. -/
def mask (w offset : Nat) : BitVec w := 1#w <<< offset

/-- The mask has the one bit. -/
lemma getLsbD_mask (lt : offset < w) (j : Nat) : (mask w offset).getLsbD j = decide (offset = j) := by
  rw [mask, ← BitVec.twoPow_eq, BitVec.getLsbD_twoPow]
  simp [lt]

/-- A bit is clear if its mask picks nothing. -/
lemma and_mask_eq_zero {x : BitVec w} (lt : offset < w) : x &&& mask w offset = 0 ↔ x.getLsbD offset = false := by
  rw [mask, ← BitVec.twoPow_eq, BitVec.and_twoPow]
  cases x.getLsbD offset with
  | false => simp
  | true =>
    have ne : BitVec.twoPow w offset ≠ 0 := by
      intro zero
      have := congrArg (fun y => BitVec.getLsbD y offset) zero
      rw [BitVec.getLsbD_twoPow] at this
      simp [lt] at this
    simpa using ne

/-- The word of a bit is found by division. -/
lemma div_of_lt (lt : offset < w) : (ix * w + offset) / w = ix := by
  rw [Nat.mul_comm, Nat.mul_add_div (Nat.zero_lt_of_lt lt), Nat.div_eq_of_lt lt, Nat.add_zero]

/-- The place of a bit in its word is the remainder. -/
lemma mod_of_lt (lt : offset < w) : (ix * w + offset) % w = offset := by
  rw [Nat.mul_comm, Nat.mul_add_mod, Nat.mod_eq_of_lt lt]

/-- A number is told by its word and its bit in the word. -/
lemma eq_iff (lt : offset < w) : i = ix * w + offset ↔ i / w = ix ∧ i % w = offset := by
  constructor
  · rintro rfl
    exact ⟨div_of_lt lt, mod_of_lt lt⟩
  · rintro ⟨rfl, rfl⟩
    exact (Nat.div_add_mod' i w).symm

/-- Membership is a bit of a word. -/
lemma mem_of_word {x : BitVec w} (word : v[ix]? = some x) (lt : offset < w) :
    Mem v (ix * w + offset) ↔ x.getLsbD offset = true := by
  rw [Mem, div_of_lt lt, mod_of_lt lt, word]
  rfl

section change

variable {x : BitVec w} (word : v[ix]? = some x) (lt : offset < w)
include word lt

/-- A word changes in one bit. -/
lemma mem_set {y : BitVec w} {P : Prop} (bit : y.getLsbD offset = true ↔ P)
    (rest : ∀ j, j < w → j ≠ offset → y.getLsbD j = x.getLsbD j) :
    Mem (v.set ix y) i ↔ if i = ix * w + offset then P else Mem v i := by
  obtain ⟨inside, -⟩ := List.getElem?_eq_some_iff.1 word
  have pos : 0 < w := Nat.zero_lt_of_lt lt
  rw [Mem, Mem]
  split_ifs with same
  · rw [((eq_iff lt).1 same).1, ((eq_iff lt).1 same).2, List.getElem?_set_self inside]
    exact bit
  · rw [eq_iff lt, not_and] at same
    by_cases eq : i / w = ix
    · rw [eq, List.getElem?_set_self inside, word]
      exact iff_of_eq (congrArg (· = true) (rest _ (Nat.mod_lt _ pos) (same eq)))
    · rw [List.getElem?_set_ne (Ne.symm eq)]

/-- Setting a bit adds its number. -/
lemma mem_mark : Mem (v.set ix (x ||| mask w offset)) i ↔ i = ix * w + offset ∨ Mem v i := by
  rw [mem_set word lt (P := True)]
  · split_ifs with same
    · exact iff_of_true trivial (.inl same)
    · exact (or_iff_right same).symm
  · rw [BitVec.getLsbD_or, getLsbD_mask lt, decide_eq_true rfl, Bool.or_true]
    exact iff_of_true rfl trivial
  · intro j _ ne
    rw [BitVec.getLsbD_or, getLsbD_mask lt, decide_eq_false (Ne.symm ne), Bool.or_false]

/-- Clearing a bit removes its number. -/
lemma mem_unmark : Mem (v.set ix (x &&& ~~~ mask w offset)) i ↔ i ≠ ix * w + offset ∧ Mem v i := by
  rw [mem_set word lt (P := False)]
  · split_ifs with same
    · exact iff_of_false id fun h => h.1 same
    · exact (and_iff_right same).symm
  · rw [BitVec.getLsbD_and, BitVec.getLsbD_not, getLsbD_mask lt, decide_eq_true rfl, Bool.not_true, Bool.and_false,
      Bool.and_false]
    exact iff_of_false Bool.false_ne_true id
  · intro j small ne
    rw [BitVec.getLsbD_and, BitVec.getLsbD_not, getLsbD_mask lt, decide_eq_false (Ne.symm ne), decide_eq_true small]
    exact Bool.and_true _

end change

/-- A word with all bits set has no clear bit. -/
lemma eq_allOnes_iff {x : BitVec w} : x = BitVec.allOnes w ↔ ∀ j < w, x.getLsbD j = true := by
  constructor
  · rintro rfl j lt
    rw [BitVec.getLsbD_allOnes, decide_eq_true lt]
  · intro all
    apply BitVec.eq_of_getLsbD_eq
    intro j lt
    rw [all j lt, BitVec.getLsbD_allOnes, decide_eq_true lt]

/-- The first clear bit of a word. -/
def clearBit (x : BitVec w) : Option Nat := (List.range w).find? fun offset => x &&& mask w offset = 0

/-- The bit that is found is the first that is clear. -/
lemma clearBit_eq_some {x : BitVec w} :
    clearBit x = some offset ↔ offset < w ∧ x.getLsbD offset = false ∧ ∀ j < offset, x.getLsbD j = true := by
  rw [clearBit, List.find?_range_eq_some]
  constructor
  · rintro ⟨clear, mem, below⟩
    have lt := List.mem_range.1 mem
    refine ⟨lt, (and_mask_eq_zero lt).1 (of_decide_eq_true clear), ?_⟩
    intro j small
    have set := below j small
    rw [Bool.not_eq_true', decide_eq_false_iff_not, and_mask_eq_zero (small.trans lt), Bool.not_eq_false] at set
    exact set
  · rintro ⟨lt, clear, below⟩
    refine ⟨decide_eq_true ((and_mask_eq_zero lt).2 clear), List.mem_range.2 lt, ?_⟩
    intro j small
    rw [Bool.not_eq_true', decide_eq_false_iff_not, and_mask_eq_zero (small.trans lt), Bool.not_eq_false]
    exact below j small

/-- No bit is found if the word is full. -/
lemma clearBit_eq_none {x : BitVec w} : clearBit x = none ↔ x = BitVec.allOnes w := by
  rw [clearBit, List.find?_eq_none, eq_allOnes_iff]
  refine forall_congr' fun j => ?_
  rw [List.mem_range]
  refine forall_congr' fun lt => ?_
  rw [decide_eq_true_eq, and_mask_eq_zero lt, Bool.not_eq_false]

/-- The first clear bit of a word is the least number that is not in the set, if all words before are full. -/
lemma least_of_clearBit {x : BitVec w} (word : v[ix]? = some x) (clear : clearBit x = some offset)
    (before : ∀ i < ix * w, Mem v i) :
    ¬ Mem v (ix * w + offset) ∧ ∀ i < ix * w + offset, Mem v i := by
  obtain ⟨lt, clear, below⟩ := clearBit_eq_some.1 clear
  refine ⟨?_, ?_⟩
  · rw [mem_of_word word lt, clear]
    exact Bool.false_ne_true
  · intro i small
    cases Nat.lt_or_ge i (ix * w) with
    | inl lt => exact before i lt
    | inr ge =>
      obtain ⟨k, rfl⟩ := Nat.exists_eq_add_of_le ge
      have lt' : k < offset := Nat.lt_of_add_lt_add_left small
      rw [mem_of_word word (lt'.trans lt)]
      exact below k lt'

/-- A full word is passed over. -/
lemma mem_of_full (word : v[ix]? = some (BitVec.allOnes w)) (before : ∀ i < ix * w, Mem v i) :
    ∀ i < (ix + 1) * w, Mem v i := by
  intro i small
  cases Nat.lt_or_ge i (ix * w) with
  | inl lt => exact before i lt
  | inr ge =>
    obtain ⟨k, rfl⟩ := Nat.exists_eq_add_of_le ge
    rw [Nat.succ_mul] at small
    have lt : k < w := Nat.lt_of_add_lt_add_left small
    rw [mem_of_word word lt]
    exact eq_allOnes_iff.1 rfl k lt

/-- The array of `n` zeros is the empty set. -/
lemma not_mem_zero (n i : Nat) : ¬ Mem (List.replicate n (0 : BitVec w)) i := by
  rw [Mem, List.getElem?_replicate]
  split_ifs
  · simp
  · simp

/-- The bits from `lo` up to the width, set one after the other. -/
def setFrom (x : BitVec w) (lo : Nat) : BitVec w :=
  (List.range' lo (w - lo)).foldl (fun x j => x ||| mask w j) x

/-- The bits of a word after several masks have been set in it. -/
lemma getLsbD_foldl (l : List Nat) (x : BitVec w) (small : ∀ j ∈ l, j < w) (k : Nat) :
    (l.foldl (fun x j => x ||| mask w j) x).getLsbD k = (x.getLsbD k || decide (k ∈ l)) := by
  induction l generalizing x with
  | nil => simp
  | cons j l ih =>
    rw [List.foldl_cons, ih _ fun k mem => small k (List.mem_cons_of_mem _ mem), BitVec.getLsbD_or,
      getLsbD_mask (small j List.mem_cons_self), Bool.or_assoc]
    congr 1
    rw [← Bool.decide_or, decide_eq_decide, List.mem_cons, eq_comm (a := j)]

/-- All bits from `lo` on are set. -/
lemma getLsbD_setFrom (x : BitVec w) {lo k : Nat} (lt : k < w) :
    (setFrom x lo).getLsbD k = (x.getLsbD k || decide (lo ≤ k)) := by
  rw [setFrom, getLsbD_foldl]
  · congr 1
    rw [decide_eq_decide, List.mem_range'_1]
    omega
  · intro j mem
    have := List.mem_range'_1.1 mem
    omega

end BitSet
