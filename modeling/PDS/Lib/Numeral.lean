import Mathlib.Data.Nat.Digits.Lemmas

/-!
# Numerals

The numeral of a number in a base, as it is written: the most significant digit first, and one digit for zero.
`eval` reads digits behind what has been read so far, as a parser does that multiplies by the base and adds.
-/

namespace PDS.Numeral

/-- The digits of `n` as they are written. -/
def numeral (b n : Nat) : List Nat := if n = 0 then [0] else (Nat.digits b n).reverse

/-- The number that is read when the digits come behind a numeral of `v`. -/
def eval (b v : Nat) (ds : List Nat) : Nat := ds.foldl (fun v d => v * b + d) v

section

variable {b n v d k : Nat} {ds : List Nat}

/-- The value of digits behind others. -/
lemma eval_append {es : List Nat} : eval b v (ds ++ es) = eval b (eval b v ds) es := List.foldl_append

/-- The value in terms of the digits from the last one on. -/
lemma eval_eq : eval b v ds = v * b ^ ds.length + Nat.ofDigits b ds.reverse := by
  induction ds generalizing v with
  | nil => rw [eval, List.foldl_nil, List.length_nil, pow_zero, mul_one, List.reverse_nil, Nat.ofDigits_nil, add_zero]
  | cons d ds ih =>
    rw [eval, List.foldl_cons, ← eval, ih, Nat.ofDigits_reverse_cons, List.length_cons, pow_succ']
    ring

/-- Zeros behind a numeral. -/
lemma eval_zeros : eval b v (List.replicate k 0) = v * b ^ k := by
  rw [eval_eq, List.length_replicate, List.reverse_replicate, Nat.ofDigits_replicate_zero, add_zero]

/-- More digits do not make a number smaller. -/
lemma le_eval (pos : 0 < b) : v ≤ eval b v ds := by
  rw [eval_eq]
  exact (Nat.le_mul_of_pos_right _ (Nat.pow_pos pos)).trans (Nat.le_add_right _ _)

/-- A number below the base is one digit. -/
lemma numeral_of_lt (lt : n < b) : numeral b n = [n] := by
  rw [numeral]
  split_ifs with zero
  · rw [zero]
  · rw [Nat.digits_of_lt b n zero lt, List.reverse_singleton]

/-- The last digit of a numeral, and what comes before it. -/
lemma numeral_of_le (two : 2 ≤ b) (le : b ≤ n) : numeral b n = numeral b (n / b) ++ [n % b] := by
  have pos : n / b ≠ 0 := (Nat.div_pos le (by omega)).ne'
  rw [numeral, numeral, if_neg (by omega), if_neg pos, Nat.digits_def' two (by omega), List.reverse_cons]

/-- The digits are below the base. -/
lemma numeral_lt (two : 2 ≤ b) (mem : d ∈ numeral b n) : d < b := by
  rw [numeral] at mem
  split_ifs at mem with zero
  · rw [List.mem_singleton.1 mem]
    omega
  · exact Nat.digits_lt_base two (List.mem_reverse.1 mem)

/-- How many digits there are. -/
lemma length_numeral_le (two : 2 ≤ b) (pos : 0 < k) : (numeral b n).length ≤ k ↔ n < b ^ k := by
  rw [numeral]
  split_ifs with zero
  · rw [zero]
    exact iff_of_true pos (Nat.pow_pos (by omega))
  · rw [List.length_reverse]
    exact Nat.digits_length_le_iff two n

/-- Every number has a digit. -/
lemma length_numeral_pos : 0 < (numeral b n).length := by
  rw [numeral]
  split_ifs with zero
  · exact Nat.one_pos
  · rw [List.length_reverse]
    exact List.length_pos_of_ne_nil (Nat.digits_ne_nil_iff_ne_zero.2 zero)

/-- Only the numeral of zero begins with a zero. -/
lemma head_numeral (pos : 0 < n) {rest : List Nat} : numeral b n ≠ 0 :: rest := by
  intro eq
  rw [numeral, if_neg (by omega)] at eq
  have eq := congrArg List.reverse eq
  rw [List.reverse_reverse, List.reverse_cons] at eq
  have last := Nat.getLast_digit_ne_zero b (Nat.ne_of_gt pos)
  simp only [eq, List.getLast_append_singleton] at last
  exact last rfl

/-- What is read is what was written. -/
lemma eval_numeral : eval b 0 (numeral b n) = n := by
  rw [eval_eq, zero_mul, zero_add, numeral]
  split_ifs with zero
  · rw [zero]
    rfl
  · rw [List.reverse_reverse]
    exact Nat.ofDigits_digits b n

/-- Digits that say what `n` is, without leading zeros. -/
structure IsNumeral (b n : Nat) (ds : List Nat) : Prop where
  digit : ∀ d ∈ ds, d < b
  ne_nil : ds ≠ []
  lead : ds.head? = some 0 → ds = [0]
  value : eval b 0 ds = n

/-- The digits of a number are a numeral for it. -/
lemma isNumeral_numeral (two : 2 ≤ b) (n : Nat) : IsNumeral b n (numeral b n) := by
  refine ⟨fun d mem => numeral_lt two mem, List.ne_nil_of_length_pos length_numeral_pos, ?_, eval_numeral⟩
  intro lead
  obtain ⟨rest, eq⟩ := List.head?_eq_some_iff.1 lead
  obtain rfl | pos := Nat.eq_zero_or_pos n
  · rfl
  · exact absurd eq (head_numeral pos)

/-- A number has one numeral. -/
lemma IsNumeral.eq (two : 2 ≤ b) (is : IsNumeral b n ds) : ds = numeral b n := by
  have value : Nat.ofDigits b ds.reverse = n := by
    rw [← is.value, eval_eq, zero_mul, zero_add]
  by_cases zero : ds.head? = some 0
  · have one := is.lead zero
    have none : n = 0 := by
      rw [← is.value, one, eval_eq, zero_mul, zero_add]
      rfl
    rw [one, none]
    rfl
  · have last : ∀ ne : ds.reverse ≠ [], ds.reverse.getLast ne ≠ 0 := by
      intro ne same
      rw [List.getLast_reverse] at same
      exact zero (same ▸ List.head?_eq_some_head is.ne_nil)
    have digits : Nat.digits b n = ds.reverse := by
      rw [← value]
      exact Nat.digits_ofDigits b two _ (fun d mem => is.digit d (List.mem_reverse.1 mem)) last
    have pos : n ≠ 0 := by
      rintro rfl
      rw [Nat.digits_zero] at digits
      exact is.ne_nil (List.reverse_eq_nil_iff.1 digits.symm)
    rw [numeral, if_neg pos, digits, List.reverse_reverse]

end

end PDS.Numeral
