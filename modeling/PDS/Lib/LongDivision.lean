import Mathlib.Tactic

/-!
# Long division

Division of numbers that are given by their digits in a base `b`, the most significant digit first. `num b d i k` is the
number with the `k` digits `d i`, …, `d (i + k - 1)`.

A loop over the digits that hands a carry or a borrow from one digit to the next satisfies one equation for each digit;
`carry_step` and `carry_cons` add them up. A digit of a quotient is guessed from the first digits of the dividend and of
the divisor (`Guess`): the guess is never too small, and once it has been tested with the second digit of the divisor it
is too large by one at most.
-/

namespace PDS.LongDivision

/-- The number with the `k` digits from `d i` on. -/
def num (b : Nat) (d : Nat → Nat) (i : Nat) : Nat → Nat
  | 0 => 0
  | k + 1 => num b d i k * b + d (i + k)

section

variable {b i j k m : Nat} {d e : Nat → Nat}

/-- No digits are zero. -/
@[simp] lemma num_zero : num b d i 0 = 0 := rfl

/-- One more digit. -/
lemma num_succ : num b d i (k + 1) = num b d i k * b + d (i + k) := rfl

/-- The digits in two parts. -/
lemma num_add : num b d i (k + m) = num b d i k * b ^ m + num b d (i + k) m := by
  induction m with
  | zero => simp
  | succ m ih =>
    rw [← Nat.add_assoc, num_succ, ih, num_succ, pow_succ, Nat.add_assoc i k m]
    ring

/-- The first digit and the others. -/
lemma num_cons : num b d i (k + 1) = d i * b ^ k + num b d (i + 1) k := by
  rw [Nat.add_comm k 1, num_add, num_succ, num_zero, Nat.zero_mul, Nat.zero_add, Nat.add_zero]

/-- The number depends on its digits only. -/
lemma num_congr (same : ∀ l < k, d (i + l) = e (j + l)) : num b d i k = num b e j k := by
  induction k with
  | zero => rfl
  | succ k ih =>
    rw [num_succ, num_succ, ih fun l lt => same l (Nat.lt_succ_of_lt lt), same k (Nat.lt_succ_self k)]

/-- Digits that are zero make zero. -/
lemma num_zeros (zeros : ∀ l < k, d (i + l) = 0) : num b d i k = 0 := by
  induction k with
  | zero => rfl
  | succ k ih =>
    rw [num_succ, ih fun l lt => zeros l (Nat.lt_succ_of_lt lt), zeros k (Nat.lt_succ_self k)]
    simp

/-- Leading zeros do not count. -/
lemma num_leading (zeros : ∀ l < k, d (i + l) = 0) : num b d i (k + m) = num b d (i + k) m := by
  rw [num_add, num_zeros zeros, Nat.zero_mul, Nat.zero_add]

/-- The number is below the power of the base. -/
lemma num_lt (digits : ∀ l < k, d (i + l) < b) : num b d i k < b ^ k := by
  induction k with
  | zero => exact Nat.one_pos
  | succ k ih =>
    have front := ih fun l lt => digits l (Nat.lt_succ_of_lt lt)
    have last := digits k (Nat.lt_succ_self k)
    rw [num_succ, pow_succ]
    calc num b d i k * b + d (i + k) < num b d i k * b + b := Nat.add_lt_add_left last _
      _ = (num b d i k + 1) * b := by ring
      _ ≤ b ^ k * b := Nat.mul_le_mul_right b front

/-- The first digit decides which number is smaller. -/
lemma num_lt_num (digits : ∀ l < k, d (i + 1 + l) < b) (first : d i < e j) :
    num b d i (k + 1) < num b e j (k + 1) := by
  have rest := num_lt (b := b) digits
  rw [num_cons, num_cons]
  calc d i * b ^ k + num b d (i + 1) k < d i * b ^ k + b ^ k := Nat.add_lt_add_left rest _
    _ = (d i + 1) * b ^ k := by ring
    _ ≤ e j * b ^ k := Nat.mul_le_mul_right _ first
    _ ≤ _ := Nat.le_add_right _ _

/-- What the number says about its first digit. -/
lemma le_first (digits : ∀ l < k, d (i + 1 + l) < b) {c : Nat} (le : c * b ^ k ≤ num b d i (k + 1)) : c ≤ d i := by
  have rest := num_lt (b := b) digits
  rw [num_cons] at le
  have lt : c * b ^ k < (d i + 1) * b ^ k := by
    rw [Nat.succ_mul]
    omega
  exact Nat.lt_succ_iff.1 (Nat.lt_of_mul_lt_mul_right lt)

/-- The first digit of a small number is small. -/
lemma first_lt {c : Nat} (lt : num b d i (k + 1) < c * b ^ k) : d i < c := by
  rw [num_cons] at lt
  exact Nat.lt_of_mul_lt_mul_right (lt_of_le_of_lt (Nat.le_add_right _ _) lt)

/-- One more digit `v` of a number `u`, and one more digit `y` of `x`: the carry `c` goes into the digits before it. -/
lemma carry_step {u v x y c₀ c c' : Nat} (front : u + c₀ * b ^ k = x + c) (last : v + c * b = y + c') :
    u * b + v + c₀ * b ^ (k + 1) = x * b + y + c' := by
  rw [pow_succ]
  calc u * b + v + c₀ * (b ^ k * b) = (u + c₀ * b ^ k) * b + v := by ring
    _ = x * b + (v + c * b) := by rw [front]; ring
    _ = x * b + y + c' := by rw [last]; ring

/-- One more digit in front, which takes the carry `c` and hands on `c₀`. -/
lemma carry_cons {u v x y c₀ c p : Nat} (first : v + c₀ * b = y + c) (rest : u + c * p = x) :
    v * p + u + c₀ * (p * b) = y * p + x := by
  refine Nat.add_right_cancel (m := c * p) ?_
  calc v * p + u + c₀ * (p * b) + c * p = (v + c₀ * b) * p + (u + c * p) := by ring
    _ = y * p + x + c * p := by rw [first, rest]; ring

end

/-- `w / v` is to be guessed. The divisor starts with the digits `v₁` and `v₂`, and the dividend with the number `n` and
the digit `u₂`; the other digits count less than `s`. -/
structure Heads (b s v v₁ v₂ w n u₂ : Nat) : Prop where
  base : 0 < b
  scale : 0 < s
  first : 0 < v₁
  digit : v₂ < b
  le_v : (v₁ * b + v₂) * s ≤ v
  v_lt : v < (v₁ * b + v₂ + 1) * s
  le_w : (n * b + u₂) * s ≤ w
  w_lt : w < (n * b + u₂ + 1) * s
  tail : u₂ < b

/-- The guess `q` is not too small, and `r` is what is left of `n`. -/
structure Guess (b v v₁ w n q r : Nat) : Prop where
  rest : q * v₁ + r = n
  enough : w / v ≤ q
  le : q ≤ b

section

variable {b s v v₁ v₂ w n u₂ q r : Nat}

/-- The divisor is positive. -/
lemma Heads.v_pos (h : Heads b s v v₁ v₂ w n u₂) : 0 < v := by
  have pos : 0 < (v₁ * b + v₂) * s := Nat.mul_pos (Nat.add_pos_left (Nat.mul_pos h.first h.base) _) h.scale
  exact lt_of_lt_of_le pos h.le_v

/-- The first digits alone bound the quotient. -/
lemma Heads.div_le (h : Heads b s v v₁ v₂ w n u₂) : w / v ≤ n / v₁ := by
  rw [Nat.le_div_iff_mul_le h.first]
  have below : w / v * v₁ * (b * s) < (n + 1) * (b * s) := by
    calc w / v * v₁ * (b * s) = w / v * (v₁ * b * s) := by ring
      _ ≤ w / v * v := by
        refine Nat.mul_le_mul_left _ (le_trans ?_ h.le_v)
        exact Nat.mul_le_mul_right _ (Nat.le_add_right _ _)
      _ ≤ w := Nat.div_mul_le_self w v
      _ < (n * b + u₂ + 1) * s := h.w_lt
      _ ≤ (n * b + b) * s := Nat.mul_le_mul_right _ (by have := h.tail; omega)
      _ = (n + 1) * (b * s) := by ring
  exact Nat.lt_succ_iff.1 (Nat.lt_of_mul_lt_mul_right below)

/-- The first guess. -/
lemma Heads.guess (h : Heads b s v v₁ v₂ w n u₂) (small : n < v₁ * b) : Guess b v v₁ w n (n / v₁) (n % v₁) where
  rest := Nat.div_add_mod' n v₁
  enough := h.div_le
  le := (Nat.div_lt_of_lt_mul small).le

/-- The guess when the first digits are the same. -/
lemma guess_base (fits : w < v * b) (same : b * v₁ + r = n) :
    Guess b v v₁ w n b r ∧ w / v < b :=
  ⟨⟨same, (Nat.div_lt_of_lt_mul fits).le, le_refl b⟩, Nat.div_lt_of_lt_mul fits⟩

/-- A guess that fails the test with the second digit is too large. -/
lemma Guess.lt_of_test (g : Guess b v v₁ w n q r) (h : Heads b s v v₁ v₂ w n u₂) (test : r * b + u₂ < v₂ * q) :
    w / v < q := by
  rw [Nat.div_lt_iff_lt_mul h.v_pos]
  calc w < (n * b + u₂ + 1) * s := h.w_lt
    _ ≤ (q * v₁ * b + v₂ * q) * s := by
      refine Nat.mul_le_mul_right _ ?_
      rw [← g.rest]
      calc (q * v₁ + r) * b + u₂ + 1 = q * v₁ * b + (r * b + u₂ + 1) := by ring
        _ ≤ q * v₁ * b + v₂ * q := Nat.add_le_add_left test _
    _ = q * ((v₁ * b + v₂) * s) := by ring
    _ ≤ q * v := Nat.mul_le_mul_left _ h.le_v

/-- The next smaller guess. -/
lemma Guess.pred (g : Guess b v v₁ w n q r) (lt : w / v < q) : Guess b v v₁ w n (q - 1) (r + v₁) where
  rest := by
    obtain ⟨p, rfl⟩ := Nat.exists_eq_succ_of_ne_zero (Nat.ne_of_gt (Nat.zero_lt_of_lt lt))
    rw [← g.rest, Nat.succ_sub_one, Nat.succ_mul]
    ring
  enough := Nat.le_pred_of_lt lt
  le := (Nat.pred_le q).trans g.le

/-- `q` copies of the divisor are at most one divisor too much. -/
lemma Heads.le_succ (h : Heads b s v v₁ v₂ w n u₂) (le : q ≤ b) (fits : q * (v₁ * b + v₂) ≤ n * b + u₂) :
    q ≤ w / v + 1 := by
  obtain rfl | pos := Nat.eq_zero_or_pos q
  · exact Nat.zero_le _
  obtain ⟨p, rfl⟩ := Nat.exists_eq_succ_of_ne_zero (Nat.ne_of_gt pos)
  refine Nat.succ_le_succ ((Nat.le_div_iff_mul_le h.v_pos).2 ?_)
  -- what the digits behind the second one add is less than a divisor
  have tail : (p + 1) * s ≤ v := by
    calc p.succ * s ≤ b * s := Nat.mul_le_mul_right _ le
      _ ≤ (v₁ * b + v₂) * s := Nat.mul_le_mul_right _ (by nlinarith [h.first])
      _ ≤ v := h.le_v
  have copies : (p + 1) * v ≤ w + v := by
    calc (p + 1) * v ≤ (p + 1) * ((v₁ * b + v₂ + 1) * s) := Nat.mul_le_mul_left _ h.v_lt.le
      _ = (p + 1) * (v₁ * b + v₂) * s + (p + 1) * s := by ring
      _ ≤ (n * b + u₂) * s + v := Nat.add_le_add (Nat.mul_le_mul_right _ fits) tail
      _ ≤ w + v := Nat.add_le_add_right h.le_w _
  have split : (p + 1) * v = p * v + v := by ring
  omega

/-- A guess that passes the test. -/
lemma Guess.le_of_test (g : Guess b v v₁ w n q r) (h : Heads b s v v₁ v₂ w n u₂) (test : v₂ * q ≤ r * b + u₂) :
    q ≤ w / v + 1 := by
  refine h.le_succ g.le ?_
  rw [← g.rest]
  calc q * (v₁ * b + v₂) = q * v₁ * b + v₂ * q := by ring
    _ ≤ q * v₁ * b + (r * b + u₂) := Nat.add_le_add_left test _
    _ = (q * v₁ + r) * b + u₂ := by ring

/-- A guess that leaves too much for the test. -/
lemma Guess.le_of_rest (g : Guess b v v₁ w n q r) (h : Heads b s v v₁ v₂ w n u₂) (large : b ≤ r) : q ≤ w / v + 1 := by
  refine g.le_of_test h ?_
  calc v₂ * q ≤ b * b := Nat.mul_le_mul h.digit.le g.le
    _ ≤ r * b := Nat.mul_le_mul_right _ large
    _ ≤ _ := Nat.le_add_right _ _

/-- The dividend starts with the digit `a`, which counts `p`; taking `q` divisors off the others leaves `x` and borrows
`t`. Without a borrow from `a` the guess was right. -/
lemma settle {a p t x y : Nat} (pos : 0 < v) (le : v ≤ p) (window : w = a * p + y) (off : y + t * p = x + q * v)
    (enough : w / v ≤ q) (fits : t ≤ a) : a = t ∧ w = q * v + x ∧ x < v := by
  obtain ⟨k, rfl⟩ := Nat.exists_eq_add_of_le fits
  have sum : w = k * p + x + q * v := by
    rw [window, Nat.add_mul]
    omega
  have right : q = w / v := le_antisymm ((Nat.le_div_iff_mul_le pos).2 (by omega)) enough
  have rest : k * p + x < v := by
    have lt := Nat.mod_lt w pos
    have parts := Nat.div_add_mod' w v
    rw [← right] at parts
    omega
  have zero : k = 0 := by
    by_contra some
    have large := Nat.le_mul_of_pos_left p (Nat.pos_of_ne_zero some)
    omega
  rw [zero] at sum rest
  omega

/-- With a borrow it was too large by one. -/
lemma settle_borrow {a p t x y : Nat} (pos : 0 < v) (lt : v < p) (window : w = a * p + y) (off : y + t * p = x + q * v)
    (close : q ≤ w / v + 1) (small : x < p) (borrow : a < t) :
    t = a + 1 ∧ q = w / v + 1 ∧ x + v = w % v + p := by
  obtain ⟨k, rfl⟩ := Nat.exists_eq_add_of_lt borrow
  have sum : w + (k + 1) * p = x + q * v := by
    have split : (a + k + 1) * p = a * p + (k + 1) * p := by ring
    omega
  have one : p ≤ (k + 1) * p := Nat.le_mul_of_pos_left p (Nat.succ_pos k)
  have right : q = w / v + 1 := by
    have large : w / v < q := (Nat.div_lt_iff_lt_mul pos).2 (by omega)
    omega
  have rest : x + v = w % v + (k + 1) * p := by
    have parts := Nat.div_add_mod' w v
    have copies : q * v = w / v * v + v := by rw [right, Nat.succ_mul]
    omega
  have zero : k = 0 := by
    by_contra some
    have two : 2 * p ≤ (k + 1) * p := Nat.mul_le_mul_right p (by omega)
    omega
  rw [zero] at rest ⊢
  exact ⟨rfl, right, by omega⟩

/-- A quotient and a remainder, and one more digit of the dividend. -/
lemma divide_step {u u' p c : Nat} (sofar : u = q * v + p) (digit : p * b + c = r * v + u') :
    u * b + c = (q * b + r) * v + u' := by
  rw [sofar]
  calc (q * v + p) * b + c = q * b * v + (p * b + c) := by ring
    _ = (q * b + r) * v + u' := by rw [digit]; ring

end

end PDS.LongDivision
