import PDS.Millicode.LongLong

/-!
# The operators of the ring of 64-bit numbers

A pair of words stands for the number `h * 2 ^ 32 + l`. Carries and borrows are read off a comparison (`uu_add`, `uu_sub`),
and with them each routine that works on words is an equation between 64-bit numbers; the one for products is Knuth's
identity `knuth`, for digits of any size.
-/

namespace PDS.Millicode
open Word

section

variable {h l h' l' x : Nat}

/-- What a word of `ui[H]` counts. -/
def wordBase : Nat := 2 ^ 32

/-- A number of two words. -/
lemma uu_eq (hl : l < 2 ^ 32) : uu h l = (h : BitVec 64) * (wordBase : BitVec 64) + (l : BitVec 64) := by
  rw [← Nat.cast_mul, ← Nat.cast_add, BitVec.natCast_eq_ofNat, wordBase]
  refine BitVec.eq_of_toNat_eq ?_
  rw [BitVec.toNat_ofNat, uu, BitVec.toNat_append, BitVec.toNat_ofNat, BitVec.toNat_ofNat,
    Nat.mod_eq_of_lt hl, ← Nat.shiftLeft_add_eq_or_of_lt hl, Nat.shiftLeft_eq]
  omega

/-- Equations between numbers are equations between 64-bit numbers. -/
lemma cast_word {a b c d : Nat} (h : a + b * 2 ^ 32 = c + d) :
    (a : BitVec 64) + (b : BitVec 64) * (wordBase : BitVec 64) = (c : BitVec 64) + (d : BitVec 64) := by
  rw [← Nat.cast_mul, ← Nat.cast_add, ← Nat.cast_add]
  exact congrArg _ h

/-- A number is made of its words. -/
lemma uu_words (x : BitVec 64) : uu (uiH x) (uiL x) = x := by
  have lt := x.isLt
  refine BitVec.eq_of_toNat_eq ?_
  rw [uiH_eq, uiL_eq, toNat_uu (by omega) (by omega)]
  omega

/-- The high word is a word. -/
lemma uiH_lt (x : BitVec 64) : uiH x < 2 ^ 32 := BitVec.isLt _

/-- The low word is a word. -/
lemma uiL_lt (x : BitVec 64) : uiL x < 2 ^ 32 := BitVec.isLt _

/-- A word as a number of `ui[H]` may be reduced. -/
lemma uu_mod (h l : Nat) : uu (h % 2 ^ 32) l = uu h l := by
  rw [uu, uu]
  congr 1
  exact BitVec.eq_of_toNat_eq (by rw [BitVec.toNat_ofNat, BitVec.toNat_ofNat, Nat.mod_mod])

/-- "a one-bit carry from a single unsigned int addition x+y occurs if and only if the sum x+y is less than either" -/
lemma uu_add (h h' : Nat) (hl : l < 2 ^ 32) (hl' : l' < 2 ^ 32) :
    uu (h + h' + flag (wadd 32 l l' < l')) (wadd 32 l l') = uu h l + uu h' l' := by
  have carry : wadd 32 l l' + flag (wadd 32 l l' < l') * 2 ^ 32 = l + l' := by
    rw [flag, wadd]
    split_ifs with test <;> simp only [decide_eq_true_eq] at test <;> omega
  have cast := cast_word carry
  rw [uu_eq (wadd_lt 32 l l'), uu_eq hl, uu_eq hl']
  simp only [Nat.cast_add]
  linear_combination cast

/-- "a one-bit carry from a single unsigned int difference x-y occurs if and only if (x-y) > x" -/
lemma uu_sub (hl : l < 2 ^ 32) (hl' : l' < 2 ^ 32) :
    uu (wsub 32 h (h' + flag (wsub 32 l l' > l))) (wsub 32 l l') = uu h l - uu h' l' := by
  have lt : wsub 32 l l' < 2 ^ 32 := Nat.mod_lt _ (by decide)
  have borrow : l + flag (wsub 32 l l' > l) * 2 ^ 32 = wsub 32 l l' + l' := by
    rw [flag, wsub]
    split_ifs with test <;> simp only [decide_eq_true_eq] at test <;> omega
  generalize flag (wsub 32 l l' > l) = b at *
  have high : uu (wsub 32 h (h' + b) + (h' + b)) (wsub 32 l l') = uu h (wsub 32 l l') := by
    have sum : (wsub 32 h (h' + b) + (h' + b)) % 2 ^ 32 = h % 2 ^ 32 := by
      rw [wsub]
      omega
    rw [← uu_mod, sum, uu_mod]
  have cast := cast_word borrow
  rw [uu_eq lt, uu_eq lt] at high
  rw [uu_eq lt, uu_eq hl, uu_eq hl']
  simp only [Nat.cast_add] at high
  linear_combination high - cast

/-- The test may be against either number. -/
lemma uu_add' (hl : l < 2 ^ 32) (hl' : l' < 2 ^ 32) :
    uu (wadd 32 h (wadd 32 h' (flag (wadd 32 l l' < l)))) (wadd 32 l l') = uu h l + uu h' l' := by
  have comm : wadd 32 l l' = wadd 32 l' l := by rw [wadd, wadd, Nat.add_comm]
  rw [comm, wadd, uu_mod, Nat.add_comm h, wadd]
  have sum := uu_add h' h hl' hl
  rw [← uu_mod] at sum ⊢
  rw [Nat.mod_add_mod, Nat.add_right_comm, sum, add_comm]

/-- What a half of a word counts. -/
def halfBase : Nat := 2 ^ 16

/-- Two half words are a word. -/
lemma halfBase_sq : (halfBase : BitVec 64) * (halfBase : BitVec 64) = (wordBase : BitVec 64) := by
  rw [← Nat.cast_mul]
  rfl

/-- A word moved up by a half. -/
lemma uu_half (x : Nat) : uu (hhalf x) (lhup x) = (x : BitVec 64) * (halfBase : BitVec 64) := by
  have lt : lhup x < 2 ^ 32 := Nat.mod_lt _ (by decide)
  have parts : lhup x + hhalf x * 2 ^ 32 = x * 2 ^ 16 + 0 := by
    rw [hhalf_eq, lhup, Nat.shiftLeft_eq]
    omega
  have cast := cast_word parts
  rw [uu_eq lt, ← Nat.cast_mul x, halfBase]
  rw [Nat.cast_zero] at cast
  linear_combination cast

/-- A word is made of its halves. -/
lemma parts_half (x : Nat) :
    (x : BitVec 64) = (hhalf x : BitVec 64) * (halfBase : BitVec 64) + (lhalf x : BitVec 64) := by
  rw [← Nat.cast_mul, ← Nat.cast_add, hhalf_eq, lhalf_eq, halfBase, Nat.div_add_mod']

/-- The algorithm from Knuth, for the digits `u1`, `u0` and `v1`, `v0` of two numbers. -/
lemma knuth {R : Type} [CommRing R] (u1 u0 v1 v0 b : R) :
    (u1 * b + u0) * (v1 * b + v0) =
      u1 * v1 * (b * b) + u1 * v1 * b + (u1 - u0) * (v0 - v1) * b + u0 * v0 * b + u0 * v0 := by
  ring

/-- The sign that `neg` stands for. -/
def sign (neg : Bool) : BitVec 64 := if neg then -1 else 1

/-- The sign of what is not negated. -/
@[simp] lemma sign_false : sign false = 1 := rfl

/-- The sign of what is. -/
@[simp] lemma sign_true : sign true = -1 := rfl

/-- The other sign. -/
lemma sign_not (neg : Bool) : sign (!neg) = -sign neg := by
  cases neg
  · rfl
  · rw [Bool.not_true, sign_false, sign_true, neg_neg]

/-- One of the two differences; the first comes with no sign before it. -/
lemma diff_spec {x y : Nat} (neg : Bool) (hx : x < 2 ^ 32) (hy : y < 2 ^ 32) :
    ∃ d n, (if x ≥ y then (wsub 32 x y, neg) else (wsub 32 y x, !neg)) = (d, n) ∧ d ≤ max x y ∧
      sign n * (d : BitVec 64) = sign neg * ((x : BitVec 64) - y) := by
  by_cases le : y ≤ x
  · rw [if_pos le, wsub_of_le le hx]
    exact ⟨_, _, rfl, by omega, by rw [Nat.cast_sub le]⟩
  · have ge : x ≤ y := by omega
    rw [if_neg le, wsub_of_le ge hy]
    refine ⟨_, _, rfl, by omega, ?_⟩
    rw [Nat.cast_sub ge, sign_not]
    ring

/-- The middle term is a product of differences, with its sign. -/
lemma middle_spec {u1 u0 v1 v0 : Nat} (hu1 : u1 < 2 ^ 32) (hu0 : u0 < 2 ^ 32) (hv1 : v1 < 2 ^ 32) (hv0 : v0 < 2 ^ 32) :
    ∃ d e neg, middle u1 u0 v1 v0 = (wmul 32 d e, neg) ∧ d ≤ max u1 u0 ∧ e ≤ max v0 v1 ∧
      sign neg * ((d : BitVec 64) * e) = ((u1 : BitVec 64) - u0) * (v0 - v1) := by
  obtain ⟨d, n, first, hd, signed⟩ := diff_spec false hu1 hu0
  obtain ⟨e, neg, second, he, signed'⟩ := diff_spec n hv0 hv1
  refine ⟨d, e, neg, ?_, hd, he, ?_⟩
  · rw [middle]
    rw [Bool.not_false] at first
    rw [first]
    dsimp only
    rw [second]
  · rw [sign_false, one_mul] at signed
    linear_combination (d : BitVec 64) * signed' + ((v0 : BitVec 64) - v1) * signed

/-- A product of two digits fits in a word. -/
lemma digits_lt {c d : Nat} (hc : c < 2 ^ 16) (hd : d < 2 ^ 16) : c * d < 2 ^ 32 := by
  calc c * d < 2 ^ 16 * 2 ^ 16 := Nat.mul_lt_mul'' hc hd
    _ = 2 ^ 32 := by norm_num

/-- The number that a pair stands for. -/
def pair (prod : Nat × Nat) : BitVec 64 := uu prod.1 prod.2

/-- Adding in the middle of two words. -/
lemma addUp_spec {prod : Nat × Nat} (x : Nat) (lt : prod.2 < 2 ^ 32) :
    (addUp x prod).2 < 2 ^ 32 ∧ pair (addUp x prod) = pair prod + (x : BitVec 64) * (halfBase : BitVec 64) := by
  refine ⟨wadd_lt _ _ _, ?_⟩
  rw [pair, addUp]
  dsimp only
  have less : lhup x < 2 ^ 32 := Nat.mod_lt _ (by decide)
  rw [uu_add' lt less, uu_half, pair]

/-- Subtracting in the middle of two words. -/
lemma subUp_spec {prod : Nat × Nat} (x : Nat) (lt : prod.2 < 2 ^ 32) :
    (subUp x prod).2 < 2 ^ 32 ∧ pair (subUp x prod) = pair prod - (x : BitVec 64) * (halfBase : BitVec 64) := by
  refine ⟨Nat.mod_lt _ (by decide), ?_⟩
  rw [pair, subUp]
  dsimp only
  have less : lhup x < 2 ^ 32 := Nat.mod_lt _ (by decide)
  have mod (h y : Nat) : wsub 32 h (y % 2 ^ 32) = wsub 32 h y := by rw [wsub, wsub, Nat.mod_mod]
  rw [wadd, mod, uu_sub lt less, uu_half, pair]

/-- The middle term, with its sign. -/
lemma addMiddle_spec (prod : Nat × Nat) (x : Nat) (neg : Bool) (lt : prod.2 < 2 ^ 32) :
    (if neg then subUp x prod else addUp x prod).2 < 2 ^ 32 ∧
      pair (if neg then subUp x prod else addUp x prod) =
        pair prod + sign neg * (x : BitVec 64) * (halfBase : BitVec 64) := by
  cases neg with
  | false =>
    rw [if_neg Bool.false_ne_true, sign_false, one_mul]
    exact addUp_spec x lt
  | true =>
    rw [if_pos rfl, sign_true, neg_one_mul, neg_mul, ← sub_eq_add_neg]
    exact subUp_spec x lt

/-- `... + low;` -/
lemma addLow_spec {prod : Nat × Nat} {low : Nat} (lt : prod.2 < 2 ^ 32) (fits : low < 2 ^ 32) :
    uu (if wadd 32 prod.2 low < low then wadd 32 prod.1 1 else prod.1) (wadd 32 prod.2 low) =
      pair prod + (low : BitVec 64) := by
  have add := uu_add prod.1 0 lt fits
  rw [uu_eq (h := 0) fits, Nat.cast_zero, zero_mul, zero_add] at add
  rw [pair, ← add, flag, Nat.add_zero]
  by_cases less : wadd 32 prod.2 low < low
  · rw [if_pos less, if_pos (decide_eq_true less), wadd, uu_mod]
  · rw [if_neg less, if_neg (mt of_decide_eq_true less), Nat.add_zero]

/-- `__lmulq` multiplies two words. -/
lemma lmulq_spec {u v : Nat} (hu : u < 2 ^ 32) (hv : v < 2 ^ 32) : lmulq u v = (u : BitVec 64) * v := by
  have hu1 : hhalf u < 2 ^ 16 := by rw [hhalf_eq]; omega
  have hu0 : lhalf u < 2 ^ 16 := by rw [lhalf_eq]; omega
  have hv1 : hhalf v < 2 ^ 16 := by rw [hhalf_eq]; omega
  have hv0 : lhalf v < 2 ^ 16 := by rw [lhalf_eq]; omega
  rw [lmulq, parts_half u, parts_half v]
  generalize hhalf u = u1 at *
  generalize lhalf u = u0 at *
  generalize hhalf v = v1 at *
  generalize lhalf v = v0 at *
  have lowFits := digits_lt hu0 hv0
  dsimp only
  rw [wmul_of_lt lowFits, wmul_of_lt (digits_lt hu1 hv1)]
  by_cases small : u1 = 0 ∧ v1 = 0
  · rw [if_pos small, small.1, small.2, uu_eq lowFits, Nat.cast_zero, Nat.cast_mul, zero_mul, zero_mul, zero_add, zero_add,
      zero_add]
  rw [if_neg small]
  obtain ⟨d, e, neg, mid, hd, he, signed⟩ := middle_spec (hu1.trans (by decide)) (hu0.trans (by decide))
    (hv1.trans (by decide)) (hv0.trans (by decide))
  rw [mid]
  dsimp only
  rw [wmul_of_lt (digits_lt (lt_of_le_of_lt hd (max_lt hu1 hu0)) (lt_of_le_of_lt he (max_lt hv0 hv1)))]
  have lt : lhup (u1 * v1) < 2 ^ 32 := Nat.mod_lt _ (by decide)
  have start : pair (wadd 32 (u1 * v1) (hhalf (u1 * v1)), lhup (u1 * v1)) =
      (u1 : BitVec 64) * v1 * wordBase + (u1 : BitVec 64) * v1 * halfBase := by
    have half := uu_half (u1 * v1)
    rw [uu_eq lt] at half
    rw [pair, wadd, uu_mod, uu_eq lt, Nat.cast_add, ← Nat.cast_mul, ← half]
    ring
  obtain ⟨lt', sum⟩ := addMiddle_spec (wadd 32 (u1 * v1) (hhalf (u1 * v1)), lhup (u1 * v1)) (d * e) neg lt
  obtain ⟨lt'', sum'⟩ := addUp_spec (u0 * v0) lt'
  rw [addLow_spec lt'' lowFits, sum', sum, start, knuth, halfBase_sq, Nat.cast_mul d, signed, Nat.cast_mul u0]

/-- Four words are too many. -/
lemma wordBase_sq : (wordBase : BitVec 64) * (wordBase : BitVec 64) = 0 := by
  rw [← Nat.cast_mul]
  rfl

/-- What is multiplied by `wordBase` counts modulo `2 ^ 32`. -/
lemma mod_mul_wordBase {x y : Nat} (same : x % 2 ^ 32 = y % 2 ^ 32) :
    (x : BitVec 64) * (wordBase : BitVec 64) = (y : BitVec 64) * (wordBase : BitVec 64) := by
  have eq := uu_mod x 0
  rw [same, uu_mod, uu_eq (by decide), uu_eq (by decide)] at eq
  exact (add_right_cancel eq).symm

/-- A product in the high word may be cut to a word. -/
lemma wmul_mul_wordBase (x y : Nat) :
    ((wmul 32 x y : Nat) : BitVec 64) * (wordBase : BitVec 64) = (x : BitVec 64) * y * (wordBase : BitVec 64) := by
  rw [← Nat.cast_mul x y]
  exact mod_mul_wordBase (Nat.mod_mod _ _)

/-- And so may its negation. -/
lemma signed_mul_wordBase (x y : Nat) (neg : Bool) :
    ((if neg then wsub 32 0 (wmul 32 x y) else wmul 32 x y : Nat) : BitVec 64) * (wordBase : BitVec 64) =
      sign neg * ((x : BitVec 64) * y) * (wordBase : BitVec 64) := by
  have reduced := wmul_mul_wordBase x y
  cases neg with
  | false => rw [if_neg Bool.false_ne_true, sign_false, one_mul, reduced]
  | true =>
    have zero : ((wsub 32 0 (wmul 32 x y) + wmul 32 x y : Nat) : BitVec 64) * (wordBase : BitVec 64) =
        ((0 : Nat) : BitVec 64) * (wordBase : BitVec 64) := mod_mul_wordBase (by rw [wsub]; omega)
    rw [Nat.cast_add, add_mul, Nat.cast_zero, zero_mul, reduced] at zero
    rw [if_pos rfl, sign_true]
    linear_combination zero

/-- Only `low` is needed modulo `2 ^ 64`: "any factor of 2^n in either one will also vanish". -/
lemma product_spec (u v : BitVec 64) : product u v = u * v := by
  have hu := uu_eq (h := uiH u) (uiL_lt u)
  have hv := uu_eq (h := uiH v) (uiL_lt v)
  rw [uu_words] at hu hv
  have low := lmulq_spec (uiL_lt u) (uiL_lt v)
  rw [product]
  dsimp only
  by_cases small : uiH u = 0 ∧ uiH v = 0
  · rw [small.1, Nat.cast_zero, zero_mul, zero_add] at hu
    rw [small.2, Nat.cast_zero, zero_mul, zero_add] at hv
    rw [if_pos small, low, ← hu, ← hv]
  rw [if_neg small]
  obtain ⟨d, e, neg, mid, -, -, signed⟩ := middle_spec (uiH_lt u) (uiL_lt u) (uiH_lt v) (uiL_lt v)
  rw [mid]
  dsimp only
  have words := uu_eq (h := uiH (lmulq (uiL u) (uiL v))) (uiL_lt (lmulq (uiL u) (uiL v)))
  rw [uu_words] at words
  have signed' := signed_mul_wordBase d e neg
  rw [signed] at signed'
  have high := wmul_mul_wordBase (uiH u) (uiH v)
  generalize lmulq (uiL u) (uiL v) = l at *
  generalize (if neg then wsub 32 0 (wmul 32 d e) else wmul 32 d e) = m at *
  generalize wmul 32 (uiH u) (uiH v) = h at *
  have top : ((wadd 32 (wadd 32 (wadd 32 h m) (uiL l)) (uiH l) : Nat) : BitVec 64) * (wordBase : BitVec 64) =
      ((h + m + uiL l + uiH l : Nat) : BitVec 64) * (wordBase : BitVec 64) :=
    mod_mul_wordBase (by simp only [wadd]; omega)
  rw [Nat.cast_add, Nat.cast_add, Nat.cast_add] at top
  rw [uu_eq (uiL_lt l), top]
  have square := wordBase_sq
  calc _ = ((uiH u : BitVec 64) * wordBase + uiL u) * ((uiH v : BitVec 64) * wordBase + uiL v) := by
        linear_combination high + signed' + (low - words) * (1 + (wordBase : BitVec 64)) -
          ((uiH l : BitVec 64) + uiH u * uiH v) * square
    _ = u * v := by rw [← hu, ← hv]

/-- The product of two `long long`s. -/
theorem muldi3_spec (a b : BitVec 64) : muldi3 a b = a * b := by
  rw [muldi3]
  by_cases ha : a.slt 0 <;> by_cases hb : b.slt 0
  · simp only [if_pos ha, if_pos hb, product_spec, Bool.not_true, if_neg Bool.false_ne_true]
    ring
  · simp only [if_pos ha, if_neg hb, product_spec, if_true]
    ring
  · simp only [if_neg ha, if_pos hb, product_spec, Bool.not_false, if_true]
    ring
  · simp only [if_neg ha, if_neg hb, product_spec, if_neg Bool.false_ne_true]

/-- `__adddi3` adds. -/
lemma adddi3_spec (a b : BitVec 64) : adddi3 a b = a + b := by
  rw [adddi3, wadd_wadd, wadd, uu_mod, ← Nat.add_assoc, uu_add _ _ (uiL_lt a) (uiL_lt b), uu_words, uu_words]

/-- `__subdi3` subtracts. -/
lemma subdi3_spec (a b : BitVec 64) : subdi3 a b = a - b := by
  rw [subdi3, wsub_wsub, uu_sub (uiL_lt a) (uiL_lt b), uu_words, uu_words]

/-- `__negdi2` negates. -/
lemma negdi2_spec (a : BitVec 64) : negdi2 a = -a := by
  have zero : uu 0 0 = 0 := rfl
  rw [negdi2, wsub_wsub, uu_sub (by decide) (uiL_lt a), uu_words, zero, zero_sub]

end

section

variable {a b : BitVec 64} {n : Nat}

/-- The bits of the high word. -/
lemma getLsbD_bitsH (a : BitVec 64) (i : Nat) : (bitsH a).getLsbD i = (decide (i < 32) && a.getLsbD (32 + i)) := by
  rw [bitsH, BitVec.getLsbD_extractLsb']

/-- The bits of the low word. -/
lemma getLsbD_bitsL (a : BitVec 64) (i : Nat) : (bitsL a).getLsbD i = (decide (i < 32) && a.getLsbD i) := by
  rw [bitsL, BitVec.getLsbD_extractLsb', Nat.zero_add]

/-- The sign of a number is that of its high word. -/
lemma msb_bitsH (a : BitVec 64) : (bitsH a).msb = a.msb := by
  rw [BitVec.msb_eq_getLsbD_last, BitVec.msb_eq_getLsbD_last, getLsbD_bitsH]
  rfl

/-- The two words of a number, bit by bit. -/
lemma append_bits {h l : BitVec 32} (high : ∀ i < 32, h.getLsbD i = a.getLsbD (32 + i))
    (low : ∀ i < 32, l.getLsbD i = a.getLsbD i) : h ++ l = a := by
  refine BitVec.eq_of_getLsbD_eq fun i lt => ?_
  rw [BitVec.getLsbD_append]
  by_cases below : i < 32
  · rw [if_pos below, low i below]
  · rw [if_neg below, high _ (by omega), Nat.add_sub_cancel' (by omega)]

/-- A left shift by less than the width. -/
lemma sll_eq (x : BitVec 32) (h : n < 32) : sll x n = .ok (x <<< n) := if_pos h

/-- A right shift by less than the width. -/
lemma srl_eq (x : BitVec 32) (h : n < 32) : srl x n = .ok (x >>> n) := if_pos h

/-- An arithmetic shift by less than the width. -/
lemma sra_eq (x : BitVec 32) (h : n < 32) : sra x n = .ok (x.sshiftRight n) := if_pos h

/-- `__ashldi3` shifts to the left. -/
lemma ashldi3_spec (a : BitVec 64) (h : n < 64) : ashldi3 a n = .ok (a <<< n) := by
  rw [ashldi3]
  by_cases zero : n = 0
  · rw [if_pos zero, zero, BitVec.shiftLeft_zero]
    rfl
  rw [if_neg zero]
  by_cases large : n ≥ 32
  · rw [if_pos large, sll_eq _ (by omega)]
    refine congrArg Except.ok (append_bits (fun i lt => ?_) fun i lt => ?_)
    · simp only [BitVec.getLsbD_shiftLeft, getLsbD_bitsL]
      grind
    · simp only [BitVec.getLsbD_shiftLeft, BitVec.getLsbD_zero]
      grind
  · rw [if_neg large, sll_eq _ (by omega), srl_eq _ (by omega), sll_eq _ (by omega)]
    refine congrArg Except.ok (append_bits (fun i lt => ?_) fun i lt => ?_)
    · simp only [BitVec.getLsbD_or, BitVec.getLsbD_shiftLeft, BitVec.getLsbD_ushiftRight, getLsbD_bitsL, getLsbD_bitsH]
      grind
    · simp only [BitVec.getLsbD_shiftLeft, getLsbD_bitsL]
      grind

/-- `__lshrdi3` shifts to the right. -/
lemma lshrdi3_spec (a : BitVec 64) (h : n < 64) : lshrdi3 a n = .ok (a >>> n) := by
  rw [lshrdi3]
  by_cases zero : n = 0
  · rw [if_pos zero, zero, BitVec.ushiftRight_zero]
    rfl
  rw [if_neg zero]
  by_cases large : n ≥ 32
  · rw [if_pos large, srl_eq _ (by omega)]
    refine congrArg Except.ok (append_bits (fun i lt => ?_) fun i lt => ?_)
    · rw [BitVec.getLsbD_zero, BitVec.getLsbD_ushiftRight, BitVec.getLsbD_of_ge _ _ (by omega)]
    · simp only [BitVec.getLsbD_ushiftRight, getLsbD_bitsH]
      grind
  · rw [if_neg large, srl_eq _ (by omega), srl_eq _ (by omega), sll_eq _ (by omega)]
    refine congrArg Except.ok (append_bits (fun i lt => ?_) fun i lt => ?_)
    · simp only [BitVec.getLsbD_ushiftRight, getLsbD_bitsH]
      grind
    · simp only [BitVec.getLsbD_or, BitVec.getLsbD_shiftLeft, BitVec.getLsbD_ushiftRight, getLsbD_bitsL, getLsbD_bitsH]
      grind

/-- `__ashrdi3` shifts to the right and keeps the sign. -/
lemma ashrdi3_spec (a : BitVec 64) (h : n < 64) : ashrdi3 a n = .ok (a.sshiftRight n) := by
  rw [ashrdi3]
  by_cases zero : n = 0
  · rw [if_pos zero, zero, BitVec.sshiftRight_zero]
    rfl
  rw [if_neg zero]
  by_cases large : n ≥ 32
  · rw [if_pos large, sra_eq _ (by omega), ok_bind, sra_eq _ (by omega), ok_bind, sra_eq _ (by omega)]
    refine congrArg Except.ok (append_bits (fun i lt => ?_) fun i lt => ?_)
    · -- the sign word
      simp only [BitVec.getLsbD_sshiftRight, BitVec.msb_sshiftRight, getLsbD_bitsH, msb_bitsH]
      grind
    · simp only [BitVec.getLsbD_sshiftRight, getLsbD_bitsH, msb_bitsH]
      grind
  · rw [if_neg large, sra_eq _ (by omega), srl_eq _ (by omega), sll_eq _ (by omega)]
    refine congrArg Except.ok (append_bits (fun i lt => ?_) fun i lt => ?_)
    · simp only [BitVec.getLsbD_sshiftRight, getLsbD_bitsH, msb_bitsH]
      grind
    · simp only [BitVec.getLsbD_or, BitVec.getLsbD_shiftLeft, BitVec.getLsbD_ushiftRight, BitVec.getLsbD_sshiftRight,
        getLsbD_bitsL, getLsbD_bitsH]
      grind

/-- The logical functions work on all bits. -/
lemma logical_spec (a b : BitVec 64) :
    anddi3 a b = a &&& b ∧ iordi3 a b = a ||| b ∧ xordi3 a b = a ^^^ b ∧ oneCmpldi2 a = ~~~a := by
  refine ⟨append_bits ?_ ?_, append_bits ?_ ?_, append_bits ?_ ?_, append_bits ?_ ?_⟩ <;> intro i lt <;>
    simp only [BitVec.getLsbD_and, BitVec.getLsbD_or, BitVec.getLsbD_xor, BitVec.getLsbD_not, getLsbD_bitsH, getLsbD_bitsL] <;>
    grind

/-- A shift by less than the width of a `long long` shifts words by less than their width, and moves the bits across. -/
theorem shifts_spec (a : BitVec 64) (h : n < 64) :
    ashldi3 a n = .ok (a <<< n) ∧ lshldi3 a n = .ok (a <<< n) ∧ ashrdi3 a n = .ok (a.sshiftRight n) ∧
      lshrdi3 a n = .ok (a >>> n) :=
  ⟨ashldi3_spec a h, ashldi3_spec a h, ashrdi3_spec a h, lshrdi3_spec a h⟩

/-- A negative number is shifted by more than a word. -/
theorem shifts_spec_cross : ashrdi3 0x8000000000000001#64 33 = .ok 0xffffffffc0000000#64 :=
  (shifts_spec (n := 33) 0x8000000000000001#64 (by decide)).2.2.1

/-- `__cmpdi2` compares signed numbers. -/
lemma cmpdi2_spec (a b : BitVec 64) : cmpdi2 a b = if a.slt b then 0 else if a = b then 1 else 2 := by
  have signed (x : BitVec 64) : x.toInt = (bitsH x).toInt * 2 ^ 32 + uiL x := by
    have high : (bitsH x).toNat = x.toNat / 2 ^ 32 := uiH_eq x
    have low := uiL_eq x
    rw [BitVec.toInt_eq_toNat_cond, BitVec.toInt_eq_toNat_cond, high, low]
    split_ifs <;> omega
  have ha := signed a
  have hb := signed b
  have la := uiL_lt a
  have lb := uiL_lt b
  rw [cmpdi2]
  simp only [BitVec.slt_iff_toInt_lt, ← BitVec.toInt_inj]
  split_ifs <;> omega

/-- `__ucmpdi2` compares unsigned numbers. -/
lemma ucmpdi2_spec (a b : BitVec 64) : ucmpdi2 a b = if a < b then 0 else if a = b then 1 else 2 := by
  have ha := uiH_eq a
  have hb := uiH_eq b
  have la := uiL_eq a
  have lb := uiL_eq b
  rw [ucmpdi2]
  simp only [BitVec.lt_def, ← BitVec.toNat_inj]
  split_ifs <;> omega

/-- What is done word by word, with a carry, a borrow or a comparison of the low words. -/
theorem words_spec (a b : BitVec 64) :
    adddi3 a b = a + b ∧ subdi3 a b = a - b ∧ negdi2 a = -a ∧
      (anddi3 a b = a &&& b ∧ iordi3 a b = a ||| b ∧ xordi3 a b = a ^^^ b ∧ oneCmpldi2 a = ~~~a) ∧
      cmpdi2 a b = (if a.slt b then 0 else if a = b then 1 else 2) ∧
      ucmpdi2 a b = (if a < b then 0 else if a = b then 1 else 2) :=
  ⟨adddi3_spec a b, subdi3_spec a b, negdi2_spec a, logical_spec a b, cmpdi2_spec a b, ucmpdi2_spec a b⟩

end

section

variable (uspace vspace qspace : Space)

/-- `__qdivrem` divides, whatever is in its arrays. -/
lemma qdivrem_ok (a : BitVec 64) {b : BitVec 64} (h : b ≠ 0) (arq : Bool) :
    qdivrem uspace vspace qspace a b arq = .ok (a / b, if arq then some (a % b) else none) := by
  rw [qdivrem_spec, if_neg h]

/-- `__divdi3` divides signed numbers. -/
lemma divdi3_spec (a b : BitVec 64) (h : b ≠ 0) : divdi3 uspace vspace qspace a b = .ok (a.sdiv b) := by
  have h' : -b ≠ 0 := fun zero => h (neg_eq_zero.1 zero)
  have sign (x : BitVec 64) : x.slt 0 = x.msb := BitVec.slt_zero_eq_msb
  rw [divdi3, BitVec.sdiv_eq, sign, sign]
  cases a.msb <;> cases b.msb <;> dsimp only
  · exact congrArg (· >>= _) (qdivrem_ok _ _ _ a h false)
  · exact congrArg (· >>= _) (qdivrem_ok _ _ _ a h' false)
  · exact congrArg (· >>= _) (qdivrem_ok _ _ _ (-a) h false)
  · exact congrArg (· >>= _) (qdivrem_ok _ _ _ (-a) h' false)

/-- `__moddi3` is the remainder of signed numbers. -/
lemma moddi3_spec (a b x : BitVec 64) (h : b ≠ 0) : moddi3 uspace vspace qspace x a b = .ok (a.srem b) := by
  have h' : -b ≠ 0 := fun zero => h (neg_eq_zero.1 zero)
  have sign (x : BitVec 64) : x.slt 0 = x.msb := BitVec.slt_zero_eq_msb
  rw [moddi3, BitVec.srem_eq, sign, sign]
  cases a.msb <;> cases b.msb <;> dsimp only
  · exact congrArg (· >>= _) (qdivrem_ok _ _ _ a h true)
  · exact congrArg (· >>= _) (qdivrem_ok _ _ _ a h' true)
  · exact congrArg (· >>= _) (qdivrem_ok _ _ _ (-a) h true)
  · exact congrArg (· >>= _) (qdivrem_ok _ _ _ (-a) h' true)

/-- Signed and unsigned division with remainder, with truncation. Only the smallest number by `-1` overflows. -/
theorem division_spec (a b x : BitVec 64) (h : b ≠ 0) : ∃ q r,
    divdi3 uspace vspace qspace a b = .ok q ∧ moddi3 uspace vspace qspace x a b = .ok r ∧
      q.toInt = (a.toInt.tdiv b.toInt).bmod (2 ^ 64) ∧ r.toInt = a.toInt.tmod b.toInt ∧
      udivdi3 uspace vspace qspace a b = .ok (a / b) ∧ umoddi3 uspace vspace qspace x a b = .ok (a % b) := by
  refine ⟨a.sdiv b, a.srem b, divdi3_spec _ _ _ a b h, moddi3_spec _ _ _ a b x h, BitVec.toInt_sdiv a b,
    BitVec.toInt_srem a b, ?_, ?_⟩
  · rw [udivdi3, qdivrem_spec, if_neg h]
    rfl
  · rw [umoddi3, qdivrem_spec, if_neg h]
    rfl

/-- The smallest number is divided by `-1`. -/
theorem division_spec_smallest : ∃ q r, divdi3 0 0 0 0x8000000000000000#64 (-1) = .ok q ∧
    moddi3 0 0 0 0 0x8000000000000000#64 (-1) = .ok r ∧ q.toInt = -2 ^ 63 ∧ r.toInt = 0 := by
  obtain ⟨q, r, divided, rest, quotient, remainder, -⟩ := division_spec 0 0 0 0x8000000000000000#64 (-1) 0 (by decide)
  exact ⟨q, r, divided, rest, quotient.trans (by decide), remainder.trans (by decide)⟩

end

end PDS.Millicode
