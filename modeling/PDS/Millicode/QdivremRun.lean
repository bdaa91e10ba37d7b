import PDS.Lib.LongDivision
import PDS.Millicode.Qdivrem

/-!
# The quotient and the remainder

Each loop of `__qdivrem` satisfies one equation between the numbers that its digits stand for, which comes from an
equation for a single digit (`shl_digit`, `subtract_digit`, `add_digit`, `unshift_digit`). One round of program D takes a
digit of the quotient off a part of the dividend (`quotientDigit_spec`); `programD_spec` is the invariant of the loop.
-/

namespace PDS.Millicode
open Word LongDivision

/-- The base of the digits. -/
@[simp] lemma base_eq : base = 2 ^ 16 := rfl

/-- The high half. -/
lemma hhalf_eq (x : Nat) : hhalf x = x / 2 ^ 16 := Nat.shiftRight_eq_div_pow x 16

/-- The low half. -/
lemma lhalf_eq (x : Nat) : lhalf x = x % 2 ^ 16 := Nat.and_two_pow_sub_one_eq_mod x 16

/-- Two digits make a word. -/
lemma combine_eq {a b : Nat} (ha : a < 2 ^ 16) (hb : b < 2 ^ 16) : combine a b = a * 2 ^ 16 + b := by
  have small : a <<< 16 < 2 ^ 32 := by
    rw [Nat.shiftLeft_eq]
    omega
  rw [combine, Nat.mod_eq_of_lt small, ← Nat.shiftLeft_add_eq_or_of_lt hb, Nat.shiftLeft_eq]

/-- The high word. -/
lemma uiH_eq (x : BitVec 64) : uiH x = x.toNat / 2 ^ 32 := by
  rw [uiH, BitVec.extractLsb'_toNat, Nat.shiftRight_eq_div_pow]
  exact Nat.mod_eq_of_lt (by have := x.isLt; omega)

/-- The low word. -/
lemma uiL_eq (x : BitVec 64) : uiL x = x.toNat % 2 ^ 32 := by
  rw [uiL, BitVec.extractLsb'_toNat, Nat.shiftRight_zero]

/-- The value of two words. -/
lemma toNat_uu {h l : Nat} (hh : h < 2 ^ 32) (hl : l < 2 ^ 32) : (uu h l).toNat = h * 2 ^ 32 + l := by
  rw [uu, BitVec.toNat_append, BitVec.toNat_ofNat, BitVec.toNat_ofNat, Nat.mod_eq_of_lt hh, Nat.mod_eq_of_lt hl,
    ← Nat.shiftLeft_add_eq_or_of_lt hl, Nat.shiftLeft_eq]

/-- Four digits as a 64-bit number. -/
lemma uu_combine {a b c d : Nat} (ha : a < 2 ^ 16) (hb : b < 2 ^ 16) (hc : c < 2 ^ 16) (hd : d < 2 ^ 16) :
    uu (combine a b) (combine c d) = BitVec.ofNat 64 (((a * 2 ^ 16 + b) * 2 ^ 16 + c) * 2 ^ 16 + d) := by
  refine BitVec.eq_of_toNat_eq ?_
  rw [combine_eq ha hb, combine_eq hc hd, toNat_uu (by omega) (by omega), BitVec.toNat_ofNat]
  omega

namespace Space

/-- The digits as numbers. -/
def dig (a : Space) (i : Nat) : Nat := if h : i < 5 then (a ⟨i, h⟩).toNat else 0

/-- The array after a store. -/
def put (a : Space) (i x : Nat) : Space := fun k => if k.val = i then BitVec.ofNat 16 x else a k

variable {a : Space} {i j x : Nat}

/-- A digit is below the base. -/
lemma dig_lt (a : Space) (i : Nat) : a.dig i < 2 ^ 16 := by
  rw [dig]
  split_ifs with h
  · exact (a ⟨i, h⟩).isLt
  · exact Nat.two_pow_pos 16

/-- A digit is read inside of the array. -/
lemma get_eq (h : i < 5) : a.get i = .ok (a.dig i) := by
  rw [get, dig, dif_pos h, dif_pos h]

/-- A digit is written inside of the array. -/
lemma set_eq (h : i < 5) : a.set i x = .ok (a.put i x) := by
  rw [set, dif_pos h]
  congr 1
  funext k
  by_cases same : k = ⟨i, h⟩
  · rw [same, Function.update_self, put, if_pos rfl]
  · rw [Function.update_of_ne same, put, if_neg fun eq => same (Fin.ext eq)]

/-- The digit that has been written. -/
lemma dig_put_self (h : i < 5) : (a.put i x).dig i = x % 2 ^ 16 := by
  rw [dig, dif_pos h, put, if_pos rfl, BitVec.toNat_ofNat]

/-- The other digits stay. -/
lemma dig_put_ne (ne : j ≠ i) : (a.put i x).dig j = a.dig j := by
  rw [dig, dig]
  split_ifs with h
  · rw [put, if_neg ne]
  · rfl

/-- The array has changed from `lo` to `hi` only. -/
def Keeps (lo hi : Nat) (a a' : Space) : Prop := ∀ i, i < lo ∨ hi < i → a'.dig i = a.dig i

/-- Writing a digit keeps those outside of the range. -/
lemma keeps_put {lo hi : Nat} (le : lo ≤ i) (le' : i ≤ hi) : Keeps lo hi a (a.put i x) :=
  fun j out => dig_put_ne (by omega)

/-- Writing a digit keeps all others. -/
lemma keeps_at : Keeps i i a (a.put i x) := keeps_put le_rfl le_rfl

/-- Digits are kept over two steps. -/
lemma Keeps.trans {lo hi lo' hi' : Nat} {a a' a'' : Space} (h : Keeps lo hi a a') (h' : Keeps lo' hi' a' a'')
    (le : lo ≤ lo') (le' : hi' ≤ hi) : Keeps lo hi a a'' :=
  fun i out => (h' i (by omega)).trans (h i out)

/-- A number outside of the range is kept. -/
lemma Keeps.num_eq {lo hi k b : Nat} {a a' : Space} (h : Keeps lo hi a a') (out : i + k ≤ lo ∨ hi < i) :
    num b a'.dig i k = num b a.dig i k :=
  num_congr fun l lt => h (i + l) (by omega)

/-- The number that digits make is bounded. -/
lemma num_dig_lt (a : Space) (i k : Nat) : num (2 ^ 16) a.dig i k < (2 ^ 16) ^ k := num_lt fun _ _ => a.dig_lt _

/-- A 64-bit number in four digits. -/
lemma store_spec (a : Space) (x : BitVec 64) :
    ∃ a', a.store x = .ok a' ∧ num (2 ^ 16) a'.dig 1 4 = x.toNat ∧ a'.dig 0 = a.dig 0 := by
  rw [store, set_eq (by decide), ok_bind, set_eq (by decide), ok_bind, set_eq (by decide), ok_bind, set_eq (by decide)]
  refine ⟨_, rfl, ?_, ?_⟩
  · have lt := x.isLt
    simp only [num_succ, num_zero, dig_put_self (show 4 < 5 by decide), dig_put_self (show 3 < 5 by decide),
      dig_put_self (show 2 < 5 by decide), dig_put_self (show 1 < 5 by decide),
      dig_put_ne (show 1 ≠ 4 by decide), dig_put_ne (show 1 ≠ 3 by decide), dig_put_ne (show 1 ≠ 2 by decide),
      dig_put_ne (show 2 ≠ 4 by decide), dig_put_ne (show 2 ≠ 3 by decide), dig_put_ne (show 3 ≠ 4 by decide),
      Nat.add_zero, Nat.reduceAdd, hhalf_eq, lhalf_eq, uiH_eq, uiL_eq]
    omega
  · rw [dig_put_ne (by decide), dig_put_ne (by decide), dig_put_ne (by decide), dig_put_ne (by decide)]

/-- Four digits are read as one number. -/
lemma load_eq (a : Space) : a.load = .ok (BitVec.ofNat 64 (num (2 ^ 16) a.dig 1 4)) := by
  rw [load, get_eq (by decide), ok_bind, get_eq (by decide), ok_bind, get_eq (by decide), ok_bind,
    get_eq (by decide), ok_bind]
  rw [uu_combine (a.dig_lt 1) (a.dig_lt 2) (a.dig_lt 3) (a.dig_lt 4), num_succ, num_succ, num_succ, num_succ, num_zero,
    Nat.zero_mul, Nat.zero_add]
  rfl

end Space

open Space

section

variable {a us vs qs : Space} {d c c' : Nat}

/-- The powers of two that the two shifts of a digit stand for. -/
lemma pow_mul_pow (small : d < 16) : 2 ^ d * 2 ^ (16 - d) = 2 ^ 16 := by
  rw [← pow_add, Nat.add_sub_cancel' small.le]

/-- The parts of a digit that has been shifted to the left: what falls out is the carry. -/
lemma shl_digit (split : c * c' = 2 ^ 16) (x y : Nat) :
    x * c % 2 ^ 16 + y / c' + x / c' * 2 ^ 16 = c * x + y / c' := by
  have same : x * c / 2 ^ 16 = x / c' := by
    rw [← split, Nat.mul_comm x c]
    exact Nat.mul_div_mul_left _ _ (Nat.pos_of_ne_zero fun zero => by simp [zero] at split)
  have parts := Nat.div_add_mod (x * c) (2 ^ 16)
  rw [same] at parts
  rw [Nat.mul_comm c x]
  omega

/-- The parts of a digit do not overlap. -/
lemma or_shl {x y : Nat} (small : d < 16) (hx : x < 2 ^ 16) (hy : y < 2 ^ 16) :
    lhalf (x <<< d % 2 ^ 32) ||| y >>> (16 - d) = x * 2 ^ d % 2 ^ 16 + y / 2 ^ (16 - d) := by
  have le : 2 ^ d ≤ 2 ^ 16 := Nat.pow_le_pow_right (by decide) small.le
  have fits : x <<< d < 2 ^ 32 := by
    rw [Nat.shiftLeft_eq]
    calc x * 2 ^ d < 2 ^ 16 * 2 ^ 16 := Nat.mul_lt_mul_of_lt_of_le hx le (Nat.two_pow_pos 16)
      _ = 2 ^ 32 := by norm_num
  have high : x * 2 ^ d % 2 ^ 16 = (x % 2 ^ (16 - d)) <<< d := by
    rw [← pow_mul_pow small, Nat.mul_comm x, Nat.mul_mod_mul_left, Nat.shiftLeft_eq, Nat.mul_comm]
  have low : y / 2 ^ (16 - d) < 2 ^ d := by
    rw [Nat.div_lt_iff_lt_mul (Nat.two_pow_pos _), pow_mul_pow small]
    exact hy
  rw [lhalf_eq, Nat.mod_eq_of_lt fits, Nat.shiftLeft_eq, Nat.shiftRight_eq_div_pow, high,
    Nat.shiftLeft_add_eq_or_of_lt low]

/-- What falls out of the first digit is lost. -/
lemma shl_spec (small : d < 16) {len : Nat} : ∀ {p : Nat} {a : Space}, p + len < 5 →
    ∃ a', shl d len p a = .ok a' ∧ Keeps p (p + len) a a' ∧
      num (2 ^ 16) a'.dig p (len + 1) + a.dig p / 2 ^ (16 - d) * (2 ^ 16) ^ (len + 1) =
        2 ^ d * num (2 ^ 16) a.dig p (len + 1) := by
  have split := pow_mul_pow small
  induction len with
  | zero =>
    intro p a fits
    have inside : p < 5 := fits
    refine ⟨a.put p (lhalf (a.dig p <<< d % 2 ^ 32)), ?_, keeps_put le_rfl le_rfl, ?_⟩
    · rw [shl, get_eq inside, ok_bind, set_eq inside]
    · have none := or_shl (d := d) (y := 0) small (a.dig_lt p) (Nat.two_pow_pos 16)
      have digit := shl_digit split (a.dig p) 0
      rw [Nat.zero_shiftRight, Nat.or_zero, Nat.zero_div, Nat.add_zero] at none
      rw [Nat.zero_div, Nat.add_zero, Nat.add_zero] at digit
      rw [num_cons, num_cons, num_zero, num_zero, pow_zero, dig_put_self inside, none, Nat.mod_mod]
      simpa using digit
  | succ len ih =>
    intro p a fits
    have inside : p < 5 := by omega
    have next : p + 1 < 5 := by omega
    obtain ⟨a', run, keeps, rest⟩ :=
      ih (p := p + 1) (a := a.put p (lhalf (a.dig p <<< d % 2 ^ 32) ||| a.dig (p + 1) >>> (16 - d))) (by omega)
    refine ⟨a', ?_, ?_, ?_⟩
    · rw [shl, get_eq inside, ok_bind, get_eq next, ok_bind, set_eq inside, ok_bind, run]
    · exact (keeps_put le_rfl (Nat.le_add_right _ _)).trans
        (fun i out => keeps i (by omega)) le_rfl le_rfl
    · have below : lhalf (a.dig p <<< d % 2 ^ 32) ||| a.dig (p + 1) >>> (16 - d) < 2 ^ 16 := by
        refine Nat.or_lt_two_pow ?_ (lt_of_le_of_lt (Nat.shiftRight_le _ _) (a.dig_lt _))
        rw [lhalf_eq]
        exact Nat.mod_lt _ (Nat.two_pow_pos 16)
      have first : a'.dig p = a.dig p * 2 ^ d % 2 ^ 16 + a.dig (p + 1) / 2 ^ (16 - d) := by
        rw [keeps p (.inl (Nat.lt_succ_self p)), dig_put_self inside, Nat.mod_eq_of_lt below,
          or_shl small (a.dig_lt p) (a.dig_lt _)]
      rw [dig_put_ne (by omega), keeps_at.num_eq (.inr (by omega))] at rest
      have digit := shl_digit split (a.dig p) (a.dig (p + 1))
      rw [num_cons, num_cons (k := len + 1), first]
      rw [pow_succ (2 ^ 16) (len + 1)]
      refine (carry_cons digit rest).trans ?_
      ring

/-- The parts of a digit that is shifted back to the right. -/
lemma unshift_digit {x y : Nat} (small : d < 16) (pos : 0 < d) (hx : x < 2 ^ 16) (hy : y < 2 ^ 16) :
    x + y % 2 ^ d * 2 ^ 16 = 2 ^ d * ((x >>> d ||| lhalf (y <<< (16 - d) % 2 ^ 32)) % 2 ^ 16) + x % 2 ^ d := by
  have swap := or_shl (d := 16 - d) (by omega) hy hx
  have back : 16 - (16 - d) = d := by omega
  rw [back] at swap
  have split := pow_mul_pow small
  have high : y * 2 ^ (16 - d) % 2 ^ 16 = y % 2 ^ d * 2 ^ (16 - d) := by
    rw [← split, Nat.mul_mod_mul_right]
  have low := Nat.div_lt_of_lt_mul (lt_of_lt_of_eq hx split.symm)
  have lt : y % 2 ^ d * 2 ^ (16 - d) + x / 2 ^ d < 2 ^ 16 := by
    have mod := Nat.mod_lt y (Nat.two_pow_pos d)
    calc y % 2 ^ d * 2 ^ (16 - d) + x / 2 ^ d < (y % 2 ^ d + 1) * 2 ^ (16 - d) := by
          rw [Nat.succ_mul]
          exact Nat.add_lt_add_left low _
      _ ≤ 2 ^ d * 2 ^ (16 - d) := Nat.mul_le_mul_right _ mod
      _ = 2 ^ 16 := split
  rw [Nat.lor_comm, swap, high, Nat.mod_eq_of_lt lt, ← split]
  have parts := Nat.div_add_mod x (2 ^ d)
  calc x + y % 2 ^ d * (2 ^ d * 2 ^ (16 - d)) =
        2 ^ d * (x / 2 ^ d) + x % 2 ^ d + y % 2 ^ d * (2 ^ d * 2 ^ (16 - d)) := by rw [parts]
    _ = _ := by ring

/-- What falls out of the last digit is the remainder of a division by `2 ^ d`. -/
lemma unshift_spec (small : d < 16) (pos : 0 < d) {m i : Nat} : ∀ us : Space, m + i < 5 →
    ∃ us', unshift d m i us = .ok us' ∧ Keeps (m + 1) (m + i) us us' ∧
      num (2 ^ 16) us.dig (m + 1) i + us.dig m % 2 ^ d * (2 ^ 16) ^ i =
        2 ^ d * num (2 ^ 16) us'.dig (m + 1) i + us.dig (m + i) % 2 ^ d := by
  induction i with
  | zero =>
    intro us fits
    exact ⟨us, rfl, fun _ _ => rfl, by simp⟩
  | succ i ih =>
    intro us fits
    have inside : m + (i + 1) < 5 := fits
    have before : m + i < 5 := by omega
    obtain ⟨us', run, keeps, front⟩ := ih
      (us.put (m + (i + 1)) (us.dig (m + (i + 1)) >>> d ||| lhalf (us.dig (m + i) <<< (16 - d) % 2 ^ 32))) before
    refine ⟨us', ?_, ?_, ?_⟩
    · rw [unshift, get_eq inside, ok_bind, get_eq before, ok_bind, set_eq inside, ok_bind, run]
    · exact (keeps_put (by omega) le_rfl).trans (fun j out => keeps j (by omega)) le_rfl le_rfl
    · rw [dig_put_ne (by omega), dig_put_ne (by omega),
        keeps_at.num_eq (.inl (by omega))] at front
      have digit := unshift_digit small pos (us.dig_lt (m + (i + 1))) (us.dig_lt (m + i))
      have last : us'.dig (m + 1 + i) =
          (us.dig (m + (i + 1)) >>> d ||| lhalf (us.dig (m + i) <<< (16 - d) % 2 ^ 32)) % 2 ^ 16 := by
        rw [show m + 1 + i = m + (i + 1) by omega, keeps _ (.inr (by omega)), dig_put_self inside]
      rw [num_succ, num_succ, last, show m + 1 + i = m + (i + 1) by omega]
      refine (carry_step front digit).trans ?_
      ring

/-- The divisor has one digit only, or `n` digits behind `v` zeros. -/
inductive Counted (vs : Space) : (n v : Nat) → Prop
  | short : (∀ i, 1 ≤ i → i ≤ 3 → vs.dig i = 0) → Counted vs 1 2
  | long {n v : Nat} : 2 ≤ n → n + v = 4 → (∀ i, 1 ≤ i → i ≤ v → vs.dig i = 0) → vs.dig (v + 1) ≠ 0 → Counted vs n v

/-- The zeros before the divisor are counted. -/
lemma countDivisor_spec (vs : Space) {n v : Nat} (two : 2 ≤ n) (sum : n + v = 4)
    (zeros : ∀ i, 1 ≤ i → i ≤ v → vs.dig i = 0) :
    ∃ n' v', countDivisor vs n v = .ok (n', v') ∧ Counted vs n' v' := by
  induction n generalizing v with
  | zero => omega
  | succ n ih =>
    rw [countDivisor, get_eq (by omega), ok_bind]
    by_cases zero : vs.dig (v + 1) = 0
    · have zeros' : ∀ i, 1 ≤ i → i ≤ v + 1 → vs.dig i = 0 := by
        intro i one le
        obtain le | rfl := Nat.le_succ_iff.1 le
        · exact zeros i one le
        · exact zero
      rw [if_neg (not_not.2 zero)]
      by_cases last : n = 1
      · obtain rfl : v = 2 := by omega
        rw [if_pos last, last]
        exact ⟨1, 2, rfl, .short zeros'⟩
      · rw [if_neg last]
        exact ih (by omega) (by omega) zeros'
    · rw [if_pos zero]
      exact ⟨n + 1, v, rfl, .long two sum zeros zero⟩

/-- The zeros before the dividend are counted. -/
lemma countDividend_spec (us : Space) {fuel u : Nat} (m : Int) (sum : fuel + u = 4)
    (zeros : ∀ i, 1 ≤ i → i ≤ u → us.dig i = 0) (some : num (2 ^ 16) us.dig 1 4 ≠ 0) :
    ∃ u' : Nat, countDividend us fuel m u = .ok (m - ((u' : Int) - u), u') ∧ u' ≤ 3 ∧
      (∀ i, 1 ≤ i → i ≤ u' → us.dig i = 0) ∧ us.dig (u' + 1) ≠ 0 := by
  induction fuel generalizing u m with
  | zero =>
    refine absurd (num_zeros fun l lt => ?_) some
    exact zeros _ (by omega) (by omega)
  | succ fuel ih =>
    rw [countDividend, get_eq (by omega), ok_bind]
    by_cases zero : us.dig (u + 1) = 0
    · have zeros' : ∀ i, 1 ≤ i → i ≤ u + 1 → us.dig i = 0 := by
        intro i one le
        obtain le | rfl := Nat.le_succ_iff.1 le
        · exact zeros i one le
        · exact zero
      obtain ⟨u', run, le, all, first⟩ := ih (u := u + 1) (m - 1) (by omega) zeros'
      rw [if_neg (not_not.2 zero)]
      refine ⟨u', ?_, le, all, first⟩
      rw [run]
      congr 2
      push_cast
      ring
    · rw [if_pos zero]
      refine ⟨u, ?_, by omega, zeros, zero⟩
      rw [sub_self, sub_zero]
      rfl

/-- The first digits of the quotient are cleared. -/
lemma clearQuotient_spec {i : Nat} : ∀ qs : Space, i ≤ 5 →
    ∃ qs', clearQuotient i qs = .ok qs' ∧ (∀ k < i, qs'.dig k = 0) ∧ ∀ k, i ≤ k → qs'.dig k = qs.dig k := by
  induction i with
  | zero => exact fun _ _ => ⟨_, rfl, nofun, fun _ _ => rfl⟩
  | succ i ih =>
    intro qs le
    obtain ⟨qs', run, zeros, rest⟩ := ih (qs.put i 0) (by omega)
    refine ⟨qs', ?_, ?_, ?_⟩
    · rw [clearQuotient, set_eq (by omega), ok_bind, run]
    · intro k lt
      obtain lt | rfl := Nat.lt_succ_iff_lt_or_eq.1 lt
      · exact zeros k lt
      · rw [rest k le_rfl, dig_put_self (by omega), Nat.zero_mod]
    · intro k lt
      rw [rest k (by omega), dig_put_ne (by omega)]

/-- The shift makes the first digit of the divisor large. -/
lemma normalize_spec (fuel : Nat) {t d : Nat} (pos : 0 < t) (lt : t < 2 ^ 16) (enough : 2 ^ 15 ≤ t * 2 ^ fuel) :
    ∃ e, normalize (fuel + 1) t d = .ok (d + e) ∧ 2 ^ 15 ≤ t * 2 ^ e ∧ t * 2 ^ e < 2 ^ 16 := by
  induction fuel generalizing t d with
  | zero =>
    have large : ¬ t < base / 2 := by
      rw [base_eq]
      omega
    exact ⟨0, by rw [normalize, if_neg large]; rfl, by simpa using enough, by simpa using lt⟩
  | succ fuel ih =>
    rw [normalize]
    by_cases small : t < base / 2
    · have half : t < 2 ^ 15 := small
      have double : t <<< 1 % 2 ^ 32 = 2 * t := by
        rw [Nat.shiftLeft_eq]
        omega
      have twice (e : Nat) : 2 * t * 2 ^ e = t * 2 ^ (e + 1) := by ring
      obtain ⟨e, run, lo, hi⟩ := ih (t := 2 * t) (d := d + 1) (by omega) (by omega) (by rw [twice]; exact enough)
      rw [twice] at lo hi
      rw [if_pos small, double]
      refine ⟨e + 1, ?_, lo, hi⟩
      rw [run, Nat.add_assoc, Nat.add_comm 1 e]
    · rw [if_neg small, base_eq] at *
      exact ⟨0, rfl, by omega, by simpa using lt⟩

/-- `qhat` is right, or too large by one. -/
structure Close (w v qhat : Nat) : Prop where
  enough : w / v ≤ qhat
  le : qhat ≤ w / v + 1
  digit : qhat < 2 ^ 16

variable {s v v1 v2 w n u2 qhat rhat : Nat}

/-- A guess that is too big is made smaller, by one or two. -/
lemma qhatTooBig_spec {again : Nat → Nat → Except Fault Nat} (heads : Heads (2 ^ 16) s v v1 v2 w n u2)
    (g : Guess (2 ^ 16) v v1 w n qhat rhat) (lt : w / v < qhat) (hv : v1 < 2 ^ 16) (hr : rhat < 2 ^ 16)
    (next : Guess (2 ^ 16) v v1 w n (qhat - 1) (rhat + v1) → qhat - 1 < 2 ^ 16 → rhat + v1 < 2 ^ 16 →
      ∃ q, again (qhat - 1) (rhat + v1) = .ok q ∧ Close w v q) :
    ∃ q, qhatTooBig v1 again qhat rhat = .ok q ∧ Close w v q := by
  have le := g.le
  have pred := g.pred lt
  have digit : qhat - 1 < 2 ^ 16 := by omega
  have sub : wsub 32 qhat 1 = qhat - 1 := wsub_of_le (Nat.one_le_of_lt lt) (by omega)
  have add : wadd 32 rhat v1 = rhat + v1 := wadd_of_lt (by omega)
  rw [qhatTooBig, sub, add]
  by_cases large : rhat + v1 ≥ base
  · rw [if_pos large]
    exact ⟨_, rfl, pred.enough, pred.le_of_rest heads large, digit⟩
  · rw [if_neg large]
    exact next pred digit (Nat.lt_of_not_le large)

/-- The loop goes round twice at most. -/
lemma testQhat_spec (heads : Heads (2 ^ 16) s v v1 v2 w n u2) (hv : v1 < 2 ^ 16) {fuel : Nat}
    (g : Guess (2 ^ 16) v v1 w n qhat rhat) (hq : qhat < 2 ^ 16) (hr : rhat < 2 ^ 16)
    (enough : 2 ^ 16 ≤ rhat + fuel * v1) : ∃ q, testQhat v1 v2 u2 (fuel + 1) qhat rhat = .ok q ∧ Close w v q := by
  induction fuel generalizing qhat rhat with
  | zero => omega
  | succ fuel ih =>
    have product : v2 * qhat < 2 ^ 32 := by
      calc v2 * qhat < 2 ^ 16 * 2 ^ 16 := Nat.mul_lt_mul'' heads.digit hq
        _ = 2 ^ 32 := by norm_num
    rw [testQhat, wmul_of_lt product, combine_eq hr heads.tail]
    by_cases test : v2 * qhat > rhat * 2 ^ 16 + u2
    · rw [if_pos test]
      refine qhatTooBig_spec heads g (g.lt_of_test heads test) hv hr fun pred digit small => ?_
      exact ih pred digit small (by rw [Nat.succ_mul] at enough; omega)
    · rw [if_neg test]
      exact ⟨_, rfl, g.enough, g.le_of_test heads (Nat.le_of_not_lt test), hq⟩

/-- The guess is the digit of the quotient or one too big. -/
lemma calculateQhat_spec {uj0 uj1 : Nat} (heads : Heads (2 ^ 16) s v v1 v2 w (uj0 * 2 ^ 16 + uj1) u2)
    (hv : v1 < 2 ^ 16) (normal : 2 ^ 15 ≤ v1) (h0 : uj0 ≤ v1) (h1 : uj1 < 2 ^ 16) (fits : w < v * 2 ^ 16) :
    ∃ q, calculateQhat v1 v2 uj0 uj1 u2 = .ok q ∧ Close w v q := by
  rw [calculateQhat]
  by_cases same : uj0 = v1
  · have eq : 2 ^ 16 * v1 + uj1 = uj0 * 2 ^ 16 + uj1 := by rw [same, Nat.mul_comm]
    obtain ⟨g, lt⟩ := guess_base fits eq
    rw [if_pos same]
    refine qhatTooBig_spec heads g lt hv h1 fun pred digit small => ?_
    exact testQhat_spec heads hv pred digit small (by omega)
  · have small : uj0 * 2 ^ 16 + uj1 < v1 * 2 ^ 16 := by omega
    have nn := combine_eq (lt_of_le_of_lt h0 hv) h1
    rw [if_neg same]
    dsimp only
    rw [nn]
    have mod := Nat.mod_lt (uj0 * 2 ^ 16 + uj1) heads.first
    exact testQhat_spec heads hv (heads.guess small) (Nat.div_lt_of_lt_mul small) (by omega) (by omega)

/-- One digit of D4: `t` is the borrow from the digit, and what is handed on is the borrow from the next one. -/
lemma subtract_digit {x y q t r : Nat} (hx : x < 2 ^ 16) (hy : y < 2 ^ 16) (hq : q < 2 ^ 16) (ht : t < 2 ^ 16)
    (hr : wsub 32 (wsub 32 x (wmul 32 y q)) t = r) :
    x + (wsub 32 base (hhalf r) &&& (base - 1)) * 2 ^ 16 = r % 2 ^ 16 + q * y + t ∧
      wsub 32 base (hhalf r) &&& (base - 1) < 2 ^ 16 := by
  have product : y * q ≤ (2 ^ 16 - 1) * (2 ^ 16 - 1) := Nat.mul_le_mul (by omega) (by omega)
  have mask (z : Nat) : z &&& (base - 1) = z % 2 ^ 16 := Nat.and_two_pow_sub_one_eq_mod z 16
  rw [wmul_of_lt (by omega)] at hr
  rw [Nat.mul_comm q y, mask]
  generalize y * q = p at *
  simp only [hhalf_eq, wsub, base_eq] at *
  omega

/-- One digit of D6. -/
lemma add_digit {x y t r : Nat} (hx : x < 2 ^ 16) (hy : y < 2 ^ 16) (ht : t ≤ 1)
    (hr : wadd 32 t (wadd 32 x y) = r) :
    r % 2 ^ 16 + hhalf r * 2 ^ 16 = x + y + t ∧ hhalf r ≤ 1 := by
  simp only [hhalf_eq, wadd] at *
  omega

/-- The multiple is subtracted, with a borrow if the guess was too big. -/
lemma multiplySubtract_spec {v u i : Nat} (hq : qhat < 2 ^ 16) (hv : v + i < 5) :
    ∀ (t : Nat) (us : Space), u + i < 5 → t < 2 ^ 16 →
    ∃ t' us', multiplySubtract vs v qhat u i t us = .ok (t', us') ∧ t' < 2 ^ 16 ∧ Keeps (u + 1) (u + i) us us' ∧
      num (2 ^ 16) us.dig (u + 1) i + t' * (2 ^ 16) ^ i =
        num (2 ^ 16) us'.dig (u + 1) i + qhat * num (2 ^ 16) vs.dig (v + 1) i + t := by
  induction i with
  | zero => exact fun _ _ _ lt => ⟨_, _, rfl, lt, fun _ _ => rfl, by simp⟩
  | succ i ih =>
    intro t us fits lt
    rw [multiplySubtract, get_eq fits, ok_bind, get_eq hv, ok_bind]
    generalize hr : wsub 32 (wsub 32 (us.dig (u + (i + 1))) (wmul 32 (vs.dig (v + (i + 1))) qhat)) t = r
    obtain ⟨digit, lt'⟩ := subtract_digit (us.dig_lt _) (vs.dig_lt _) hq lt hr
    dsimp only
    rw [set_eq fits, ok_bind, lhalf_eq]
    obtain ⟨t', us', run, small, keeps, front⟩ := ih (by omega) _ (us.put (u + (i + 1)) (r % 2 ^ 16)) (by omega) lt'
    have last : us'.dig (u + 1 + i) = r % 2 ^ 16 := by
      rw [show u + 1 + i = u + (i + 1) by omega, keeps _ (.inr (by omega)), dig_put_self fits, Nat.mod_mod]
    rw [keeps_at.num_eq (.inl (by omega))] at front
    refine ⟨t', us', run, small, (keeps_put (by omega) le_rfl).trans (fun j out => keeps j (by omega)) le_rfl le_rfl, ?_⟩
    rw [num_succ, num_succ, num_succ, last, show u + 1 + i = u + (i + 1) by omega,
      show v + 1 + i = v + (i + 1) by omega]
    refine (carry_step front digit).trans ?_
    ring

/-- The divisor is added back. -/
lemma addBack_spec {v u i : Nat} (hv : v + i < 5) : ∀ (t : Nat) (us : Space), u + i < 5 → t ≤ 1 →
    ∃ t' us', addBack vs v u i t us = .ok (t', us') ∧ t' ≤ 1 ∧ Keeps (u + 1) (u + i) us us' ∧
      num (2 ^ 16) us'.dig (u + 1) i + t' * (2 ^ 16) ^ i =
        num (2 ^ 16) us.dig (u + 1) i + num (2 ^ 16) vs.dig (v + 1) i + t := by
  induction i with
  | zero => exact fun _ _ _ le => ⟨_, _, rfl, le, fun _ _ => rfl, by simp⟩
  | succ i ih =>
    intro t us fits le
    rw [addBack, get_eq fits, ok_bind, get_eq hv, ok_bind]
    generalize hr : wadd 32 t (wadd 32 (us.dig (u + (i + 1))) (vs.dig (v + (i + 1)))) = r
    obtain ⟨digit, le'⟩ := add_digit (us.dig_lt _) (vs.dig_lt _) le hr
    dsimp only
    rw [set_eq fits, ok_bind, lhalf_eq]
    obtain ⟨t', us', run, small, keeps, front⟩ := ih (by omega) _ (us.put (u + (i + 1)) (r % 2 ^ 16)) (by omega) le'
    have last : us'.dig (u + 1 + i) = r % 2 ^ 16 := by
      rw [show u + 1 + i = u + (i + 1) by omega, keeps _ (.inr (by omega)), dig_put_self fits, Nat.mod_mod]
    rw [keeps_at.num_eq (.inl (by omega))] at front
    refine ⟨t', us', run, small, (keeps_put (by omega) le_rfl).trans (fun j out => keeps j (by omega)) le_rfl le_rfl, ?_⟩
    rw [num_succ, num_succ, num_succ, last, show u + 1 + i = u + (i + 1) by omega,
      show v + 1 + i = v + (i + 1) by omega]
    refine (carry_step front digit).trans ?_
    ring

/-- The first two digits of the divisor, and three of the dividend. -/
lemma heads_of_digits (us : Space) {v n : Nat} (u : Nat) (two : 2 ≤ n) (first : 0 < vs.dig (v + 1)) :
    Heads (2 ^ 16) ((2 ^ 16) ^ (n - 2)) (num (2 ^ 16) vs.dig (v + 1) n) (vs.dig (v + 1)) (vs.dig (v + 2))
      (num (2 ^ 16) us.dig u (n + 1)) (us.dig u * 2 ^ 16 + us.dig (u + 1)) (us.dig (u + 2)) := by
  obtain ⟨k, rfl⟩ : ∃ k, n = 2 + k := ⟨n - 2, by omega⟩
  have divisor : num (2 ^ 16) vs.dig (v + 1) (2 + k) =
      (vs.dig (v + 1) * 2 ^ 16 + vs.dig (v + 2)) * (2 ^ 16) ^ k + num (2 ^ 16) vs.dig (v + 1 + 2) k := by
    rw [num_add, num_succ, num_succ, num_zero]
    simp [Nat.add_assoc]
  have dividend : num (2 ^ 16) us.dig u (2 + k + 1) =
      ((us.dig u * 2 ^ 16 + us.dig (u + 1)) * 2 ^ 16 + us.dig (u + 2)) * (2 ^ 16) ^ k +
        num (2 ^ 16) us.dig (u + 3) k := by
    rw [show 2 + k + 1 = 3 + k by omega, num_add, num_succ, num_succ, num_succ, num_zero]
    simp
  rw [divisor, dividend, Nat.add_sub_cancel_left]
  refine ⟨by decide, Nat.pow_pos (by decide), first, vs.dig_lt _, Nat.le_add_right _ _, ?_, Nat.le_add_right _ _, ?_,
    us.dig_lt _⟩
  · rw [Nat.succ_mul]
    exact Nat.add_lt_add_left (vs.num_dig_lt _ _) _
  · rw [Nat.succ_mul]
    exact Nat.add_lt_add_left (us.num_dig_lt _ _) _

/-- One round takes the digit off: the part of the dividend that starts at `u` becomes the remainder. -/
lemma quotientDigit_spec {v u n : Nat} (two : 2 ≤ n) (hv : v + n < 5) (hu : u + n < 5)
    (normal : 2 ^ 15 ≤ vs.dig (v + 1)) (lt : num (2 ^ 16) us.dig u n < num (2 ^ 16) vs.dig (v + 1) n) :
    ∃ q us', quotientDigit vs v n u us = .ok (q, us') ∧ q < 2 ^ 16 ∧ Keeps u (u + n) us us' ∧ us'.dig u = 0 ∧
      num (2 ^ 16) us.dig u (n + 1) = q * num (2 ^ 16) vs.dig (v + 1) n + num (2 ^ 16) us'.dig (u + 1) n ∧
      num (2 ^ 16) us'.dig (u + 1) n < num (2 ^ 16) vs.dig (v + 1) n := by
  have heads := heads_of_digits us u two (lt_of_lt_of_le (by decide) normal)
  have pos := heads.v_pos
  have fits : num (2 ^ 16) us.dig u (n + 1) < num (2 ^ 16) vs.dig (v + 1) n * 2 ^ 16 := by
    rw [num_succ]
    have last := us.dig_lt (u + n)
    omega
  have le : us.dig u ≤ vs.dig (v + 1) := by
    obtain ⟨k, rfl⟩ : ∃ k, n = k + 1 := ⟨n - 1, by omega⟩
    by_contra large
    exact absurd lt (Nat.not_lt_of_le (num_lt_num (fun _ _ => vs.dig_lt _) (Nat.lt_of_not_le large)).le)
  obtain ⟨qhat, guess, close⟩ := calculateQhat_spec heads (vs.dig_lt _) normal le (us.dig_lt _) fits
  obtain ⟨t, us₁, subtract, ht, keeps, equation⟩ :=
    multiplySubtract_spec close.digit hv 0 us hu (by decide)
  have first : us₁.dig u = us.dig u := keeps u (.inl (Nat.lt_succ_self u))
  have divisor := vs.num_dig_lt (v + 1) n
  have rest := us₁.num_dig_lt (u + 1) n
  rw [quotientDigit, get_eq (by omega), ok_bind, get_eq (by omega), ok_bind, get_eq (by omega), ok_bind,
    get_eq (by omega), ok_bind, get_eq (by omega), ok_bind, guess, ok_bind, subtract, ok_bind]
  dsimp only
  rw [get_eq (by omega), ok_bind, first, set_eq (by omega), ok_bind]
  rw [Nat.add_zero] at equation
  have window := num_cons (b := 2 ^ 16) (d := us.dig) (i := u) (k := n)
  generalize hV : num (2 ^ 16) vs.dig (v + 1) n = V at *
  generalize hW : num (2 ^ 16) us.dig u (n + 1) = W at *
  have hd := us.dig_lt u
  by_cases borrow : us.dig u < t
  · -- the guess was too large by one, and one divisor is added back
    obtain ⟨rfl, rfl, sum⟩ := settle_borrow pos divisor window equation close.le rest borrow
    have high : wsub 32 (us.dig u) (us.dig u + 1) = 2 ^ 32 - 1 := by
      rw [wsub]
      omega
    rw [high, if_pos (by decide)]
    obtain ⟨t', us₂, add, ht', keeps', back⟩ := addBack_spec hv 0 (us₁.put u (lhalf (2 ^ 32 - 1))) hu (by decide)
    rw [keeps_at.num_eq (.inr (by omega)), hV, Nat.add_zero, sum] at back
    have mod := Nat.mod_lt W pos
    have small := us₂.num_dig_lt (u + 1) n
    obtain rfl : t' = 1 := by
      by_contra none
      obtain rfl : t' = 0 := by omega
      omega
    have digit : us₂.dig u = 2 ^ 16 - 1 := by
      rw [keeps' u (.inl (Nat.lt_succ_self u)), dig_put_self (by omega)]
      decide
    have zero : lhalf (wadd 32 (2 ^ 16 - 1) 1) = 0 := by decide
    have quotient : wsub 32 (W / V + 1) 1 = W / V := wsub_of_le (Nat.le_add_left _ _) (by have := close.digit; omega)
    rw [add, ok_bind]
    dsimp only
    rw [get_eq (by omega), ok_bind, digit, zero, set_eq (by omega), ok_bind, quotient]
    refine ⟨_, _, rfl, by have := close.digit; omega, ?_, dig_put_self (by omega), ?_, ?_⟩
    · intro i out
      rw [dig_put_ne (by omega), keeps' i (by omega), dig_put_ne (by omega), keeps i (by omega)]
    · rw [keeps_at.num_eq (.inr (by omega))]
      have parts := Nat.div_add_mod' W V
      omega
    · rw [keeps_at.num_eq (.inr (by omega))]
      omega
  · -- the guess was right
    obtain ⟨rfl, sum, small⟩ := settle pos divisor.le window equation close.enough (Nat.le_of_not_lt borrow)
    have none : wsub 32 (us.dig u) (us.dig u) = 0 := by
      rw [wsub_of_le le_rfl (by omega), Nat.sub_self]
    rw [none, if_neg (by decide)]
    refine ⟨_, _, rfl, close.digit, ?_, dig_put_self (by omega), ?_, ?_⟩
    · intro i out
      rw [dig_put_ne (by omega), keeps i (by omega)]
    · rw [keeps_at.num_eq (.inr (by omega))]
      exact sum
    · rw [keeps_at.num_eq (.inr (by omega))]
      exact small

/-- The loop divides the digits of the dividend one after the other, as one does by hand. -/
lemma programD_spec {v n u q : Nat} (two : 2 ≤ n) (hv : v + n < 5) (normal : 2 ^ 15 ≤ vs.dig (v + 1)) (rest : Nat) :
    ∀ (j : Nat) (us qs : Space), u + j + rest + n ≤ 5 → q + j + rest ≤ 5 →
    num (2 ^ 16) us.dig (u + j) n < num (2 ^ 16) vs.dig (v + 1) n →
    ∃ us' qs', programD vs v n u q rest j us qs = .ok (us', qs') ∧
      (∀ k, k < u + j → us'.dig k = us.dig k) ∧ (∀ k, u + j ≤ k → k < u + j + rest → us'.dig k = 0) ∧
      (∀ k, k < q + j → qs'.dig k = qs.dig k) ∧
      num (2 ^ 16) us.dig (u + j) (n + rest) = num (2 ^ 16) qs'.dig (q + j) rest * num (2 ^ 16) vs.dig (v + 1) n +
        num (2 ^ 16) us'.dig (u + j + rest) n ∧
      num (2 ^ 16) us'.dig (u + j + rest) n < num (2 ^ 16) vs.dig (v + 1) n := by
  induction rest with
  | zero =>
    intro j us qs _ _ lt
    exact ⟨us, qs, rfl, fun _ _ => rfl, fun _ _ _ => by omega, fun _ _ => rfl, by simp, lt⟩
  | succ rest ih =>
    intro j us qs hu hq lt
    obtain ⟨d, us₁, round, hd, keeps, zero, digit, small⟩ := quotientDigit_spec two hv (by omega) normal lt
    obtain ⟨us', qs', run, before, zeros, before', divided, small'⟩ :=
      ih (j + 1) us₁ (qs.put (q + j) d) (by omega) (by omega) small
    refine ⟨us', qs', ?_, ?_, ?_, ?_, ?_, ?_⟩
    · rw [programD, round, ok_bind]
      dsimp only
      rw [set_eq (by omega), ok_bind, run]
    · intro k lt
      rw [before k (by omega), keeps k (by omega)]
    · intro k le lt
      obtain rfl | gt := Nat.eq_or_lt_of_le le
      · rw [before (u + j) (by omega), zero]
      · exact zeros k (by omega) (by omega)
    · intro k lt
      rw [before' k (by omega), dig_put_ne (by omega)]
    · have first : qs'.dig (q + j) = d := by
        rw [before' (q + j) (by omega), dig_put_self (by omega), Nat.mod_eq_of_lt hd]
      rw [show n + (rest + 1) = n + 1 + rest by omega, num_add, digit, ← keeps.num_eq (.inr (by omega)), num_cons, first,
        show u + j + (rest + 1) = u + (j + 1) + rest by omega]
      rw [num_add, show u + (j + 1) + n = u + j + (n + 1) by omega] at divided
      calc _ = d * (2 ^ 16) ^ rest * num (2 ^ 16) vs.dig (v + 1) n + (num (2 ^ 16) us₁.dig (u + (j + 1)) n *
            (2 ^ 16) ^ rest + num (2 ^ 16) us₁.dig (u + j + (n + 1)) rest) := by
            rw [show u + (j + 1) = u + j + 1 by omega]
            ring
        _ = _ := by
          rw [divided, show q + (j + 1) = q + j + 1 by omega]
          ring
    · rw [show u + j + (rest + 1) = u + (j + 1) + rest by omega]
      exact small'

/-! ## The whole division -/

/-- A shift by `d`, which is left out when `d` is zero. -/
lemma scale_spec (a : Space) {p : Nat} (len : Nat) (small : d < 16) (fits : p + len < 5)
    (top : a.dig p * 2 ^ d < 2 ^ 16) :
    ∃ a', scale d len p a = .ok a' ∧ Keeps p (p + len) a a' ∧
      num (2 ^ 16) a'.dig p (len + 1) = 2 ^ d * num (2 ^ 16) a.dig p (len + 1) := by
  rw [scale]
  by_cases pos : d > 0
  · obtain ⟨a', run, keeps, shifted⟩ := shl_spec (a := a) small fits
    have none : a.dig p / 2 ^ (16 - d) = 0 := by
      rw [← pow_mul_pow small, Nat.mul_comm (2 ^ d)] at top
      exact Nat.div_eq_of_lt (Nat.lt_of_mul_lt_mul_right top)
    rw [if_pos pos]
    rw [none, Nat.zero_mul, Nat.add_zero] at shifted
    exact ⟨a', run, keeps, shifted⟩
  · obtain rfl : d = 0 := by omega
    rw [if_neg pos]
    exact ⟨a, rfl, fun _ _ => rfl, by rw [pow_zero, Nat.one_mul]⟩

/-- The shift back. -/
lemma unscale_spec (us : Space) {m n : Nat} (small : d < 16) (fits : m + n < 5) (zero : us.dig m = 0) :
    ∃ us', unscale d m n us = .ok us' ∧ (∀ k ≤ m, us'.dig k = us.dig k) ∧
      num (2 ^ 16) us'.dig (m + 1) n = num (2 ^ 16) us.dig (m + 1) n / 2 ^ d := by
  rw [unscale]
  by_cases pos : d > 0
  · obtain ⟨us', run, keeps, shifted⟩ := unshift_spec small pos us fits
    rw [zero, Nat.zero_mod, Nat.zero_mul, Nat.add_zero] at shifted
    rw [if_pos pos, run, ok_bind, set_eq (by omega)]
    refine ⟨_, rfl, fun k le => ?_, ?_⟩
    · obtain rfl | lt := Nat.eq_or_lt_of_le le
      · rw [dig_put_self (by omega), zero, Nat.zero_mod]
      · rw [dig_put_ne (by omega), keeps k (by omega)]
    · rw [keeps_at.num_eq (.inr (by omega)), shifted, Nat.mul_add_div (Nat.two_pow_pos d),
        Nat.div_eq_of_lt (Nat.mod_lt _ (Nat.two_pow_pos d))]
      rfl
  · obtain rfl : d = 0 := by omega
    rw [if_neg pos]
    exact ⟨us, rfl, fun _ _ => rfl, by rw [pow_zero, Nat.div_one]⟩

/-- The dividend and the divisor, as the arrays hold them. -/
structure Holds (us vs : Space) (U V : Nat) : Prop where
  dividend : num (2 ^ 16) us.dig 1 4 = U
  divisor : num (2 ^ 16) vs.dig 1 4 = V
  front : us.dig 0 = 0
  le : V ≤ U
  pos : 0 < V

/-- The dividend has at least as many digits as the divisor. -/
lemma Holds.count {U V n v u : Nat} (h : Holds us vs U V) (two : 2 ≤ n) (sum : n + v = 4)
    (zeros : ∀ i, 1 ≤ i → i ≤ v → vs.dig i = 0) (first : vs.dig (v + 1) ≠ 0) (le : u ≤ 3)
    (zeros' : ∀ i, 1 ≤ i → i ≤ u → us.dig i = 0) : n + u ≤ 4 := by
  by_contra few
  have large : (2 ^ 16) ^ (n - 1) ≤ V := by
    rw [← h.divisor, show 4 = v + (n - 1 + 1) by omega, num_leading fun l lt => zeros _ (by omega) (by omega),
      Nat.add_comm 1 v, num_cons]
    exact (Nat.le_mul_of_pos_left _ (Nat.pos_of_ne_zero first)).trans (Nat.le_add_right _ _)
  have small : U < (2 ^ 16) ^ (4 - u) := by
    rw [← h.dividend, show 4 = u + (4 - u) by omega, num_leading fun l lt => zeros' _ (by omega) (by omega),
      show u + (4 - u) - u = 4 - u by omega]
    exact us.num_dig_lt _ _
  have mono : (2 ^ 16) ^ (4 - u) ≤ (2 ^ 16) ^ (n - 1) := Nat.pow_le_pow_right (by decide) (by omega)
  have le := h.le
  omega

/-- Long division, for divisors of two digits or more. -/
lemma divideLong_spec {U V n v : Nat} (h : Holds us vs U V) (two : 2 ≤ n) (sum : n + v = 4)
    (zeros : ∀ i, 1 ≤ i → i ≤ v → vs.dig i = 0) (first : vs.dig (v + 1) ≠ 0) (arq : Bool) :
    divideLong us vs qs n v arq =
      .ok (BitVec.ofNat 64 (U / V), if arq then some (BitVec.ofNat 64 (U % V)) else none) := by
  have V_eq : num (2 ^ 16) vs.dig (v + 1) n = V := by
    rw [← h.divisor, show 4 = v + n by omega, num_leading fun l lt => zeros _ (by omega) (by omega), Nat.add_comm 1 v]
  obtain ⟨u, count, le, zeros', -⟩ := countDividend_spec us (4 - (n : Int)) (show 4 + 0 = 4 from rfl)
    (fun i one le => by omega) (by rw [h.dividend]; have := h.le; have := h.pos; omega)
  have few := h.count two sum zeros first le zeros'
  obtain ⟨m, hm⟩ : ∃ m, n + u + m = 4 := ⟨4 - (n + u), by omega⟩
  have toNat : (4 - (n : Int) - ((u : Int) - (0 : Nat))).toNat = m := by omega
  have u_zero : us.dig u = 0 := by
    obtain rfl | pos := Nat.eq_zero_or_pos u
    · exact h.front
    · exact zeros' u pos le_rfl
  obtain ⟨qs₁, clear, cleared, -⟩ := clearQuotient_spec (i := 4 - m) qs (by omega)
  obtain ⟨d, norm, lo, hi⟩ := normalize_spec 15 (d := 0) (Nat.pos_of_ne_zero first) (vs.dig_lt _) (by
    have := Nat.pos_of_ne_zero first
    omega)
  have small : d < 16 := by
    by_contra large
    have le : 2 ^ 16 ≤ 2 ^ d := Nat.pow_le_pow_right (by decide) (Nat.le_of_not_lt large)
    have := Nat.le_mul_of_pos_left (2 ^ d) (Nat.pos_of_ne_zero first)
    omega
  obtain ⟨us₁, shiftU, keepsU, dividend⟩ := scale_spec us (p := u) (m + n) small (by omega)
    (by rw [u_zero, Nat.zero_mul]; decide)
  obtain ⟨vs₁, shiftV, keepsV, divisor⟩ := scale_spec vs (p := v + 1) (n - 1) small (by omega) hi
  rw [show n - 1 + 1 = n by omega, V_eq] at divisor
  have inner : num (2 ^ 16) us.dig (u + 1) (m + n) = U := by
    rw [← h.dividend, show 4 = u + (m + n) by omega,
      num_leading (i := 1) fun l lt => zeros' _ (by omega) (by omega), Nat.add_comm 1 u]
  rw [num_cons (d := us.dig), u_zero, Nat.zero_mul, Nat.zero_add, inner] at dividend
  -- the first digits after the shift
  obtain ⟨k, rfl⟩ : ∃ k, n = k + 1 := ⟨n - 1, by omega⟩
  rw [Nat.add_sub_cancel] at shiftV
  have normal : 2 ^ 15 ≤ vs₁.dig (v + 1) := by
    refine le_first (b := 2 ^ 16) (k := k) (fun _ _ => vs₁.dig_lt _) ?_
    rw [divisor, ← V_eq, num_cons]
    calc 2 ^ 15 * (2 ^ 16) ^ k ≤ vs.dig (v + 1) * 2 ^ d * (2 ^ 16) ^ k := Nat.mul_le_mul_right _ lo
      _ = 2 ^ d * (vs.dig (v + 1) * (2 ^ 16) ^ k) := by ring
      _ ≤ _ := Nat.mul_le_mul_left _ (Nat.le_add_right _ _)
  have lead : us₁.dig u < 2 ^ 15 := by
    refine first_lt (b := 2 ^ 16) (k := m + (k + 1)) ?_
    rw [dividend]
    calc 2 ^ d * U < 2 ^ d * (2 ^ 16) ^ (m + (k + 1)) := by
          rw [← inner]
          exact Nat.mul_lt_mul_of_pos_left (us.num_dig_lt _ _) (Nat.two_pow_pos d)
      _ ≤ _ := Nat.mul_le_mul_right _ (Nat.pow_le_pow_right (by decide) (by omega))
  have lt : num (2 ^ 16) us₁.dig u (k + 1) < num (2 ^ 16) vs₁.dig (v + 1) (k + 1) :=
    num_lt_num (fun _ _ => us₁.dig_lt _) (lt_of_lt_of_le lead normal)
  obtain ⟨us₂, qs₂, run, before, zeroed, before', divided, rest⟩ :=
    programD_spec (u := u) (q := 4 - m) two (by omega) normal (m + 1) 0 us₁ qs₁ (by omega) (by omega) lt
  simp only [Nat.add_zero] at before zeroed before' divided rest
  rw [show k + 1 + (m + 1) = m + (k + 1) + 1 by omega, dividend, divisor] at divided
  rw [divisor] at rest
  have pos_d := Nat.two_pow_pos d
  -- the remainder has been shifted like the dividend
  have unique := (Nat.div_mod_unique (a := 2 ^ d * U) (b := 2 ^ d * V) (Nat.mul_pos pos_d h.pos)).2
    ⟨by rw [divided, Nat.add_comm, Nat.mul_comm], rest⟩
  rw [Nat.mul_div_mul_left U V pos_d, Nat.mul_mod_mul_left] at unique
  obtain ⟨us₃, back, same, unshifted⟩ := unscale_spec us₂ (m := u + m) (n := k + 1) small (by omega)
    (zeroed (u + m) (by omega) (by omega))
  rw [Nat.add_assoc u m 1, ← unique.2, Nat.mul_div_cancel_left _ pos_d, ← Nat.add_assoc] at unshifted
  have loaded : num (2 ^ 16) us₃.dig 1 4 = U % V := by
    rw [show 4 = u + m + (k + 1) by omega, num_leading, Nat.add_comm 1 (u + m), unshifted]
    intro l lt
    rw [same _ (by omega)]
    by_cases inside : u ≤ 1 + l
    · exact zeroed _ inside (by omega)
    · rw [before _ (by omega), keepsU _ (by omega)]
      exact zeros' _ (by omega) (by omega)
  have loadedQ : num (2 ^ 16) qs₂.dig 1 4 = U / V := by
    rw [show 4 = 3 - m + (m + 1) by omega, num_leading, show 1 + (3 - m) = 4 - m by omega, unique.1]
    intro l lt
    rw [before' _ (by omega), cleared _ (by omega)]
  rw [divideLong, count, ok_bind]
  dsimp only
  rw [toNat, clear, ok_bind, get_eq (by omega), ok_bind, norm, ok_bind, Nat.zero_add, shiftU, ok_bind,
    Nat.add_sub_cancel, shiftV, ok_bind, run, ok_bind]
  cases arq with
  | false =>
    rw [if_neg Bool.false_ne_true, Space.load_eq, ok_bind, loadedQ]
    rfl
  | true =>
    rw [if_pos rfl, back, ok_bind, Space.load_eq, ok_bind, Space.load_eq, ok_bind, loaded, loadedQ]
    rfl

/-- A digit of the short division: the remainder so far and one more digit of the dividend. -/
lemma short_digit {p c t : Nat} (less : p < t) (small : t < 2 ^ 16) (digit : c < 2 ^ 16) :
    combine p c = p * 2 ^ 16 + c ∧ (BitVec.ofNat 16 (combine p c / t)).toNat = combine p c / t ∧
      combine p c = combine p c / t * t + combine p c % t ∧ combine p c % t < t := by
  have pos : 0 < t := by omega
  have eq := combine_eq (less.trans small) digit
  have below : combine p c / t < 2 ^ 16 := by
    rw [eq, Nat.div_lt_iff_lt_mul pos]
    calc p * 2 ^ 16 + c < (p + 1) * 2 ^ 16 := by omega
      _ ≤ t * 2 ^ 16 := Nat.mul_le_mul_right _ less
      _ = 2 ^ 16 * t := Nat.mul_comm _ _
  exact ⟨eq, by rw [BitVec.toNat_ofNat, Nat.mod_eq_of_lt below], (Nat.div_add_mod' _ _).symm, Nat.mod_lt _ pos⟩

/-- Short division, for divisors of one digit. -/
lemma divideShort_spec {U V : Nat} (h : Holds us vs U V) (zeros : ∀ i, 1 ≤ i → i ≤ 3 → vs.dig i = 0) (arq : Bool) :
    divideShort us vs 2 arq =
      .ok (BitVec.ofNat 64 (U / V), if arq then some (BitVec.ofNat 64 (U % V)) else none) := by
  have last : vs.dig 4 = V := by
    rw [← h.divisor, num_leading (k := 3) (m := 1) fun l lt => zeros _ (by omega) (by omega), num_succ, num_zero,
      Nat.zero_mul, Nat.zero_add]
  have pos := h.pos
  have small : V < 2 ^ 16 := last ▸ vs.dig_lt 4
  have first : us.dig 1 / V < 2 ^ 16 := lt_of_le_of_lt (Nat.div_le_self _ _) (us.dig_lt 1)
  obtain ⟨eq₂, cast₂, parts₂, lt₂⟩ := short_digit (Nat.mod_lt (us.dig 1) pos) small (us.dig_lt 2)
  set r₂ := combine (us.dig 1 % V) (us.dig 2) with def₂
  obtain ⟨eq₃, cast₃, parts₃, lt₃⟩ := short_digit lt₂ small (us.dig_lt 3)
  set r₃ := combine (r₂ % V) (us.dig 3) with def₃
  obtain ⟨eq₄, cast₄, parts₄, lt₄⟩ := short_digit lt₃ small (us.dig_lt 4)
  set r₄ := combine (r₃ % V) (us.dig 4) with def₄
  have two := divide_step (Nat.div_add_mod' (us.dig 1) V).symm (eq₂.symm.trans parts₂)
  have three := divide_step two (eq₃.symm.trans parts₃)
  have four := divide_step three (eq₄.symm.trans parts₄)
  have whole : num (2 ^ 16) us.dig 1 4 = ((us.dig 1 * 2 ^ 16 + us.dig 2) * 2 ^ 16 + us.dig 3) * 2 ^ 16 + us.dig 4 := by
    simp only [num_succ, num_zero, Nat.zero_mul, Nat.zero_add, Nat.reduceAdd]
  rw [← whole, h.dividend] at four
  have unique := (Nat.div_mod_unique (a := U) pos).2 ⟨by rw [four, Nat.add_comm, Nat.mul_comm], lt₄⟩
  have q₂ := cast₂ ▸ (BitVec.ofNat 16 (r₂ / V)).isLt
  have q₃ := cast₃ ▸ (BitVec.ofNat 16 (r₃ / V)).isLt
  have q₄ := cast₄ ▸ (BitVec.ofNat 16 (r₄ / V)).isLt
  have cast₁ : (BitVec.ofNat 16 (us.dig 1 / V)).toNat = us.dig 1 / V := by
    rw [BitVec.toNat_ofNat, Nat.mod_eq_of_lt first]
  have quotient : uu (combine (us.dig 1 / V) (r₂ / V)) (combine (r₃ / V) (r₄ / V)) = BitVec.ofNat 64 (U / V) := by
    rw [uu_combine first q₂ q₃ q₄, unique.1]
  rw [divideShort, get_eq (by decide), ok_bind, get_eq (by decide), ok_bind, get_eq (by decide), ok_bind,
    get_eq (by decide), ok_bind, get_eq (by decide), ok_bind]
  dsimp only
  rw [ok_bind, last, ← def₂, ← def₃, ← def₄, cast₁, cast₂, cast₃, cast₄, quotient, unique.2]
  rfl

/-- For any contents of the arrays, the division returns, without an access outside of them, the quotient and the
remainder; a division by zero is the only one that does not. -/
theorem qdivrem_spec (uspace vspace qspace : Space) (ull vll : BitVec 64) (arq : Bool) :
    qdivrem uspace vspace qspace ull vll arq =
      if vll = 0 then .error .divideByZero else .ok (ull / vll, if arq then some (ull % vll) else none) := by
  rw [qdivrem]
  by_cases zero : vll = 0
  · rw [if_pos zero, if_pos zero]
  rw [if_neg zero, if_neg zero]
  have pos : 0 < vll.toNat := Nat.pos_of_ne_zero fun eq => zero (BitVec.eq_of_toNat_eq eq)
  by_cases less : ull < vll
  · rw [if_pos less, BitVec.udiv_eq_zero_iff_eq_zero_or_lt.2 (.inr less), BitVec.umod_eq_of_lt less]
    rfl
  have le : vll.toNat ≤ ull.toNat := Nat.le_of_not_lt less
  obtain ⟨us, storeU, dividend, front⟩ := (uspace.put 0 0).store_spec ull
  obtain ⟨vs, storeV, divisor, -⟩ := vspace.store_spec vll
  have holds : Holds us vs ull.toNat vll.toNat :=
    ⟨dividend, divisor, by rw [front, dig_put_self (by decide), Nat.zero_mod], le, pos⟩
  obtain ⟨n, v, count, counted⟩ := countDivisor_spec vs (n := 4) (v := 0) (by decide) rfl fun i _ _ => by omega
  have quotient : BitVec.ofNat 64 (ull.toNat / vll.toNat) = ull / vll := by
    rw [← BitVec.toNat_udiv, BitVec.ofNat_toNat, BitVec.setWidth_eq]
  have remainder : BitVec.ofNat 64 (ull.toNat % vll.toNat) = ull % vll := by
    rw [← BitVec.toNat_umod, BitVec.ofNat_toNat, BitVec.setWidth_eq]
  rw [if_neg less, set_eq (by decide), ok_bind, storeU, ok_bind, storeV, ok_bind, count, ok_bind]
  dsimp only
  cases counted with
  | short zeros => rw [if_pos rfl, divideShort_spec holds zeros, quotient, remainder]
  | long two sum zeros first => rw [if_neg (by omega), divideLong_spec holds two sum zeros first, quotient, remainder]

end

end PDS.Millicode
