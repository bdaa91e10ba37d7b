import Mathlib.Data.Nat.Bitwise
import Mathlib.Tactic

/-!
# Fixed-width arithmetic

Unsigned machine arithmetic on `Nat`: a `w`-bit value is a number below `2 ^ w`, and `wadd`/`wsub`
reduce modulo `2 ^ w` as the C operators on `size_t`, `paddr_t` and `vaddr_t` do. A model writes every
addition and subtraction of the source with these, and the lemmas `wadd_of_lt`/`wsub_of_le` remove the
reduction wherever an invariant excludes the wrap. `and_highMask` reads a mask of high bits (the
rounding masks of the source) as a division.
-/

namespace PDS.Word

/-- Addition of two `w`-bit unsigned values. -/
def wadd (w a b : Nat) : Nat := (a + b) % 2 ^ w

/-- Subtraction of two `w`-bit unsigned values. -/
def wsub (w a b : Nat) : Nat := (a + (2 ^ w - b % 2 ^ w)) % 2 ^ w

/-- Multiplication of two `w`-bit unsigned values. -/
def wmul (w a b : Nat) : Nat := (a * b) % 2 ^ w

/-- A sum that fits is not reduced. -/
lemma wadd_of_lt {w a b} (h : a + b < 2 ^ w) : wadd w a b = a + b :=
  Nat.mod_eq_of_lt h

/-- A product that fits is not reduced. -/
lemma wmul_of_lt {w a b} (h : a * b < 2 ^ w) : wmul w a b = a * b :=
  Nat.mod_eq_of_lt h

/-- A difference that does not borrow is the exact difference. -/
lemma wsub_of_le {w a b} (h : b ≤ a) (ha : a < 2 ^ w) : wsub w a b = a - b := by
  have hb : b % 2 ^ w = b := Nat.mod_eq_of_lt (by omega)
  have e : a + (2 ^ w - b) = (a - b) + 2 ^ w := by omega
  rw [wsub, hb, e, Nat.add_mod_right]
  exact Nat.mod_eq_of_lt (by omega)

/-- Results are `w`-bit values. -/
lemma wadd_lt (w a b : Nat) : wadd w a b < 2 ^ w :=
  Nat.mod_lt _ (Nat.two_pow_pos w)

/-- Two additions in a row are one. -/
lemma wadd_wadd (w a b c : Nat) : wadd w (wadd w a b) c = wadd w a (b + c) := by
  rw [wadd, wadd, wadd, Nat.mod_add_mod, Nat.add_assoc]

/-- A difference is one of integers, reduced. -/
lemma cast_wsub (w a b : Nat) : (wsub w a b : Int) = ((a : Int) - b) % (2 : Int) ^ w := by
  have le : b % 2 ^ w ≤ 2 ^ w := (Nat.mod_lt b (Nat.two_pow_pos w)).le
  rw [wsub, Int.natCast_mod, Nat.cast_add, Nat.cast_sub le, Int.natCast_mod]
  push_cast
  rw [show (a : Int) + (2 ^ w - b % 2 ^ w) = a - b % 2 ^ w + 2 ^ w by ring, Int.add_emod_right, Int.sub_emod,
    Int.emod_emod_of_dvd _ (dvd_refl _), ← Int.sub_emod]

/-- Two subtractions in a row are one. -/
lemma wsub_wsub (w a b c : Nat) : wsub w (wsub w a b) c = wsub w a (b + c) := by
  apply Int.ofNat_inj.1
  rw [cast_wsub, cast_wsub, cast_wsub, Int.sub_emod, Int.emod_emod_of_dvd _ (dvd_refl _), ← Int.sub_emod, Nat.cast_add,
    sub_sub]

/-- Masking with the high bits `k .. w-1` rounds down to a multiple of `2 ^ k`. -/
lemma and_highMask {w k x : Nat} (hk : k ≤ w) (hx : x < 2 ^ w) :
    x &&& (2 ^ w - 2 ^ k) = x / 2 ^ k * 2 ^ k := by
  have e : 2 ^ w - 2 ^ k = (2 ^ (w - k) - 1) <<< k := by
    rw [Nat.shiftLeft_eq, Nat.sub_mul, ← pow_add, Nat.sub_add_cancel hk, Nat.one_mul]
  rw [e, ← Nat.shiftRight_eq_div_pow, ← Nat.shiftLeft_eq]
  apply Nat.eq_of_testBit_eq
  intro i
  simp only [Nat.testBit_and, Nat.testBit_shiftLeft, Nat.testBit_shiftRight,
    Nat.testBit_two_pow_sub_one]
  by_cases hi : k ≤ i
  · by_cases hw : i < w
    · simp [hi, show i - k < w - k by omega]
    · -- above the width both sides read a zero bit of `x`
      have hz : x.testBit i = false := by
        apply Nat.testBit_lt_two_pow
        exact lt_of_lt_of_le hx (Nat.pow_le_pow_right (by decide) (by omega))
      simp [hi, hz]
  · simp [hi]

end PDS.Word
