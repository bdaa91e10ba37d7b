import Mathlib.Tactic

/-!
# Bytes of a bit vector

The byte `i` of a bit vector, counted from the low end, and where masks and shifts move it: a byte that is singled out
by a mask and shifted by whole bytes is in its new place and everywhere else there is nothing.
-/

namespace PDS.Bytes

variable {w n i j k : Nat} {v u : BitVec w}

/-- The byte `i`, from the low end. -/
def byte (v : BitVec w) (i : Nat) : BitVec 8 := v.extractLsb' (8 * i) 8

/-- The mask for the byte `j`. -/
def byteMask (w j : Nat) : BitVec w := 255#w <<< (8 * j)

/-- A bit of a byte is a bit of the word. -/
lemma getLsbD_byte {b : Nat} : (byte v i).getLsbD b = (decide (b < 8) && v.getLsbD (8 * i + b)) := by
  rw [byte, BitVec.getLsbD_extractLsb']

/-- Vectors of whole bytes with the same bytes are equal. -/
lemma ext_byte {v u : BitVec (8 * n)} (same : ∀ i < n, byte v i = byte u i) : v = u := by
  refine BitVec.eq_of_getLsbD_eq ?_
  intro b lt
  have eq := congrArg (fun x => x.getLsbD (b % 8)) (same (b / 8) (by omega))
  have small : b % 8 < 8 := Nat.mod_lt _ (by decide)
  have whole : 8 * (b / 8) + b % 8 = b := Nat.div_add_mod _ _
  simp only [getLsbD_byte, small, whole, decide_true, Bool.true_and] at eq
  exact eq

/-- The bytes of a disjunction are those of the words, combined. -/
lemma byte_or : byte (v ||| u) i = byte v i ||| byte u i := by
  refine BitVec.eq_of_getLsbD_eq ?_
  intro b lt
  simp only [getLsbD_byte, BitVec.getLsbD_or, Bool.and_or_distrib_left]

/-- The bytes of zero are zero. -/
lemma byte_zero : byte (0#w) i = 0#8 := by
  refine BitVec.eq_of_getLsbD_eq ?_
  intro b lt
  simp only [getLsbD_byte, BitVec.getLsbD_zero, Bool.and_false]

/-- The mask has the bits of one byte. -/
lemma getLsbD_byteMask {b : Nat} (inside : 8 * (j + 1) ≤ w) :
    (byteMask w j).getLsbD b = decide (8 * j ≤ b ∧ b < 8 * (j + 1)) := by
  have ones : (255 : Nat) = 2 ^ 8 - 1 := rfl
  rw [byteMask, BitVec.getLsbD_shiftLeft, BitVec.getLsbD_ofNat, ones, Nat.testBit_two_pow_sub_one]
  grind

/-- A byte that is moved up. -/
lemma byte_shiftLeft (inside : 8 * (j + 1) ≤ w) (room : 8 * (i + 1) ≤ w) :
    byte ((v &&& byteMask w j) <<< (8 * k)) i = if i = j + k then byte v j else 0#8 := by
  refine BitVec.eq_of_getLsbD_eq ?_
  intro b lt
  rw [getLsbD_byte, BitVec.getLsbD_shiftLeft, BitVec.getLsbD_and, getLsbD_byteMask inside]
  split_ifs with here
  · have back : 8 * i + b - 8 * k = 8 * j + b := by omega
    rw [getLsbD_byte, back]
    grind
  · rw [BitVec.getLsbD_zero]
    grind

/-- A byte that is moved down. -/
lemma byte_ushiftRight (inside : 8 * (j + 1) ≤ w) :
    byte ((v &&& byteMask w j) >>> (8 * k)) i = if i + k = j then byte v j else 0#8 := by
  refine BitVec.eq_of_getLsbD_eq ?_
  intro b lt
  rw [getLsbD_byte, BitVec.getLsbD_ushiftRight, BitVec.getLsbD_and, getLsbD_byteMask inside]
  split_ifs with here
  · have back : 8 * k + (8 * i + b) = 8 * j + b := by omega
    rw [getLsbD_byte, back]
    grind
  · rw [BitVec.getLsbD_zero]
    grind

/-- The bytes of `u` are those of `v`, the other way round. -/
def Reversed (v u : BitVec (8 * n)) : Prop := ∀ i < n, byte u i = byte v (n - 1 - i)

/-- A function that reverses the bytes of `v` and of the result gives `v` back. -/
lemma Reversed.twice {v u x : BitVec (8 * n)} (h : Reversed v u) (h' : Reversed u x) : x = v := by
  refine ext_byte ?_
  intro i lt
  have back : n - 1 - (n - 1 - i) = i := by omega
  rw [h' i lt, h (n - 1 - i) (by omega), back]

end PDS.Bytes
