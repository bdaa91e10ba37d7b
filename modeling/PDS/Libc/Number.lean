import PDS.Lib.Numeral
import PDS.Libc.Printf

/-!
# The text of a number

What the digit loop of `__pf_printnum` leaves in its buffer is the numeral of the number.
-/

namespace PDS.Libc
open Numeral

/-- The character of a digit. -/
def digitChar (d : Nat) : UInt8 := digitChars.getD d 0

/-- The numeral of a number, in characters. -/
def numeralText (base num : Nat) : List UInt8 := (numeral base num).map digitChar

section

variable {base num pos fuel : Nat} {buf : List UInt8} {c : UInt8}

/-- A digit is no terminator. -/
lemma digitChar_ne_zero {d : Nat} (lt : d < 16) : digitChar d ≠ 0 := by
  have all : ∀ d < 16, digitChar d ≠ 0 := by decide
  exact all d lt

/-- What a buffer holds from a place on that has been set. -/
lemma drop_set_self (inside : pos < buf.length) : (buf.set pos c).drop pos = c :: buf.drop (pos + 1) := by
  rw [List.drop_eq_getElem_cons (by rwa [List.length_set]), List.getElem_set_self, List.drop_set_of_lt (Nat.lt_succ_self _)]

/-- A character is put inside of the buffer. -/
lemma putAt_of_lt (inside : pos < buf.length) : putAt buf pos c = .ok (buf.set pos c) := by
  rw [putAt, if_pos ⟨Int.natCast_nonneg _, Int.ofNat_lt.2 inside⟩, Int.toNat_natCast]

/-- The loop writes the numeral in front of what is there. -/
lemma digitLoop_spec (two : 2 ≤ base) (enough : (numeral base num).length ≤ fuel)
    (room : (numeral base num).length ≤ pos + 1) (inside : pos < buf.length) :
    ∃ buf', digitLoop base fuel buf pos num = .ok (buf', (pos : Int) - (numeral base num).length) ∧
      buf'.length = buf.length ∧
      buf'.drop (pos + 1 - (numeral base num).length) = numeralText base num ++ buf.drop (pos + 1) := by
  induction fuel generalizing num pos buf with
  | zero => exact absurd enough (Nat.not_le_of_lt length_numeral_pos)
  | succ fuel ih =>
    rw [digitLoop, putAt_of_lt inside, ok_bind]
    dsimp only
    obtain lt | le := Nat.lt_or_ge num base
    · have last : ¬ num / base > 0 := by rw [Nat.div_eq_of_lt lt]; exact Nat.lt_irrefl 0
      rw [if_neg last, numeralText, numeral_of_lt lt, Nat.mod_eq_of_lt lt, List.length_singleton, Nat.add_sub_cancel]
      exact ⟨_, rfl, List.length_set, drop_set_self inside⟩
    · have more : num / base > 0 := Nat.div_pos le (by omega)
      have split := numeral_of_le two le
      have length : (numeral base num).length = (numeral base (num / base)).length + 1 := by
        rw [split, List.length_append, List.length_singleton]
      have some_ := length_numeral_pos (b := base) (n := num / base)
      obtain ⟨p, rfl⟩ : ∃ p, pos = p + 1 := ⟨pos - 1, by omega⟩
      have back : ((p + 1 : Nat) : Int) - 1 = p := by rw [Int.natCast_succ, Int.add_sub_cancel]
      rw [if_pos more, back]
      have fewer : (numeral base (num / base)).length ≤ fuel := by omega
      have inside' : p < (buf.set (p + 1) (digitChar (num % base))).length := by rw [List.length_set]; omega
      obtain ⟨buf', run, size, text⟩ := ih fewer (by omega) inside'
      refine ⟨buf', ?_, size.trans List.length_set, ?_⟩
      · rw [length, Int.natCast_succ, Int.natCast_succ, Int.add_sub_add_right]
        exact run
      · rw [length, Nat.add_sub_add_right, text, drop_set_self inside, numeralText, numeralText, split, List.map_append,
          List.append_assoc]
        rfl

/-- The part of `__pf_printnum` that fills its buffer, which has anything in it at first; `x` is at the first digit. -/
def fillNumber (base num : Nat) (buf : List UInt8) : Except PrintfStop (List UInt8 × Int) := do
  let x : Int := numberBufSize - 1
  let buf ← putAt buf x 0
  let (buf, x) ← digitLoop base 65 buf (x - 1) num
  .ok (buf, x + 1)

/-- The text of a number is what the loop leaves at the end of the buffer. -/
lemma numberText_eq_fillNumber :
    numberText base num = (fillNumber base num (List.replicate numberBufSize 0) >>= fun r =>
      .ok ((r.1.drop r.2.toNat).takeWhile (· ≠ 0))) := by
  rw [numberText, fillNumber]
  simp only [bind_assoc]
  rfl

/-- The numeral and the zero after it are at the end of the buffer. -/
lemma fillNumber_spec (two : 2 ≤ base) (small : num < base ^ (numberBufSize - 1)) (size : buf.length = numberBufSize) :
    ∃ buf' x, fillNumber base num buf = .ok (buf', x) ∧ buf'.length = numberBufSize ∧ 0 ≤ x ∧
      buf'.drop x.toNat = numeralText base num ++ [0] := by
  have sizeEq : numberBufSize = 23 := rfl
  have most := (length_numeral_le two (show 0 < numberBufSize - 1 by decide)).2 small
  rw [sizeEq] at most size
  have last : ((numberBufSize : Nat) : Int) - 1 = (22 : Nat) := rfl
  have next : ((22 : Nat) : Int) - 1 = (21 : Nat) := rfl
  have inside : 21 < (buf.set 22 0).length := by
    rw [List.length_set, size]
    decide
  have enough : (numeral base num).length ≤ 65 := by omega
  obtain ⟨buf', run, size', text⟩ := digitLoop_spec two enough (by omega) inside
  refine ⟨buf', (21 : Nat) - ((numeral base num).length : Int) + 1, ?_, ?_, by omega, ?_⟩
  · rw [fillNumber]
    dsimp only
    rw [last, putAt_of_lt (by rw [size]; decide), ok_bind, next, run, ok_bind]
  · rw [size', List.length_set, size, sizeEq]
  · have here : ((21 : Nat) - ((numeral base num).length : Int) + 1).toNat = 21 + 1 - (numeral base num).length := by
      omega
    have zero : (buf.set 22 0).drop (21 + 1) = [0] := by
      rw [drop_set_self (by rw [size]; decide), List.drop_of_length_le (by rw [size])]
    rw [here, text, zero]

/-- The text of a number is its numeral. -/
lemma numberText_eq (two : 2 ≤ base) (le : base ≤ 16) (small : num < base ^ (numberBufSize - 1)) :
    numberText base num = .ok (numeralText base num) := by
  obtain ⟨buf', x, run, -, -, text⟩ := fillNumber_spec two small List.length_replicate
  rw [numberText_eq_fillNumber, run, ok_bind, text, List.takeWhile_append_of_pos]
  · exact congrArg Except.ok (List.append_nil _)
  · intro c mem
    obtain ⟨d, digit, rfl⟩ := List.mem_map.1 mem
    exact decide_eq_true (digitChar_ne_zero (Nat.lt_of_lt_of_le (numeral_lt two digit) le))

end

/-- The text represents the number: its characters are those of digits below the base, the first one is not that of zero
unless it is the only one, and the digits are those of the number. -/
def Represents (base num : Nat) (text : List UInt8) : Prop := ∃ ds, IsNumeral base num ds ∧ text = ds.map digitChar

/-- For the bases that `__pf_setbase` sets, the digit loop ends and stays inside its buffer, whatever is in it, and leaves
the one text in it that represents the number, with a zero behind it. -/
theorem pf_printnum_digits {base : Nat} (set : base = 8 ∨ base = 10 ∨ base = 16) (num : UInt64) {buf : List UInt8}
    (size : buf.length = numberBufSize) :
    ∃ buf' x text, fillNumber base num.toNat buf = .ok (buf', x) ∧ buf'.length = numberBufSize ∧ 0 ≤ x ∧
      buf'.drop x.toNat = text ++ [0] ∧ 0 ∉ text ∧ numberText base num.toNat = .ok text ∧
      Represents base num.toNat text ∧ ∀ text', Represents base num.toNat text' → text' = text := by
  have two : 2 ≤ base := by omega
  have le : base ≤ 16 := by omega
  have small : num.toNat < base ^ (numberBufSize - 1) := by
    have eight : 8 ^ 22 ≤ base ^ 22 := Nat.pow_le_pow_left (by omega) 22
    exact (num.toNat_lt.trans (by decide)).trans_le eight
  obtain ⟨buf', x, run, size', pos, text⟩ := fillNumber_spec two small size
  refine ⟨buf', x, _, run, size', pos, text, ?_, numberText_eq two le small, ⟨_, isNumeral_numeral two _, rfl⟩, ?_⟩
  · intro mem
    obtain ⟨d, digit, zero⟩ := List.mem_map.1 mem
    exact digitChar_ne_zero (Nat.lt_of_lt_of_le (numeral_lt two digit) le) zero
  · rintro text' ⟨ds, is, rfl⟩
    rw [numeralText, is.eq two]

/-- The largest number in base 8, which takes the whole buffer. -/
theorem pf_printnum_digits_octal : ∃ buf' x text,
    fillNumber 8 (2 ^ 64 - 1) (List.replicate numberBufSize 7) = .ok (buf', x) ∧ buf'.length = numberBufSize ∧ 0 ≤ x ∧
      buf'.drop x.toNat = text ++ [0] ∧ 0 ∉ text ∧ numberText 8 (2 ^ 64 - 1) = .ok text ∧
      Represents 8 (2 ^ 64 - 1) text ∧ ∀ text', Represents 8 (2 ^ 64 - 1) text' → text' = text :=
  pf_printnum_digits (.inl rfl) 0xffffffffffffffff List.length_replicate

end PDS.Libc
