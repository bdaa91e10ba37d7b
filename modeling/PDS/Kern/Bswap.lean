import PDS.Lib.Bytes

/-!
# Byte order

Port of `kern/lib/bswap.c`. The byte order of the machine, which the source takes from the preprocessor, is a parameter.
`bswap16` and `bswap32` reverse the bytes; `bswap64` shifts two of its bytes the wrong way.
-/

namespace PDS.Kern
open Bytes

/-- What `_BYTE_ORDER` can be. -/
inductive ByteOrder where
  | littleEndian
  | bigEndian
deriving DecidableEq, Repr

/-- Swaps the bytes of 16 bits (C `bswap16`). -/
def bswap16 (val : BitVec 16) : BitVec 16 :=
  ((val &&& 0x00ff#16) <<< 8)
    ||| ((val &&& 0xff00#16) >>> 8)

/-- Swaps the bytes of 32 bits (C `bswap32`). -/
def bswap32 (val : BitVec 32) : BitVec 32 :=
  ((val &&& 0x000000ff#32) <<< 24)
    ||| ((val &&& 0x0000ff00#32) <<< 8)
    ||| ((val &&& 0x00ff0000#32) >>> 8)
    ||| ((val &&& 0xff000000#32) >>> 24)

/-- Swaps the bytes of 64 bits (C `bswap64`). -/
def bswap64 (val : BitVec 64) : BitVec 64 :=
  ((val &&& 0x00000000000000ff#64) <<< 56)
    ||| ((val &&& 0x000000000000ff00#64) <<< 40)
    ||| ((val &&& 0x0000000000ff0000#64) <<< 24)
    ||| ((val &&& 0x00000000ff000000#64) <<< 8)
    ||| ((val &&& 0x000000ff00000000#64) <<< 8)
    ||| ((val &&& 0x0000ff0000000000#64) <<< 24)
    ||| ((val &&& 0x00ff000000000000#64) >>> 40)
    ||| ((val &&& 0xff00000000000000#64) >>> 56)

/-- "Network byte order byte-swap functions" (C `TO`): `ntoh*` and `hton*` are the same. -/
def swapTo {w : Nat} (bswap : BitVec w → BitVec w) : ByteOrder → BitVec w → BitVec w
  | .littleEndian, val => bswap val
  | .bigEndian, val => val

/-- C `ntohs` -/
def ntohs (order : ByteOrder) (val : BitVec 16) : BitVec 16 := swapTo bswap16 order val

/-- C `htons` -/
def htons (order : ByteOrder) (val : BitVec 16) : BitVec 16 := swapTo bswap16 order val

/-- C `ntohl` -/
def ntohl (order : ByteOrder) (val : BitVec 32) : BitVec 32 := swapTo bswap32 order val

/-- C `htonl` -/
def htonl (order : ByteOrder) (val : BitVec 32) : BitVec 32 := swapTo bswap32 order val

/-- C `ntohll` -/
def ntohll (order : ByteOrder) (val : BitVec 64) : BitVec 64 := swapTo bswap64 order val

/-- C `htonll` -/
def htonll (order : ByteOrder) (val : BitVec 64) : BitVec 64 := swapTo bswap64 order val

/-- What swapping is for, at one value. -/
structure Swaps {n : Nat} (bswap : BitVec (8 * n) → BitVec (8 * n))
    (ntoh hton : ByteOrder → BitVec (8 * n) → BitVec (8 * n)) (val : BitVec (8 * n)) : Prop where
  reversed : Reversed val (bswap val)
  twice : bswap (bswap val) = val
  order : ∀ order, ntoh order (hton order val) = val

section

variable {n : Nat} {bswap : BitVec (8 * n) → BitVec (8 * n)} {val : BitVec (8 * n)}

/-- There and back, if swapping twice is no change. -/
lemma swapTo_swapTo (twice : bswap (bswap val) = val) (order : ByteOrder) :
    swapTo bswap order (swapTo bswap order val) = val := by
  cases order with
  | littleEndian => exact twice
  | bigEndian => rfl

/-- A swap that reverses all values does all that it is for. -/
lemma Swaps.of_reversed (all : ∀ val, Reversed val (bswap val)) (val : BitVec (8 * n)) :
    Swaps bswap (swapTo bswap) (swapTo bswap) val := by
  have twice : bswap (bswap val) = val := (all val).twice (all _)
  exact ⟨all val, twice, swapTo_swapTo twice⟩

end

/-- `bswap16` reverses the bytes. -/
lemma bswap16_reversed (val : BitVec (8 * 2)) : Reversed val (bswap16 val) := by
  have masks : bswap16 val =
      ((val &&& byteMask (8 * 2) 0) <<< (8 * 1))
        ||| ((val &&& byteMask (8 * 2) 1) >>> (8 * 1)) := rfl
  intro i lt
  rw [masks, byte_or, byte_shiftLeft (by decide) (by omega), byte_ushiftRight (by decide)]
  interval_cases i
  · exact BitVec.zero_or
  · exact BitVec.or_zero

/-- `bswap32` reverses the bytes. -/
lemma bswap32_reversed (val : BitVec (8 * 4)) : Reversed val (bswap32 val) := by
  have masks : bswap32 val =
      ((val &&& byteMask (8 * 4) 0) <<< (8 * 3))
        ||| ((val &&& byteMask (8 * 4) 1) <<< (8 * 1))
        ||| ((val &&& byteMask (8 * 4) 2) >>> (8 * 1))
        ||| ((val &&& byteMask (8 * 4) 3) >>> (8 * 3)) := rfl
  intro i lt
  rw [masks, byte_or, byte_or, byte_or, byte_shiftLeft (by decide) (by omega), byte_shiftLeft (by decide) (by omega),
    byte_ushiftRight (by decide), byte_ushiftRight (by decide)]
  interval_cases i <;> simp

/-- Where `bswap64` puts the bytes: the byte 4 goes up to 5 and not down to 3, and the byte 5 goes out at the top. -/
lemma byte_bswap64 (val : BitVec (8 * 8)) {i : Nat} (lt : i < 8) :
    byte (w := 8 * 8) (bswap64 val) i =
      if i = 5 then byte val 2 ||| byte val 4 else if i = 2 ∨ i = 3 then 0#8 else byte val (7 - i) := by
  have masks : bswap64 val =
      ((val &&& byteMask (8 * 8) 0) <<< (8 * 7))
        ||| ((val &&& byteMask (8 * 8) 1) <<< (8 * 5))
        ||| ((val &&& byteMask (8 * 8) 2) <<< (8 * 3))
        ||| ((val &&& byteMask (8 * 8) 3) <<< (8 * 1))
        ||| ((val &&& byteMask (8 * 8) 4) <<< (8 * 1))
        ||| ((val &&& byteMask (8 * 8) 5) <<< (8 * 3))
        ||| ((val &&& byteMask (8 * 8) 6) >>> (8 * 5))
        ||| ((val &&& byteMask (8 * 8) 7) >>> (8 * 7)) := rfl
  have up {j k : Nat} (inside : j < 8) :
      byte ((val &&& byteMask (8 * 8) j) <<< (8 * k)) i = if i = j + k then byte val j else 0#8 :=
    byte_shiftLeft (by omega) (by omega)
  have down {j k : Nat} (inside : j < 8) :
      byte ((val &&& byteMask (8 * 8) j) >>> (8 * k)) i = if i + k = j then byte val j else 0#8 :=
    byte_ushiftRight (by omega)
  rw [masks]
  simp only [byte_or, up (by decide : 0 < 8), up (by decide : 1 < 8), up (by decide : 2 < 8), up (by decide : 3 < 8),
    up (by decide : 4 < 8), up (by decide : 5 < 8), down (by decide : 6 < 8), down (by decide : 7 < 8)]
  interval_cases i <;> simp

/-- The bytes of a value that has been swapped twice. -/
lemma byte_bswap64_twice (val : BitVec (8 * 8)) {i : Nat} (lt : i < 8) :
    byte (w := 8 * 8) (bswap64 (bswap64 val)) i =
      if i = 5 then byte val 3 else if 2 ≤ i ∧ i < 5 then 0#8 else byte val i := by
  rw [byte_bswap64 _ lt, byte_bswap64 val (show 2 < 8 by decide), byte_bswap64 val (show 4 < 8 by decide),
    byte_bswap64 val (show 7 - i < 8 by omega)]
  interval_cases i <;> simp

/-- `bswap64` reverses the bytes if two of them are zero. -/
lemma bswap64_reversed (val : BitVec (8 * 8)) (four : byte val 4 = 0#8) (five : byte val 5 = 0#8) :
    Reversed val (bswap64 val) := by
  intro i lt
  rw [byte_bswap64 val lt]
  interval_cases i <;> simp [four, five]

/-- `bswap64` twice is no change if the four in the middle are zero. -/
lemma bswap64_twice_iff (val : BitVec (8 * 8)) :
    bswap64 (bswap64 val) = val ↔ ∀ i, 2 ≤ i → i < 6 → byte val i = 0#8 := by
  constructor
  · intro twice
    have bytes (i : Nat) (lt : i < 8) : byte val i = _ :=
      (congrArg (fun x : BitVec (8 * 8) => byte x i) twice).symm.trans (byte_bswap64_twice val lt)
    have two : byte val 2 = 0#8 := bytes 2 (by decide)
    have three : byte val 3 = 0#8 := bytes 3 (by decide)
    have four : byte val 4 = 0#8 := bytes 4 (by decide)
    have five : byte val 5 = byte val 3 := bytes 5 (by decide)
    intro i ge lt
    interval_cases i
    · exact two
    · exact three
    · exact four
    · exact five.trans three
  · intro zero
    refine ext_byte (n := 8) ?_
    intro i lt
    rw [byte_bswap64_twice val lt]
    split_ifs with five middle
    · rw [five, zero 3 (by decide) (by decide), zero 5 (by decide) (by decide)]
    · exact (zero i middle.1 (by omega)).symm
    · rfl

/-- `bswap16`, `ntohs` and `htons` do what they are for, and so do `bswap32`, `ntohl` and `htonl`; `bswap64`, `ntohll` and
`htonll` do so exactly at the values whose bytes 2 to 5 are zero. -/
theorem bswap_swaps_iff (s : BitVec (8 * 2)) (l : BitVec (8 * 4)) (ll : BitVec (8 * 8)) :
    Swaps bswap16 ntohs htons (n := 2) s ∧ Swaps bswap32 ntohl htonl (n := 4) l ∧
      (Swaps bswap64 ntohll htonll (n := 8) ll ↔ ∀ i, 2 ≤ i → i < 6 → byte ll i = 0#8) := by
  refine ⟨Swaps.of_reversed (n := 2) bswap16_reversed s, Swaps.of_reversed (n := 4) bswap32_reversed l, ?_, ?_⟩
  · intro swaps
    exact (bswap64_twice_iff ll).1 swaps.twice
  · intro zero
    have twice := (bswap64_twice_iff ll).2 zero
    exact ⟨bswap64_reversed ll (zero 4 (by decide) (by decide)) (zero 5 (by decide) (by decide)), twice,
      swapTo_swapTo (n := 8) twice⟩

/-- `bswap64` makes 0x0000100000000000 of 0x0000001000000000, and loses 0x0000010000000000. -/
theorem bswap64_misplaces : ¬ ∀ val, Swaps bswap64 ntohll htonll (n := 8) val := by
  intro all
  exact absurd (all 0x0000010000000000#64).twice (by decide)

end PDS.Kern
