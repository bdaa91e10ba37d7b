import Mathlib.Data.UInt
import PDS.Kern.Machine

/-!
# The resizeable array

Port of `kern/lib/array.c` and of the inline functions in `kern/include/array.h`, with `ARRAYS_CHECKED`. The buffer is
the words from `v` on, together with the number of bytes that it was allocated with. Every call that allocates gets the
block that `kmalloc` finds, with anything in it, or `none`. Numbers are `unsigned`, and `size_t` is as wide.

An array is compared with a list that knows how many elements there is room for. The doubling and the number of bytes
are computed modulo `2 ^ 32`, so that `array_setsize` ends with a buffer that is big enough for some sizes only.
-/

namespace PDS.Kern

/-- Resizeable array of void pointers (C `struct array`). -/
structure PtrArray where
  v : Nat → Nat
  /-- what `kmalloc` has been asked for, `0` without a buffer -/
  bytes : UInt32
  num : UInt32
  max : UInt32

/-- `sizeof(void *)`. -/
def ptrSize : UInt32 := 4

/-- `memcpy` of words. -/
def memcpyWords (dest src : Nat → Nat) (len : UInt32) : Nat → Nat := fun i =>
  if i < len.toNat / 4 then src i else dest i

/-- `memmove` of words, from one place of a buffer to another. -/
def memmoveWords (v : Nat → Nat) (dest src : Nat) (len : UInt32) : Nat → Nat := fun i =>
  if dest ≤ i ∧ i < dest + len.toNat / 4 then v (src + (i - dest)) else v i

/-- C `array_init`. -/
def arrayInit : PtrArray := ⟨fun _ => 0, 0, 0, 0⟩

/-- C `array_get`. -/
def arrayGet (a : PtrArray) (index : UInt32) : Except Halt Nat := do
  kassert (index < a.num) "index < a->num"
  .ok (a.v index.toNat)

/-- C `array_set`. -/
def arraySet (a : PtrArray) (index : UInt32) (val : Nat) : Except Halt PtrArray := do
  kassert (index < a.num) "index < a->num"
  .ok { a with v := Function.update a.v index.toNat val }

/-- The loop of `array_setsize`. -/
def growMax (num : UInt32) : Nat → UInt32 → Except Halt UInt32
  | 0, _ => .error .spin
  | fuel + 1, newmax =>
    if num > newmax then growMax num fuel (if newmax ≠ 0 then newmax * 2 else 4)
    else .ok newmax

/-- Changes the size; the number is the error code (C `array_setsize`). -/
def arraySetsize (fuel : Nat) (block : Option (Nat → Nat)) (a : PtrArray) (num : UInt32) :
    Except Halt (PtrArray × Nat) :=
  if num > a.max then do
    -- "Don't touch A until the allocation succeeds."
    let newmax ← growMax num fuel a.max
    match block with
    | none => .ok (a, enomem)
    | some newptr =>
      .ok ({ a with
        v := memcpyWords newptr a.v (a.num * ptrSize)
        bytes := newmax * ptrSize
        max := newmax
        num := num }, 0)
  else .ok ({ a with num := num }, 0)

/-- Appends; the numbers are the index and the error code (C `array_add`). -/
def arrayAdd (fuel : Nat) (block : Option (Nat → Nat)) (a : PtrArray) (val : Nat) :
    Except Halt (PtrArray × UInt32 × Nat) := do
  let index := a.num
  let (a, ret) ← arraySetsize fuel block a (index + 1)
  if ret ≠ 0 then .ok (a, index, ret)
  else .ok ({ a with v := Function.update a.v index.toNat val }, index, 0)

/-- C `array_remove`. -/
def arrayRemove (a : PtrArray) (index : UInt32) : Except Halt PtrArray := do
  kassert (a.num ≤ a.max) "a->num <= a->max"
  kassert (index < a.num) "index < a->num"
  let numToMove := a.num - (index + 1)
  .ok { a with
    v := memmoveWords a.v index.toNat (index.toNat + 1) (numToMove * ptrSize)
    num := a.num - 1 }

/-- A call. -/
inductive ArrayOp where
  | add (val : Nat)
  | set (index : UInt32) (val : Nat)
  | get (index : UInt32)
  | setsize (num : UInt32)
  | remove (index : UInt32)

/-- What a call returns. -/
inductive ArrayRet where
  | void
  | index (i : Nat)
  | val (p : Nat)
  | error (code : Nat)
deriving DecidableEq

/-- One call. -/
def ArrayOp.step (fuel : Nat) (block : Option (Nat → Nat)) (a : PtrArray) :
    ArrayOp → Except Halt (PtrArray × ArrayRet)
  | .add val => do
    let (a, index, ret) ← arrayAdd fuel block a val
    .ok (a, if ret ≠ 0 then .error ret else .index index.toNat)
  | .set index val => do
    let a ← arraySet a index val
    .ok (a, .void)
  | .get index => do
    let p ← arrayGet a index
    .ok (a, .val p)
  | .setsize num => do
    let (a, ret) ← arraySetsize fuel block a num
    .ok (a, if ret ≠ 0 then .error ret else .void)
  | .remove index => do
    let a ← arrayRemove a index
    .ok (a, .void)

/-- The pointers that are in an array. -/
def PtrArray.contents (a : PtrArray) : List Nat := (List.range a.num.toNat).map a.v

/-- The calls that are made on an array with the contents `l`: indices are in range, and it has less than `2 ^ 29`
elements. -/
def ArrayOp.Permitted (l : List Nat) : ArrayOp → Prop
  | .add _ => l.length + 1 < 2 ^ 29
  | .set index _ | .get index | .remove index => index.toNat < l.length
  | .setsize num => num.toNat < 2 ^ 29

/-- A list with the number of elements that there is room for. -/
structure RoomyList where
  elems : List Nat
  max : Nat

/-- There is room for `num` elements, or it is made if there is memory; `max'` is the room afterwards. -/
def MakesRoom (memory : Bool) (max num max' : Nat) : Prop :=
  if num ≤ max then max' = max else memory = true ∧ num ≤ max'

/-- There is no room for `num` elements, and no memory to make it. -/
def NoRoom (memory : Bool) (max num : Nat) : Prop := max < num ∧ memory = false

/-- What a call means for a list, when it returns `ret`; `memory` says whether `kmalloc` finds a block. -/
inductive ListStep (memory : Bool) : RoomyList → ArrayOp → ArrayRet → RoomyList → Prop where
  | add {l : List Nat} {max max' val : Nat} : MakesRoom memory max (l.length + 1) max' →
    ListStep memory ⟨l, max⟩ (.add val) (.index l.length) ⟨l ++ [val], max'⟩
  | set {l : List Nat} {max : Nat} {index : UInt32} {val : Nat} :
    ListStep memory ⟨l, max⟩ (.set index val) .void ⟨l.set index.toNat val, max⟩
  | get {l : List Nat} {max : Nat} {index : UInt32} {p : Nat} : l[index.toNat]? = some p →
    ListStep memory ⟨l, max⟩ (.get index) (.val p) ⟨l, max⟩
  /-- the common prefix is kept, and new elements can be anything -/
  | setsize {l l' : List Nat} {max max' : Nat} {num : UInt32} : MakesRoom memory max num.toNat max' →
    l'.length = num.toNat → l'.take (min l.length num.toNat) = l.take (min l.length num.toNat) →
    ListStep memory ⟨l, max⟩ (.setsize num) .void ⟨l', max'⟩
  | remove {l : List Nat} {max : Nat} {index : UInt32} :
    ListStep memory ⟨l, max⟩ (.remove index) .void ⟨l.eraseIdx index.toNat, max⟩
  | addFail {l : List Nat} {max val : Nat} : NoRoom memory max (l.length + 1) →
    ListStep memory ⟨l, max⟩ (.add val) (.error enomem) ⟨l, max⟩
  | setsizeFail {l : List Nat} {max : Nat} {num : UInt32} : NoRoom memory max num.toNat →
    ListStep memory ⟨l, max⟩ (.setsize num) (.error enomem) ⟨l, max⟩

/-- A call, whether `kmalloc` finds a block for it, and what it returns. -/
structure ArrayCall where
  op : ArrayOp
  memory : Bool
  ret : ArrayRet

/-- The runs of an array from `array_init` on. -/
inductive ArrayRun (fuel : Nat) : List ArrayCall → PtrArray → Prop where
  | start : ArrayRun fuel [] arrayInit
  | step {calls : List ArrayCall} {a a' : PtrArray} {op : ArrayOp} {ret : ArrayRet} {block : Option (Nat → Nat)} :
    ArrayRun fuel calls a → op.Permitted a.contents → op.step fuel block a = .ok (a', ret) →
    ArrayRun fuel (calls ++ [⟨op, block.isSome, ret⟩]) a'

/-- The runs of a list. -/
inductive ListRun : List ArrayCall → RoomyList → Prop where
  | start : ListRun [] ⟨[], 0⟩
  | step {calls : List ArrayCall} {l l' : RoomyList} {call : ArrayCall} :
    ListRun calls l → ListStep call.memory l call.op call.ret l' → ListRun (calls ++ [call]) l'

/-- `array_setsize` ends, and when it returns `0` the buffer has been allocated with room for `num` pointers. -/
def SetsizeSound (block : Option (Nat → Nat)) (a : PtrArray) (num : UInt32) : Prop :=
  ∃ fuel a' ret, arraySetsize fuel block a num = .ok (a', ret) ∧ (ret = 0 → 4 * num.toNat ≤ a'.bytes.toNat)

section

variable {num m r : UInt32} {fuel k : Nat} {block : Option (Nat → Nat)} {a a' : PtrArray} {ret : Nat}

/-- The size that the loop begins to double. -/
def firstMax (max : Nat) : Nat := if max = 0 then 4 else max

/-- The next size. -/
lemma next_toNat (nonzero : m ≠ 0) : (if m ≠ 0 then m * 2 else 4).toNat = m.toNat * 2 % 2 ^ 32 := by
  rw [if_pos nonzero, UInt32.toNat_mul]
  rfl

/-- A nonzero word is a nonzero number. -/
lemma toNat_ne_zero (nonzero : m ≠ 0) : m.toNat ≠ 0 := fun zero => nonzero (UInt32.toNat_inj.1 zero)

/-- The loop ends once the new maximum is large enough. -/
lemma growMax_of_le (le : num.toNat ≤ m.toNat) : growMax num (fuel + 1) m = .ok m :=
  if_neg (fun gt => absurd (UInt32.lt_iff_toNat_lt.1 gt) (Nat.not_lt_of_le le))

/-- Otherwise the loop doubles the maximum, from 0 to 4. -/
lemma growMax_of_lt (lt : m.toNat < num.toNat) :
    growMax num (fuel + 1) m = growMax num fuel (if m ≠ 0 then m * 2 else 4) :=
  if_pos (UInt32.lt_iff_toNat_lt.2 lt)

/-- More fuel does not change the result. -/
lemma growMax_mono (run : growMax num fuel m = .ok r) : growMax num (fuel + k) m = .ok r := by
  induction fuel generalizing m with
  | zero => cases run
  | succ fuel ih =>
    rw [Nat.add_right_comm]
    by_cases lt : m.toNat < num.toNat
    · rw [growMax_of_lt lt] at run ⊢
      exact ih run
    · rw [growMax_of_le (Nat.le_of_not_lt lt)] at run ⊢
      exact run

/-- The result does not depend on the fuel. -/
lemma growMax_unique {fuel' : Nat} {r' : UInt32} (run : growMax num fuel m = .ok r)
    (run' : growMax num fuel' m = .ok r') : r = r' := by
  have more := growMax_mono (k := fuel') run
  rw [Nat.add_comm, growMax_mono (k := fuel) run'] at more
  exact (Except.ok.inj more).symm

/-- Up to `2 ^ 31`, the sizes do not wrap around before the loop ends. -/
lemma growMax_of_ne_zero (small : num.toNat ≤ 2 ^ 31) (nonzero : m ≠ 0) (enough : num.toNat ≤ m.toNat * 2 ^ fuel) :
    ∃ r j, growMax num (fuel + 1) m = .ok r ∧ r.toNat = m.toNat * 2 ^ j ∧ num.toNat ≤ r.toNat ∧
      (r = m ∨ r.toNat < 2 * num.toNat) := by
  induction fuel generalizing m with
  | zero =>
    have le : num.toNat ≤ m.toNat := by omega
    exact ⟨m, 0, growMax_of_le le, (Nat.mul_one _).symm, le, .inl rfl⟩
  | succ fuel ih =>
    by_cases lt : m.toNat < num.toNat
    · have next := next_toNat nonzero
      rw [Nat.mod_eq_of_lt (by omega)] at next
      have pos := toNat_ne_zero nonzero
      have ne : (if m ≠ 0 then m * 2 else 4) ≠ 0 := by
        intro zero
        rw [zero] at next
        change 0 = _ at next
        omega
      obtain ⟨r, j, run, exact_, ge, most⟩ := ih ne (by rw [next, Nat.mul_assoc, ← Nat.pow_succ']; exact enough)
      refine ⟨r, j + 1, (growMax_of_lt lt).trans run, ?_, ge, .inr ?_⟩
      · rw [exact_, next, Nat.pow_succ', Nat.mul_assoc]
      · obtain rfl | less := most
        · omega
        · exact less
    · have le := Nat.le_of_not_lt lt
      exact ⟨m, 0, growMax_of_le le, (Nat.mul_one _).symm, le, .inl rfl⟩

variable (fuel) in
/-- What the loop finds, up to `2 ^ 31`. -/
lemma growMax_spec (lt : m.toNat < num.toNat) (small : num.toNat ≤ 2 ^ 31) (enough : num.toNat ≤ 2 ^ fuel) :
    ∃ r j, growMax num (fuel + 2) m = .ok r ∧ r.toNat = firstMax m.toNat * 2 ^ j ∧ num.toNat ≤ r.toNat ∧
      (r.toNat = 4 ∧ m.toNat = 0 ∨ r.toNat < 2 * num.toNat) := by
  by_cases zero : m = 0
  · subst zero
    have four : num.toNat ≤ (4 : UInt32).toNat * 2 ^ fuel := enough.trans (Nat.le_mul_of_pos_left _ (by decide))
    obtain ⟨r, j, run, exact_, ge, most⟩ := growMax_of_ne_zero small (show (4 : UInt32) ≠ 0 by decide) four
    refine ⟨r, j, (growMax_of_lt lt).trans run, exact_, ge, ?_⟩
    obtain rfl | less := most
    · exact .inl ⟨rfl, rfl⟩
    · exact .inr less
  · have pos := toNat_ne_zero zero
    have more : num.toNat ≤ m.toNat * 2 ^ (fuel + 1) := by
      rw [Nat.pow_succ]
      calc num.toNat ≤ 2 ^ fuel * 2 := by omega
        _ ≤ m.toNat * (2 ^ fuel * 2) := Nat.le_mul_of_pos_left _ (Nat.pos_of_ne_zero pos)
    obtain ⟨r, j, run, exact_, ge, most⟩ := growMax_of_ne_zero small zero more
    refine ⟨r, j, run, ?_, ge, ?_⟩
    · rw [exact_, firstMax, if_neg pos]
    · obtain rfl | less := most
      · exact absurd ge (Nat.not_le_of_lt lt)
      · exact .inr less

/-- A power of two as a word is 0 or at most 2^31. -/
lemma pow_mod_le (j : Nat) : 2 ^ j % 2 ^ 32 ≤ 2 ^ 31 := by
  by_cases lt : j < 32
  · exact (Nat.mod_le _ _).trans (Nat.pow_le_pow_right (by decide) (by omega))
  · obtain ⟨k, rfl⟩ := Nat.exists_eq_add_of_le (Nat.le_of_not_lt lt)
    rw [Nat.pow_add, Nat.mul_mod_right]
    exact Nat.zero_le _

/-- The maximum found holds `num` elements. -/
lemma growMax_ge (run : growMax num fuel m = .ok r) : num.toNat ≤ r.toNat := by
  induction fuel generalizing m with
  | zero => cases run
  | succ fuel ih =>
    by_cases lt : m.toNat < num.toNat
    · rw [growMax_of_lt lt] at run
      exact ih run
    · rw [growMax_of_le (Nat.le_of_not_lt lt)] at run
      cases run
      exact Nat.le_of_not_lt lt

/-- Two doublings that wrap around are one. -/
lemma double_mod (x j : Nat) : x * 2 % 2 ^ 32 * 2 ^ j % 2 ^ 32 = x * 2 ^ (j + 1) % 2 ^ 32 := by
  rw [Nat.mod_mul_mod, Nat.mul_assoc, ← Nat.pow_succ']

/-- The sizes that the loop can find are doublings of the old one, or at most `2 ^ 31`. -/
lemma growMax_wraps (run : growMax num fuel m = .ok r) :
    (∃ j, r.toNat = m.toNat * 2 ^ j % 2 ^ 32) ∨ r.toNat ≤ 2 ^ 31 := by
  induction fuel generalizing m with
  | zero => cases run
  | succ fuel ih =>
    by_cases lt : m.toNat < num.toNat
    · rw [growMax_of_lt lt] at run
      obtain ⟨j, eq⟩ | le := ih run
      · by_cases zero : m = 0
        · right
          rw [eq, if_neg (not_not.2 zero), show (4 : UInt32).toNat = 2 ^ 2 from rfl, ← Nat.pow_add]
          exact pow_mod_le _
        · left
          rw [next_toNat zero, double_mod] at eq
          exact ⟨j + 1, eq⟩
      · exact .inr le
    · rw [growMax_of_le (Nat.le_of_not_lt lt)] at run
      cases run
      exact .inl ⟨0, by rw [Nat.pow_zero, Nat.mul_one, Nat.mod_eq_of_lt r.toNat_lt]⟩

/-- The loop ends if it comes to a size that is big enough. -/
lemma growMax_of_pow {j : Nat} (le : num.toNat ≤ m.toNat * 2 ^ j % 2 ^ 32) : ∃ fuel r, growMax num fuel m = .ok r := by
  induction j generalizing m with
  | zero =>
    rw [Nat.pow_zero, Nat.mul_one, Nat.mod_eq_of_lt m.toNat_lt] at le
    exact ⟨1, m, growMax_of_le le⟩
  | succ j ih =>
    by_cases lt : m.toNat < num.toNat
    · have nonzero : m ≠ 0 := by
        rintro rfl
        rw [show (0 : UInt32).toNat = 0 from rfl, Nat.zero_mul, Nat.zero_mod] at le
        omega
      have next : num.toNat ≤ (if m ≠ 0 then m * 2 else 4).toNat * 2 ^ j % 2 ^ 32 := by
        rw [next_toNat nonzero, double_mod]
        exact le
      obtain ⟨fuel, r, run⟩ := ih next
      exact ⟨fuel + 1, r, (growMax_of_lt lt).trans run⟩
    · exact ⟨1, m, growMax_of_le (Nat.le_of_not_lt lt)⟩

/-- For which sizes the loop ends. -/
lemma growMax_ends_iff (lt : m.toNat < num.toNat) :
    (∃ fuel r, growMax num fuel m = .ok r) ↔
      num.toNat ≤ 2 ^ 31 ∨ ∃ j, num.toNat ≤ m.toNat * 2 ^ j % 2 ^ 32 := by
  constructor
  · rintro ⟨fuel, r, run⟩
    have ge := growMax_ge run
    obtain ⟨j, eq⟩ | le := growMax_wraps run
    · exact .inr ⟨j, eq ▸ ge⟩
    · exact .inl (ge.trans le)
  · rintro (small | ⟨j, le⟩)
    · obtain ⟨r, -, run, -⟩ := growMax_spec 31 lt small small
      exact ⟨_, r, run⟩
    · exact growMax_of_pow le

/-- For which sizes the loop ends with a number of pointers whose bytes can be counted. -/
lemma growMax_fits_iff (lt : m.toNat < num.toNat) :
    (∃ fuel r, growMax num fuel m = .ok r ∧ 4 * num.toNat ≤ (r * ptrSize).toNat) ↔
      ∃ j, num.toNat ≤ firstMax m.toNat * 2 ^ j ∧ firstMax m.toNat * 2 ^ j < 2 ^ 30 := by
  have bytes (r : UInt32) : (r * ptrSize).toNat = r.toNat * 4 % 2 ^ 32 := UInt32.toNat_mul _ _
  constructor
  · rintro ⟨fuel, r, run, fits⟩
    rw [bytes] at fits
    have small : num.toNat < 2 ^ 30 := by omega
    obtain ⟨r', j, run', eq, ge, most⟩ := growMax_spec 30 lt (by omega) small.le
    obtain rfl := growMax_unique run run'
    exact ⟨j, eq ▸ ge, by omega⟩
  · rintro ⟨j, ge, small⟩
    obtain ⟨r, i, run, eq, ge', most⟩ := growMax_spec 30 lt (by omega) (by omega)
    refine ⟨_, r, run, ?_⟩
    have le : r.toNat ≤ firstMax m.toNat * 2 ^ j := by
      rw [eq]
      refine Nat.mul_le_mul_left _ (Nat.pow_le_pow_right (by decide) ?_)
      by_contra more
      -- half of what has been found would have been enough
      obtain ⟨k, rfl⟩ := Nat.exists_eq_add_of_lt (Nat.lt_of_not_le more)
      have double : firstMax m.toNat * 2 ^ (j + k + 1) = firstMax m.toNat * 2 ^ j * (2 * 2 ^ k) := by
        rw [Nat.mul_assoc, ← Nat.pow_succ', ← Nat.pow_add, Nat.add_assoc]
      have pos : 0 < 2 ^ k := Nat.two_pow_pos k
      have twice : 2 * (firstMax m.toNat * 2 ^ j) ≤ r.toNat := by
        rw [eq, double, Nat.mul_comm 2]
        exact Nat.mul_le_mul_left _ (Nat.le_mul_of_pos_right _ pos)
      obtain ⟨four, zero⟩ | less := most
      · have first : firstMax m.toNat = 4 := if_pos zero
        have one : 0 < 2 ^ j := Nat.two_pow_pos j
        rw [first] at twice
        omega
      · omega
    rw [bytes]
    omega

/-- Within the maximum only `num` is changed. -/
lemma arraySetsize_of_le (le : num.toNat ≤ a.max.toNat) :
    arraySetsize fuel block a num = .ok ({ a with num := num }, 0) :=
  if_neg (fun gt => absurd (UInt32.lt_iff_toNat_lt.1 gt) (Nat.not_lt_of_le le))

/-- The array with a larger buffer. -/
def PtrArray.grow (a : PtrArray) (num newmax : UInt32) (newptr : Nat → Nat) : PtrArray :=
  ⟨memcpyWords newptr a.v (a.num * ptrSize), newmax * ptrSize, num, newmax⟩

/-- Beyond the maximum the array moves to a new block. -/
lemma arraySetsize_of_lt (lt : a.max.toNat < num.toNat) : arraySetsize fuel block a num =
    growMax num fuel a.max >>= fun newmax =>
      match block with
      | none => .ok (a, enomem)
      | some newptr => .ok (a.grow num newmax newptr, 0) :=
  if_pos (UInt32.lt_iff_toNat_lt.2 lt)

end

/-- `array_setsize` does what it should exactly for the sizes that the array has room for, and for those that it reaches
by doubling below `2 ^ 30`; without memory, when the loop ends. -/
theorem array_setsize_sound_iff (block : Option (Nat → Nat)) (a : PtrArray) (num : UInt32) :
    SetsizeSound block a num ↔
      num.toNat ≤ a.max.toNat ∧ 4 * num.toNat ≤ a.bytes.toNat ∨
      a.max.toNat < num.toNat ∧ block ≠ none ∧
        (∃ j, num.toNat ≤ firstMax a.max.toNat * 2 ^ j ∧ firstMax a.max.toNat * 2 ^ j < 2 ^ 30) ∨
      a.max.toNat < num.toNat ∧ block = none ∧
        (num.toNat ≤ 2 ^ 31 ∨ ∃ j, num.toNat ≤ a.max.toNat * 2 ^ j % 2 ^ 32) := by
  rw [SetsizeSound]
  by_cases lt : a.max.toNat < num.toNat
  · rw [← growMax_fits_iff lt, ← growMax_ends_iff lt]
    have beyond : ¬ num.toNat ≤ a.max.toNat := Nat.not_le_of_lt lt
    simp only [arraySetsize_of_lt lt, beyond, lt, false_and, true_and, false_or]
    cases block with
    | none =>
      simp only [ne_eq, not_true, false_and, false_or, true_and]
      constructor
      · rintro ⟨fuel, a', ret, run, -⟩
        obtain ⟨r, run, -⟩ := bind_ok_iff.1 run
        exact ⟨fuel, r, run⟩
      · rintro ⟨fuel, r, run⟩
        refine ⟨fuel, a, enomem, ?_, ?_⟩
        · rw [run, ok_bind]
        · intro no
          cases no
    | some newptr =>
      simp only [ne_eq, reduceCtorEq, not_false_eq_true, true_and, false_and, or_false]
      constructor
      · rintro ⟨fuel, a', ret, run, fits⟩
        obtain ⟨r, grown, done⟩ := bind_ok_iff.1 run
        cases done
        exact ⟨fuel, r, grown, fits rfl⟩
      · rintro ⟨fuel, r, run, fits⟩
        refine ⟨fuel, a.grow num r newptr, 0, ?_, fun _ => fits⟩
        rw [run, ok_bind]
  · have le := Nat.le_of_not_lt lt
    simp only [arraySetsize_of_le le, lt, le, false_and, true_and, or_false]
    constructor
    · rintro ⟨fuel, a', ret, run, fits⟩
      cases run
      exact fits rfl
    · intro fits
      exact ⟨0, _, 0, rfl, fun _ => fits⟩

/-- For `2 ^ 29 + 1` pointers a buffer of `0` bytes is allocated, and for `2 ^ 31 + 1` the loop does not end. -/
theorem array_setsize_wraps : ¬ SetsizeSound (some fun _ => 0) arrayInit (2 ^ 29 + 1) ∧
    ¬ SetsizeSound none arrayInit (2 ^ 31 + 1) := by
  constructor
  · rintro ⟨fuel, a', ret, run, fits⟩
    rw [arraySetsize_of_lt (by decide)] at run
    obtain ⟨r, grown, done⟩ := bind_ok_iff.1 run
    have found : growMax (2 ^ 29 + 1) 31 0 = .ok (2 ^ 30) := rfl
    obtain rfl := growMax_unique grown found
    cases done
    exact absurd (fits rfl) (by decide)
  · rintro ⟨fuel, a', ret, run, -⟩
    rw [arraySetsize_of_lt (by decide)] at run
    obtain ⟨r, run, -⟩ := bind_ok_iff.1 run
    obtain small | ⟨j, le⟩ := (growMax_ends_iff (m := 0) (by decide)).1 ⟨fuel, r, run⟩
    · exact absurd small (by decide)
    · rw [show (0 : UInt32).toNat = 0 from rfl, Nat.zero_mul, Nat.zero_mod] at le
      exact absurd le (by decide)

/-- What holds of an array between calls. -/
structure PtrArray.Sized (a : PtrArray) : Prop where
  num_le : a.num.toNat ≤ a.max.toNat
  capacity : a.bytes.toNat = 4 * a.max.toNat
  small : a.max.toNat < 2 ^ 30

section

variable {num m r index : UInt32} {fuel k : Nat} {block : Option (Nat → Nat)} {a a' : PtrArray} {ret val i : Nat}
  {v v' : Nat → Nat} {l : List Nat}

/-- There are `num` elements. -/
@[simp] lemma PtrArray.length_contents (a : PtrArray) : a.contents.length = a.num.toNat := by
  rw [PtrArray.contents, List.length_map, List.length_range]

/-- The elements are the block's, in order. -/
lemma PtrArray.getElem?_contents (lt : i < a.num.toNat) : a.contents[i]? = some (a.v i) := by
  rw [PtrArray.contents, List.getElem?_map, List.getElem?_range lt]
  rfl

/-- The contents are a list if they have its elements. -/
lemma PtrArray.contents_eq (length : l.length = a.num.toNat) (elems : ∀ i < a.num.toNat, l[i]? = some (a.v i)) :
    a.contents = l := by
  refine List.ext_getElem? ?_
  intro i
  by_cases lt : i < a.num.toNat
  · rw [getElem?_contents lt, elems i lt]
  · rw [List.getElem?_eq_none (by rw [length_contents]; omega), List.getElem?_eq_none (by omega)]

/-- The number of bytes of pointers that can be counted. -/
lemma toNat_mul_ptrSize (small : m.toNat < 2 ^ 30) : (m * ptrSize).toNat = 4 * m.toNat := by
  have eq : (m * ptrSize).toNat = m.toNat * 4 % 2 ^ 32 := UInt32.toNat_mul _ _
  omega

variable (num block) in
/-- What `array_setsize` does with a size below `2 ^ 29`. -/
lemma arraySetsize_spec (enough : 31 ≤ fuel) (sized : a.Sized) (small : num.toNat < 2 ^ 29) :
    (arraySetsize fuel block a num = .ok (a, enomem) ∧ NoRoom block.isSome a.max.toNat num.toNat) ∨
    ∃ a', arraySetsize fuel block a num = .ok (a', 0) ∧ MakesRoom block.isSome a.max.toNat num.toNat a'.max.toNat ∧
      a'.num = num ∧ a'.Sized ∧ ∀ i < a.num.toNat, a'.v i = a.v i := by
  have smaller := sized.small
  have fits := sized.num_le
  by_cases lt : a.max.toNat < num.toNat
  · obtain ⟨k, rfl⟩ := Nat.exists_eq_add_of_le enough
    obtain ⟨r, j, run, -, ge, most⟩ := growMax_spec 29 lt (by omega) (by omega)
    have run := growMax_mono (k := k) run
    rw [arraySetsize_of_lt lt, run, ok_bind]
    cases block with
    | none => exact .inl ⟨rfl, lt, rfl⟩
    | some newptr =>
      have room : r.toNat < 2 ^ 30 := by omega
      have makes : MakesRoom true a.max.toNat num.toNat r.toNat := by
        rw [MakesRoom, if_neg (Nat.not_le_of_lt lt)]
        exact ⟨rfl, ge⟩
      refine .inr ⟨_, rfl, makes, rfl, ⟨ge, toNat_mul_ptrSize room, room⟩, ?_⟩
      intro i inside
      show memcpyWords newptr a.v (a.num * ptrSize) i = a.v i
      rw [memcpyWords, if_pos (by rw [toNat_mul_ptrSize (by omega)]; omega)]
  · have le := Nat.le_of_not_lt lt
    exact .inr ⟨_, arraySetsize_of_le le, by rw [MakesRoom, if_pos le], rfl, ⟨le, sized.capacity, smaller⟩, fun _ _ => rfl⟩

variable (block val) in
/-- `array_add` appends, or there is no room and no memory. -/
lemma arrayAdd_spec (enough : 31 ≤ fuel) (sized : a.Sized) (small : a.num.toNat + 1 < 2 ^ 29) :
    (arrayAdd fuel block a val = .ok (a, a.num, enomem) ∧ NoRoom block.isSome a.max.toNat (a.num.toNat + 1)) ∨
    ∃ a', arrayAdd fuel block a val = .ok (a', a.num, 0) ∧
      MakesRoom block.isSome a.max.toNat (a.num.toNat + 1) a'.max.toNat ∧ a'.contents = a.contents ++ [val] ∧
      a'.Sized := by
  have next : (a.num + 1).toNat = a.num.toNat + 1 := by
    have eq : (a.num + 1).toNat = (a.num.toNat + 1) % 2 ^ 32 := UInt32.toNat_add _ _
    omega
  rw [arrayAdd]
  dsimp only
  obtain ⟨run, full⟩ | ⟨a₁, run, makes, num, sized₁, kept⟩ := arraySetsize_spec (a.num + 1) block enough sized (by omega)
  · left
    rw [run]
    exact ⟨rfl, next ▸ full⟩
  · right
    rw [run]
    refine ⟨_, rfl, next ▸ makes, ?_, ⟨sized₁.num_le, sized₁.capacity, sized₁.small⟩⟩
    have count : a₁.num.toNat = a.num.toNat + 1 := by rw [num, next]
    refine PtrArray.contents_eq ?_ ?_
    · rw [List.length_append, PtrArray.length_contents]
      exact count.symm
    · intro i lt
      have lt : i < a.num.toNat + 1 := count ▸ lt
      dsimp only
      obtain before | rfl := Nat.lt_succ_iff_lt_or_eq.1 lt
      · rw [List.getElem?_append_left (by rwa [PtrArray.length_contents]), PtrArray.getElem?_contents before,
          Function.update_of_ne (Nat.ne_of_lt before), kept i before]
      · rw [List.getElem?_append_right (by rw [PtrArray.length_contents]), PtrArray.length_contents, Nat.sub_self,
          Function.update_self]
        rfl

variable (val) in
/-- `array_set` updates. -/
lemma arraySet_spec (sized : a.Sized) (inside : index.toNat < a.num.toNat) :
    ∃ a', arraySet a index val = .ok a' ∧ a'.contents = a.contents.set index.toNat val ∧ a'.max = a.max ∧ a'.Sized := by
  rw [arraySet, kassert_pos (UInt32.lt_iff_toNat_lt.2 inside), ok_bind]
  refine ⟨_, rfl, ?_, rfl, ⟨sized.num_le, sized.capacity, sized.small⟩⟩
  refine PtrArray.contents_eq ?_ ?_
  · rw [List.length_set, PtrArray.length_contents]
  · intro i lt
    dsimp only at lt ⊢
    by_cases eq : i = index.toNat
    · subst eq
      rw [List.getElem?_set_self (by rwa [PtrArray.length_contents]), Function.update_self]
    · rw [List.getElem?_set_ne (Ne.symm eq), Function.update_of_ne eq, PtrArray.getElem?_contents lt]

/-- `array_remove` deletes, and keeps the order. -/
lemma arrayRemove_spec (sized : a.Sized) (inside : index.toNat < a.num.toNat) :
    ∃ a', arrayRemove a index = .ok a' ∧ a'.contents = a.contents.eraseIdx index.toNat ∧ a'.max = a.max ∧ a'.Sized := by
  have small := sized.small
  have le := sized.num_le
  have before : (a.num - 1).toNat = a.num.toNat - 1 := by
    have one : (1 : UInt32).toNat = 1 := rfl
    rw [UInt32.toNat_sub_of_le _ _ (UInt32.le_iff_toNat_le.2 (by omega)), one]
  have moved : (a.num - (index + 1)).toNat = a.num.toNat - (index.toNat + 1) := by
    have next : (index + 1).toNat = index.toNat + 1 := by
      have eq : (index + 1).toNat = (index.toNat + 1) % 2 ^ 32 := UInt32.toNat_add _ _
      omega
    rw [UInt32.toNat_sub_of_le _ _ (UInt32.le_iff_toNat_le.2 (by omega)), next]
  have bytes : ((a.num - (index + 1)) * ptrSize).toNat / 4 = a.num.toNat - (index.toNat + 1) := by
    rw [toNat_mul_ptrSize (by omega), moved, Nat.mul_div_cancel_left _ (by decide)]
  rw [arrayRemove, kassert_pos (UInt32.le_iff_toNat_le.2 le), ok_bind, kassert_pos (UInt32.lt_iff_toNat_lt.2 inside),
    ok_bind]
  refine ⟨_, rfl, ?_, rfl, ⟨?_, sized.capacity, small⟩⟩
  · refine PtrArray.contents_eq ?_ ?_
    · rw [List.length_eraseIdx_of_lt (by rwa [PtrArray.length_contents]), PtrArray.length_contents]
      exact before.symm
    · intro i lt
      dsimp only at lt ⊢
      rw [before] at lt
      rw [List.getElem?_eraseIdx, memmoveWords, bytes]
      by_cases first : i < index.toNat
      · rw [if_pos first, if_neg (by omega), PtrArray.getElem?_contents (by omega)]
      · rw [if_neg first, if_pos (by omega), PtrArray.getElem?_contents (by omega)]
        congr 2
        omega
  · dsimp only
    omega

/-- The list that an array is. -/
def PtrArray.roomy (a : PtrArray) : RoomyList := ⟨a.contents, a.max.toNat⟩

variable (block) in
/-- One call on an array is one on a list. -/
lemma ArrayOp.step_spec (enough : 31 ≤ fuel) (sized : a.Sized) {op : ArrayOp} (permitted : op.Permitted a.contents) :
    ∃ a' ret, op.step fuel block a = .ok (a', ret) ∧ ListStep block.isSome a.roomy op ret a'.roomy ∧ a'.Sized ∧
      (ret = .error enomem → a' = a) := by
  have code : enomem ≠ 0 := by decide
  have length := a.length_contents
  cases op with
  | add val =>
    rw [ArrayOp.Permitted, length] at permitted
    rw [ArrayOp.step]
    obtain ⟨run, full⟩ | ⟨a', run, makes, contents, sized'⟩ := arrayAdd_spec block val enough sized permitted
    · rw [run, ok_bind]
      dsimp only
      rw [if_pos code]
      exact ⟨a, _, rfl, .addFail (length.symm ▸ full), sized, fun _ => rfl⟩
    · rw [run, ok_bind]
      refine ⟨a', _, rfl, ?_, sized', fun no => by cases no⟩
      rw [PtrArray.roomy, PtrArray.roomy, contents, ← length]
      exact .add (length.symm ▸ makes)
  | set index val =>
    rw [ArrayOp.Permitted, length] at permitted
    obtain ⟨a', run, contents, max, sized'⟩ := arraySet_spec val sized permitted
    rw [ArrayOp.step, run, ok_bind]
    refine ⟨a', _, rfl, ?_, sized', fun no => by cases no⟩
    rw [PtrArray.roomy, PtrArray.roomy, contents, max]
    exact .set
  | get index =>
    rw [ArrayOp.Permitted, length] at permitted
    rw [ArrayOp.step, arrayGet, kassert_pos (UInt32.lt_iff_toNat_lt.2 permitted), ok_bind, ok_bind]
    exact ⟨a, _, rfl, .get (PtrArray.getElem?_contents permitted), sized, fun no => by cases no⟩
  | setsize num =>
    rw [ArrayOp.step]
    obtain ⟨run, full⟩ | ⟨a', run, makes, num', sized', kept⟩ := arraySetsize_spec num block enough sized permitted
    · rw [run, ok_bind]
      dsimp only
      rw [if_pos code]
      exact ⟨a, _, rfl, .setsizeFail full, sized, fun _ => rfl⟩
    · rw [run, ok_bind]
      refine ⟨a', _, rfl, .setsize makes ?_ ?_, sized', fun no => by cases no⟩
      · rw [PtrArray.length_contents, num']
      · refine List.ext_getElem? ?_
        intro i
        rw [List.getElem?_take, List.getElem?_take, length]
        split_ifs with lt
        · rw [PtrArray.getElem?_contents (by rw [num']; omega), PtrArray.getElem?_contents (by omega), kept i (by omega)]
        · rfl
  | remove index =>
    rw [ArrayOp.Permitted, length] at permitted
    obtain ⟨a', run, contents, max, sized'⟩ := arrayRemove_spec sized permitted
    rw [ArrayOp.step, run, ok_bind]
    refine ⟨a', _, rfl, ?_, sized', fun no => by cases no⟩
    rw [PtrArray.roomy, PtrArray.roomy, contents, max]
    exact .remove

/-- Arrays in a run are lists in a run. -/
lemma ArrayRun.listRun {calls : List ArrayCall} (enough : 31 ≤ fuel) (run : ArrayRun fuel calls a) :
    ListRun calls a.roomy ∧ a.Sized := by
  induction run with
  | start => exact ⟨.start, ⟨le_refl _, rfl, by decide⟩⟩
  | @step calls a a' op ret block _ permitted step ih =>
    obtain ⟨list, sized⟩ := ih
    obtain ⟨a₁, ret₁, step₁, meaning, sized₁, -⟩ := ArrayOp.step_spec block enough sized permitted
    rw [step] at step₁
    cases step₁
    exact ⟨.step list meaning, sized₁⟩

end

/-- An array is a list: its contents and the room for them are those of a list on which the same calls have been made,
with the same results; the buffer has room for `max` pointers; and the next call returns, with `ENOMEM` and without a
change exactly when there is no room and no memory. -/
theorem array_refines_list {fuel : Nat} (enough : 31 ≤ fuel) {calls : List ArrayCall} {a : PtrArray}
    (run : ArrayRun fuel calls a) :
    ListRun calls a.roomy ∧ a.num.toNat ≤ a.max.toNat ∧ a.bytes.toNat = 4 * a.max.toNat ∧
      ∀ op : ArrayOp, op.Permitted a.contents → ∀ block, ∃ a' ret, op.step fuel block a = .ok (a', ret) ∧
        ListStep block.isSome a.roomy op ret a'.roomy ∧
        (ret = .error enomem → a'.contents = a.contents ∧ a'.num = a.num ∧ a'.max = a.max) := by
  obtain ⟨list, sized⟩ := run.listRun enough
  refine ⟨list, sized.num_le, sized.capacity, ?_⟩
  intro op permitted block
  obtain ⟨a', ret, step, meaning, -, same⟩ := ArrayOp.step_spec block enough sized permitted
  refine ⟨a', ret, step, meaning, ?_⟩
  intro failed
  rw [same failed]
  exact ⟨rfl, rfl, rfl⟩

/-- Two elements are added, the array cannot be made larger as there is no memory, and the first element is removed. -/
theorem array_refines_list_two : ∃ a, ArrayRun 31 [⟨.add 5, true, .index 0⟩, ⟨.add 6, false, .index 1⟩,
      ⟨.setsize 9, false, .error enomem⟩, ⟨.remove 0, false, .void⟩] a ∧ a.contents = [6] ∧ a.max = 4 ∧
    ListRun [⟨.add 5, true, .index 0⟩, ⟨.add 6, false, .index 1⟩, ⟨.setsize 9, false, .error enomem⟩,
      ⟨.remove 0, false, .void⟩] ⟨[6], 4⟩ := by
  obtain ⟨a₁, step₁, contents₁⟩ : ∃ a, ArrayOp.step 31 (some fun _ => 0) arrayInit (.add 5) = .ok (a, .index 0) ∧
    a.contents = [5] := ⟨_, rfl, rfl⟩
  obtain ⟨a₂, step₂, contents₂⟩ : ∃ a, ArrayOp.step 31 none a₁ (.add 6) = .ok (a, .index 1) ∧ a.contents = [5, 6] := by
    cases step₁
    exact ⟨_, rfl, rfl⟩
  have step₃ : ArrayOp.step 31 none a₂ (.setsize 9) = .ok (a₂, .error enomem) := by
    cases step₁
    cases step₂
    rfl
  obtain ⟨a, step₄, contents, max⟩ : ∃ a, ArrayOp.step 31 none a₂ (.remove 0) = .ok (a, .void) ∧ a.contents = [6] ∧
      a.max = 4 := by
    cases step₁
    cases step₂
    exact ⟨_, rfl, rfl, rfl⟩
  have permitted₁ : ArrayOp.Permitted arrayInit.contents (.add 5) := show 0 + 1 < 2 ^ 29 by decide
  have permitted₂ : ArrayOp.Permitted a₁.contents (.add 6) := show a₁.contents.length + 1 < 2 ^ 29 by
    rw [contents₁]
    decide
  have permitted₃ : ArrayOp.Permitted a₂.contents (.setsize 9) := show (9 : UInt32).toNat < 2 ^ 29 by decide
  have permitted₄ : ArrayOp.Permitted a₂.contents (.remove 0) := show (0 : UInt32).toNat < a₂.contents.length by
    rw [contents₂]
    decide
  have run := (((ArrayRun.start.step permitted₁ step₁).step permitted₂ step₂).step permitted₃ step₃).step permitted₄ step₄
  have list := (array_refines_list (le_refl 31) run).1
  rw [PtrArray.roomy, contents, max] at list
  exact ⟨a, run, contents, max, list⟩

end PDS.Kern
