import PDS.Kern.Uiomove
import PDS.Libc.Malloc

/-!
# Copying memory

Port of `common/libc/string/memcpy.c` and `common/libc/string/memmove.c` for the 32-bit machine: by words where both
pointers and the length are aligned, else by bytes; forwards in `memcpy`, backwards in `memmove`. A copy of a block is
what a copy of its parts comes to, as long as no part overwrites what a later one reads (`snapshot_up`,
`snapshot_down`).
-/

namespace PDS.Libc
open Word

/-- `sizeof(long)`. -/
def sizeofLong : Nat := 4

/-- `d[i] = s[i]`, for `long`. -/
def copyLong (dst src : Nat) (m : Mem) (i : Nat) : Mem :=
  m.setWord (wadd 32 dst (sizeofLong * i)) (m.word (wadd 32 src (sizeofLong * i)))

/-- `d[i] = s[i]`, for `char`. -/
def copyChar (dst src : Nat) (m : Mem) (i : Nat) : Mem := Function.update m (wadd 32 dst i) (m (wadd 32 src i))

/-- `for (i=0; i<n; i++)`. -/
def loopUp (step : Mem → Nat → Mem) (m : Mem) : Nat → Mem
  | 0 => m
  | n + 1 => step (loopUp step m n) n

/-- `for (i=n; i>0; i--)`, with `i-1` in the loop. -/
def loopDown (step : Mem → Nat → Mem) (m : Mem) : Nat → Mem
  | 0 => m
  | n + 1 => loopDown step (step m n) n

/-- Both pointers and the length are word-aligned. -/
def Aligned (dst src len : Nat) : Prop := dst % sizeofLong = 0 ∧ src % sizeofLong = 0 ∧ len % sizeofLong = 0

instance (dst src len : Nat) : Decidable (Aligned dst src len) := inferInstanceAs (Decidable (_ ∧ _))

/-- Copies a block of memory; the results are the memory and `dst` (C `memcpy`). -/
def memcpy (m : Mem) (dst src len : Nat) : Mem × Nat :=
  if Aligned dst src len then (loopUp (copyLong dst src) m (len / sizeofLong), dst)
  else (loopUp (copyChar dst src) m len, dst)

/-- Copies a block of memory, "handling overlapping regions correctly" (C `memmove`). -/
def memmove (m : Mem) (dst src len : Nat) : Mem × Nat :=
  if dst < src then memcpy m dst src len
  else if Aligned dst src len then (loopDown (copyLong dst src) m (len / sizeofLong), dst)
  else (loopDown (copyChar dst src) m len, dst)

/-- A copy as if through a buffer of its own. -/
def snapshot (m : Mem) (dst src len : Nat) : Mem := fun x =>
  if dst ≤ x ∧ x < dst + len then m (src + (x - dst)) else m x

section

variable {m : Mem} {dst src len n k x i : Nat} {step : Mem → Nat → Mem}

/-- The bytes of the destination are those that the source had. -/
lemma snapshot_of_mem (lt : i < len) : snapshot m dst src len (dst + i) = m (src + i) := by
  rw [snapshot, if_pos (by omega), Nat.add_sub_cancel_left]

/-- The other bytes are as they were. -/
lemma snapshot_of_not (out : x < dst ∨ dst + len ≤ x) : snapshot m dst src len x = m x := if_neg (by omega)

/-- A snapshot of no bytes changes nothing. -/
lemma snapshot_zero : snapshot m dst src 0 = m := by
  funext x
  exact snapshot_of_not (by omega)

/-- A block that goes down is copied from below. -/
lemma snapshot_up (below : dst ≤ src) :
    snapshot (snapshot m dst src n) (dst + n) (src + n) k = snapshot m dst src (n + k) := by
  funext x
  by_cases inside : dst + n ≤ x ∧ x < dst + n + k
  · obtain ⟨i, rfl⟩ := Nat.exists_eq_add_of_le inside.1
    rw [snapshot_of_mem (by omega), snapshot_of_not (by omega), Nat.add_assoc, Nat.add_assoc,
      snapshot_of_mem (by omega)]
  · rw [snapshot_of_not (by omega), snapshot, snapshot]
    by_cases first : dst ≤ x ∧ x < dst + n
    · rw [if_pos first, if_pos (by omega)]
    · rw [if_neg first, if_neg (by omega)]

/-- A block that goes up is copied from above. -/
lemma snapshot_down (above : src ≤ dst) :
    snapshot (snapshot m (dst + n) (src + n) k) dst src n = snapshot m dst src (n + k) := by
  funext x
  by_cases inside : dst ≤ x ∧ x < dst + n
  · obtain ⟨i, rfl⟩ := Nat.exists_eq_add_of_le inside.1
    rw [snapshot_of_mem (by omega), snapshot_of_not (by omega), snapshot_of_mem (by omega)]
  · rw [snapshot_of_not (by omega), snapshot, snapshot]
    by_cases last : dst + n ≤ x ∧ x < dst + n + k
    · rw [if_pos last, if_pos (by omega)]
      congr 1
      omega
    · rw [if_neg last, if_neg (by omega)]

/-- The step `i` copies the bytes from `k * i` on, `k` of them. -/
def Copies (k dst src len : Nat) (step : Mem → Nat → Mem) : Prop :=
  ∀ m i, k * (i + 1) ≤ len → step m i = snapshot m (dst + k * i) (src + k * i) k

/-- Copying upwards is right when the destination is below. -/
lemma loopUp_eq (below : dst ≤ src) (copies : Copies k dst src len step) (le : k * n ≤ len) :
    loopUp step m n = snapshot m dst src (k * n) := by
  induction n with
  | zero => rw [loopUp, Nat.mul_zero, snapshot_zero]
  | succ n ih =>
    have less : k * n ≤ k * (n + 1) := Nat.mul_le_mul_left k (Nat.le_succ n)
    rw [loopUp, ih (less.trans le), copies _ n le, snapshot_up below, Nat.mul_succ]

/-- Copying downwards is right when the destination is above. -/
lemma loopDown_eq (above : src ≤ dst) (copies : Copies k dst src len step) (le : k * n ≤ len) :
    loopDown step m n = snapshot m dst src (k * n) := by
  induction n generalizing m with
  | zero => rw [loopDown, Nat.mul_zero, snapshot_zero]
  | succ n ih =>
    have less : k * n ≤ k * (n + 1) := Nat.mul_le_mul_left k (Nat.le_succ n)
    rw [loopDown, ih (less.trans le), copies _ n le, snapshot_down above, Nat.mul_succ]

/-- The low byte of a word. -/
lemma ofNat_of_mod {v : Nat} {b : UInt8} (low : v % 256 = b.toNat) : UInt8.ofNat v = b := by
  refine UInt8.toNat_inj.1 ?_
  rw [UInt8.toNat_ofNat']
  exact low

/-- A word that is read and written is four bytes that are copied. -/
lemma setWord_word : m.setWord dst (m.word src) = snapshot m dst src 4 := by
  have small (y : Nat) : (m y).toNat < 256 := UInt8.toNat_lt _
  have first := small src
  have second := small (src + 1)
  have third := small (src + 2)
  have last := small (src + 3)
  funext x
  by_cases inside : dst ≤ x ∧ x < dst + 4
  · obtain ⟨i, rfl⟩ := Nat.exists_eq_add_of_le inside.1
    have lt : i < 4 := by omega
    rw [snapshot_of_mem lt, Mem.setWord]
    interval_cases i
    · rw [if_pos (Nat.add_zero _)]
      exact ofNat_of_mod (show m.word src / 2 ^ 24 % 256 = (m src).toNat by rw [Mem.word]; omega)
    · rw [if_neg (by omega), if_pos rfl]
      exact ofNat_of_mod (by rw [Mem.word]; omega)
    · rw [if_neg (by omega), if_neg (by omega), if_pos rfl]
      exact ofNat_of_mod (by rw [Mem.word]; omega)
    · rw [if_neg (by omega), if_neg (by omega), if_neg (by omega), if_pos rfl]
      exact ofNat_of_mod (by rw [Mem.word]; omega)
  · rw [snapshot_of_not (by omega), Mem.setWord, if_neg (by omega), if_neg (by omega), if_neg (by omega),
      if_neg (by omega)]

/-- A copy of one `long`. -/
lemma copyLong_copies (dstFits : dst + len ≤ 2 ^ 32) (srcFits : src + len ≤ 2 ^ 32) :
    Copies sizeofLong dst src len (copyLong dst src) := by
  have size : sizeofLong = 4 := rfl
  intro m i le
  rw [size] at le ⊢
  rw [copyLong, size, wadd_of_lt (by omega), wadd_of_lt (by omega)]
  exact setWord_word

/-- A copy of one `char`. -/
lemma copyChar_copies (dstFits : dst + len ≤ 2 ^ 32) (srcFits : src + len ≤ 2 ^ 32) :
    Copies 1 dst src len (copyChar dst src) := by
  intro m i le
  rw [copyChar, wadd_of_lt (by omega), wadd_of_lt (by omega), Nat.one_mul]
  funext x
  by_cases here : x = dst + i
  · rw [here, Function.update_self, ← Nat.add_zero (dst + i), snapshot_of_mem Nat.one_pos, Nat.add_zero]
  · rw [Function.update_of_ne here, snapshot_of_not (by omega)]

/-- `memcpy` copies when the destination is below. -/
lemma memcpy_eq (below : dst ≤ src) (dstFits : dst + len ≤ 2 ^ 32) (srcFits : src + len ≤ 2 ^ 32) :
    memcpy m dst src len = (snapshot m dst src len, dst) := by
  rw [memcpy]
  split_ifs with aligned
  · have whole : sizeofLong * (len / sizeofLong) = len := Nat.mul_div_cancel' (Nat.dvd_of_mod_eq_zero aligned.2.2)
    rw [loopUp_eq below (copyLong_copies dstFits srcFits) whole.le, whole]
  · rw [loopUp_eq below (copyChar_copies dstFits srcFits) (Nat.one_mul len).le, Nat.one_mul]

/-- `memmove` copies in any case. -/
lemma memmove_eq (dstFits : dst + len ≤ 2 ^ 32) (srcFits : src + len ≤ 2 ^ 32) :
    memmove m dst src len = (snapshot m dst src len, dst) := by
  rw [memmove]
  split_ifs with below aligned
  · exact memcpy_eq below.le dstFits srcFits
  · have whole : sizeofLong * (len / sizeofLong) = len := Nat.mul_div_cancel' (Nat.dvd_of_mod_eq_zero aligned.2.2)
    rw [loopDown_eq (Nat.le_of_not_lt below) (copyLong_copies dstFits srcFits) whole.le, whole]
  · rw [loopDown_eq (Nat.le_of_not_lt below) (copyChar_copies dstFits srcFits) (Nat.one_mul len).le, Nat.one_mul]

/-- What `uiomove` takes for `memmove` is what `memmove` does. -/
lemma uiomove_memmove (dstFits : dst + len ≤ 2 ^ 32) (srcFits : src + len ≤ 2 ^ 32) :
    Uiomove.Mem.memmove m dst src len = (memmove m dst src len).1 := by
  rw [memmove_eq dstFits srcFits]
  rfl

end

/-- `memmove` returns `dst`, the bytes at `dst` are those that were at `src`, and no other byte changes, however the
regions overlap. -/
theorem memmove_moves (m : Mem) {dst src len : Nat} (dstFits : dst + len ≤ 2 ^ 32) (srcFits : src + len ≤ 2 ^ 32) :
    (memmove m dst src len).2 = dst ∧ (∀ i < len, (memmove m dst src len).1 (dst + i) = m (src + i)) ∧
      ∀ x, x < dst ∨ dst + len ≤ x → (memmove m dst src len).1 x = m x := by
  rw [memmove_eq dstFits srcFits]
  exact ⟨rfl, fun i lt => snapshot_of_mem lt, fun x out => snapshot_of_not out⟩

/-- Two words are moved up by one word. -/
theorem memmove_moves_two : let r := memmove (fun x => UInt8.ofNat x) 4 0 8
    r.2 = 4 ∧ r.1 8 = 4 ∧ r.1 12 = 12 := by
  have dstFits : 4 + 8 ≤ 2 ^ 32 := by decide
  have srcFits : 0 + 8 ≤ 2 ^ 32 := by decide
  obtain ⟨ret, moved, kept⟩ := memmove_moves (fun x => UInt8.ofNat x) dstFits srcFits
  exact ⟨ret, moved 4 (by decide), kept 12 (.inr (le_refl _))⟩

end PDS.Libc
