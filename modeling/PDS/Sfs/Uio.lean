import PDS.Kern.Machine

/-!
# I/O requests

Port of `uiomove`, `uiomovezeros` and `uio_kinit` in `kern/lib/uio.c` for requests whose buffers can be accessed
(`UIO_SYSSPACE`, or a user buffer that is mapped), so that moving bytes does not fail.

The buffers of a request are filled or emptied one after the other, so a request keeps the number of bytes that
are left in each of them, and the bytes themselves in one list: those that have been put into the buffers so
far for a read, those that are still to be taken from them for a write. A buffer on the other side, of a driver
or of the file system, holds a disk block.
-/

namespace PDS.Sfs
open Kern Word

/-- C `enum uio_rw`. -/
inductive UioRw where
  | read
  | write
deriving DecidableEq, Repr

/-- C `struct uio`. -/
structure Uio where
  /-- `iov_len` of each buffer -/
  iov : List Nat
  data : List UInt8
  offset : Nat
  resid : Nat
  rw : UioRw
deriving DecidableEq, Repr

/-- Size of our blocks (C `SFS_BLOCKSIZE`), which is the size of a sector (C `LHD_SECTSIZE`). -/
def blocksize : Nat := 512

/-- The bytes of a disk block, or of a buffer for one. -/
abbrev Block := Fin 512 → UInt8

/-- The byte at a position of a block. -/
def Block.at (b : Block) (k : Nat) : UInt8 := b (Fin.ofNat 512 k)

/-- The bytes from `pos` on. -/
def Block.slice (b : Block) (pos n : Nat) : List UInt8 := (List.range' pos n).map b.at

/-- Bytes are stored from `pos` on. -/
def Block.store (b : Block) (pos : Nat) (bytes : List UInt8) : Block := fun k =>
  if pos ≤ k.val ∧ k.val < pos + bytes.length then bytes.getD (k.val - pos) 0 else b k

/-- A block of zeros. -/
def Block.zeros : Block := fun _ => 0

/-- The loop of `uiomove` for `n` bytes; the result is what is left of the buffers and the number of bytes
moved. -/
def uiomoveLoop : List Nat → Nat → Nat → Except Halt (List Nat × Nat)
  | [], n, resid =>
    if n > 0 ∧ resid > 0 then .error (.panic "uiomove: ran out of buffers\n") else .ok ([], 0)
  | len :: iov, n, resid =>
    if n > 0 ∧ resid > 0 then
      let size := min len n
      let resid := wsub 32 resid size
      if n - size > 0 ∧ resid > 0 then do
        -- "move to the next iovec and try again"
        let (iov, moved) ← uiomoveLoop iov (n - size) resid
        .ok (iov, size + moved)
      else .ok ((len - size) :: iov, size)
    else .ok (len :: iov, 0)

/-- Moves `n` bytes between the buffer `ptr`, from `pos` on, and a request (C `uiomove`). -/
def uiomove (ptr : Block) (pos n : Nat) (u : Uio) : Except Halt (Block × Uio) := do
  let (iov, moved) ← uiomoveLoop u.iov n u.resid
  let u := { u with iov := iov, offset := u.offset + moved, resid := wsub 32 u.resid moved }
  match u.rw with
  | .read => .ok (ptr, { u with data := u.data ++ ptr.slice pos moved })
  | .write => .ok (ptr.store pos (u.data.take moved), { u with data := u.data.drop moved })

/-- The loop of `uiomovezeros`; there are at most `n` iterations. -/
def uiomovezerosLoop : Nat → Nat → Uio → Except Halt Uio
  | 0, _, u => .ok u
  | fuel + 1, n, u =>
    if n > 0 then do
      let amt := min 16 n
      let (_, u) ← uiomove Block.zeros 0 amt u
      uiomovezerosLoop fuel (n - amt) u
    else .ok u

/-- Moves zeros (C `uiomovezeros`). -/
def uiomovezeros (n : Nat) (u : Uio) : Except Halt Uio := do
  kassert (u.rw = .read) "uio->uio_rw == UIO_READ"
  uiomovezerosLoop n n u

/-- A request for `len` bytes at `pos`; for a write, `data` are the bytes of the buffer (C `uio_kinit`). -/
def uioKinit (data : List UInt8) (len pos : Nat) (rw : UioRw) : Uio := ⟨[len], data, pos, len, rw⟩

variable {b b' : Block} {pos m n k : Nat} {bytes bytes' : List UInt8}

/-- A byte inside the block. -/
lemma Block.at_of_lt (h : k < 512) : b.at k = b ⟨k, h⟩ :=
  congrArg b (Fin.ext (Nat.mod_eq_of_lt h))

/-- The same for an index of the block. -/
lemma Block.at_val (b : Block) (k : Fin 512) : b.at k.val = b k := Block.at_of_lt k.isLt

/-- Blocks with equal bytes are equal. -/
lemma Block.ext_at (h : ∀ k < 512, b.at k = b'.at k) : b = b' := by
  funext k
  rw [← Block.at_val b, ← Block.at_val b', h k.val k.isLt]

/-- The length of a slice. -/
@[simp] lemma Block.length_slice (b : Block) (pos n : Nat) : (b.slice pos n).length = n := by
  simp [Block.slice]

/-- A slice of a cleared block. -/
lemma Block.slice_zeros (pos n : Nat) : Block.zeros.slice pos n = List.replicate n 0 := by
  rw [Block.slice, List.eq_replicate_iff]
  refine ⟨by simp, ?_⟩
  intro x mem
  obtain ⟨k, -, rfl⟩ := List.mem_map.1 mem
  rfl

/-- The bytes of a slice. -/
lemma Block.getD_slice (h : k < n) : (b.slice pos n).getD k 0 = b.at (pos + k) := by
  rw [List.getD_eq_getElem _ _ (by simpa using h)]
  simp [Block.slice]

/-- The bytes after a store. -/
lemma Block.at_store (h : k < 512) :
    (b.store pos bytes).at k = if pos ≤ k ∧ k < pos + bytes.length then bytes.getD (k - pos) 0 else b.at k := by
  rw [Block.at_of_lt h, Block.at_of_lt h, Block.store]

/-- A block that is stored as a whole. -/
lemma Block.store_slice (b b' : Block) : b.store 0 (b'.slice 0 512) = b' := by
  apply Block.ext_at
  intro k lt
  rw [Block.at_store lt, if_pos (by simpa using lt), Nat.sub_zero, Block.getD_slice lt, Nat.zero_add]

/-- What is left of the buffers when `n` bytes have been moved. -/
def iovDrop : List Nat → Nat → List Nat
  | [], _ => []
  | len :: iov, n => if n ≤ len then (len - n) :: iov else iovDrop iov (n - len)

/-- A request of which bytes have been read. -/
def Uio.put (u : Uio) (bytes : List UInt8) : Uio where
  iov := iovDrop u.iov bytes.length
  data := u.data ++ bytes
  offset := u.offset + bytes.length
  resid := u.resid - bytes.length
  rw := u.rw

/-- A request of which `n` bytes have been written. -/
def Uio.advance (u : Uio) (n : Nat) : Uio where
  iov := iovDrop u.iov n
  data := u.data.drop n
  offset := u.offset + n
  resid := u.resid - n
  rw := u.rw

/-- The request is no longer than its buffers, and its length is a `size_t`. -/
structure Uio.Fits (u : Uio) : Prop where
  le : u.resid ≤ u.iov.sum
  lt : u.resid < 2 ^ 32

/-- Nothing taken off. -/
lemma iovDrop_zero (iov : List Nat) : iovDrop iov 0 = iov := by
  cases iov with
  | nil => rfl
  | cons len iov => rw [iovDrop, if_pos (Nat.zero_le _), Nat.sub_zero]

/-- The room left after bytes are taken off. -/
lemma sum_iovDrop {iov : List Nat} (h : n ≤ iov.sum) : (iovDrop iov n).sum = iov.sum - n := by
  induction iov generalizing n with
  | nil => simp [iovDrop]
  | cons len iov ih =>
    rw [List.sum_cons] at h ⊢
    rw [iovDrop]
    split_ifs with le
    · rw [List.sum_cons]
      omega
    · rw [ih (by omega)]
      omega

/-- Bytes taken off twice. -/
lemma iovDrop_iovDrop (iov : List Nat) (m n : Nat) : iovDrop (iovDrop iov m) n = iovDrop iov (m + n) := by
  induction iov generalizing m with
  | nil => rfl
  | cons len iov ih =>
    rw [iovDrop, iovDrop]
    by_cases le : m ≤ len
    · rw [if_pos le, iovDrop]
      by_cases le' : m + n ≤ len
      · rw [if_pos (by omega), if_pos le', Nat.sub_sub]
      · rw [if_neg (by omega), if_neg le']
        congr 1
        omega
    · rw [if_neg le, if_neg (by omega), ih]
      congr 1
      omega

/-- The loop moves all the bytes it is asked for. -/
lemma uiomoveLoop_eq {iov : List Nat} {resid : Nat} (le : n ≤ resid) (fits : resid ≤ iov.sum) (lt : resid < 2 ^ 32) :
    uiomoveLoop iov n resid = .ok (iovDrop iov n, n) := by
  induction iov generalizing n resid with
  | nil =>
    have zero : n = 0 := by
      rw [List.sum_nil] at fits
      omega
    rw [uiomoveLoop, if_neg (by omega), zero]
    rfl
  | cons len iov ih =>
    rw [List.sum_cons] at fits
    rw [uiomoveLoop, iovDrop]
    by_cases pos : n > 0 ∧ resid > 0
    · have sub : wsub 32 resid (min len n) = resid - min len n := wsub_of_le (by omega) lt
      rw [if_pos pos]
      dsimp only
      rw [sub]
      by_cases more : n ≤ len
      · rw [if_pos more, min_eq_right more, if_neg (by omega)]
      · rw [if_neg more, min_eq_left (by omega), if_pos (by omega), ih (by omega) (by omega) (by omega), ok_bind]
        simp only [Except.ok.injEq, Prod.mk.injEq, true_and]
        omega
    · have zero : n = 0 := by omega
      rw [if_neg pos, zero, if_pos (Nat.zero_le _), Nat.sub_zero]

variable {ptr : Block} {u : Uio}

/-- Bytes are read into the buffers. -/
lemma uiomove_read (fits : u.Fits) (rw : u.rw = .read) (le : n ≤ u.resid) :
    uiomove ptr pos n u = .ok (ptr, u.put (ptr.slice pos n)) := by
  rw [uiomove, uiomoveLoop_eq le fits.le fits.lt]
  simp [rw, Uio.put, wsub_of_le le fits.lt]

/-- Bytes are written from the buffers. -/
lemma uiomove_write (fits : u.Fits) (rw : u.rw = .write) (le : n ≤ u.resid) :
    uiomove ptr pos n u = .ok (ptr.store pos (u.data.take n), u.advance n) := by
  rw [uiomove, uiomoveLoop_eq le fits.le fits.lt]
  simp [rw, Uio.advance, wsub_of_le le fits.lt]

/-- A request stays consistent as bytes are put into it. -/
lemma Uio.Fits.put (fits : u.Fits) (le : bytes.length ≤ u.resid) : (u.put bytes).Fits where
  le := by
    have sum := fits.le
    rw [Uio.put, sum_iovDrop (by omega)]
    dsimp only
    omega
  lt := lt_of_le_of_lt (Nat.sub_le ..) fits.lt

/-- A request stays consistent as it advances. -/
lemma Uio.Fits.advance (fits : u.Fits) (le : n ≤ u.resid) : (u.advance n).Fits where
  le := by
    have sum := fits.le
    rw [Uio.advance, sum_iovDrop (by omega)]
    dsimp only
    omega
  lt := lt_of_le_of_lt (Nat.sub_le ..) fits.lt

/-- Putting nothing changes nothing. -/
lemma Uio.put_nil (u : Uio) : u.put [] = u := by
  simp [Uio.put, iovDrop_zero]

/-- Bytes put twice are put at once. -/
lemma Uio.put_put (u : Uio) (bytes bytes' : List UInt8) : (u.put bytes).put bytes' = u.put (bytes ++ bytes') := by
  simp [Uio.put, iovDrop_iovDrop, Nat.add_assoc, Nat.sub_sub]

/-- Advancing by 0 changes nothing. -/
lemma Uio.advance_zero (u : Uio) : u.advance 0 = u := by
  simp [Uio.advance, iovDrop_zero]

/-- Advances add up. -/
lemma Uio.advance_advance (u : Uio) (m n : Nat) : (u.advance m).advance n = u.advance (m + n) := by
  simp [Uio.advance, iovDrop_iovDrop, Nat.add_assoc, Nat.sub_sub]

/-- The loop of `uiomovezeros` puts zeros. -/
lemma uiomovezerosLoop_eq {fuel : Nat} (fits : u.Fits) (rw : u.rw = .read) (le : n ≤ u.resid) (enough : n ≤ fuel) :
    uiomovezerosLoop fuel n u = .ok (u.put (List.replicate n 0)) := by
  induction fuel generalizing n u with
  | zero =>
    have zero : n = 0 := by omega
    rw [uiomovezerosLoop, zero, List.replicate_zero, Uio.put_nil]
  | succ fuel ih =>
    rw [uiomovezerosLoop]
    split_ifs with pos
    · have part : min 16 n ≤ u.resid := by omega
      dsimp only
      rw [uiomove_read fits rw part, ok_bind, Block.slice_zeros]
      dsimp only
      rw [ih (fits.put (by simpa using part)) rw (by simp [Uio.put]; omega) (by omega), Uio.put_put,
        ← List.replicate_add]
      congr 4
      omega
    · have zero : n = 0 := by omega
      rw [zero, List.replicate_zero, Uio.put_nil]

/-- Zeros are read into the buffers. -/
lemma uiomovezeros_eq (fits : u.Fits) (rw : u.rw = .read) (le : n ≤ u.resid) :
    uiomovezeros n u = .ok (u.put (List.replicate n 0)) := by
  rw [uiomovezeros, kassert_pos rw, ok_bind, uiomovezerosLoop_eq fits rw le (Nat.le_refl n)]

end PDS.Sfs
