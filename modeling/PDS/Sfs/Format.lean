import PDS.Sfs.Uio
import Mathlib.Data.List.TakeWhile

/-!
# The on-disk format

Port of `kern/include/kern/sfs.h`: the structures of a volume and how they lie in its blocks. The machine and the
format are big-endian. A block has `512` bytes (`SFS_BLOCKSIZE`); an inode has `15` direct blocks (`SFS_NDIRECT`)
and an indirect block with the numbers of `128` more (`SFS_DBPERIDB`); a directory entry has `64` bytes, of which
`60` are for the name (`SFS_NAMELEN`), and inode number `0` marks a free entry (`SFS_NOINO`). The superblock is
block `0`, the inode of the root directory block `1`, and the free map starts at block `2`. The unused space of an
inode is left out.
-/

namespace PDS.Sfs

/-- The magic number of a superblock (C `SFS_MAGIC`). -/
def sfsMagic : Nat := 0xabadf001

/-- C `SFS_TYPE_INVAL`. -/
abbrev typeInval : UInt16 := 0

/-- C `SFS_TYPE_FILE`. -/
abbrev typeFile : UInt16 := 1

/-- C `SFS_TYPE_DIR`. -/
abbrev typeDir : UInt16 := 2

/-- Size of the bitmap in blocks (C `SFS_BITBLOCKS`). -/
def bitblocks (nblocks : Nat) : Nat := (nblocks + 4096 - 1) / 4096

/-- Size of the bitmap in bits (C `SFS_BITMAPSIZE`). -/
def bitmapsize (nblocks : Nat) : Nat := bitblocks nblocks * 4096

/-- The 32-bit word number `k` of a block. -/
def Block.word (b : Block) (k : Nat) : Nat :=
  (b.at (4 * k)).toNat * 2 ^ 24 + (b.at (4 * k + 1)).toNat * 2 ^ 16 + (b.at (4 * k + 2)).toNat * 2 ^ 8 +
    (b.at (4 * k + 3)).toNat

/-- The byte number `i` of a 32-bit word. -/
def wordByte (n i : Nat) : UInt8 := UInt8.ofNat (n / 2 ^ (8 * (3 - i)))

/-- The block with the words `w`. -/
def Block.ofWords (w : Nat → Nat) : Block := fun k => wordByte (w (k.val / 4)) (k.val % 4)

/-- C `struct sfs_inode`, without `sfi_waste`. -/
structure SfsInode where
  size : UInt32
  type : UInt16
  linkcount : UInt16
  direct : Fin 15 → UInt32
  indirect : UInt32
deriving DecidableEq

/-- The words of an inode. -/
def SfsInode.words (i : SfsInode) (k : Nat) : Nat :=
  if k = 0 then i.size.toNat
  else if k = 1 then i.type.toNat * 2 ^ 16 + i.linkcount.toNat
  else if h : k - 2 < 15 then (i.direct ⟨k - 2, h⟩).toNat
  else if k = 17 then i.indirect.toNat
  else 0

/-- The block of an inode. -/
def SfsInode.toBlock (i : SfsInode) : Block := Block.ofWords i.words

/-- The inode in a block. -/
def SfsInode.ofBlock (b : Block) : SfsInode where
  size := UInt32.ofNat (b.word 0)
  type := UInt16.ofNat (b.word 1 / 2 ^ 16)
  linkcount := UInt16.ofNat (b.word 1)
  direct k := UInt32.ofNat (b.word (2 + k.val))
  indirect := UInt32.ofNat (b.word 17)

/-- C `struct sfs_dir`; the name has `60` bytes. -/
structure SfsDir where
  ino : Nat
  name : List UInt8
deriving DecidableEq, Repr

/-- The bytes of a directory entry. -/
def SfsDir.toBytes (sd : SfsDir) : List UInt8 :=
  wordByte sd.ino 0 :: wordByte sd.ino 1 :: wordByte sd.ino 2 :: wordByte sd.ino 3 :: sd.name

/-- The directory entry in `64` bytes. -/
def SfsDir.ofBytes : List UInt8 → SfsDir
  | b₀ :: b₁ :: b₂ :: b₃ :: name =>
    ⟨b₀.toNat * 2 ^ 24 + b₁.toNat * 2 ^ 16 + b₂.toNat * 2 ^ 8 + b₃.toNat, name⟩
  | _ => ⟨0, []⟩

/-- The string in a buffer, up to the first zero. -/
def cstring (bytes : List UInt8) : List UInt8 := bytes.takeWhile (· ≠ 0)

/-- A C string: the bytes before its terminating zero. -/
abbrev CStr := { s : List UInt8 // 0 ∉ s }

/-- The `j`th block of a free map. -/
def mapBlock (bit : Nat → Bool) (j : Nat) : Block := fun k =>
  UInt8.ofNat (Nat.ofBits fun i : Fin 8 => bit (8 * (512 * j + k.val) + i.val))

/-- The bit number `i` of the blocks `map j` of a free map. -/
def mapBit (map : Nat → Block) (i : Nat) : Bool := ((map (i / 4096)).at (i / 8)).toNat.testBit (i % 8)

variable {b : Block} {w : Nat → Nat} {k : Nat}

/-- A word of a block is below 2^32. -/
lemma Block.word_lt (b : Block) (k : Nat) : b.word k < 2 ^ 32 := by
  have h₀ := (b.at (4 * k)).toNat_lt
  have h₁ := (b.at (4 * k + 1)).toNat_lt
  have h₂ := (b.at (4 * k + 2)).toNat_lt
  have h₃ := (b.at (4 * k + 3)).toNat_lt
  rw [Block.word]
  omega

/-- The bytes of a word, the most significant first. -/
lemma toNat_wordByte (n i : Nat) : (wordByte n i).toNat = n / 2 ^ (8 * (3 - i)) % 256 := by
  rw [wordByte, UInt8.toNat_ofNat']

/-- Four bytes of a word make up the word. -/
lemma word_of_bytes {n : Nat} (h : n < 2 ^ 32) :
    (wordByte n 0).toNat * 2 ^ 24 + (wordByte n 1).toNat * 2 ^ 16 + (wordByte n 2).toNat * 2 ^ 8 +
      (wordByte n 3).toNat = n := by
  simp only [toNat_wordByte]
  norm_num
  omega

/-- The bytes of a block of words. -/
lemma Block.at_ofWords {i : Nat} (hk : k < 128) (hi : i < 4) :
    (Block.ofWords w).at (4 * k + i) = wordByte (w k) i := by
  rw [Block.at_of_lt (by omega), Block.ofWords]
  dsimp only
  rw [show (4 * k + i) / 4 = k by omega, show (4 * k + i) % 4 = i by omega]

/-- The words of a block of words. -/
lemma Block.word_ofWords (hk : k < 128) (hw : w k < 2 ^ 32) : (Block.ofWords w).word k = w k := by
  have h₀ := Block.at_ofWords (w := w) hk (i := 0) (by decide)
  rw [Nat.add_zero] at h₀
  rw [Block.word, h₀, Block.at_ofWords hk (by decide), Block.at_ofWords hk (by decide),
    Block.at_ofWords hk (by decide)]
  exact word_of_bytes hw

/-- A cleared block reads 0. -/
lemma Block.word_zeros (k : Nat) : Block.zeros.word k = 0 := by
  have zero (n : Nat) : (Block.zeros.at n).toNat = 0 := rfl
  simp [Block.word, zero]

/-- The words of an inode are below 2^32. -/
lemma SfsInode.words_lt (i : SfsInode) (k : Nat) : i.words k < 2 ^ 32 := by
  have type := i.type.toNat_lt
  have links := i.linkcount.toNat_lt
  rw [SfsInode.words]
  split_ifs
  · exact i.size.toNat_lt
  · omega
  · exact UInt32.toNat_lt _
  · exact i.indirect.toNat_lt
  · decide

/-- What is written for an inode is read back. -/
lemma SfsInode.ofBlock_toBlock (i : SfsInode) : SfsInode.ofBlock i.toBlock = i := by
  have word (k : Nat) (h : k < 128) : i.toBlock.word k = i.words k := Block.word_ofWords h (i.words_lt k)
  have type := i.type.toNat_lt
  have links := i.linkcount.toNat_lt
  cases i with
  | mk size type linkcount direct indirect =>
    rw [SfsInode.ofBlock, SfsInode.mk.injEq]
    refine ⟨?_, ?_, ?_, ?_, ?_⟩
    · rw [word 0 (by decide)]
      exact UInt32.ofNat_toNat
    · rw [word 1 (by decide)]
      dsimp only [SfsInode.words] at *
      apply UInt16.toNat_inj.1
      rw [if_neg (by decide), if_pos rfl, UInt16.toNat_ofNat']
      omega
    · rw [word 1 (by decide)]
      dsimp only [SfsInode.words] at *
      apply UInt16.toNat_inj.1
      rw [if_neg (by decide), if_pos rfl, UInt16.toNat_ofNat']
      omega
    · funext k
      have lt := k.isLt
      rw [word _ (by omega)]
      dsimp only [SfsInode.words]
      rw [if_neg (by omega), if_neg (by omega), dif_pos (by omega), UInt32.ofNat_toNat]
      congr
      omega
    · rw [word 17 (by decide)]
      exact UInt32.ofNat_toNat

/-- The inode in a cleared block. -/
def SfsInode.blank : SfsInode := ⟨0, typeInval, 0, fun _ => 0, 0⟩

/-- A cleared block reads as the blank inode. -/
lemma SfsInode.ofBlock_zeros : SfsInode.ofBlock Block.zeros = SfsInode.blank := by
  simp only [SfsInode.ofBlock, SfsInode.blank, Block.word_zeros]
  rfl

/-- An entry is read back as it was written. -/
lemma SfsDir.ofBytes_toBytes {sd : SfsDir} (h : sd.ino < 2 ^ 32) : SfsDir.ofBytes sd.toBytes = sd := by
  rw [SfsDir.toBytes, SfsDir.ofBytes, word_of_bytes h]

/-- A string in a buffer of zeros. -/
lemma cstring_append_zeros (s : CStr) (n : Nat) : cstring (s.val ++ List.replicate n 0) = s.val := by
  obtain ⟨s, h⟩ := s
  rw [cstring, List.takeWhile_append_of_pos]
  · cases n with
    | zero => simp
    | succ n => simp [List.replicate_succ]
  · intro x mem
    have : x ≠ 0 := fun e => h (e ▸ mem)
    simpa using this

/-- The bits of a byte. -/
lemma testBit_ofBits {f : Fin 8 → Bool} {i : Nat} (h : i < 8) :
    (UInt8.ofNat (Nat.ofBits f)).toNat.testBit i = f ⟨i, h⟩ := by
  have lt := Nat.ofBits_lt_two_pow f
  rw [UInt8.toNat_ofNat', Nat.mod_eq_of_lt lt, Nat.testBit_ofBits_lt f i h]

/-- What is written for a free map is read back. -/
lemma mapBit_mapBlock (bit : Nat → Bool) (i : Nat) : mapBit (mapBlock bit) i = bit i := by
  have at_eq : (mapBlock bit (i / 4096)).at (i / 8) =
      UInt8.ofNat (Nat.ofBits fun k : Fin 8 => bit (8 * (i / 8) + k.val)) := by
    rw [Block.at, mapBlock]
    have pos : 512 * (i / 4096) + (i / 8) % 512 = i / 8 := by
      rw [show i / 4096 = i / 8 / 512 by rw [Nat.div_div_eq_div_mul]]
      exact Nat.div_add_mod _ _
    simp only [Fin.val_ofNat, pos]
  rw [mapBit, at_eq, testBit_ofBits (Nat.mod_lt i (by decide))]
  congr
  exact Nat.div_add_mod i 8

/-- A bit of the map depends on its block only. -/
lemma mapBit_congr {map map' : Nat → Block} {i : Nat} (h : map (i / 4096) = map' (i / 4096)) :
    mapBit map i = mapBit map' i := by
  rw [mapBit, mapBit, h]

/-- Every bit is in one of the map's blocks. -/
lemma div_mapbits_lt {n i : Nat} (h : i < bitmapsize n) : i / 4096 < bitblocks n :=
  Nat.div_lt_of_lt_mul (by rwa [Nat.mul_comm])

/-- The map has a bit for every block. -/
lemma le_bitmapsize (n : Nat) : n ≤ bitmapsize n := by
  rw [bitmapsize, bitblocks]
  have := Nat.div_add_mod (n + 4096 - 1) 4096
  have := Nat.mod_lt (n + 4096 - 1) (show 0 < 4096 by decide)
  omega

end PDS.Sfs
