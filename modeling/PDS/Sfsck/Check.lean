import PDS.Lib.Prog
import PDS.Sfs.Disk
import PDS.Sfs.Format

/-!
# The file system checker

Port of `user/sbin/sfsck/sfsck.c`, and of `diskread` and `diskwrite` in `user/sbin/mksfs/disk.c`, as they are built
for OS/161 (without `HOST`, with `NO_REALLOC` and `NO_QSORT`). The static variables of the program are the state.
The messages it prints, the path names that are there for the messages only and the counters it prints at the end
are left out. There is always enough memory. The disk reads and writes every sector it has.

A call of `check_dir` for a subdirectory is made from within the one for its parent. The functions that contain such
a call have a bound on how deep these calls nest, and stop with `Stop.depth` beyond it.
-/

namespace PDS.Sfsck
open Sfs Word

/-- How the program stops without an exit status. -/
inductive Stop where
  /-- a failed `assert` -/
  | assertion (message : String)
  /-- an access past the end of the bitmap -/
  | fault
  /-- an access past the end of the buffer for the entries of a directory -/
  | overrun
  /-- the calls of `check_dir` nest too deep for the bound -/
  | depth
deriving DecidableEq, Repr

/-- C `struct inodememory`; the link count of a directory is `0`. -/
structure Inodememory where
  ino : Nat
  linkcount : Nat
deriving DecidableEq, Repr

/-- The disk and the static variables of the checker. -/
structure Check where
  disk : Lhd
  /-- the sectors that have been written, the last one first -/
  writes : List Nat
  badness : Nat
  nblocks : Nat
  bitblocks : Nat
  uniquecounter : Nat
  /-- the bits of `bitmapdata` -/
  bitmapdata : Nat → Bool
  /-- the bits of `tofreedata` -/
  tofreedata : Nat → Bool
  inodes : Nat → Inodememory
  ninodes : Nat
  maxinodes : Nat

/-- The state in which the checker starts. -/
def Check.start (disk : Lhd) : Check where
  disk := disk
  writes := []
  badness := 0
  nblocks := 0
  bitblocks := 0
  uniquecounter := 1
  bitmapdata := fun _ => false
  tofreedata := fun _ => false
  inodes := fun _ => ⟨0, 0⟩
  ninodes := 0
  maxinodes := 0

/-- A function of the checker. The error code is the exit status of `err` and `errx`. -/
abbrev CheckM := Prog Stop Nat Check

/-- C `EXIT_RECOV`. -/
def exitRecov : Nat := 1

/-- C `EXIT_UNRECOV`. -/
def exitUnrecov : Nat := 2

/-- C `SFS_ROUNDUP`, in `32` bits. -/
def roundup (a b : Nat) : Nat := wadd 32 a (b - 1) / b * b

/-- C `setbadness`. -/
def setbadness (code : Nat) : CheckM Unit :=
  Prog.modify fun s => if s.badness < code then { s with badness := code } else s

/-- The sector at the position `block*BLOCKSIZE`, which has `32` bits. -/
def sector (block : Nat) : Nat := wmul 32 block 512 / 512

/-- Reads a block; the exit status is `1` if the disk has no such sector (C `diskread`). -/
def diskread (block : Nat) : CheckM Block := do
  let s ← Prog.get
  if sector block < s.disk.blocks then pure (s.disk.sect (sector block)) else Prog.fail 1

/-- The block `b` is written to a sector. -/
def Check.write (s : Check) (n : Nat) (b : Block) : Check :=
  { s with
    disk := { s.disk with sect := Function.update s.disk.sect n b }
    writes := n :: s.writes }

/-- Writes a block; the exit status is `1` if the disk has no such sector (C `diskwrite`). -/
def diskwrite (b : Block) (block : Nat) : CheckM Unit := do
  let s ← Prog.get
  if sector block < s.disk.blocks then Prog.modify fun s => s.write (sector block) b else Prog.fail 1

/-- The block `b`, which holds an inode, with another inode in it: `sfi_waste` stays as it is. -/
def withInode (b : Block) (sfi : SfsInode) : Block :=
  Block.ofWords fun k => if k < 18 then sfi.words k else b.word k

/-- C `blockusage_t`. -/
inductive Blockusage where
  | superblock
  | bitblock
  | inode
  | iblock
  | dirdata
  | data
  /-- "Block that was used but we are releasing" -/
  | tofree
  /-- "Block off the end of the fs" -/
  | pastend
deriving DecidableEq, Repr

/-- A block is marked (C `bitmap_mark`). -/
def Check.mark (s : Check) (block : Nat) : Blockusage → Check
  | .tofree =>
    if s.tofreedata block ∨ s.bitmapdata block then s
    else { s with tofreedata := Function.update s.tofreedata block true }
  | _ =>
    { s with
      -- "really using the block, don't free it"
      tofreedata := Function.update s.tofreedata block false
      badness := if s.bitmapdata block then max s.badness exitUnrecov else s.badness
      bitmapdata := Function.update s.bitmapdata block true }

/-- C `bitmap_mark`. -/
def bitmapMark (block : Nat) (how : Blockusage) : CheckM Unit := do
  let s ← Prog.get
  Prog.require (block < 4096 * s.bitblocks) .fault
  Prog.modify fun s => s.mark block how

/-- Marks blocks one after the other. -/
def markAll (how : Blockusage) : List Nat → CheckM Unit
  | [] => pure ()
  | block :: blocks => do
    bitmapMark block how
    markAll how blocks

/-- C `countbits`. -/
def countbits (val : UInt8) : Nat := (List.range 8).countP fun y => val.toNat.testBit y

/-- The loop of `check_bitmap` over the bytes of a block of the bitmap: whether it changes, how many blocks were
erroneously shown free and how many erroneously shown used. Every byte that differs becomes the byte that was
found. -/
def checkBytes (bits found tofree : Block) : List (Fin 512) → CheckM (Bool × Nat × Nat)
  | [] => pure (false, 0, 0)
  | j :: rest => do
    -- "we shouldn't have blocks marked both ways"
    Prog.require (found j &&& tofree j = 0) (.assertion "(found[j] & tofree[j])==0")
    if bits j = found j then checkBytes bits found tofree rest
    else if bits j = found j ||| tofree j then do
      let (_, alloccount, freecount) ← checkBytes bits found tofree rest
      pure (true, alloccount, freecount)
    else do
      let freed := bits j &&& ~~~ tofree j
      let (_, alloccount, freecount) ← checkBytes bits found tofree rest
      pure (true, countbits (found j &&& ~~~ freed) + alloccount, countbits (freed &&& ~~~ found j) + freecount)

/-- The loop of `check_bitmap` over the blocks of the bitmap, from `i` on. -/
def checkMapblocks : Nat → Nat → CheckM (Nat × Nat)
  | 0, _ => pure (0, 0)
  | n + 1, i => do
    let bits ← diskread (2 + i)
    let s ← Prog.get
    let found := mapBlock s.bitmapdata i
    let (bchanged, alloccount, freecount) ←
      checkBytes bits found (mapBlock s.tofreedata i) (List.finRange 512)
    Prog.when bchanged (diskwrite found (2 + i))
    let (alloccount', freecount') ← checkMapblocks n (i + 1)
    pure (alloccount + alloccount', freecount + freecount')

/-- C `check_bitmap`. -/
def checkBitmap : CheckM Unit := do
  let s ← Prog.get
  let (alloccount, freecount) ← checkMapblocks s.bitblocks 0
  Prog.when (alloccount > 0) (setbadness exitRecov)
  Prog.when (freecount > 0) (setbadness exitRecov)

/-- Puts an inode into the array at `ninodes`. When the array is full a larger one is allocated first; it gets the
first `ninodes` bytes of the old one, and there are none to copy as long as `ninodes` is `0` (C `addmemory`). -/
def addmemory (ino linkcount : Nat) : CheckM Unit := do
  let s ← Prog.get
  Prog.require (s.ninodes ≤ s.maxinodes) (.assertion "ninodes <= maxinodes")
  Prog.modify fun s => { s with inodes := Function.update s.inodes s.ninodes ⟨ino, linkcount⟩ }

/-- The first place of an inode in the array. -/
def Check.findInode (s : Check) (ino : Nat) : Option Nat :=
  (List.range s.ninodes).find? fun i => (s.inodes i).ino = ino

/-- "returns nonzero if directory already remembered" (C `remember_dir`). -/
def rememberDir (ino : Nat) : CheckM Bool := do
  let s ← Prog.get
  match s.findInode ino with
  | some i => do
    Prog.require ((s.inodes i).linkcount = 0) (.assertion "inodes[i].linkcount==0")
    pure true
  | none => do
    addmemory ino 0
    pure false

/-- C `observe_filelink`. -/
def observeFilelink (ino : Nat) : CheckM Unit := do
  let s ← Prog.get
  match s.findInode ino with
  | some i => do
    Prog.require ((s.inodes i).linkcount > 0) (.assertion "inodes[i].linkcount>0")
    Prog.modify fun s =>
      { s with inodes := Function.update s.inodes i ⟨ino, wadd 32 (s.inodes i).linkcount 1⟩ }
  | none => do
    bitmapMark ino .inode
    addmemory ino 1

/-- The loop of `adjust_filelinks` over the places of the array. -/
def adjustLoop : List Nat → CheckM Unit
  | [] => pure ()
  | i :: rest => do
    let s ← Prog.get
    let m := s.inodes i
    if m.linkcount = 0 then adjustLoop rest
    else do
      let b ← diskread m.ino
      let sfi := SfsInode.ofBlock b
      Prog.require (sfi.type = typeFile) (.assertion "sfi.sfi_type == SFS_TYPE_FILE")
      Prog.when (sfi.linkcount.toNat ≠ m.linkcount) do
        setbadness exitRecov
        diskwrite (withInode b { sfi with linkcount := UInt16.ofNat m.linkcount }) m.ino
      adjustLoop rest

/-- C `adjust_filelinks`. -/
def adjustFilelinks : CheckM Unit := do
  let s ← Prog.get
  adjustLoop (List.range s.ninodes)

/-- Terminates a buffer that has no zero, and says whether it had to (C `checknullstring`). -/
def checknullstring (buf : List UInt8) : List UInt8 × Bool :=
  if 0 ∈ buf then (buf, false) else (buf.set (buf.length - 1) 0, true)

/-- Replaces `':'` and `'/'` in a string, and says whether there were any (C `checkbadstring`). -/
def checkbadstring : List UInt8 → List UInt8 × Bool
  | [] => ([], false)
  | c :: buf =>
    if c = 0 then (c :: buf, false)
    else if c = 58 ∨ c = 47 then (95 :: (checkbadstring buf).1, true)
    else (c :: (checkbadstring buf).1, (checkbadstring buf).2)

/-- Copies a string into a buffer (C `strcpy`). -/
def strcpy (buf str : List UInt8) : List UInt8 := str ++ 0 :: buf.drop (str.length + 1)

/-- C `strcmp`; a buffer ends with a zero. -/
def strcmp : List UInt8 → List UInt8 → Int
  | [], [] => 0
  | [], b :: _ => if 0 = b then 0 else -1
  | a :: _, [] => if a > 0 then 1 else 0
  | a :: as, b :: bs =>
    if a ≠ 0 ∧ a = b then strcmp as bs
    else if a > b then 1
    else if a = b then 0
    else -1

/-- The name `"."`. -/
def dot : List UInt8 := [46]

/-- The name `".."`. -/
def dotdot : List UInt8 := [46, 46]

/-- The string `"FSCK.%lu.%lu"`. -/
def fsckString (ino counter : Nat) : List UInt8 :=
  ("FSCK.".toList ++ Nat.toDigits 10 ino ++ ['.'] ++ Nat.toDigits 10 counter).map fun c => UInt8.ofNat c.toNat

/-- The next name of its kind for an inode, in the buffer of the old one. -/
def fsckName (ino : Nat) (name : List UInt8) : CheckM (List UInt8) := do
  let s ← Prog.get
  Prog.modify fun s => { s with uniquecounter := wadd 32 s.uniquecounter 1 }
  pure (strcpy name (fsckString ino s.uniquecounter))

/-- Size of the bitmap in blocks (C `SFS_BITBLOCKS`), in `32` bits. -/
def mapblocks (nblocks : Nat) : Nat := roundup nblocks 4096 / 4096

/-- The part of `check_sb` that checks the name of the volume. -/
def checkVolname (sp : Block) : CheckM Unit := do
  let terminated := checknullstring (sp.slice 8 32)
  let valid := checkbadstring terminated.1
  Prog.when (terminated.2 ∨ valid.2) do
    setbadness exitRecov
    diskwrite (sp.store 8 valid.1) 0

/-- The part of `check_sb` after the geometry is known. -/
def checkVolume (sp : Block) : CheckM Unit := do
  let s ← Prog.get
  markAll .pastend (List.range' s.nblocks (4096 * s.bitblocks - s.nblocks))
  checkVolname sp
  bitmapMark 0 .superblock
  markAll .bitblock (List.range' 2 s.bitblocks)

/-- C `check_sb`. -/
def checkSb : CheckM Unit := do
  let sp ← diskread 0
  if sp.word 0 ≠ sfsMagic then Prog.fail exitUnrecov
  else do
    let nblocks := sp.word 1
    Prog.require (nblocks > 0) (.assertion "nblocks>0")
    Prog.require (mapblocks nblocks > 0) (.assertion "bitblocks>0")
    Prog.modify fun s => { s with nblocks := nblocks, bitblocks := mapblocks nblocks }
    checkVolume sp

/-- The loop of `check_inode_blocks` over the direct blocks. -/
def checkDirect (sfi : SfsInode) (nblocks : Nat) (how : Blockusage) : List (Fin 15) → Nat → CheckM Nat
  | [], badcount => pure badcount
  | block :: rest, badcount =>
    if sfi.direct block = 0 then checkDirect sfi nblocks how rest badcount
    else if block.val < nblocks then do
      bitmapMark (sfi.direct block).toNat how
      checkDirect sfi nblocks how rest badcount
    else do
      bitmapMark (sfi.direct block).toNat .tofree
      checkDirect sfi nblocks how rest (badcount + 1)

/-- The loop of `check_indirect_block` over the entries of the block, the first of which is for block number `block`
of the file. -/
def checkIndirectEntries (nblocks : Nat) (how : Blockusage) : List Nat → Nat → Nat → CheckM (List Nat × Nat)
  | [], _, badcount => pure ([], badcount)
  | entry :: entries, block, badcount =>
    if entry = 0 then do
      let (entries, badcount) ← checkIndirectEntries nblocks how entries (block + 1) badcount
      pure (entry :: entries, badcount)
    else if block < nblocks then do
      bitmapMark entry how
      let (entries, badcount) ← checkIndirectEntries nblocks how entries (block + 1) badcount
      pure (entry :: entries, badcount)
    else do
      bitmapMark entry how
      let (entries, badcount) ← checkIndirectEntries nblocks how entries (block + 1) (badcount + 1)
      pure (0 :: entries, badcount)

/-- Reads the entries of an indirect block and marks it; there are only zeros without one. -/
def indirectEntries (ientry : Nat) : CheckM (List Nat) :=
  if ientry ≠ 0 then do
    let b ← diskread ientry
    bitmapMark ientry .iblock
    pure ((List.range 128).map b.word)
  else pure (List.replicate 128 0)

/-- Checks an indirect block; the result is the number of the block, or `0` if it has become empty, and the count of
blocks past the end of the file. There are no doubly indirect blocks (C `check_indirect_block`). -/
def checkIndirectBlock (ientry nblocks badcount : Nat) (how : Blockusage) : CheckM (Nat × Nat) := do
  let entries ← indirectEntries ientry
  let (entries, badcount) ← checkIndirectEntries nblocks how entries 15 badcount
  if ∀ entry ∈ entries, entry = 0 then
    if ientry ≠ 0 then do
      bitmapMark ientry .tofree
      pure (0, badcount + 1)
    else pure (ientry, badcount)
  else do
    Prog.require (ientry ≠ 0) (.assertion "*ientry != 0")
    Prog.when (badcount > 0) (diskwrite (Block.ofWords fun k => entries.getD k 0) ientry)
    pure (ientry, badcount)

/-- "returns nonzero if inode modified" (C `check_inode_blocks`). -/
def checkInodeBlocks (sfi : SfsInode) (isdir : Bool) : CheckM (SfsInode × Bool) := do
  let how := if isdir then Blockusage.dirdata else .data
  let nblocks := roundup sfi.size.toNat 512 / 512
  let badcount ← checkDirect sfi nblocks how (List.finRange 15) 0
  let (ientry, badcount) ← checkIndirectBlock sfi.indirect.toNat nblocks badcount how
  let sfi := { sfi with indirect := UInt32.ofNat ientry }
  if badcount > 0 then do
    setbadness exitRecov
    pure (sfi, true)
  else pure (sfi, false)

/-- The block number of a block of a file, `0` for a hole (C `dobmap`, `ibmap`). -/
def dobmap (sfi : SfsInode) (fileblock : Nat) : CheckM Nat :=
  if h : fileblock < 15 then pure (sfi.direct ⟨fileblock, h⟩).toNat
  else if fileblock < 15 + 128 then
    if sfi.indirect = 0 then pure 0
    else do
      let b ← diskread sfi.indirect.toNat
      pure (b.word (fileblock - 15))
  else pure 0

/-- A free directory entry. -/
def freeEntry : SfsDir := ⟨0, List.replicate 60 0⟩

/-- The directory entries in a block. -/
def entriesOf (b : Block) : List SfsDir := (List.range 8).map fun j => SfsDir.ofBytes (b.slice (64 * j) 64)

/-- The block with directory entries. -/
def blockOf (d : List SfsDir) : Block := Block.zeros.store 0 (d.flatMap SfsDir.toBytes)

/-- Reads the entries in a block of a directory; there are only free ones in a hole. -/
def readDirBlock (block : Nat) : CheckM (List SfsDir) :=
  if block ≠ 0 then do
    let b ← diskread block
    pure (entriesOf b)
  else pure (List.replicate 8 freeEntry)

/-- Reads the blocks of a directory from `i` on (C `dirread`). -/
def dirread (sfi : SfsInode) : Nat → Nat → CheckM (List SfsDir)
  | 0, _ => pure []
  | n + 1, i => do
    let block ← dobmap sfi i
    let d ← readDirBlock block
    let rest ← dirread sfi n (i + 1)
    pure (d ++ rest)

/-- Writes the entries in a block of a directory; a hole cannot take any. -/
def writeDirBlock (block : Nat) (d : List SfsDir) : CheckM Unit :=
  if block ≠ 0 then diskwrite (blockOf d) block
  else Prog.when (∃ sfd ∈ d, sfd.ino ≠ 0 ∨ sfd.name.headD 0 ≠ 0) (setbadness exitUnrecov)

/-- Writes the blocks of a directory from `i` on, of which `d` are the entries (C `dirwrite`). -/
def dirwrite (sfi : SfsInode) : Nat → Nat → List SfsDir → CheckM Unit
  | 0, _, _ => pure ()
  | n + 1, i, d => do
    let block ← dobmap sfi i
    writeDirBlock block (d.take 8)
    dirwrite sfi n (i + 1) (d.drop 8)

/-- The inner loop of `qsort`: the entry at `i` is compared with those after it. -/
def sortPass (f : Nat → Nat → Int) : Nat → List Nat → Nat × List Nat
  | a, [] => (a, [])
  | a, b :: rest =>
    if f a b < 0 then
      let (x, rest) := sortPass f b rest
      (x, a :: rest)
    else
      let (x, rest) := sortPass f a rest
      (x, b :: rest)

/-- "because I'm lazy, bubble sort" (C `qsort`). -/
def qsort (f : Nat → Nat → Int) : Nat → List Nat → List Nat
  | 0, data => data
  | _ + 1, [] => []
  | num + 1, a :: rest =>
    let (x, rest) := sortPass f a rest
    x :: qsort f num rest

/-- The entry at a place. -/
def entryAt (d : List SfsDir) (i : Nat) : SfsDir := d.getD i freeEntry

/-- The places of `nd` entries, sorted by name (C `sortdir`). -/
def sortdir (d : List SfsDir) (nd : Nat) : List Nat :=
  qsort (fun a b => strcmp (entryAt d a).name (entryAt d b).name) nd (List.range nd)

/-- Puts an entry into the first of `nd` places that is free, if there is one (C `dir_tryadd`). -/
def dirTryadd (name : List UInt8) (ino : Nat) : Nat → List SfsDir → Option (List SfsDir)
  | 0, _ => none
  | _ + 1, [] => none
  | nd + 1, sfd :: d =>
    if sfd.ino = 0 then some (⟨ino, strcpy sfd.name name⟩ :: d)
    else (dirTryadd name ino nd d).map (sfd :: ·)

/-- An entry without a name gets one. -/
def nameEntry (sfd : SfsDir) : CheckM (SfsDir × Bool) :=
  if sfd.name.headD 0 = 0 then do
    let name ← fsckName sfd.ino sfd.name
    setbadness exitRecov
    pure ({ sfd with name := name }, true)
  else pure (sfd, false)

/-- C `check_dir_entry`. -/
def checkDirEntry (sfd : SfsDir) : CheckM (SfsDir × Bool) :=
  if sfd.ino = 0 then
    if sfd.name.headD 0 ≠ 0 then do
      setbadness exitRecov
      pure ({ sfd with name := sfd.name.set 0 0 }, true)
    else pure (sfd, false)
  else do
    let (sfd, nameless) ← nameEntry sfd
    let terminated := checknullstring sfd.name
    Prog.when terminated.2 (setbadness exitRecov)
    let valid := checkbadstring terminated.1
    Prog.when valid.2 (setbadness exitRecov)
    pure ({ sfd with name := valid.1 }, nameless || terminated.2 || valid.2)

/-- The loop of `check_dir` that checks the entries one by one. -/
def checkDirEntries : List SfsDir → CheckM (List SfsDir × Bool)
  | [] => pure ([], false)
  | sfd :: d => do
    let (sfd, changed) ← checkDirEntry sfd
    let (d, dchanged) ← checkDirEntries d
    pure (sfd :: d, changed || dchanged)

/-- The loop of `check_dir` over neighbours in the order of the names: one of two entries with the same name is
removed or gets another name. -/
def checkDuplicates : List Nat → List SfsDir → CheckM (List SfsDir × Bool)
  | a :: b :: sortvector, d => do
    let d1 := entryAt d a
    let d2 := entryAt d b
    Prog.require (a ≠ b) (.assertion "d1 != d2")
    if d1.ino = 0 then checkDuplicates (b :: sortvector) d
    else if strcmp d1.name d2.name = 0 then
      if d1.ino = d2.ino then do
        setbadness exitRecov
        let (d, _) ← checkDuplicates (b :: sortvector) (d.set a ⟨0, d1.name.set 0 0⟩)
        pure (d, true)
      else do
        let name ← fsckName d1.ino d1.name
        setbadness exitRecov
        let (d, _) ← checkDuplicates (b :: sortvector) (d.set a { d1 with name := name })
        pure (d, true)
    else checkDuplicates (b :: sortvector) d
  | _, d => pure (d, false)

/-- The inode number of a `"."` or `".."` entry is set right. -/
def fixIno (ino : Nat) (sfd : SfsDir) : CheckM (SfsDir × Bool) :=
  if sfd.ino ≠ ino then do
    setbadness exitRecov
    pure ({ sfd with ino := ino }, true)
  else pure (sfd, false)

/-- Which of `"."` and `".."` have been seen. -/
structure Dots where
  dotseen : Bool
  dotdotseen : Bool
deriving DecidableEq, Repr

/-- The loop of `check_dir` that looks for `"."` and `".."`. -/
def checkDots (ino parentino : Nat) : List SfsDir → Dots → CheckM (List SfsDir × Dots × Bool)
  | [], seen => pure ([], seen, false)
  | sfd :: d, seen =>
    if strcmp sfd.name dot = 0 then do
      let (sfd, changed) ← fixIno ino sfd
      Prog.require (seen.dotseen = false) (.assertion "dotseen==0")
      let (d, seen, dchanged) ← checkDots ino parentino d { seen with dotseen := true }
      pure (sfd :: d, seen, changed || dchanged)
    else if strcmp sfd.name dotdot = 0 then do
      let (sfd, changed) ← fixIno parentino sfd
      Prog.require (seen.dotdotseen = false) (.assertion "dotdotseen==0")
      let (d, seen, dchanged) ← checkDots ino parentino d { seen with dotdotseen := true }
      pure (sfd :: d, seen, changed || dchanged)
    else do
      let (d, seen, dchanged) ← checkDots ino parentino d seen
      pure (sfd :: d, seen, dchanged)

/-- The variables of a call of `check_dir`. -/
structure Dir where
  /-- the block that was read for the inode -/
  block : Block
  sfi : SfsInode
  direntries : List SfsDir
  ndirentries : Nat
  ichanged : Bool
  dchanged : Bool

/-- Adds `"."` or `".."` if it has not been seen: to a free entry, or at the end as long as the last block has room. -/
def addDots (name : List UInt8) (ino maxdirentries : Nat) (seen : Bool) (dir : Dir) : CheckM Dir :=
  if seen then pure dir
  else
    match dirTryadd name ino dir.ndirentries dir.direntries with
    | some d => do
      setbadness exitRecov
      pure { dir with direntries := d, dchanged := true }
    | none =>
      match dirTryadd name ino maxdirentries dir.direntries with
      | some d => do
        setbadness exitRecov
        pure { dir with
          direntries := d
          ndirentries := dir.ndirentries + 1
          dchanged := true
          sfi := { dir.sfi with size := dir.sfi.size + 64 }
          ichanged := true }
      | none => do
        setbadness exitUnrecov
        pure dir

/-- The size of a directory is made a multiple of the size of an entry. -/
def checkDirSize (sfi : SfsInode) : CheckM (SfsInode × Bool) :=
  if sfi.size.toNat % 64 ≠ 0 then do
    setbadness exitRecov
    pure ({ sfi with size := UInt32.ofNat (roundup sfi.size.toNat 64) }, true)
  else pure (sfi, false)

/-- Reads the entries of a directory; the buffer for them has `32` bits for its size, and what is left of the last
block is cleared. -/
def readEntries (sfi : SfsInode) (ndirentries maxdirentries : Nat) : CheckM (List SfsDir) := do
  Prog.require (maxdirentries * 64 < 2 ^ 32) .overrun
  let d ← dirread sfi (maxdirentries / 8) 0
  pure (d.take ndirentries ++ List.replicate (maxdirentries - ndirentries) freeEntry)

/-- What `check_dir` does with the entries before it goes into the subdirectories. -/
def checkNames (ino parentino maxdirentries : Nat) (dir : Dir) : CheckM Dir := do
  let (d, changed) ← checkDirEntries (dir.direntries.take dir.ndirentries)
  let (d, dupchanged) ← checkDuplicates (sortdir d dir.ndirentries) d
  let (d, seen, dotchanged) ← checkDots ino parentino d ⟨false, false⟩
  let dir := { dir with
    direntries := d ++ dir.direntries.drop dir.ndirentries
    dchanged := changed || dupchanged || dotchanged }
  let dir ← addDots dot ino maxdirentries seen.dotseen dir
  addDots dotdot parentino maxdirentries seen.dotdotseen dir

/-- The part of `check_dir` before it goes into the subdirectories; `none` for a "crosslinked dir". -/
def openDir (ino parentino : Nat) : CheckM (Option Dir) := do
  let b ← diskread ino
  let remembered ← rememberDir ino
  if remembered then pure none
  else do
    bitmapMark ino .inode
    let (sfi, ichanged) ← checkDirSize (SfsInode.ofBlock b)
    let (sfi, freed) ← checkInodeBlocks sfi true
    let ndirentries := sfi.size.toNat / 64
    let maxdirentries := roundup ndirentries 8
    let d ← readEntries sfi ndirentries maxdirentries
    let dir ← checkNames ino parentino maxdirentries ⟨b, sfi, d, ndirentries, ichanged || freed, false⟩
    pure (some dir)

/-- The end of `check_dir`. -/
def closeDir (ino subdircount : Nat) (dir : Dir) : CheckM Unit := do
  let wrong := decide (dir.sfi.linkcount.toNat ≠ subdircount + 2)
  let sfi := if wrong then { dir.sfi with linkcount := UInt16.ofNat (subdircount + 2) } else dir.sfi
  Prog.when wrong (setbadness exitRecov)
  Prog.when dir.dchanged (dirwrite sfi (roundup dir.ndirentries 8 / 8) 0 dir.direntries)
  Prog.when (dir.ichanged ∨ wrong) (diskwrite (withInode dir.block sfi) ino)

/-- An entry is removed. -/
def removeEntry (sfd : SfsDir) : SfsDir := ⟨0, sfd.name.set 0 0⟩

/-- The body of the loop of `check_dir` that follows an entry: what becomes of the entry, whether it has changed, and
how many subdirectories it counts for. `check` is `check_dir` for the subdirectories. -/
def followEntry (check : Nat → Nat → CheckM Bool) (ino : Nat) (sfd : SfsDir) : CheckM (SfsDir × Bool × Nat) :=
  if strcmp sfd.name dot = 0 ∨ strcmp sfd.name dotdot = 0 ∨ sfd.ino = 0 then pure (sfd, false, 0)
  else do
    let b ← diskread sfd.ino
    let subsfi := SfsInode.ofBlock b
    if subsfi.type = typeFile then do
      let (subsfi, changed) ← checkInodeBlocks subsfi false
      Prog.when changed (diskwrite (withInode b subsfi) sfd.ino)
      observeFilelink sfd.ino
      pure (sfd, false, 0)
    else if subsfi.type = typeDir then do
      let crosslinked ← check sfd.ino ino
      if crosslinked then do
        setbadness exitRecov
        pure (removeEntry sfd, true, 0)
      else pure (sfd, false, 1)
    else do
      setbadness exitRecov
      pure (removeEntry sfd, true, 0)

/-- The loop of `check_dir` that follows the entries. -/
def followEntries (check : Nat → Nat → CheckM Bool) (ino : Nat) :
    List SfsDir → CheckM (List SfsDir × Bool × Nat)
  | [] => pure ([], false, 0)
  | sfd :: d => do
    let (sfd, changed, count) ← followEntry check ino sfd
    let (d, dchanged, subdircount) ← followEntries check ino d
    pure (sfd :: d, changed || dchanged, count + subdircount)

/-- C `check_dir`, where `check` is `check_dir` for the subdirectories. -/
def checkDirWith (check : Nat → Nat → CheckM Bool) (ino parentino : Nat) : CheckM Bool := do
  let dir ← openDir ino parentino
  match dir with
  | none => pure true
  | some dir => do
    let (d, changed, subdircount) ← followEntries check ino (dir.direntries.take dir.ndirentries)
    closeDir ino subdircount { dir with
      direntries := d ++ dir.direntries.drop dir.ndirentries
      dchanged := dir.dchanged || changed }
    pure false

/-- C `check_dir`, with a bound on the depth of the calls. -/
def checkDir : Nat → Nat → Nat → CheckM Bool
  | 0, _, _ => Prog.halt .depth
  | fuel + 1, ino, parentino => checkDirWith (checkDir fuel) ino parentino

/-- The inode of the root directory is made one of a directory. -/
def fixRoot : CheckM Unit := do
  let b ← diskread 1
  let sfi := SfsInode.ofBlock b
  Prog.when (sfi.type ≠ typeDir) do
    setbadness exitRecov
    diskwrite (withInode b { sfi with type := typeDir }) 1

/-- C `check_root_dir`. -/
def checkRootDir (fuel : Nat) : CheckM Unit := do
  fixRoot
  let _ ← checkDir fuel 1 1
  pure ()

/-- The program; the result is its exit status (C `main`). -/
def sfsck (fuel : Nat) : CheckM Nat := do
  checkSb
  checkRootDir fuel
  checkBitmap
  adjustFilelinks
  let s ← Prog.get
  Prog.require (s.badness ≤ exitUnrecov) (.assertion "0")
  pure s.badness

/-- A run of the program on a disk. -/
def runSfsck (fuel : Nat) (disk : Lhd) : Except Stop (Except Nat Nat × Check) := sfsck fuel (Check.start disk)

end PDS.Sfsck
