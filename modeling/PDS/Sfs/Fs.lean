import PDS.Lib.Prog
import PDS.Sfs.Disk
import PDS.Sfs.Format

/-!
# The file system: space and file I/O

Port of the first half of `kern/fs/sfs/sfs_vnode.c`, with the parts of `kern/lib/bitmap.c` it uses: allocation of
blocks, the block map of a file, and I/O on its contents.

A vnode is known by its address in kernel memory; `next` is the address that `kmalloc` returns next, and it always
finds memory. The device makes no errors. The free map is a function of the block number, as the allocator takes
the first bit that is clear, and all accesses are to single bits. The VFS big lock is left out: operations are
executed one at a time.
-/

namespace PDS.Sfs
open Kern Word

/-- No space left on device (C `ENOSPC`). -/
def enospc : Nat := 36

/-- File too large (C `EFBIG`). -/
def efbig : Nat := 38

/-- The operation tables of vnodes, `sfs_fileops` and `sfs_dirops`. -/
inductive VnodeOps where
  | file
  | dir
deriving DecidableEq, Repr

/-- C `struct sfs_vnode`, with the fields of its `struct vnode` that are used. -/
structure SfsVnode where
  ops : VnodeOps
  refcount : Nat
  opencount : Nat
  i : SfsInode
  ino : Nat
  dirty : Bool

/-- C `struct sfs_fs`, with the memory of its vnodes. -/
structure SfsFs where
  dev : Lhd
  super : Block
  superdirty : Bool
  vnodes : List Nat
  freemap : Nat → Bool
  freemapdirty : Bool
  vnode : Nat → SfsVnode
  next : Nat

/-- C `sfs_super.sp_nblocks`. -/
def SfsFs.nblocks (s : SfsFs) : Nat := s.super.word 1

/-- A function of the file system. -/
abbrev SfsM := Prog Halt Nat SfsFs

/-- A function of the file system that serves an I/O request. -/
abbrev IoM := Prog Halt Nat (SfsFs × Uio)

/-- `KASSERT(c)`. -/
def sfsAssert {σ : Type} (c : Prop) [Decidable c] (cond : String) : Prog Halt Nat σ Unit :=
  Prog.require c (.kassert cond)

/-- The device makes no errors. -/
def noError : Nat → Nat → Bool := fun _ _ => true

/-- C `sfs_rblock`. -/
def rblock (block : Nat) : SfsM Block := fun s =>
  match sfsRblock noError s.dev Block.zeros block with
  | .error h => .error h
  | .ok (result, dev, data) => .ok (if result = 0 then .ok data else .error result, { s with dev := dev })

/-- C `sfs_wblock`. -/
def wblock (data : Block) (block : Nat) : SfsM Unit := fun s =>
  match sfsWblock noError s.dev data block with
  | .error h => .error h
  | .ok (result, dev) => .ok (if result = 0 then .ok () else .error result, { s with dev := dev })

/-- C `sfs_rwblock`. -/
def rwblock : IoM Unit := fun s =>
  match sfsRwblock noError s.1.dev s.2 with
  | .error h => .error h
  | .ok (result, dev, u) => .ok (if result = 0 then .ok () else .error result, ({ s.1 with dev := dev }, u))

/-- The vnode at an address. -/
def getVnode (sv : Nat) : SfsM SfsVnode := fun s => .ok (.ok (s.vnode sv), s)

/-- Changes the vnode at an address. -/
def setVnode (sv : Nat) (f : SfsVnode → SfsVnode) : SfsM Unit :=
  Prog.modify fun s => { s with vnode := Function.update s.vnode sv (f (s.vnode sv)) }

/-- Changes the inode of a vnode and marks it dirty. -/
def setInode (sv : Nat) (f : SfsInode → SfsInode) : SfsM Unit :=
  setVnode sv fun v => { v with i := f v.i, dirty := true }

/-- Zero out a disk block (C `sfs_clearblock`). -/
def sfsClearblock (block : Nat) : SfsM Unit := wblock Block.zeros block

/-- Write an on-disk inode structure back out to disk (C `sfs_sync_inode`). -/
def sfsSyncInode (sv : Nat) : SfsM Unit := do
  let v ← getVnode sv
  if v.dirty then do
    wblock v.i.toBlock v.ino
    setVnode sv fun v => { v with dirty := false }
  else pure ()

/-- The first bit that is clear (C `bitmap_alloc`). -/
def bitmapAlloc (nbits : Nat) (bit : Nat → Bool) : Option Nat := (List.range nbits).find? fun i => !bit i

/-- Allocate a block (C `sfs_balloc`). -/
def sfsBalloc : SfsM Nat := do
  let s ← Prog.get
  match bitmapAlloc (bitmapsize s.nblocks) s.freemap with
  | none => Prog.fail enospc
  | some block => do
    Prog.modify fun s => { s with freemap := Function.update s.freemap block true, freemapdirty := true }
    Prog.require (block < s.nblocks) (.panic s!"sfs: balloc: invalid block {block}\n")
    sfsClearblock block
    pure block

/-- Free a block (C `sfs_bfree`). -/
def sfsBfree (diskblock : Nat) : SfsM Unit := do
  let s ← Prog.get
  -- `bitmap_unmark`
  sfsAssert (diskblock < bitmapsize s.nblocks) "index < b->nbits"
  sfsAssert (s.freemap diskblock = true) "(b->v[ix] & mask)!=0"
  Prog.modify fun s => { s with freemap := Function.update s.freemap diskblock false, freemapdirty := true }

/-- Check if a block is in use (C `sfs_bused`). -/
def sfsBused (diskblock : Nat) : SfsM Bool := do
  let s ← Prog.get
  Prog.require (diskblock < s.nblocks) (.panic s!"sfs: sfs_bused called on out of range block {diskblock}\n")
  pure (s.freemap diskblock)

/-- The check of `sfs_bmap` on the block it hands back. -/
def checkUsed (sv block fileblock : Nat) : SfsM Nat := do
  let v ← getVnode sv
  if block ≠ 0 then do
    let used ← sfsBused block
    Prog.require (used = true)
      (.panic s!"sfs: Data block {block} (block {fileblock} of file {v.ino}) marked free\n")
    pure block
  else pure block

/-- `sfs_bmap` for a direct block. -/
def sfsBmapDirect (sv : Nat) (fileblock : Fin 15) (doalloc : Bool) : SfsM Nat := do
  let v ← getVnode sv
  let block := (v.i.direct fileblock).toNat
  if block = 0 ∧ doalloc then do
    let block ← sfsBalloc
    setInode sv fun i => { i with direct := Function.update i.direct fileblock (UInt32.ofNat block) }
    checkUsed sv block fileblock.val
  else checkUsed sv block fileblock.val

/-- `sfs_bmap` for the entry `idoff` of the indirect block `idblock`, which is in `idbuf`. -/
def sfsBmapEntry (sv idblock : Nat) (idbuf : Nat → Nat) (idoff : Nat) (doalloc : Bool) : SfsM Nat := do
  let block := idbuf idoff
  if block = 0 ∧ doalloc then do
    let block ← sfsBalloc
    -- "The indirect block is now dirty; write it back"
    wblock (Block.ofWords (Function.update idbuf idoff block)) idblock
    checkUsed sv block idoff
  else checkUsed sv block idoff

/-- The disk block of a block of a file, which is allocated if `doalloc` is set (C `sfs_bmap`). -/
def sfsBmap (sv fileblock : Nat) (doalloc : Bool) : SfsM Nat :=
  if h : fileblock < 15 then sfsBmapDirect sv ⟨fileblock, h⟩ doalloc
  else
    let idnum := (fileblock - 15) / 128
    let idoff := (fileblock - 15) % 128
    if idnum > 0 then Prog.fail efbig
    else do
      let v ← getVnode sv
      let idblock := v.i.indirect.toNat
      if idblock = 0 ∧ !doalloc then pure 0
      else if idblock = 0 then do
        let idblock ← sfsBalloc
        setInode sv fun i => { i with indirect := UInt32.ofNat idblock }
        sfsBmapEntry sv idblock (fun _ => 0) idoff doalloc
      else do
        let idbuf ← rblock idblock
        sfsBmapEntry sv idblock idbuf.word idoff doalloc

/-- The request. -/
def getUio : IoM Uio := fun s => .ok (.ok s.2, s)

/-- Changes the request. -/
def setUio (f : Uio → Uio) : IoM Unit := Prog.modify fun s => (s.1, f s.2)

/-- C `uiomove`. -/
def moveIo (ptr : Block) (pos n : Nat) : IoM Block := fun s =>
  match uiomove ptr pos n s.2 with
  | .error h => .error h
  | .ok (ptr, u) => .ok (.ok ptr, (s.1, u))

/-- C `uiomovezeros`. -/
def movezerosIo (n : Nat) : IoM Unit := fun s =>
  match uiomovezeros n s.2 with
  | .error h => .error h
  | .ok u => .ok (.ok (), (s.1, u))

/-- The buffer of `sfs_partialio`, with the contents of the block. -/
def partialioBuf (rw : UioRw) (diskblock : Nat) : SfsM Block :=
  if diskblock = 0 then do
    sfsAssert (rw = .read) "uio->uio_rw == UIO_READ"
    pure Block.zeros
  else rblock diskblock

/-- I/O to a block of a file that doesn't cover the whole block (C `sfs_partialio`). -/
def sfsPartialio (sv skipstart len : Nat) : IoM Unit := do
  let u ← getUio
  sfsAssert (skipstart + len ≤ 512) "skipstart + len <= SFS_BLOCKSIZE"
  let diskblock ← Prog.onFst (sfsBmap sv (u.offset / 512 % 2 ^ 32) (u.rw = .write))
  let iobuf ← Prog.onFst (partialioBuf u.rw diskblock)
  let iobuf ← moveIo iobuf skipstart len
  if u.rw = .write then Prog.onFst (wblock iobuf diskblock) else pure ()

/-- `sfs_blockio` for a block that is there. The residue and the offset are swapped out for the time of the
transfer; the arithmetic on them is signed and has `64` bits, and no intermediate value leaves this range. -/
def sfsBlockioAt (diskblock : Nat) : IoM Unit := do
  let u ← getUio
  let diskoff := wmul 32 diskblock 512
  sfsAssert (u.resid ≥ 512) "uio->uio_resid >= SFS_BLOCKSIZE"
  setUio fun u => { u with offset := diskoff, resid := 512 }
  let result ← Prog.attempt rwblock
  setUio fun v => { v with offset := v.offset - diskoff + u.offset, resid := v.resid + u.resid - 512 }
  Prog.give result

/-- I/O of a single whole block (C `sfs_blockio`). -/
def sfsBlockio (sv : Nat) : IoM Unit := do
  let u ← getUio
  let diskblock ← Prog.onFst (sfsBmap sv (u.offset / 512 % 2 ^ 32) (u.rw = .write))
  if diskblock = 0 then do
    sfsAssert (u.rw = .read) "uio->uio_rw == UIO_READ"
    movezerosIo 512
  else sfsBlockioAt diskblock

/-- The loop of `sfs_io` over whole blocks. -/
def sfsIoBlocks (sv : Nat) : Nat → IoM Unit
  | 0 => pure ()
  | nblocks + 1 => do
    sfsBlockio sv
    sfsIoBlocks sv nblocks

/-- The leading partial block of `sfs_io`. -/
def sfsIoLead (sv : Nat) : IoM Unit := do
  let u ← getUio
  let blkoff := u.offset % 512
  if blkoff ≠ 0 then sfsPartialio sv blkoff (min (512 - blkoff) u.resid) else pure ()

/-- The rest of `sfs_io`, which is block-aligned. -/
def sfsIoRest (sv : Nat) : IoM Unit := do
  let u ← getUio
  if u.resid = 0 then pure ()
  else do
    sfsAssert (u.offset % 512 = 0) "uio->uio_offset % SFS_BLOCKSIZE == 0"
    sfsIoBlocks sv (u.resid / 512)
    let u ← getUio
    sfsAssert (u.resid < 512) "uio->uio_resid < SFS_BLOCKSIZE"
    if u.resid > 0 then sfsPartialio sv 0 u.resid else pure ()

/-- `sfs_io` up to its label `out`. -/
def sfsIoBody (sv : Nat) : IoM Unit := do
  sfsIoLead sv
  sfsIoRest sv

/-- "If writing, adjust file length" (in C `sfs_io`). -/
def sfsIoGrow (sv offset : Nat) : SfsM Unit := do
  let v ← getVnode sv
  if offset > v.i.size.toNat then setInode sv fun i => { i with size := UInt32.ofNat offset } else pure ()

/-- `sfs_io` after its label `out`. -/
def sfsIoOut (sv extraresid : Nat) (result : Except Nat Unit) : IoM Unit := do
  let u ← getUio
  let _ ← Prog.onFst (if u.rw = .write then sfsIoGrow sv u.offset else pure ())
  setUio fun u => { u with resid := wadd 32 u.resid extraresid }
  Prog.give result

/-- I/O of a region that is cut down to the end of the file by `extraresid`. -/
def sfsIoCut (sv extraresid : Nat) : IoM Unit := do
  setUio fun u => { u with resid := u.resid - extraresid }
  let result ← Prog.attempt (sfsIoBody sv)
  sfsIoOut sv extraresid result

/-- I/O of a whole region of data, whether or not it's block-aligned (C `sfs_io`). -/
def sfsIo (sv : Nat) : IoM Unit := do
  let u ← getUio
  let v ← Prog.onFst (getVnode sv)
  let size := v.i.size.toNat
  if u.rw = .write then sfsIoCut sv 0
  -- "At or past EOF - just return"
  else if u.offset ≥ size then pure ()
  else if u.offset + u.resid > size then do
    let extraresid := (u.offset + u.resid - size) % 2 ^ 32
    sfsAssert (u.resid > extraresid) "uio->uio_resid > extraresid"
    sfsIoCut sv extraresid
  else sfsIoCut sv 0

end PDS.Sfs
