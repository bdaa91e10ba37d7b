import PDS.Sfs.Vnode

/-!
# Making, mounting and syncing a volume

Port of `kern/fs/sfs/sfs_fs.c` and of `user/sbin/mksfs/mksfs.c`. `mksfs` writes the superblock, the inode of the
root directory and the free map; the other blocks of the disk keep what they hold.
-/

namespace PDS.Sfs
open Kern Word

/-- The loop of `sfs_mapio` that reads the blocks of the free map from `j` on (C `sfs_mapio`). -/
def sfsMapioRead : Nat → Nat → SfsM Unit
  | 0, _ => pure ()
  | n + 1, j => do
    let block ← rblock (2 + j)
    Prog.modify fun s => { s with freemap := fun i => if i / 4096 = j then mapBit (fun _ => block) i else s.freemap i }
    sfsMapioRead n (j + 1)

/-- The loop of `sfs_mapio` that writes the blocks of the free map from `j` on (C `sfs_mapio`). -/
def sfsMapioWrite : Nat → Nat → SfsM Unit
  | 0, _ => pure ()
  | n + 1, j => do
    let s ← Prog.get
    wblock (mapBlock s.freemap j) (2 + j)
    sfsMapioWrite n (j + 1)

/-- The loop of `sfs_sync` over the loaded vnodes; errors of `VOP_FSYNC` are ignored. -/
def sfsSyncVnodes : List Nat → SfsM Unit
  | [] => pure ()
  | sv :: vnodes => do
    let _ ← Prog.attempt (sfsFsync sv)
    sfsSyncVnodes vnodes

/-- The free map is written if it is dirty. -/
def sfsSyncMap : SfsM Unit := do
  let s ← Prog.get
  if s.freemapdirty then do
    sfsMapioWrite (bitblocks s.nblocks) 0
    Prog.modify fun s => { s with freemapdirty := false }
  else pure ()

/-- The superblock is written if it is dirty. -/
def sfsSyncSuper : SfsM Unit := do
  let s ← Prog.get
  if s.superdirty then do
    wblock s.super 0
    Prog.modify fun s => { s with superdirty := false }
  else pure ()

/-- Writes everything that is dirty (C `sfs_sync`). -/
def sfsSync : SfsM Unit := do
  let s ← Prog.get
  sfsSyncVnodes s.vnodes
  sfsSyncMap
  sfsSyncSuper

/-- Unmount code; the file system must have been synced (C `sfs_unmount`). -/
def sfsUnmount : SfsM Unit := do
  let s ← Prog.get
  if s.vnodes.length > 0 then Prog.fail ebusy
  else do
    sfsAssert (s.superdirty = false) "sfs->sfs_superdirty == false"
    sfsAssert (s.freemapdirty = false) "sfs->sfs_freemapdirty == false"

/-- The structure that `sfs_domount` allocates. -/
def SfsFs.alloc (dev : Lhd) : SfsFs where
  dev := dev
  super := Block.zeros
  superdirty := false
  vnodes := []
  freemap := fun _ => false
  freemapdirty := false
  vnode := fun _ => ⟨.file, 0, 0, SfsInode.blank, 0, false⟩
  next := 0

/-- Mount routine; the volume name is terminated by a zero (C `sfs_domount`). -/
def sfsMount : SfsM Unit := do
  let super ← rblock 0
  if super.word 0 ≠ sfsMagic then Prog.fail einval
  else do
    Prog.modify fun s => { s with super := super.store 39 [0] }
    let s ← Prog.get
    sfsMapioRead (bitblocks s.nblocks) 0

/-- The file system that is mounted from a disk (C `sfs_domount`). -/
def sfsDomount (dev : Lhd) : Except Halt (Except Nat Unit × SfsFs) := sfsMount (SfsFs.alloc dev)

/-- The name of a volume that `mksfs` takes from its argument: "Remove one trailing colon from volname, if present",
and "Don't allow slashes". -/
def volumeName (arg : CStr) : Option (List UInt8) :=
  let volname := arg.val.takeWhile (· ≠ 58)
  if arg.val.length > volname.length + 1 then none
  else if 47 ∈ volname then none
  else some volname

/-- The superblock of a new volume (C `writesuper`). -/
def superBlock (volname : List UInt8) (nblocks : Nat) : Block :=
  (Block.ofWords fun k => if k = 0 then sfsMagic else if k = 1 then nblocks else 0).store 8 volname

/-- The inode of an empty root directory (C `writerootdir`). -/
def rootInode : SfsInode := ⟨0, typeDir, 1, fun _ => 0, 0⟩

/-- The bits that `writebitmap` sets: the superblock, the root directory, the free map, and what is past the end of
the disk. -/
def newmap (fsblocks i : Nat) : Bool :=
  i < 2 + bitblocks fsblocks || fsblocks ≤ i

/-- The blocks of a disk with a new volume. -/
def newsect (volname : List UInt8) (d : Lhd) (b : Nat) : Block :=
  if b = 0 then superBlock volname d.blocks
  else if b = 1 then rootInode.toBlock
  else if b < 2 + bitblocks d.blocks then mapBlock (newmap d.blocks) (b - 2)
  else d.sect b

/-- Makes a volume on a disk; `none` if `mksfs` stops with an error. The assertion of `doallocbit`, that no bit is
set twice, is that the free map fits on the disk (C `main` of `mksfs`). -/
def mksfs (arg : CStr) (d : Lhd) : Option Lhd :=
  match volumeName arg with
  | none => none
  | some volname =>
    if volname.length ≥ 32 then none
    else if bitblocks d.blocks > 32 then none
    else if 2 + bitblocks d.blocks > d.blocks then none
    else some { d with sect := newsect volname d }

end PDS.Sfs
