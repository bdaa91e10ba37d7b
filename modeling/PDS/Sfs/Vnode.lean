import PDS.Sfs.Fs

/-!
# The file system: directories and vnode operations

Port of the second half of `kern/fs/sfs/sfs_vnode.c` and of `kern/vfs/vnode.c`. An operation on a vnode goes
through its operation table, so a `VOP_` call on the wrong kind of object returns `ENOTDIR` or `EISDIR`. The
checks of `vnode_check`, which look for pointers that are not vnodes, are left out.
-/

namespace PDS.Sfs
open Kern Word

/-- String too long (C `ENAMETOOLONG`). -/
def enametoolong : Nat := 7

/-- Not a directory (C `ENOTDIR`). -/
def enotdir : Nat := 17

/-- Is a directory (C `EISDIR`). -/
def eisdir : Nat := 18

/-- No such file or directory (C `ENOENT`). -/
def enoent : Nat := 19

/-- File or object exists (C `EEXIST`). -/
def eexist : Nat := 22

/-- Device or resource busy (C `EBUSY`). -/
def ebusy : Nat := 27

/-- Serves a request of the kernel itself; what is left of the request is returned. -/
def withUio (u : Uio) (m : IoM Unit) : SfsM Uio := fun s =>
  match m (s, u) with
  | .error h => .error h
  | .ok (.error e, (s, _)) => .ok (.error e, s)
  | .ok (.ok (), (s, u)) => .ok (.ok u, s)

/-- Read the directory entry out of slot `slot` (C `sfs_readdir`). -/
def sfsReaddir (sv slot : Nat) : SfsM SfsDir := do
  let v ← getVnode sv
  let ku ← withUio (uioKinit [] 64 (slot * 64) .read) (sfsIo sv)
  Prog.require (ku.resid = 0) (.panic s!"sfs: readdir: Short entry (inode {v.ino})\n")
  pure (SfsDir.ofBytes ku.data)

/-- Write (overwrite) the directory entry in slot `slot` (C `sfs_writedir`). -/
def sfsWritedir (sv : Nat) (sd : SfsDir) (slot : Nat) : SfsM Unit := do
  let v ← getVnode sv
  let ku ← withUio (uioKinit sd.toBytes 64 (slot * 64) .write) (sfsIo sv)
  Prog.require (ku.resid = 0) (.panic s!"sfs: writedir: Short write (ino {v.ino})\n")

/-- The number of existing slots of a directory (C `sfs_dir_nentries`). -/
def sfsDirNentries (sv : Nat) : SfsM Nat := do
  let v ← getVnode sv
  sfsAssert (v.i.type = typeDir) "sv->sv_i.sfi_type == SFS_TYPE_DIR"
  let size := v.i.size.toNat
  Prog.require (size % 64 = 0) (.panic s!"sfs: directory {v.ino}: Invalid size {size}\n")
  pure (size / 64)

/-- The name in a directory entry; its last byte is overwritten with a zero. -/
def SfsDir.cname (sd : SfsDir) : List UInt8 := cstring (sd.name.take 59)

/-- What a search of a directory has found: the inode and the slot of the name, and an empty slot. -/
structure Search where
  found : Option (Nat × Nat)
  emptyslot : Option Nat
deriving DecidableEq, Repr

/-- The search goes on with the entry `tsd` in slot `i`. -/
def searchEntry (name : CStr) (i : Nat) (tsd : SfsDir) (r : Search) : SfsM Search :=
  if tsd.ino = 0 then pure { r with emptyslot := some i }
  else if tsd.cname = name.val then do
    -- "Each name may legally appear only once..."
    sfsAssert (r.found = none) "found==0"
    pure { r with found := some (tsd.ino, i) }
  else pure r

/-- The loop of `sfs_dir_findname` over the `n` slots from `i` on. -/
def sfsDirFindnameLoop (sv : Nat) (name : CStr) : Nat → Nat → Search → SfsM Search
  | 0, _, r => pure r
  | n + 1, i, r => do
    let tsd ← sfsReaddir sv i
    let r ← searchEntry name i tsd r
    sfsDirFindnameLoop sv name n (i + 1) r

/-- Search a directory for a file name; the result of the source is `ENOENT` where nothing is found
(C `sfs_dir_findname`). -/
def sfsDirFindname (sv : Nat) (name : CStr) : SfsM Search := do
  let nentries ← sfsDirNentries sv
  sfsDirFindnameLoop sv name nentries 0 ⟨none, none⟩

/-- Create a link in a directory to an inode, and hand back the slot (C `sfs_dir_link`). -/
def sfsDirLink (sv : Nat) (name : CStr) (ino : Nat) : SfsM Nat := do
  let r ← sfsDirFindname sv name
  if r.found.isSome then Prog.fail eexist
  else if name.val.length + 1 > 60 then Prog.fail enametoolong
  else do
    let nentries ← sfsDirNentries sv
    let slot := r.emptyslot.getD nentries
    sfsWritedir sv ⟨ino, name.val ++ List.replicate (60 - name.val.length) 0⟩ slot
    pure slot

/-- Unlink a name in a directory, by slot number (C `sfs_dir_unlink`). -/
def sfsDirUnlink (sv slot : Nat) : SfsM Unit := sfsWritedir sv ⟨0, List.replicate 60 0⟩ slot

/-- The operation table for an object (in C `sfs_loadvnode`). -/
def sfsOps (ino : Nat) (type : UInt16) : SfsM VnodeOps :=
  if type = typeFile then pure .file
  else if type = typeDir then pure .dir
  else Prog.halt (.panic s!"sfs: loadvnode: Invalid inode type (inode {ino}, type {type})\n")

/-- Increment the reference count (C `vnode_incref`). -/
def vopIncref (sv : Nat) : SfsM Unit := setVnode sv fun v => { v with refcount := v.refcount + 1 }

/-- The search of `sfs_loadvnode` in the table of vnodes. -/
def sfsFindvnode (ino : Nat) : List Nat → SfsM (Option Nat)
  | [] => pure none
  | sv :: vnodes => do
    let v ← getVnode sv
    let used ← sfsBused v.ino
    Prog.require (used = true) (.panic s!"sfs: Found inode {v.ino} in unallocated block\n")
    if v.ino = ino then pure (some sv) else sfsFindvnode ino vnodes

/-- The type of a new object is forced, as its block has been zeroed out (in C `sfs_loadvnode`). -/
def sfsForcetype (i : SfsInode) (forcetype : UInt16) : SfsM SfsInode :=
  if forcetype ≠ typeInval then do
    sfsAssert (i.type = typeInval) "sv->sv_i.sfi_type == SFS_TYPE_INVAL"
    pure { i with type := forcetype }
  else pure i

/-- The part of `sfs_loadvnode` for an inode that is not in memory. -/
def sfsReadvnode (ino : Nat) (forcetype : UInt16) : SfsM Nat := do
  let used ← sfsBused ino
  Prog.require (used = true) (.panic s!"sfs: Tried to load inode {ino} from unallocated block\n")
  let block ← rblock ino
  let i ← sfsForcetype (SfsInode.ofBlock block) forcetype
  let ops ← sfsOps ino i.type
  let s ← Prog.get
  let v : SfsVnode := ⟨ops, 1, 0, i, ino, forcetype ≠ typeInval⟩
  Prog.modify fun s =>
    { s with vnode := Function.update s.vnode s.next v, vnodes := s.vnodes ++ [s.next], next := s.next + 1 }
  pure s.next

/-- Load an inode into memory as a vnode, or dig up one that's already resident (C `sfs_loadvnode`). -/
def sfsLoadvnode (ino : Nat) (forcetype : UInt16) : SfsM Nat := do
  let s ← Prog.get
  let r ← sfsFindvnode ino s.vnodes
  match r with
  | some sv => do
    sfsAssert (forcetype = typeInval) "forcetype==SFS_TYPE_INVAL"
    vopIncref sv
    pure sv
  | none => sfsReadvnode ino forcetype

/-- Get the vnode for the root of the file system (C `sfs_getroot`). -/
def sfsGetroot : SfsM Nat := do
  let r ← Prog.attempt (sfsLoadvnode 1 typeInval)
  match r with
  | .ok sv => pure sv
  | .error _ => Prog.halt (.panic "sfs: getroot: Cannot load root vnode\n")

/-- Look for a name in a directory and hand back a vnode and the slot (C `sfs_lookonce`). -/
def sfsLookonce (sv : Nat) (name : CStr) : SfsM (Nat × Nat) := do
  let r ← sfsDirFindname sv name
  match r.found with
  | none => Prog.fail enoent
  | some (ino, slot) => do
    let f ← sfsLoadvnode ino typeInval
    let v ← getVnode f
    let d ← getVnode sv
    Prog.require (v.i.linkcount ≠ 0)
      (.panic s!"sfs: Link count of file {v.ino} found in dir {d.ino} is 0\n")
    pure (f, slot)

/-- Create a new file system object (C `sfs_makeobj`). -/
def sfsMakeobj (type : UInt16) : SfsM Nat := do
  let ino ← sfsBalloc
  sfsLoadvnode ino type

/-- The loop of `sfs_truncate` over the direct blocks from `i` on. -/
def truncateDirect (sv blocklen : Nat) : Nat → Nat → SfsM Unit
  | 0, _ => pure ()
  | n + 1, i => do
    let v ← getVnode sv
    let k := Fin.ofNat 15 i
    let block := (v.i.direct k).toNat
    if i ≥ blocklen ∧ block ≠ 0 then do
      sfsBfree block
      setInode sv fun i => { i with direct := Function.update i.direct k 0 }
      truncateDirect sv blocklen n (i + 1)
    else truncateDirect sv blocklen n (i + 1)

/-- The loop of `sfs_truncate` over the entries of the indirect block from `j` on; the result is the buffer, and
whether it has been changed. -/
def truncateIndirect (blocklen : Nat) : Nat → Nat → (Nat → Nat) → Bool → SfsM ((Nat → Nat) × Bool)
  | 0, _, idbuf, iddirty => pure (idbuf, iddirty)
  | n + 1, j, idbuf, iddirty =>
    if blocklen < 15 + j ∧ idbuf j ≠ 0 then do
      sfsBfree (idbuf j)
      truncateIndirect blocklen n (j + 1) (Function.update idbuf j 0) true
    else truncateIndirect blocklen n (j + 1) idbuf iddirty

/-- The part of `sfs_truncate` for the indirect block `idblock`. -/
def truncateIdblock (sv blocklen idblock : Nat) : SfsM Unit := do
  let buf ← rblock idblock
  let r ← truncateIndirect blocklen 128 0 buf.word false
  if (List.range 128).all fun j => r.1 j = 0 then do
    sfsBfree idblock
    setInode sv fun i => { i with indirect := 0 }
  else if r.2 then wblock (Block.ofWords r.1) idblock
  else pure ()

/-- Sets the length of a file (C `sfs_truncate`). -/
def sfsTruncate (sv : Nat) (len : Int) : SfsM Unit := do
  let blocklen := (Int.tdiv (len + 512 - 1) 512 % 2 ^ 32).toNat
  truncateDirect sv blocklen 15 0
  let v ← getVnode sv
  let idblock := v.i.indirect.toNat
  let _ ← (if blocklen < 15 + 128 - 1 ∧ idblock ≠ 0 then truncateIdblock sv blocklen idblock else pure ())
  setInode sv fun i => { i with size := UInt32.ofNat (len % 2 ^ 32).toNat }

/-- C `VOP_TRUNCATE`. -/
def vopTruncate (sv : Nat) (len : Int) : SfsM Unit := do
  let v ← getVnode sv
  match v.ops with
  | .file => sfsTruncate sv len
  | .dir => Prog.fail eisdir

/-- Called for `fsync()` (C `sfs_fsync`). -/
def sfsFsync (sv : Nat) : SfsM Unit := sfsSyncInode sv

/-- Removes a vnode from the table and destroys it (in C `sfs_reclaim`, with `vnode_cleanup`). -/
def sfsDropvnode (sv : Nat) : SfsM Unit := do
  let s ← Prog.get
  let v := s.vnode sv
  Prog.require (sv ∈ s.vnodes) (.panic s!"sfs: reclaim vnode {v.ino} not in vnode pool\n")
  Prog.modify fun s => { s with vnodes := s.vnodes.erase sv }
  sfsAssert (v.refcount = 1) "vn->vn_refcount==1"
  sfsAssert (v.opencount = 0) "vn->vn_opencount==0"

/-- Called when the reference count of a vnode hits zero (C `sfs_reclaim`). -/
def sfsReclaim (sv : Nat) : SfsM Unit := do
  let v ← getVnode sv
  if v.refcount ≠ 1 then do
    sfsAssert (v.refcount > 1) "v->vn_refcount>1"
    setVnode sv fun v => { v with refcount := v.refcount - 1 }
    Prog.fail ebusy
  else do
    let _ ← (if v.i.linkcount = 0 then vopTruncate sv 0 else pure ())
    sfsSyncInode sv
    let _ ← (if v.i.linkcount = 0 then sfsBfree v.ino else pure ())
    sfsDropvnode sv

/-- Decrement the reference count (C `vnode_decref`). -/
def vopDecref (sv : Nat) : SfsM Unit := do
  let v ← getVnode sv
  sfsAssert (v.refcount > 0) "vn->vn_refcount>0"
  if v.refcount > 1 then setVnode sv fun v => { v with refcount := v.refcount - 1 }
  else do
    -- an error is only reported on the console
    let _ ← Prog.attempt (sfsReclaim sv)
    pure ()

/-- A `VOP_` call that only directories support. -/
def onDir {α : Type} (v : Nat) (m : SfsM α) : SfsM α := do
  let vn ← getVnode v
  match vn.ops with
  | .dir => m
  | .file => Prog.fail enotdir

/-- A request to a file through its vnode (C `VOP_READ` and `VOP_WRITE`, with `sfs_read` and `sfs_write`). -/
def vopIo (v : Nat) (rw : UioRw) : IoM Unit := do
  let vn ← Prog.onFst (getVnode v)
  let u ← getUio
  match vn.ops with
  | .dir => Prog.fail eisdir
  | .file => do
    sfsAssert (u.rw = rw) (match rw with
      | .read => "uio->uio_rw==UIO_READ"
      | .write => "uio->uio_rw==UIO_WRITE")
    sfsIo v

/-- Runs a command, then another one whether or not there was an error. -/
def andAlways {α : Type} (m : SfsM α) (after : SfsM Unit) : SfsM α := do
  let r ← Prog.attempt m
  after
  Prog.give r

/-- The new file of `sfs_creat` is linked into the directory, or given up. -/
def sfsCreatLink (v : Nat) (name : CStr) (newguy : Nat) : SfsM Nat := do
  let vn ← getVnode newguy
  let r ← Prog.attempt (sfsDirLink v name vn.ino)
  match r with
  | .error e => do
    vopDecref newguy
    Prog.fail e
  | .ok _ => do
    setInode newguy fun i => { i with linkcount := i.linkcount + 1 }
    pure newguy

/-- Create a file; an existing file is opened unless `excl` is set (C `sfs_creat`). -/
def sfsCreat (v : Nat) (name : CStr) (excl : Bool) : SfsM Nat := do
  let r ← sfsDirFindname v name
  match r.found with
  | some (ino, _) => if excl then Prog.fail eexist else sfsLoadvnode ino typeInval
  | none => do
    let newguy ← sfsMakeobj typeFile
    sfsCreatLink v name newguy

/-- Make a hard link to a file (C `sfs_link`). -/
def sfsLink (dir : Nat) (name : CStr) (file : Nat) : SfsM Unit := do
  let f ← getVnode file
  let _ ← sfsDirLink dir name f.ino
  setInode file fun i => { i with linkcount := i.linkcount + 1 }

/-- Erases a directory entry and takes back the link (in C `sfs_remove`). -/
def sfsUnlink (dir slot file : Nat) : SfsM Unit := do
  sfsDirUnlink dir slot
  let f ← getVnode file
  sfsAssert (f.i.linkcount > 0) "victim->sv_i.sfi_linkcount > 0"
  setInode file fun i => { i with linkcount := i.linkcount - 1 }

/-- Delete a file (C `sfs_remove`). -/
def sfsRemove (dir : Nat) (name : CStr) : SfsM Unit := do
  let r ← sfsLookonce dir name
  andAlways (sfsUnlink dir r.2 r.1) (vopDecref r.1)

/-- The undo path of `sfs_rename`, after the error code `e`. -/
def sfsRenameUndo (d1 slot2 g1 e : Nat) : SfsM Unit := do
  let r ← Prog.attempt (sfsDirUnlink d1 slot2)
  match r with
  | .error _ => Prog.halt (.panic "sfs: rename: Cannot recover\n")
  | .ok () => do
    setVnode g1 fun v => { v with i := { v.i with linkcount := v.i.linkcount - 1 } }
    Prog.fail e

/-- `sfs_rename` for the file `g1` in slot `slot1`. -/
def sfsRenameAt (d1 g1 slot1 : Nat) (n2 : CStr) : SfsM Unit := do
  let v ← getVnode g1
  let slot2 ← sfsDirLink d1 n2 v.ino
  setInode g1 fun i => { i with linkcount := i.linkcount + 1 }
  let r ← Prog.attempt (sfsDirUnlink d1 slot1)
  match r with
  | .error e => sfsRenameUndo d1 slot2 g1 e
  | .ok () => do
    let v ← getVnode g1
    sfsAssert (v.i.linkcount > 0) "g1->sv_i.sfi_linkcount>0"
    setInode g1 fun i => { i with linkcount := i.linkcount - 1 }

/-- Rename a file; the two directories are the same (C `sfs_rename`). -/
def sfsRename (d1 : Nat) (n1 : CStr) (d2 : Nat) (n2 : CStr) : SfsM Unit := do
  let d ← getVnode d1
  sfsAssert (d1 = d2) "d1==d2"
  sfsAssert (d.ino = 1) "sv->sv_ino == SFS_ROOT_LOCATION"
  let r ← sfsLookonce d1 n1
  let g1 ← getVnode r.1
  sfsAssert (g1.i.type = typeFile) "g1->sv_i.sfi_type == SFS_TYPE_FILE"
  andAlways (sfsRenameAt d1 r.1 r.2 n2) (vopDecref r.1)

/-- Return the last path component and the directory it's in (C `sfs_lookparent`). -/
def sfsLookparent (v : Nat) (path : CStr) (buflen : Nat) : SfsM (Nat × CStr) := do
  let sv ← getVnode v
  if sv.i.type ≠ typeDir then Prog.fail enotdir
  else if path.val.length + 1 > buflen then Prog.fail enametoolong
  else do
    vopIncref v
    pure (v, path)

/-- Get a vnode for a path name (C `sfs_lookup`). -/
def sfsLookup (v : Nat) (path : CStr) : SfsM Nat := do
  let sv ← getVnode v
  if sv.i.type ≠ typeDir then Prog.fail enotdir
  else do
    let r ← sfsLookonce v path
    pure r.1

end PDS.Sfs
