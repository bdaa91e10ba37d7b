import PDS.Sfs.Mount

/-!
# The VFS layer

Port of `kern/vfs/vfslookup.c`, `kern/vfs/vfspath.c` and of parts of `kern/vfs/vfscwd.c`, `kern/vfs/vfslist.c` and
`kern/vfs/vnode.c`, for the paths to the objects of one mounted volume. A path to another device names no object of
the volume; it ends with `ENODEV` here. The two vnodes of `vfs_link` and of `vfs_rename` are of this volume, so they
pass the check for `EXDEV`.
-/

namespace PDS.Sfs
open Kern Word

/-- No such device (C `ENODEV`). -/
def enodev : Nat := 25

/-- The state of the VFS layer: the name of the device, the name that the superblock keeps, the current directory
(C `t_cwd`), and where a path with a leading slash starts (C `bootfs_vnode`). -/
structure Vfs where
  devname : List UInt8
  volname : List UInt8
  cwd : Option Nat
  bootfs : Option Nat

/-- Where a path starts: at the current directory, at the root of the file system that is mounted from a device, at
the boot file system, or at the root of the current file system. -/
inductive PathStart where
  | curdir
  | device (name : List UInt8)
  | bootfs
  | curfs
deriving DecidableEq, Repr

/-- A path up to its first colon or slash, and the rest. -/
def splitPath (path : List UInt8) : List UInt8 × List UInt8 :=
  (path.takeWhile fun c => c ≠ 58 ∧ c ≠ 47, path.dropWhile fun c => c ≠ 58 ∧ c ≠ 47)

/-- How a path is taken apart (in C `getdevice`). -/
def pathStart (path : List UInt8) : PathStart × List UInt8 :=
  match splitPath path with
  | ([], 47 :: rest) => (.bootfs, rest.dropWhile (· = 47))
  | ([], 58 :: rest) => (.curfs, rest.dropWhile (· = 47))
  | (name, 58 :: rest) => (.device name, rest.dropWhile (· = 47))
  | _ => (.curdir, path)

/-- The part of a path after its start is a suffix. -/
lemma pathStart_suffix (path : List UInt8) : (pathStart path).2 <:+ path := by
  have skip {name rest : List UInt8} {c : UInt8} (split : splitPath path = (name, c :: rest)) :
      rest.dropWhile (· = 47) <:+ path := by
    have suffix : (splitPath path).2 <:+ path := List.dropWhile_suffix _
    rw [split] at suffix
    exact (List.dropWhile_suffix _).trans ((List.suffix_cons c rest).trans suffix)
  rw [pathStart]
  split
  next split => exact skip split
  next split => exact skip split
  next split => exact skip split
  next => exact List.suffix_refl path

/-- The part of a path that is looked up (C `subpath`). -/
def subpath (path : CStr) : CStr :=
  ⟨(pathStart path.val).2, fun zero => path.2 ((pathStart_suffix path.val).subset zero)⟩

/-- Get current directory as a vnode (C `vfs_getcurdir`). -/
def vfsGetcurdir (k : Vfs) : SfsM Nat :=
  match k.cwd with
  | none => Prog.fail enoent
  | some v => do
    vopIncref v
    pure v

/-- The root of the file system that a name stands for (C `vfs_getroot`). -/
def vfsGetroot (k : Vfs) (devname : List UInt8) : SfsM Nat :=
  if k.devname = devname ∨ k.volname = devname then sfsGetroot else Prog.fail enodev

/-- Choose the vnode to begin the name lookup relative to (C `getdevice`). -/
def getdevice (k : Vfs) (path : CStr) : SfsM Nat :=
  match (pathStart path.val).1 with
  | .curdir => vfsGetcurdir k
  | .device name => vfsGetroot k name
  | .bootfs =>
    match k.bootfs with
    | none => Prog.fail enoent
    | some v => do
      vopIncref v
      pure v
  | .curfs => do
    let vn ← vfsGetcurdir k
    let startvn ← sfsGetroot
    vopDecref vn
    pure startvn

/-- The directory of a path and the name in it (C `vfs_lookparent`). -/
def vfsLookparent (k : Vfs) (path : CStr) (buflen : Nat) : SfsM (Nat × CStr) := do
  let startvn ← getdevice k path
  andAlways
    (if (subpath path).val.length = 0 then Prog.fail einval
      else onDir startvn (sfsLookparent startvn (subpath path) buflen))
    (vopDecref startvn)

/-- The vnode of a path (C `vfs_lookup`). -/
def vfsLookup (k : Vfs) (path : CStr) : SfsM Nat := do
  let startvn ← getdevice k path
  if (subpath path).val.length = 0 then pure startvn
  else andAlways (onDir startvn (sfsLookup startvn (subpath path))) (vopDecref startvn)

/-- Mask for the three modes of access (C `O_ACCMODE`). -/
def oAccmode : BitVec 32 := 3

/-- Create file if it doesn't exist (C `O_CREAT`). -/
def oCreat : BitVec 32 := 4

/-- With `O_CREAT`, fail if file already exists (C `O_EXCL`). -/
def oExcl : BitVec 32 := 8

/-- Truncate file upon open (C `O_TRUNC`). -/
def oTrunc : BitVec 32 := 16

/-- All writes happen at the end of the file (C `O_APPEND`). -/
def oAppend : BitVec 32 := 32

/-- Whether the flags allow writing: `O_RDONLY` does not, `O_WRONLY` and `O_RDWR` do, and `none` is no mode
(in C `vfs_open`). -/
def openMode (openflags : BitVec 32) : Option Bool :=
  match (openflags &&& oAccmode).toNat with
  | 0 => some false
  | 1 => some true
  | 2 => some true
  | _ => none

/-- This is called on each `open()` (C `sfs_open`). -/
def sfsOpen (openflags : BitVec 32) : SfsM Unit :=
  if openflags &&& oAppend ≠ 0 then Prog.fail eunimp else pure ()

/-- This is called on each `open()` of a directory (C `sfs_opendir`). -/
def sfsOpendir (openflags : BitVec 32) : SfsM Unit :=
  if openflags &&& oAccmode ≠ 0 then Prog.fail eisdir
  else if openflags &&& oAppend ≠ 0 then Prog.fail eisdir
  else pure ()

/-- C `VOP_OPEN`. -/
def vopOpen (sv : Nat) (openflags : BitVec 32) : SfsM Unit := do
  let v ← getVnode sv
  match v.ops with
  | .file => sfsOpen openflags
  | .dir => sfsOpendir openflags

/-- Called on the last close (C `sfs_close`). -/
def sfsClose (sv : Nat) : SfsM Unit := sfsFsync sv

/-- Increment the open count (C `vnode_incopen`). -/
def vopIncopen (sv : Nat) : SfsM Unit := setVnode sv fun v => { v with opencount := v.opencount + 1 }

/-- Decrement the open count; an error of the last close is only reported (C `vnode_decopen`). -/
def vopDecopen (sv : Nat) : SfsM Unit := do
  let v ← getVnode sv
  sfsAssert (v.opencount > 0) "vn->vn_opencount>0"
  setVnode sv fun v => { v with opencount := v.opencount - 1 }
  if v.opencount - 1 > 0 then pure ()
  else do
    let _ ← Prog.attempt (sfsClose sv)
    pure ()

/-- The vnode that `vfs_open` opens. -/
def openVnode (k : Vfs) (path : CStr) (openflags : BitVec 32) : SfsM Nat :=
  if openflags &&& oCreat ≠ 0 then do
    let p ← vfsLookparent k path 256
    andAlways (onDir p.1 (sfsCreat p.1 p.2 (openflags &&& oExcl ≠ 0))) (vopDecref p.1)
  else vfsLookup k path

/-- `vfs_open` with `O_TRUNC` set: the open vnode is truncated, or closed again. -/
def openTrunc (vn : Nat) (canwrite : Bool) : SfsM Unit := do
  let r ← Prog.attempt (if canwrite then vopTruncate vn 0 else Prog.fail einval)
  match r with
  | .error e => do
    vopDecopen vn
    vopDecref vn
    Prog.fail e
  | .ok () => pure ()

/-- `vfs_open` once it has a vnode. -/
def openAt (vn : Nat) (openflags : BitVec 32) (canwrite : Bool) : SfsM Nat := do
  let r ← Prog.attempt (vopOpen vn openflags)
  match r with
  | .error e => do
    vopDecref vn
    Prog.fail e
  | .ok () => do
    vopIncopen vn
    let _ ← (if openflags &&& oTrunc ≠ 0 then openTrunc vn canwrite else pure ())
    pure vn

/-- Does most of the work for `open()` (C `vfs_open`). -/
def vfsOpen (k : Vfs) (path : CStr) (openflags : BitVec 32) : SfsM Nat :=
  match openMode openflags with
  | none => Prog.fail einval
  | some canwrite => do
    let vn ← openVnode k path openflags
    openAt vn openflags canwrite

/-- Does most of the work for `close()` (C `vfs_close`). -/
def vfsClose (vn : Nat) : SfsM Unit := do
  vopDecopen vn
  vopDecref vn

/-- Does most of the work for `remove()` (C `vfs_remove`). -/
def vfsRemove (k : Vfs) (path : CStr) : SfsM Unit := do
  let p ← vfsLookparent k path 256
  andAlways (onDir p.1 (sfsRemove p.1 p.2)) (vopDecref p.1)

/-- Does most of the work for `rename()` (C `vfs_rename`). -/
def vfsRename (k : Vfs) (oldpath newpath : CStr) : SfsM Unit := do
  let old ← vfsLookparent k oldpath 256
  let r ← Prog.attempt (vfsLookparent k newpath 256)
  match r with
  | .error e => do
    vopDecref old.1
    Prog.fail e
  | .ok new =>
    andAlways (onDir old.1 (sfsRename old.1 old.2 new.1 new.2)) do
      vopDecref new.1
      vopDecref old.1

/-- Does most of the work for `link()` (C `vfs_link`). -/
def vfsLink (k : Vfs) (oldpath newpath : CStr) : SfsM Unit := do
  let oldfile ← vfsLookup k oldpath
  let r ← Prog.attempt (vfsLookparent k newpath 256)
  match r with
  | .error e => do
    vopDecref oldfile
    Prog.fail e
  | .ok new =>
    andAlways (onDir new.1 (sfsLink new.1 new.2 oldfile)) do
      vopDecref new.1
      vopDecref oldfile

/-- The calls of the VFS layer. -/
inductive VfsOp where
  | open (path : CStr) (openflags : BitVec 32)
  | close (vn : Nat)
  | link (oldpath newpath : CStr)
  | remove (path : CStr)
  | rename (oldpath newpath : CStr)

/-- Executes a call; the result is the vnode that is handed out, if any. -/
def VfsOp.exec (k : Vfs) : VfsOp → SfsM (Option Nat)
  | .open path openflags => do return some (← vfsOpen k path openflags)
  | .close vn => do vfsClose vn; return none
  | .link oldpath newpath => do vfsLink k oldpath newpath; return none
  | .remove path => do vfsRemove k path; return none
  | .rename oldpath newpath => do vfsRename k oldpath newpath; return none

end PDS.Sfs
