import PDS.Vfs.List

/-!
# The VFS layer over any file systems

Port of `kern/vfs/vfslookup.c`, `kern/vfs/vfspath.c`, `kern/vfs/vfscwd.c` and `kern/vfs/vnode.c`, for vnodes of any file
systems and devices. The operations of the file systems are those of a parameter (`Vops`); they may change everything,
and `Vops.Lawful` says what is relied on about the reference counts.
-/

namespace PDS.Vfs
open Kern Sfs

/-- Cross-device link (C `EXDEV`). -/
def exdev : Nat := 24

/-- Directory (C `S_IFDIR`). -/
def sIfdir : Nat := 0o20000

/-- The state of the VFS layer, as a thread sees it: the reference and open counts of the vnodes, the current directory
(C `t_cwd`), where a path with a leading slash starts (C `bootfs_vnode`), the table of devices, and what the file systems
keep. -/
structure World (D V F σ : Type) where
  refcount : V → ℤ
  opencount : V → ℤ
  cwd : Option V
  bootfs : Option V
  knowndevs : List (KnownDev D V F)
  disk : σ

/-- The commands of the VFS layer. -/
abbrev VfsM (D V F σ : Type) := Prog Halt Nat (World D V F σ)

/-- The operations of the file systems and devices (C `struct vnode_ops` and `struct fs_ops`), with `uiomove`. -/
structure Vops (D V F σ : Type) where
  /-- C `vn_fs` -/
  fs : V → Option F
  volname : F → Option (List UInt8)
  getroot : F → VfsM D V F σ V
  lookup : V → List UInt8 → VfsM D V F σ V
  lookparent : V → List UInt8 → Nat → VfsM D V F σ (V × List UInt8)
  creat : V → List UInt8 → Bool → Nat → VfsM D V F σ V
  open' : V → BitVec 32 → VfsM D V F σ Unit
  close : V → VfsM D V F σ Unit
  reclaim : V → VfsM D V F σ Unit
  truncate : V → Nat → VfsM D V F σ Unit
  remove : V → List UInt8 → VfsM D V F σ Unit
  rename : V → List UInt8 → V → List UInt8 → VfsM D V F σ Unit
  link : V → List UInt8 → V → VfsM D V F σ Unit
  symlink : V → List UInt8 → List UInt8 → VfsM D V F σ Unit
  readlink : V → VfsM D V F σ Unit
  mkdir : V → List UInt8 → Nat → VfsM D V F σ Unit
  rmdir : V → List UInt8 → VfsM D V F σ Unit
  gettype : V → VfsM D V F σ Nat
  namefile : V → VfsM D V F σ Unit
  uiomove : List UInt8 → VfsM D V F σ Unit

section

variable {D V F σ : Type} [DecidableEq V] (ops : Vops D V F σ)

/-- Check for various things being valid (C `vnode_check`). -/
def vnodeCheck (v : V) (opstr : String) : VfsM D V F σ Unit := do
  let w ← Prog.get
  Prog.require (0 ≤ w.refcount v) (.panic ("vnode_check: vop_" ++ opstr ++ ": negative refcount\n"))
  Prog.require (w.refcount v ≠ 0 ∨ opstr = "reclaim") (.panic ("vnode_check: vop_" ++ opstr ++ ": zero refcount\n"))
  Prog.require (0 ≤ w.opencount v) (.panic ("vnode_check: vop_" ++ opstr ++ ": negative opencount\n"))

/-- A call through the operations of a vnode (C `__VOP`). -/
def vop {α : Type} (v : V) (opstr : String) (m : VfsM D V F σ α) : VfsM D V F σ α := do
  vnodeCheck v opstr
  m

/-- Increment refcount (C `vnode_incref`). -/
def vnodeIncref (v : V) : VfsM D V F σ Unit :=
  Prog.modify fun w => { w with refcount := w.refcount + Pi.single v 1 }

/-- Decrement refcount; an error of `VOP_RECLAIM` is only reported (C `vnode_decref`). -/
def vnodeDecref (v : V) : VfsM D V F σ Unit := do
  let w ← Prog.get
  Prog.require (w.refcount v > 0) (.kassert "vn->vn_refcount>0")
  if w.refcount v > 1 then Prog.modify fun w => { w with refcount := w.refcount - Pi.single v 1 }
  else do
    let _ ← Prog.attempt (vop v "reclaim" (ops.reclaim v))
    pure ()

/-- Increment the open count (C `vnode_incopen`). -/
def vnodeIncopen (v : V) : VfsM D V F σ Unit :=
  Prog.modify fun w => { w with opencount := w.opencount + Pi.single v 1 }

/-- Decrement the open count; an error of `VOP_CLOSE` is only reported (C `vnode_decopen`). -/
def vnodeDecopen (v : V) : VfsM D V F σ Unit := do
  let w ← Prog.get
  Prog.require (w.opencount v > 0) (.kassert "vn->vn_opencount>0")
  Prog.modify fun w => { w with opencount := w.opencount - Pi.single v 1 }
  if w.opencount v - 1 > 0 then pure ()
  else do
    let _ ← Prog.attempt (vop v "close" (ops.close v))
    pure ()

/-- Get current directory as a vnode (C `vfs_getcurdir`). -/
def vfsGetcurdir : VfsM D V F σ V := do
  let w ← Prog.get
  match w.cwd with
  | none => Prog.fail enoent
  | some v => do
    vnodeIncref v
    pure v

/-- The vnode that a device name stands for, with a reference (C `vfs_getroot`). -/
def vfsGetrootVnode (devname : List UInt8) : VfsM D V F σ V := do
  let w ← Prog.get
  match vfsGetroot ops.volname w.knowndevs devname with
  | .error h => Prog.halt h
  | .ok (.error e) => Prog.fail e
  | .ok (.ok (.root fs)) => ops.getroot fs
  | .ok (.ok (.device v)) => do
    vnodeIncref v
    pure v

/-- Choose the vnode to begin the name lookup relative to (C `getdevice`). -/
def getdevice (path : List UInt8) : VfsM D V F σ V :=
  match (pathStart path).1 with
  | .curdir => vfsGetcurdir
  | .device name => vfsGetrootVnode ops name
  | .bootfs => do
    let w ← Prog.get
    match w.bootfs with
    | none => Prog.fail enoent
    | some v => do
      vnodeIncref v
      pure v
  | .curfs => do
    let vn ← vfsGetcurdir
    match ops.fs vn with
    | none => Prog.halt (.kassert "vn->vn_fs!=NULL")
    | some fs => do
      let startvn ← ops.getroot fs
      vnodeDecref ops vn
      pure startvn

/-- The directory of a path and the name in it (C `vfs_lookparent`). -/
def vfsLookparent (path : List UInt8) (buflen : Nat) : VfsM D V F σ (V × List UInt8) := do
  let startvn ← getdevice ops path
  Prog.andAlways
    (if (pathStart path).2.length = 0 then Prog.fail einval
      else vop startvn "lookparent" (ops.lookparent startvn (pathStart path).2 buflen))
    (vnodeDecref ops startvn)

/-- The vnode of a path (C `vfs_lookup`). -/
def vfsLookup (path : List UInt8) : VfsM D V F σ V := do
  let startvn ← getdevice ops path
  if (pathStart path).2.length = 0 then pure startvn
  else Prog.andAlways (vop startvn "lookup" (ops.lookup startvn (pathStart path).2)) (vnodeDecref ops startvn)

/-- Size of the buffers for names (C `NAME_MAX+1`). -/
def nameSize : Nat := 256

/-- The vnode that `vfs_open` opens. -/
def openVnode (path : List UInt8) (openflags : BitVec 32) (mode : Nat) : VfsM D V F σ V :=
  if openflags &&& oCreat ≠ 0 then do
    let dir ← vfsLookparent ops path nameSize
    Prog.andAlways (vop dir.1 "creat" (ops.creat dir.1 dir.2 (openflags &&& oExcl ≠ 0) mode)) (vnodeDecref ops dir.1)
  else vfsLookup ops path

/-- `vfs_open` with `O_TRUNC` set: the open vnode is truncated, or closed again. -/
def openTrunc (vn : V) (canwrite : Bool) : VfsM D V F σ Unit := do
  let r ← Prog.attempt (if canwrite then vop vn "truncate" (ops.truncate vn 0) else Prog.fail einval)
  match r with
  | .error e => do
    vnodeDecopen ops vn
    vnodeDecref ops vn
    Prog.fail e
  | .ok () => pure ()

/-- `vfs_open` once it has a vnode. -/
def openAt (vn : V) (openflags : BitVec 32) (canwrite : Bool) : VfsM D V F σ V := do
  let r ← Prog.attempt (vop vn "open" (ops.open' vn openflags))
  match r with
  | .error e => do
    vnodeDecref ops vn
    Prog.fail e
  | .ok () => do
    vnodeIncopen vn
    let _ ← (if openflags &&& oTrunc ≠ 0 then openTrunc ops vn canwrite else pure ())
    pure vn

/-- Does most of the work for `open()` (C `vfs_open`). -/
def vfsOpen (path : List UInt8) (openflags : BitVec 32) (mode : Nat) : VfsM D V F σ V :=
  match openMode openflags with
  | none => Prog.fail einval
  | some canwrite => do
    let vn ← openVnode ops path openflags mode
    openAt ops vn openflags canwrite

/-- Does most of the work for `close()` (C `vfs_close`). -/
def vfsClose (vn : V) : VfsM D V F σ Unit := do
  vnodeDecopen ops vn
  vnodeDecref ops vn

/-- The calls that look up the directory of one path, and make one call for the name in it. -/
def onParent (path : List UInt8) (call : V → List UInt8 → VfsM D V F σ Unit) : VfsM D V F σ Unit := do
  let dir ← vfsLookparent ops path nameSize
  Prog.andAlways (call dir.1 dir.2) (vnodeDecref ops dir.1)

/-- Does most of the work for `remove()` (C `vfs_remove`). -/
def vfsRemove (path : List UInt8) : VfsM D V F σ Unit :=
  onParent ops path fun dir name => vop dir "remove" (ops.remove dir name)

/-- Does most of the work for `symlink()` (C `vfs_symlink`). -/
def vfsSymlink (contents path : List UInt8) : VfsM D V F σ Unit :=
  onParent ops path fun dir name => vop dir "symlink" (ops.symlink dir name contents)

/-- Does most of the work for `mkdir` (C `vfs_mkdir`). -/
def vfsMkdir (path : List UInt8) (mode : Nat) : VfsM D V F σ Unit :=
  onParent ops path fun dir name => vop dir "mkdir" (ops.mkdir dir name mode)

/-- Does most of the work for `rmdir` (C `vfs_rmdir`). -/
def vfsRmdir (path : List UInt8) : VfsM D V F σ Unit :=
  onParent ops path fun dir name => vop dir "rmdir" (ops.rmdir dir name)

/-- The two vnodes of `vfs_rename` or of `vfs_link` are there: the second path is looked up, the call is made if both are
of one file system, and both are given up. -/
def onBoth [DecidableEq F] (first : V) (newpath : List UInt8) (call : V → List UInt8 → VfsM D V F σ Unit) :
    VfsM D V F σ Unit := do
  let r ← Prog.attempt (vfsLookparent ops newpath nameSize)
  match r with
  | .error e => do
    vnodeDecref ops first
    Prog.fail e
  | .ok new =>
    Prog.andAlways
      (if ops.fs first = none ∨ ops.fs new.1 = none ∨ ops.fs first ≠ ops.fs new.1 then Prog.fail exdev
        else call new.1 new.2) do
      vnodeDecref ops new.1
      vnodeDecref ops first

/-- Does most of the work for `rename()` (C `vfs_rename`). -/
def vfsRename [DecidableEq F] (oldpath newpath : List UInt8) : VfsM D V F σ Unit := do
  let old ← vfsLookparent ops oldpath nameSize
  onBoth ops old.1 newpath fun newdir newname => vop old.1 "rename" (ops.rename old.1 old.2 newdir newname)

/-- Does most of the work for `link()` (C `vfs_link`). -/
def vfsLink [DecidableEq F] (oldpath newpath : List UInt8) : VfsM D V F σ Unit := do
  let oldfile ← vfsLookup ops oldpath
  onBoth ops oldfile newpath fun newdir newname => vop newdir "link" (ops.link newdir newname oldfile)

/-- Does most of the work for `readlink()` (C `vfs_readlink`). -/
def vfsReadlink (path : List UInt8) : VfsM D V F σ Unit := do
  let vn ← vfsLookup ops path
  Prog.andAlways (vop vn "readlink" (ops.readlink vn)) (vnodeDecref ops vn)

/-- The old current directory is given up. -/
def releaseOld : Option V → VfsM D V F σ Unit
  | none => pure ()
  | some old => vnodeDecref ops old

/-- Set current directory as a vnode (C `vfs_setcurdir`). -/
def vfsSetcurdir (dir : V) : VfsM D V F σ Unit := do
  let vtype ← vop dir "gettype" (ops.gettype dir)
  if vtype ≠ sIfdir then Prog.fail enotdir
  else do
    vnodeIncref dir
    let w ← Prog.get
    Prog.modify fun w => { w with cwd := some dir }
    releaseOld ops w.cwd

/-- Set current directory to "none" (C `vfs_clearcurdir`). -/
def vfsClearcurdir : VfsM D V F σ Unit := do
  let w ← Prog.get
  Prog.modify fun w => { w with cwd := none }
  releaseOld ops w.cwd

/-- Set current directory, as a pathname (C `vfs_chdir`). -/
def vfsChdir (path : List UInt8) : VfsM D V F σ Unit := do
  let vn ← vfsLookup ops path
  Prog.andAlways (vfsSetcurdir ops vn) (vnodeDecref ops vn)

/-- Given a filesystem, hand back the name of the device it's mounted on (C `vfs_getdevname`). -/
def vfsGetdevname [DecidableEq F] (devs : List (KnownDev D V F)) (fs : F) : Option (List UInt8) :=
  (devs.find? fun kd => kd.fs = some fs).map KnownDev.name

/-- The volume name and the path are moved out. -/
def moveCwd [DecidableEq F] (cwd : V) : VfsM D V F σ Unit := do
  match ops.fs cwd with
  | none => Prog.halt (.kassert "cwd->vn_fs != NULL")
  | some fs => do
    let w ← Prog.get
    match (ops.volname fs).or (vfsGetdevname w.knowndevs fs) with
    | none => Prog.halt (.kassert "name != NULL")
    | some name => do
      ops.uiomove name
      ops.uiomove [58]
      vop cwd "namefile" (ops.namefile cwd)

/-- Get current directory, as a pathname (C `vfs_getcwd`). -/
def vfsGetcwd [DecidableEq F] : VfsM D V F σ Unit := do
  let cwd ← vfsGetcurdir
  Prog.andAlways (moveCwd ops cwd) (vnodeDecref ops cwd)

/-- The calls of the VFS layer. -/
inductive PathCall (V : Type) where
  | lookup (path : List UInt8)
  | lookparent (path : List UInt8) (buflen : Nat)
  | open (path : List UInt8) (openflags : BitVec 32) (mode : Nat)
  | close (vn : V)
  | remove (path : List UInt8)
  | rename (oldpath newpath : List UInt8)
  | link (oldpath newpath : List UInt8)
  | mkdir (path : List UInt8) (mode : Nat)
  | rmdir (path : List UInt8)
  | symlink (contents path : List UInt8)
  | readlink (path : List UInt8)
  | chdir (path : List UInt8)
  | setcurdir (dir : V)
  | clearcurdir
  | getcwd

/-- Executes a call; the value is the vnode that is handed out, if any. -/
def PathCall.exec [DecidableEq F] : PathCall V → VfsM D V F σ (Option V)
  | lookup path => do return some (← vfsLookup ops path)
  | lookparent path buflen => do return some (← vfsLookparent ops path buflen).1
  | .open path openflags mode => do return some (← vfsOpen ops path openflags mode)
  | close vn => do vfsClose ops vn; return none
  | remove path => do vfsRemove ops path; return none
  | rename oldpath newpath => do vfsRename ops oldpath newpath; return none
  | link oldpath newpath => do vfsLink ops oldpath newpath; return none
  | mkdir path mode => do vfsMkdir ops path mode; return none
  | rmdir path => do vfsRmdir ops path; return none
  | symlink contents path => do vfsSymlink ops contents path; return none
  | readlink path => do vfsReadlink ops path; return none
  | chdir path => do vfsChdir ops path; return none
  | setcurdir dir => do vfsSetcurdir ops dir; return none
  | clearcurdir => do vfsClearcurdir ops; return none
  | getcwd => do vfsGetcwd ops; return none

end

end PDS.Vfs
