import PDS.Lib.Balance

/-!
# The big lock of the file systems

Port of what `kern/vfs/`, `kern/fs/sfs/` and the file system of `kern/dev/lamebus/emu.c` do with `vfs_biglock`, function by
function: the acquires and releases, the calls that can reach the lock, the returns, and the tests that decide among them,
with their text in the source. Any test may go either way, so that a run stands for any input and any pattern of failures
of the devices, of the emulator and of `kmalloc`. What cannot reach the lock is left out; a function of which nothing is
left is `plain`.
-/

namespace PDS.Biglock
open Balance

/-- The tests. That for the result of `kmalloc` in `emufs_loadvnode` has a name of its own. -/
inductive Test where
  | test (text : String)
  /-- `ev==NULL` -/
  | evNull
deriving DecidableEq

abbrev LockCmd := Cmd Test

/-- C `vfs_biglock_acquire`. -/
def acquire : LockCmd := .acquire

/-- C `vfs_biglock_release`. -/
def release : LockCmd := .release

/-- C `if`. -/
def cIf (text : String) (a b : List LockCmd) : LockCmd := .cond (.test text) (.block a) (.block b)

/-- C `while` and `for`. -/
def cWhile (text : String) (body : List LockCmd) : LockCmd := .loop (.test text) (.block body)

/-- C `KASSERT`. -/
def kassert (text : String) : LockCmd := cIf text [] [.panic]

/-- A function that cannot reach the lock. -/
def plain : LockCmd := .ret

/-- The way out of a function on an error. -/
def leave : List LockCmd := [release, .ret]

/-- C `vnode_check`. -/
def vnodeCheck : LockCmd := .block [acquire, kassert "the vnode is valid", release]

/-- A call through the operations of a vnode: that of a file or of the directory of SFS, of a file or of a directory of
emufs, or of a device (C `__VOP`). -/
def vop (sfsFile sfsDir emufsFile emufsDir dev : LockCmd) : LockCmd := .block [
  .call vnodeCheck,
  cIf "vn_ops==&sfs_fileops" [.call sfsFile] [
    cIf "vn_ops==&sfs_dirops" [.call sfsDir] [
      cIf "vn_ops==&emufs_fileops" [.call emufsFile] [
        cIf "vn_ops==&emufs_dirops" [.call emufsDir] [.call dev]]]]]

/-- C `vnode_incref`. -/
def vnodeIncref : LockCmd := .block [acquire, release]

/-- C `vnode_incopen`. -/
def vnodeIncopen : LockCmd := .block [acquire, release]

/-- C `sfs_gettype`. -/
def sfsGettype : LockCmd := .block [
  acquire,
  cIf "SFS_TYPE_FILE" leave [],
  cIf "SFS_TYPE_DIR" leave [],
  .panic]

def vopGettype : LockCmd := vop sfsGettype sfsGettype plain plain plain

/-- C `sfs_fsync`. -/
def sfsFsync : LockCmd := .block [acquire, release, .ret]

def vopFsync : LockCmd := vop sfsFsync sfsFsync plain plain plain

/-- C `sfs_truncate`. -/
def sfsTruncate : LockCmd := .block [
  acquire,
  cIf "blocklen < highblock && idblock != 0" [
    cIf "sfs_rblock" leave [],
    cIf "!hasnonzero" [] [cIf "iddirty" [cIf "sfs_wblock" leave []] []]] [],
  release,
  .ret]

def vopTruncate : LockCmd := vop sfsTruncate plain plain plain plain

/-- C `sfs_reclaim`. -/
def sfsReclaim : LockCmd := .block [
  acquire,
  cIf "v->vn_refcount != 1" (kassert "v->vn_refcount>1" :: leave) [],
  cIf "sv->sv_i.sfi_linkcount==0" [vopTruncate, cIf "VOP_TRUNCATE" leave []] [],
  cIf "sfs_sync_inode" leave [],
  cIf "ix == num" [.panic] [],
  release,
  .ret]

/-- C `emufs_reclaim`. -/
def emufsReclaim : LockCmd := .block [
  acquire,
  cIf "ev->ev_v.vn_refcount != 1" leave [],
  cIf "emu_close" leave [],
  cIf "ix == num" [.panic] [],
  release,
  .ret]

def vopReclaim : LockCmd := vop sfsReclaim sfsReclaim emufsReclaim emufsReclaim plain

/-- C `vnode_decref`. -/
def vnodeDecref : LockCmd := .block [
  acquire,
  kassert "vn->vn_refcount>0",
  cIf "vn->vn_refcount>1" [] [vopReclaim],
  release]

/-- C `sfs_close`. -/
def sfsClose : LockCmd := .block [vopFsync, .ret]

def vopClose : LockCmd := vop sfsClose sfsClose plain plain plain

/-- C `vnode_decopen`. -/
def vnodeDecopen : LockCmd := .block [
  acquire,
  kassert "vn->vn_opencount>0",
  cIf "vn->vn_opencount > 0" leave [],
  vopClose,
  release]

/-- C `sfs_loadvnode`. -/
def sfsLoadvnode : LockCmd := .block [
  cWhile "i<num" [
    cIf "!sfs_bused(sfs, sv->sv_ino)" [.panic] [],
    cIf "sv->sv_ino==ino" [kassert "forcetype==SFS_TYPE_INVAL", .call vnodeIncref, .ret] []],
  cIf "sv==NULL" [.ret] [],
  cIf "!sfs_bused(sfs, ino)" [.panic] [],
  cIf "sfs_rblock" [.ret] [],
  cIf "forcetype != SFS_TYPE_INVAL" [kassert "sv->sv_i.sfi_type == SFS_TYPE_INVAL"] [],
  cIf "SFS_TYPE_FILE or SFS_TYPE_DIR" [] [.panic],
  cIf "VOP_INIT" [.ret] [],
  cIf "vnodearray_add" [.ret] [],
  .ret]

/-- C `sfs_getroot`. -/
def sfsGetroot : LockCmd := .block [
  acquire,
  .call sfsLoadvnode,
  cIf "result" [.panic] [],
  release,
  .ret]

/-- C `sfs_lookonce`. -/
def sfsLookonce : LockCmd := .block [
  cIf "sfs_dir_findname" [.ret] [],
  .call sfsLoadvnode,
  cIf "result" [.ret] [],
  cIf "(*ret)->sv_i.sfi_linkcount == 0" [.panic] [],
  .ret]

/-- C `sfs_makeobj`. -/
def sfsMakeobj : LockCmd := .block [
  cIf "sfs_balloc" [.ret] [],
  .call sfsLoadvnode,
  .ret]

/-- C `sfs_read`. -/
def sfsRead : LockCmd := .block [kassert "uio->uio_rw==UIO_READ", acquire, release, .ret]

/-- C `sfs_write`. -/
def sfsWrite : LockCmd := .block [kassert "uio->uio_rw==UIO_WRITE", acquire, release, .ret]

/-- C `sfs_stat`. -/
def sfsStat : LockCmd := .block [vopGettype, cIf "result" [.ret] [], .ret]

/-- C `sfs_creat`. -/
def sfsCreat : LockCmd := .block [
  acquire,
  cIf "result!=0 && result!=ENOENT" leave [],
  cIf "result==0 && excl" leave [],
  cIf "result==0" (.call sfsLoadvnode :: cIf "result" leave [] :: leave) [],
  .call sfsMakeobj,
  cIf "result" leave [],
  cIf "sfs_dir_link" (.call vnodeDecref :: leave) [],
  release,
  .ret]

/-- C `sfs_link`. -/
def sfsLink : LockCmd := .block [
  kassert "file->vn_fs == dir->vn_fs",
  acquire,
  cIf "sfs_dir_link" leave [],
  release,
  .ret]

/-- C `sfs_remove`. -/
def sfsRemove : LockCmd := .block [
  acquire,
  .call sfsLookonce,
  cIf "result" leave [],
  cIf "result==0" [kassert "victim->sv_i.sfi_linkcount > 0"] [],
  .call vnodeDecref,
  release,
  .ret]

/-- C `sfs_rename`; the label `puke` is `puke`. -/
def sfsRename : LockCmd :=
  let puke : List LockCmd := [.call vnodeDecref, release, .ret]
  .block [
    acquire,
    kassert "d1==d2",
    kassert "sv->sv_ino == SFS_ROOT_LOCATION",
    .call sfsLookonce,
    cIf "result" leave [],
    kassert "g1->sv_i.sfi_type == SFS_TYPE_FILE",
    cIf "sfs_dir_link" puke [],
    cIf "sfs_dir_unlink" (cIf "result2" [.panic] [] :: puke) [],
    kassert "g1->sv_i.sfi_linkcount>0",
    .call vnodeDecref,
    release,
    .ret]

/-- C `sfs_lookparent`. -/
def sfsLookparent : LockCmd := .block [
  acquire,
  cIf "sv->sv_i.sfi_type != SFS_TYPE_DIR" leave [],
  cIf "strlen(path)+1 > buflen" leave [],
  .call vnodeIncref,
  release,
  .ret]

/-- C `sfs_lookup`. -/
def sfsLookup : LockCmd := .block [
  acquire,
  cIf "sv->sv_i.sfi_type != SFS_TYPE_DIR" leave [],
  .call sfsLookonce,
  cIf "result" leave [],
  release,
  .ret]

/-- C `sfs_sync`. -/
def sfsSync : LockCmd := .block [
  acquire,
  cWhile "i<num" [vopFsync],
  cIf "sfs->sfs_freemapdirty" [cIf "sfs_mapio" leave []] [],
  cIf "sfs->sfs_superdirty" [cIf "sfs_wblock" leave []] [],
  release,
  .ret]

/-- C `sfs_getvolname`. -/
def sfsGetvolname : LockCmd := .block [acquire, release, .ret]

/-- C `sfs_unmount`. -/
def sfsUnmount : LockCmd := .block [
  acquire,
  cIf "vnodearray_num(sfs->sfs_vnodes) > 0" leave [],
  kassert "sfs->sfs_superdirty == false",
  kassert "sfs->sfs_freemapdirty == false",
  release,
  .ret]

/-- C `sfs_domount`. -/
def sfsDomount : LockCmd := .block [
  acquire,
  cIf "dev->d_blocksize != SFS_BLOCKSIZE" leave [],
  cIf "sfs==NULL" leave [],
  cIf "sfs->sfs_vnodes == NULL" leave [],
  cIf "sfs_rblock" leave [],
  cIf "sfs->sfs_super.sp_magic != SFS_MAGIC" leave [],
  cIf "sfs->sfs_freemap == NULL" leave [],
  cIf "sfs_mapio" leave [],
  release,
  .ret]

/-- C `emufs_loadvnode`. -/
def emufsLoadvnode : LockCmd := .block [
  acquire,
  cWhile "i<num" [cIf "ev->ev_handle == handle" (.call vnodeIncref :: leave) []],
  .cond .evNull (.block [.ret]) (.block []),
  cIf "VOP_INIT" leave [],
  cIf "vnodearray_add" leave [],
  release,
  .ret]

/-- C `emufs_creat`. -/
def emufsCreat : LockCmd := .block [
  cIf "emu_open" [.ret] [],
  .call emufsLoadvnode,
  cIf "result" [.ret] [],
  .ret]

/-- C `emufs_lookup`. -/
def emufsLookup : LockCmd := .block [
  cIf "emu_open" [.ret] [],
  .call emufsLoadvnode,
  cIf "result" [.ret] [],
  .ret]

/-- C `emufs_lookparent`. -/
def emufsLookparent : LockCmd := .block [
  cIf "s==NULL" [cIf "strlen(pathname)+1 > len" [.ret] [], .call vnodeIncref, .ret] [],
  cIf "strlen(s)+1 > len" [.ret] [],
  .call emufsLookup,
  .ret]

/-- C `emufs_stat`. -/
def emufsStat : LockCmd := .block [cIf "emu_getsize" [.ret] [], vopGettype, cIf "result" [.ret] [], .ret]

/-- C `emufs_getroot`. -/
def emufsGetroot : LockCmd := .block [
  kassert "fs != NULL",
  kassert "ef != NULL",
  kassert "ef->ef_root != NULL",
  .call vnodeIncref,
  .ret]

/-- C `dev_stat`. -/
def devStat : LockCmd := .block [vopGettype, cIf "result" [.ret] [], .ret]

/-- C `dev_lookup`. -/
def devLookup : LockCmd := .block [cIf "strlen(pathname)>0" [.ret] [], .call vnodeIncref, .ret]

def vopOpen : LockCmd := vop plain plain plain plain plain

def vopReadlink : LockCmd := vop plain plain plain plain plain

def vopNamefile : LockCmd := vop plain plain plain plain plain

def vopCreat : LockCmd := vop plain sfsCreat plain emufsCreat plain

def vopSymlink : LockCmd := vop plain plain plain plain plain

def vopMkdir : LockCmd := vop plain plain plain plain plain

def vopLink : LockCmd := vop plain sfsLink plain plain plain

def vopRemove : LockCmd := vop plain sfsRemove plain plain plain

def vopRmdir : LockCmd := vop plain plain plain plain plain

def vopRename : LockCmd := vop plain sfsRename plain plain plain

def vopLookup : LockCmd := vop plain sfsLookup plain emufsLookup devLookup

def vopLookparent : LockCmd := vop plain sfsLookparent plain emufsLookparent plain

/-- A call through the operations of a file system: SFS or emufs. -/
def fsop (sfs emufs : LockCmd) : LockCmd := cIf "sfs" [.call sfs] [.call emufs]

def fsopSync : LockCmd := fsop sfsSync plain

def fsopGetvolname : LockCmd := fsop sfsGetvolname plain

def fsopGetroot : LockCmd := fsop sfsGetroot emufsGetroot

def fsopUnmount : LockCmd := fsop sfsUnmount plain

/-- C `vfs_sync`. -/
def vfsSync : LockCmd := .block [
  acquire,
  cWhile "i<num" [cIf "dev->kd_fs != NULL" [fsopSync] []],
  release,
  .ret]

/-- C `vfs_getroot`. -/
def vfsGetroot : LockCmd := .block [
  kassert "vfs_biglock_do_i_hold()",
  cWhile "i<num" [
    cIf "kd->kd_fs!=NULL" [
      fsopGetvolname,
      cIf "the device or the volume is named" [fsopGetroot, .ret] []] [
      cIf "kd->kd_rawname!=NULL && !strcmp(kd->kd_name, devname)" [.ret] []],
    cIf "!strcmp(kd->kd_name, devname)" [
      kassert "kd->kd_fs==NULL",
      kassert "kd->kd_rawname==NULL",
      kassert "kd->kd_device != NULL",
      .call vnodeIncref,
      .ret] [],
    cIf "kd->kd_rawname!=NULL && !strcmp(kd->kd_rawname, devname)" [
      kassert "kd->kd_device != NULL",
      .call vnodeIncref,
      .ret] []],
  .ret]

/-- C `badnames`. -/
def badnames : LockCmd := .block [
  kassert "vfs_biglock_do_i_hold()",
  cWhile "i<num" [
    cIf "kd->kd_fs" [fsopGetvolname, cIf "samestring3(volname, n1, n2, n3)" [.ret] []] [],
    cIf "samestring3(kd->kd_rawname, n1, n2, n3) || samestring3(kd->kd_name, n1, n2, n3)" [.ret] []],
  .ret]

/-- C `vfs_doadd`; the label `nomem` is `leave`. -/
def vfsDoadd : LockCmd := .block [
  acquire,
  cIf "name==NULL" leave [],
  cIf "mountable" [cIf "rawname==NULL" leave []] [],
  cIf "vnode==NULL" leave [],
  cIf "kd==NULL" leave [],
  cIf "fs!=NULL" [fsopGetvolname] [],
  .call badnames,
  cIf "badnames(name, rawname, volname)" leave [],
  release,
  .ret]

/-- C `vfs_adddev`. -/
def vfsAdddev : LockCmd := .block [.call vfsDoadd, .ret]

/-- C `vfs_addfs`. -/
def vfsAddfs : LockCmd := .block [.call vfsDoadd, .ret]

/-- C `vfs_mount`, with `sfs_domount` as the mount function. -/
def vfsMount : LockCmd := .block [
  acquire,
  cIf "findmount" leave [],
  cIf "kd->kd_fs != NULL" leave [],
  kassert "kd->kd_rawname != NULL",
  kassert "kd->kd_device != NULL",
  .call sfsDomount,
  cIf "result" leave [],
  kassert "fs != NULL",
  fsopGetvolname,
  release,
  .ret]

/-- C `sfs_mount`. -/
def sfsMount : LockCmd := .block [.call vfsMount, .ret]

/-- C `vfs_unmount`; the label `fail` is `leave`. -/
def vfsUnmount : LockCmd := .block [
  acquire,
  cIf "findmount" leave [],
  cIf "kd->kd_fs == NULL" leave [],
  kassert "kd->kd_rawname != NULL",
  kassert "kd->kd_device != NULL",
  fsopSync,
  cIf "result" leave [],
  fsopUnmount,
  cIf "result" leave [],
  release,
  .ret]

/-- C `vfs_unmountall`. -/
def vfsUnmountall : LockCmd :=
  let unmount : List LockCmd := [fsopUnmount, cIf "result == EBUSY" [] [cIf "result" [] []]]
  .block [
    acquire,
    cWhile "i<num" [
      cIf "dev->kd_rawname == NULL" [] [
        cIf "dev->kd_fs == NULL" [] [
          fsopSync,
          cIf "result" [fsopSync, cIf "result" [] unmount] unmount]]],
    release,
    .ret]

/-- C `emufs_addtovfs`. -/
def emufsAddtovfs : LockCmd := .block [
  cIf "ef==NULL" [.ret] [],
  cIf "ef->ef_vnodes == NULL" [.ret] [],
  .call emufsLoadvnode,
  cIf "result" [.ret] [],
  kassert "ef->ef_root!=NULL",
  .call vfsAddfs,
  cIf "result" [.call vnodeDecref] [],
  .ret]

/-- C `vfs_getcurdir`. -/
def vfsGetcurdir : LockCmd := .block [cIf "curthread->t_cwd!=NULL" [.call vnodeIncref] [], .ret]

/-- C `vfs_setcurdir`. -/
def vfsSetcurdir : LockCmd := .block [
  vopGettype,
  cIf "result" [.ret] [],
  cIf "vtype != S_IFDIR" [.ret] [],
  .call vnodeIncref,
  cIf "old!=NULL" [.call vnodeDecref] [],
  .ret]

/-- C `vfs_clearcurdir`. -/
def vfsClearcurdir : LockCmd := .block [cIf "old!=NULL" [.call vnodeDecref] [], .ret]

/-- C `vfs_getcwd`; the label `out` is `out`. -/
def vfsGetcwd : LockCmd :=
  let out : List LockCmd := [.call vnodeDecref, .ret]
  .block [
    kassert "uio->uio_rw==UIO_READ",
    .call vfsGetcurdir,
    cIf "result" [.ret] [],
    kassert "cwd->vn_fs != NULL",
    fsopGetvolname,
    cIf "name==NULL" [acquire, kassert "vfs_biglock_do_i_hold()", release] [],
    kassert "name != NULL",
    cIf "uiomove" out [],
    cIf "uiomove" out [],
    vopNamefile,
    .block out]

/-- C `getdevice`. -/
def getdevice : LockCmd := .block [
  kassert "vfs_biglock_do_i_hold()",
  cIf "colon < 0 && slash != 0" [.call vfsGetcurdir, .ret] [],
  cIf "colon>0" [.call vfsGetroot, cIf "result" [.ret] [], .ret] [],
  kassert "colon==0 || slash==0",
  cIf "path[0]=='/'" [cIf "bootfs_vnode==NULL" [.ret] [], .call vnodeIncref] [
    kassert "path[0]==':'",
    .call vfsGetcurdir,
    cIf "result" [.ret] [],
    kassert "vn->vn_fs!=NULL",
    fsopGetroot,
    .call vnodeDecref],
  .ret]

/-- C `vfs_lookparent`. -/
def vfsLookparent : LockCmd := .block [
  acquire,
  .call getdevice,
  cIf "result" leave [],
  cIf "strlen(path)==0" [] [vopLookparent],
  .call vnodeDecref,
  release,
  .ret]

/-- C `vfs_lookup`. -/
def vfsLookup : LockCmd := .block [
  acquire,
  .call getdevice,
  cIf "result" leave [],
  cIf "strlen(path)==0" leave [],
  vopLookup,
  .call vnodeDecref,
  release,
  .ret]

/-- C `vfs_chdir`. -/
def vfsChdir : LockCmd := .block [
  .call vfsLookup,
  cIf "result" [.ret] [],
  .call vfsSetcurdir,
  .call vnodeDecref,
  .ret]

/-- C `change_bootfs`. -/
def changeBootfs : LockCmd := .block [cIf "oldvn != NULL" [.call vnodeDecref] []]

/-- C `vfs_setbootfs`. -/
def vfsSetbootfs : LockCmd := .block [
  acquire,
  cIf "s" [cIf "strlen(s)>0" leave []] [],
  .call vfsChdir,
  cIf "result" leave [],
  .call vfsGetcurdir,
  cIf "result" leave [],
  .call changeBootfs,
  release,
  .ret]

/-- C `vfs_clearbootfs`. -/
def vfsClearbootfs : LockCmd := .block [acquire, .call changeBootfs, release]

/-- C `vfs_open`. -/
def vfsOpen : LockCmd := .block [
  cIf "how is no mode" [.ret] [],
  cIf "openflags & O_CREAT" [
    .call vfsLookparent,
    cIf "result" [.ret] [],
    vopCreat,
    .call vnodeDecref] [.call vfsLookup],
  cIf "result" [.ret] [],
  kassert "vn != NULL",
  vopOpen,
  cIf "result" [.call vnodeDecref, .ret] [],
  .call vnodeIncopen,
  cIf "openflags & O_TRUNC" [
    cIf "canwrite==0" [] [vopTruncate],
    cIf "result" [.call vnodeDecopen, .call vnodeDecref, .ret] []] [],
  .ret]

/-- C `vfs_close`. -/
def vfsClose : LockCmd := .block [.call vnodeDecopen, .call vnodeDecref]

/-- The directory of a path is looked up, a call is made, and the directory is given up. -/
def onParent (call : LockCmd) : LockCmd := .block [
  .call vfsLookparent,
  cIf "result" [.ret] [],
  call,
  .call vnodeDecref,
  .ret]

/-- C `vfs_remove`. -/
def vfsRemove : LockCmd := onParent vopRemove

/-- C `vfs_symlink`. -/
def vfsSymlink : LockCmd := onParent vopSymlink

/-- C `vfs_mkdir`. -/
def vfsMkdir : LockCmd := onParent vopMkdir

/-- C `vfs_rmdir`. -/
def vfsRmdir : LockCmd := onParent vopRmdir

/-- Two paths are looked up, a call is made if they are on one file system, and both vnodes are given up. -/
def onBoth (first call : LockCmd) : LockCmd := .block [
  .call first,
  cIf "result" [.ret] [],
  .call vfsLookparent,
  cIf "result" [.call vnodeDecref, .ret] [],
  cIf "not on one file system" [.call vnodeDecref, .call vnodeDecref, .ret] [],
  call,
  .call vnodeDecref,
  .call vnodeDecref,
  .ret]

/-- C `vfs_rename`. -/
def vfsRename : LockCmd := onBoth vfsLookparent vopRename

/-- C `vfs_link`. -/
def vfsLink : LockCmd := onBoth vfsLookup vopLink

/-- C `vfs_readlink`. -/
def vfsReadlink : LockCmd := .block [
  .call vfsLookup,
  cIf "result" [.ret] [],
  vopReadlink,
  .call vnodeDecref,
  .ret]

/-! ## Balance -/

/-- The operations of SFS on vnodes and on the file system. -/
def sfsOperations : List LockCmd := [plain, sfsClose, sfsReclaim, sfsRead, sfsWrite, sfsStat, sfsGettype, sfsFsync,
  sfsTruncate, sfsCreat, sfsLink, sfsRemove, sfsRename, sfsLookup, sfsLookparent, sfsSync, sfsGetvolname, sfsGetroot,
  sfsUnmount, sfsDomount, sfsMount]

/-- The operations of emufs on vnodes and on the file system. -/
def emufsOperations : List LockCmd := [plain, emufsReclaim, emufsStat, emufsCreat, emufsLookup, emufsLookparent,
  emufsGetroot, emufsAddtovfs]

/-- The functions of the VFS layer. -/
def vfsOperations : List LockCmd := [vnodeCheck, vnodeIncref, vnodeDecref, vnodeIncopen, vnodeDecopen, devStat, devLookup,
  vfsGetcurdir, vfsSetcurdir, vfsClearcurdir, vfsChdir, vfsGetcwd, vfsSetbootfs, vfsClearbootfs, vfsLookparent, vfsLookup,
  vfsOpen, vfsClose, vfsRemove, vfsRename, vfsLink, vfsSymlink, vfsReadlink, vfsMkdir, vfsRmdir, vfsSync, vfsGetroot,
  vfsAdddev, vfsAddfs, vfsMount, vfsUnmount, vfsUnmountall]

/-- Every entry point. -/
def entryPoints : List LockCmd := sfsOperations ++ emufsOperations ++ vfsOperations

/-- `emufs_loadvnode` does not release the lock when `kmalloc` fails. -/
def missing : Test × Bool → Nat
  | (.evNull, true) => 1
  | _ => 0

/-- Every entry point is off by its missing releases only. -/
lemma entryPoints_balanced : ∀ c ∈ entryPoints, c.Balanced missing := by
  decide +kernel

/-- The one missing release is on the path where `emufs_loadvnode` finds no vnode. -/
lemma missing_eq_zero_iff {t : List (Test × Bool)} : slips missing t = 0 ↔ (.evNull, true) ∉ t := by
  rw [slips_eq_zero_iff]
  constructor
  · intro none_ mem
    exact nomatch none_ _ mem
  · rintro never ⟨k, b⟩ mem
    cases k with
    | test => rfl
    | evNull =>
      cases b with
      | false => rfl
      | true => exact absurd mem never

/-- A call of an entry point leaves the big lock as it was if and only if no `kmalloc` of `emufs_loadvnode` fails in it. -/
theorem biglock_balance {c : LockCmd} {l l' : RLock} {t : List (Test × Bool)} {f : Flow} (entry : c ∈ entryPoints)
    (valid : l.Valid) (run : Exec c l t l' f) : (l'.depth = l.depth ∧ l'.held = l.held) ↔ (.evNull, true) ∉ t := by
  have depth := run.balanced (entryPoints_balanced c entry)
  have after : l'.held = decide (0 < l'.depth) := run.valid valid
  have before : l.held = decide (0 < l.depth) := valid
  rw [← missing_eq_zero_iff]
  constructor
  · intro same
    exact Nat.add_eq_left.1 (depth.symm.trans same.1)
  · intro none_
    rw [none_, add_zero] at depth
    exact ⟨depth, by rw [after, before, depth]⟩

/-- `sfs_unmount` of a file system in use. -/
theorem biglock_balance_busy : ∃ t, Exec sfsUnmount ⟨false, 0⟩ t ⟨false, 0⟩ .ret ∧ (.evNull, true) ∉ t := by
  have acquired : Exec acquire ⟨false, 0⟩ [] ⟨true, 1⟩ .next := .acquire
  have released : Exec release ⟨true, 1⟩ [] ⟨false, 0⟩ .next := .release rfl (by decide)
  have left : Exec (.block leave) ⟨true, 1⟩ ([] ++ []) ⟨false, 0⟩ .ret := .seq released (.seqRet .ret)
  have run : Exec sfsUnmount ⟨false, 0⟩ _ ⟨false, 0⟩ .ret := .seq acquired (.seqRet (.condTrue left))
  have entry : sfsUnmount ∈ entryPoints := by
    simp only [entryPoints, sfsOperations, List.mem_append, List.mem_cons, true_or, or_true]
  have valid : RLock.Valid ⟨false, 0⟩ := rfl
  exact ⟨_, run, (biglock_balance entry valid run).1 ⟨rfl, rfl⟩⟩

/-- `emufs_creat` returns with the big lock when there is no memory for the vnode. -/
theorem biglock_kept_by_creat : emufsCreat ∈ entryPoints ∧ ∃ t, Exec emufsCreat ⟨false, 0⟩ t ⟨true, 1⟩ .ret := by
  have entry : emufsCreat ∈ entryPoints := by
    simp only [entryPoints, emufsOperations, List.mem_append, List.mem_cons, true_or, or_true]
  have acquired : Exec acquire ⟨false, 0⟩ [] ⟨true, 1⟩ .next := .acquire
  have nomem : Exec emufsLoadvnode ⟨false, 0⟩ _ ⟨true, 1⟩ .ret :=
    .seq acquired (.seq .loopEnd (.seqRet (.condTrue (.seqRet .ret))))
  exact ⟨entry, _, .seq (.condFalse .skip) (.seq (.call nomem) (.seqRet (.condTrue (.seqRet .ret))))⟩

end PDS.Biglock
