import PDS.Kern.UserMem

/-!
# The program loader

Port of `kern/syscall/loadelf.c` (with the structures of `kern/include/elf.h`) and of the part of
`kern/lib/uio.c` below it. `load_elf` reads the program headers twice: the first pass defines the
regions of the address space, the second one reads the segments into them.

A file system hands the bytes of a file to `uiomove` piece by piece, as `emufs_read` in
`kern/dev/lamebus/emu.c` does; how large the pieces are and whether a read fails is left open
(`Vnode.piece`). The headers are read into variables on the kernel stack: the bytes that a `uio` for the
kernel has received so far are its field `kbuf`.

C → Lean naming: `Elf_Ehdr` → `Ehdr`, `Elf_Phdr` → `Phdr`, without the prefixes `e_` and `p_` of the
fields; `uio_kinit` and the checks after it are `readStruct`. Fields that nothing reads are left out. All
transfers are from the file to memory (`UIO_READ`).
-/

namespace PDS.Kern
open Word

/-- Where a transfer goes (C `enum uio_seg`). -/
inductive UioSeg where
  | userispace
  | userspace
  | sysspace
deriving DecidableEq, Repr

/-- A piece of the destination (C `struct iovec`). -/
structure Iovec where
  base : Nat
  len : Nat
deriving DecidableEq, Repr

/-- The state of a transfer (C `struct uio`). -/
structure Uio where
  iov : List Iovec
  offset : Nat
  resid : Nat
  segflg : UioSeg
  kbuf : List UInt8

/-- The `switch` of `uiomove`: copies bytes to the start of an `iovec`. -/
def Uio.put (u : Uio) (m : Mach) (iov : Iovec) (bytes : List UInt8) : Except Halt (Mach × Uio × Nat) :=
  match u.segflg with
  | .sysspace => .ok (m, { u with kbuf := u.kbuf ++ bytes }, 0)
  | .userspace | .userispace => do
    let (m, result) ← copyout m bytes iov.base
    .ok (m, u, result)

/-- The loop of `uiomove`. -/
def uiomoveLoop : Nat → Mach → List UInt8 → Uio → Except Halt (Mach × Uio × Nat)
  | 0, _, _, _ => .error .spin
  | fuel + 1, m, ptr, u =>
    if ptr = [] ∨ u.resid = 0 then .ok (m, u, 0)
    else
      match u.iov with
      | [] => .error (.panic "uiomove: ran out of buffers\n")
      | iov :: rest =>
        let size := min iov.len ptr.length
        if size = 0 then
          -- move to the next iovec and try again
          if rest = [] then .error (.panic "uiomove: ran out of buffers\n")
          else uiomoveLoop fuel m ptr { u with iov := rest }
        else do
          let (m, u, result) ← u.put m iov (ptr.take size)
          if result ≠ 0 then .ok (m, u, result)
          else uiomoveLoop fuel m (ptr.drop size) { u with
            iov := ⟨wadd 32 iov.base size, iov.len - size⟩ :: rest
            resid := wsub 32 u.resid size
            offset := u.offset + size }

/-- Moves bytes to where a transfer goes (C `uiomove`). -/
def uiomove (m : Mach) (ptr : List UInt8) (u : Uio) : Except Halt (Mach × Uio × Nat) :=
  uiomoveLoop (ptr.length + u.iov.length + 1) m ptr u

/-- A file. `piece offset resid` is the number of bytes that the file system passes on next, or the error
code of the read. -/
structure Vnode where
  data : List UInt8
  piece : Nat → Nat → Except Nat Nat

/-- The next `n` bytes of a file, as far as it has them. -/
def Vnode.bytes (vn : Vnode) (offset n : Nat) : List UInt8 := (vn.data.drop offset).take n

/-- The loop of a read: stops at an error, at the end of the file, or when all is read. -/
def vopReadLoop (vn : Vnode) : Nat → Mach → Uio → Except Halt (Mach × Uio × Nat)
  | 0, _, _ => .error .spin
  | fuel + 1, m, u =>
    if u.resid = 0 then .ok (m, u, 0)
    else
      match vn.piece u.offset u.resid with
      | .error result => .ok (m, u, result)
      | .ok n =>
        if vn.bytes u.offset (min n u.resid) = [] then .ok (m, u, 0)
        else do
          let (m, u, result) ← uiomove m (vn.bytes u.offset (min n u.resid)) u
          if result ≠ 0 then .ok (m, u, result) else vopReadLoop vn fuel m u

/-- Reads from a file (C `VOP_READ`). -/
def vopRead (vn : Vnode) (m : Mach) (u : Uio) : Except Halt (Mach × Uio × Nat) :=
  vopReadLoop vn (u.resid + 1) m u

/-- The number that `n` bytes at `off` spell, most significant byte first. -/
def bigEndian (bytes : List UInt8) (off n : Nat) : Nat :=
  ((bytes.drop off).take n).foldl (fun acc b => acc * 256 + b.toNat) 0

/-- The executable header (C `Elf_Ehdr`). -/
structure Ehdr where
  ident : List UInt8
  type : UInt16
  machine : UInt16
  version : UInt32
  entry : UInt32
  phoff : UInt32
  phentsize : UInt16
  phnum : UInt16
deriving DecidableEq, Repr

/-- `sizeof(Elf_Ehdr)`. -/
def ehdrSize : Nat := 52

/-- The executable header in memory. -/
def Ehdr.ofBytes (bytes : List UInt8) : Ehdr where
  ident := bytes.take 16
  type := .ofNat (bigEndian bytes 16 2)
  machine := .ofNat (bigEndian bytes 18 2)
  version := .ofNat (bigEndian bytes 20 4)
  entry := .ofNat (bigEndian bytes 24 4)
  phoff := .ofNat (bigEndian bytes 28 4)
  phentsize := .ofNat (bigEndian bytes 42 2)
  phnum := .ofNat (bigEndian bytes 44 2)

/-- "Check to make sure it's a 32-bit ELF-version-1 executable for our processor type." -/
def Ehdr.valid (eh : Ehdr) : Bool :=
  -- magic number, ELFCLASS32, ELFDATA2MSB, EV_CURRENT
  eh.ident.take 7 == [0x7f, 0x45, 0x4c, 0x46, 1, 2, 1] &&
  eh.version == 1 &&
  -- ET_EXEC, EM_MIPS
  eh.type == 2 && eh.machine == 8

/-- A program header (C `Elf_Phdr`). -/
structure Phdr where
  type : UInt32
  offset : UInt32
  vaddr : UInt32
  filesz : UInt32
  memsz : UInt32
  flags : UInt32
deriving DecidableEq, Repr

/-- `sizeof(Elf_Phdr)`. -/
def phdrSize : Nat := 32

/-- A program header in memory. -/
def Phdr.ofBytes (bytes : List UInt8) : Phdr where
  type := .ofNat (bigEndian bytes 0 4)
  offset := .ofNat (bigEndian bytes 4 4)
  vaddr := .ofNat (bigEndian bytes 8 4)
  filesz := .ofNat (bigEndian bytes 16 4)
  memsz := .ofNat (bigEndian bytes 20 4)
  flags := .ofNat (bigEndian bytes 24 4)

/-- What the loader does with a segment, by its type. -/
inductive SegKind where
  /-- `PT_NULL`, `PT_PHDR`, `PT_MIPS_REGINFO` -/
  | skip
  /-- `PT_LOAD` -/
  | load
  | unknown
deriving DecidableEq, Repr

/-- `switch (ph.p_type)`. -/
def Phdr.kind (ph : Phdr) : SegKind :=
  if ph.type = 0 ∨ ph.type = 6 ∨ ph.type = 0x70000000 then .skip
  else if ph.type = 1 then .load
  else .unknown

/-- `eh.e_phoff + i*eh.e_phentsize`. -/
def Ehdr.phdrOffset (eh : Ehdr) (i : Nat) : Nat :=
  wadd 32 eh.phoff.toNat (wmul 32 i eh.phentsize.toNat)

/-- Reads a structure of `size` bytes at `offset` of the file into kernel memory. -/
def readStruct (vn : Vnode) (m : Mach) (size offset : Nat) :
    Except Halt (Mach × Except Nat (List UInt8)) := do
  let (m, ku, result) ← vopRead vn m ⟨[⟨0, size⟩], offset, size, .sysspace, []⟩
  if result ≠ 0 then .ok (m, .error result)
  -- "short read; problem with executable?"
  else if ku.resid ≠ 0 then .ok (m, .error enoexec)
  else .ok (m, .ok ku.kbuf)

/-- One pass over the program headers `i, i+1, ...`, of which there are `n`. -/
def forPhdrs (vn : Vnode) (eh : Ehdr) (body : Mach → Phdr → Except Halt (Mach × Nat)) :
    Nat → Nat → Mach → Except Halt (Mach × Nat)
  | 0, _, m => .ok (m, 0)
  | n + 1, i, m => do
    match ← readStruct vn m phdrSize (eh.phdrOffset i) with
    | (m, .error result) => .ok (m, result)
    | (m, .ok bytes) =>
      let ph := Phdr.ofBytes bytes
      match ph.kind with
      | .skip => forPhdrs vn eh body n (i + 1) m
      | .unknown => .ok (m, enoexec)
      | .load => do
        let (m, result) ← body m ph
        if result ≠ 0 then .ok (m, result) else forPhdrs vn eh body n (i + 1) m

/-- The body of the first pass. Without an address space the thread would follow a null pointer. -/
def defineSegment (m : Mach) (ph : Phdr) : Except Halt (Mach × Nat) :=
  match m.as with
  | none => .error fatalFault
  | some as =>
    let (as, result) := asDefineRegion as ph.vaddr.toNat ph.memsz.toNat
    .ok ({ m with as := some as }, result)

/-- Reads `filesize` bytes at `offset` of the file to `vaddr`, where `memsize` bytes have been set aside
(C `load_segment`). -/
def loadSegment (vn : Vnode) (m : Mach) (offset vaddr memsize filesize : Nat) (isExecutable : Bool) :
    Except Halt (Mach × Nat) := do
  let filesize := if filesize > memsize then memsize else filesize
  let segflg := if isExecutable then UioSeg.userispace else .userspace
  let (m, u, result) ← vopRead vn m ⟨[⟨vaddr, memsize⟩], offset, filesize, segflg, []⟩
  if result ≠ 0 then .ok (m, result)
  -- "short read; problem with executable?"
  else if u.resid ≠ 0 then .ok (m, enoexec)
  else .ok (m, result)

/-- The body of the second pass. -/
def readSegment (vn : Vnode) (m : Mach) (ph : Phdr) : Except Halt (Mach × Nat) :=
  loadSegment vn m ph.offset.toNat ph.vaddr.toNat ph.memsz.toNat ph.filesz.toNat (ph.flags &&& 1 != 0)

/-- `as_prepare_load(curthread->t_addrspace)`. -/
def prepareLoad (m : Mach) : Except Halt (Mach × Nat) :=
  match m.as with
  | none => .error fatalFault
  | some as => do
    let (ph, as, result) ← asPrepareLoad m.phys as
    .ok ({ m with phys := ph, as := some as }, result)

/-- Loads an executable into the address space of the current thread. The second component is
`*entrypoint`, where it is set; `as_complete_load` does nothing (C `load_elf`). -/
def loadElf (vn : Vnode) (m : Mach) : Except Halt (Mach × Option Nat × Nat) := do
  match ← readStruct vn m ehdrSize 0 with
  | (m, .error result) => .ok (m, none, result)
  | (m, .ok bytes) =>
    let eh := Ehdr.ofBytes bytes
    if ¬ eh.valid then .ok (m, none, enoexec)
    else do
      let (m, result) ← forPhdrs vn eh defineSegment eh.phnum.toNat 0 m
      if result ≠ 0 then .ok (m, none, result)
      else do
        let (m, result) ← prepareLoad m
        if result ≠ 0 then .ok (m, none, result)
        else do
          let (m, result) ← forPhdrs vn eh (readSegment vn) eh.phnum.toNat 0 m
          if result ≠ 0 then .ok (m, none, result)
          else .ok (m, some eh.entry.toNat, 0)

end PDS.Kern
