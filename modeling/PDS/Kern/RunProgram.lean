import PDS.Kern.LoadElf

/-!
# Starting a program

Port of `kern/syscall/runprogram.c` and of `as_define_stack`. `runprogram` loads an executable and writes
the arguments onto the user stack, from the top down: first the array of pointers, then one string below
the other, each rounded up to whole words.

The pointers are written through user addresses directly (`storeWord`), the strings with `copyout`, whose
result is ignored. The strings come from kernel memory; that they are given back to `kfree` afterwards is
left out, as is the debugging output.

C → Lean naming: what `vfs_open` makes of the name is a parameter; the loop over the arguments is
`copyArgs`.
-/

namespace PDS.Kern
open Word

/-- A string of kernel memory, without its terminator. -/
structure CString where
  bytes : List UInt8
  nul : 0 ∉ bytes

/-- C `strlen`. -/
def CString.strlen (s : CString) : Nat := s.bytes.length

/-- Byte `j` of a word in memory, most significant byte first. -/
def wordByte (w j : Nat) : UInt8 := .ofNat (w / 256 ^ (3 - j))

namespace Mach

/-- `*(vaddr_t *)vaddr = w` in kernel code. An address that is not aligned or not mapped is fatal. -/
def storeWord (m : Mach) (vaddr w : Nat) : Except Halt Mach :=
  if vaddr % 4 ≠ 0 then .error fatalFault
  else do
    match ← m.translate vmFaultWrite vaddr with
    | (_, none) => .error fatalFault
    | (m, some paddr) =>
      let mem : Pmem := fun p => if paddr ≤ p ∧ p < paddr + 4 then wordByte w (p - paddr) else m.phys.mem p
      .ok { m with phys := { m.phys with mem := mem } }

/-- `*(vaddr_t *)vaddr` in kernel code. -/
def loadWord (m : Mach) (vaddr : Nat) : Except Halt (Mach × Nat) :=
  if vaddr % 4 ≠ 0 then .error fatalFault
  else do
    match ← m.translate vmFaultRead vaddr with
    | (_, none) => .error fatalFault
    | (m, some paddr) => .ok (m, bigEndian ((List.range 4).map fun j => m.phys.mem (paddr + j)) 0 4)

end Mach

/-- The initial stack pointer of a new program (C `as_define_stack`). -/
def asDefineStack (as : AddrSpace) : Except Halt Nat := do
  kassert (as.stackpbase ≠ 0) "as->as_stackpbase != 0"
  .ok userstack

/-- `stackargv[i] = stackarg; copyout(argv[i], (userptr_t)stackargv[i], len);` -/
def copyArg (m : Mach) (slot stackarg : Nat) (arg : CString) : Except Halt Mach := do
  let m ← m.storeWord slot stackarg
  let (m, dest) ← m.loadWord slot
  let (m, _) ← copyout m arg.bytes dest
  .ok m

/-- "Save each string argument (with null terminator) and argv pointers": the arguments from number `i`
on. The second component is `stackarg` after the loop. -/
def copyArgs (stackargv : Nat) : Mach → Nat → Nat → List CString → Except Halt (Mach × Nat)
  | m, _, stackarg, [] => .ok (m, stackarg)
  | m, i, stackarg, arg :: argv => do
    -- "Aligned to 4 byte"
    let stackarg := wsub 32 stackarg (wmul 32 (wadd 32 (arg.strlen / 4) 1) 4)
    let m ← copyArg m (wadd 32 stackargv (wmul 32 i 4)) stackarg arg
    copyArgs stackargv m (i + 1) stackarg argv

/-- Writes the arguments to the stack. The second component is `stackargv`, the third one the stack
pointer. -/
def passArgs (m : Mach) (stackptr : Nat) (argv : List CString) : Except Halt (Mach × Nat × Nat) := do
  let argc := argv.length
  -- "Leave space for argument pointers"
  let stackargv := wsub 32 stackptr (wmul 32 (wadd 32 argc 1) 4)
  let m ← m.storeWord (wadd 32 stackargv (wmul 32 argc 4)) 0
  let (m, stackarg) ← copyArgs stackargv m 0 stackargv argv
  -- "Update stackptr and align to 8 byte"
  .ok (m, stackargv, stackarg &&& (2 ^ 32 - 1 - 7))

/-- How `runprogram` ends. -/
inductive RunResult where
  | error (result : Nat)
  /-- `enter_new_process` -/
  | enter (argc stackargv stackptr entrypoint : Nat)
deriving DecidableEq, Repr

/-- `curthread->t_addrspace = as_create(); ... as_activate(curthread->t_addrspace);` -/
def Mach.withSpace (m : Mach) (as : AddrSpace) : Mach := { m with as := some as, tlb := asActivate }

/-- Loads a program and starts it in user mode (C `runprogram`). -/
def runprogram (vfsOpen : Except Nat Vnode) (kmalloc : Bool) (m : Mach) (argv : List CString) :
    Except Halt (Mach × RunResult) :=
  match vfsOpen with
  | .error result => .ok (m, .error result)
  | .ok v => do
    -- "We should be a new thread."
    kassert (m.as = none) "curthread->t_addrspace == NULL"
    match asCreate kmalloc with
    | none => .ok (m, .error enomem)
    | some as => do
      let (m, entrypoint, result) ← loadElf v (m.withSpace as)
      if result ≠ 0 then .ok (m, .error result)
      else
        match m.as with
        | none => .error fatalFault
        | some as => do
          let stackptr ← asDefineStack as
          let (m, stackargv, stackptr) ← passArgs m stackptr argv
          .ok (m, .enter argv.length stackargv stackptr (entrypoint.getD 0))

end PDS.Kern
