import PDS.Kern.UserMem

/-!
# System calls

Port of `kern/arch/mips/syscall/syscall.c` and of the system calls that it dispatches:
`kern/syscall/stdio_syscalls.c`, `kern/syscall/time_syscalls.c`, `sys_reboot` in `kern/startup/main.c` and
`sys__exit` in `kern/syscall/proc_syscalls.c`.

The C functions return an `int` that is an error code for some outcomes and a byte count for others.
Here a system call returns an `Outcome`, which still says which of the two it is; `Outcome.err` is the
`int`. The assertions of `syscall` about the interrupt level are left out: `mips_trap` makes the same
ones before the call, and no system call changes the level. What `kprintf` prints is not counted as output.
-/

namespace PDS.Kern
open Word

/-- The machine with its console and clock. -/
structure KState where
  mach : Mach
  /-- the characters that `getch` is going to return -/
  input : Nat → UInt8
  /-- the number of characters read so far -/
  nread : Nat
  /-- the characters written so far -/
  output : List UInt8
  /-- the seconds and nanoseconds that `gettime` returns -/
  now : UInt64 × UInt32

/-- How a system call ends. -/
inductive Outcome where
  /-- it fails with an error code -/
  | errno (e : Nat)
  /-- it succeeds with a byte count, or with `0` -/
  | value (n : Nat)
deriving DecidableEq, Repr

/-- The value of the C function, as 32 bits. -/
def Outcome.err : Outcome → UInt32
  | .errno e => .ofNat e
  | .value n => .ofNat n

/-- 32 bits as an `int`. -/
def cInt (x : UInt32) : Int := if x.toNat < 2 ^ 31 then x.toNat else x.toNat - 2 ^ 32

/-- `putch(c)`. -/
def KState.putch (st : KState) (m : Mach) (c : UInt8) : KState :=
  { st with mach := m, output := st.output ++ [c] }

/-- The loop of `sys_write`, with `n` iterations to go. -/
def writeLoop (buf : Nat) : Nat → Nat → KState → Except Halt KState
  | 0, _, st => .ok st
  | n + 1, i, st => do
    match ← st.mach.load (wadd 32 buf i) with
    | (_, none) => .error fatalFault
    | (m, some c) => writeLoop buf n (i + 1) (st.putch m c)

/-- The loop of `sys_read`, with `n` iterations to go. -/
def readLoop (buf : Nat) : Nat → Nat → KState → Except Halt KState
  | 0, _, st => .ok st
  | n + 1, i, st => do
    match ← st.mach.store (wadd 32 buf i) (st.input st.nread) with
    | (_, false) => .error fatalFault
    | (m, true) => readLoop buf n (i + 1) { st with mach := m, nread := st.nread + 1 }

/-- The checks that `sys_write` and `sys_read` make before their loops, and the result after it. -/
def stdio (loop : KState → Except Halt KState) (st : KState) (buf nbytes : Nat) :
    Except Halt (KState × Outcome) :=
  -- "Check if buf is valid"
  if buf = 0 then .ok (st, .errno efault)
  else if nbytes < 1 then .ok (st, .value 0)
  else do
    let st ← loop st
    .ok (st, .value nbytes)

/-- Writes to the console; the file descriptor is ignored (C `sys_write`). -/
def sysWrite (st : KState) (buf nbytes : Nat) : Except Halt (KState × Outcome) :=
  stdio (writeLoop buf nbytes 0) st buf nbytes

/-- Reads from the console; the file descriptor is ignored (C `sys_read`). -/
def sysRead (st : KState) (buf nbytes : Nat) : Except Halt (KState × Outcome) :=
  stdio (readLoop buf nbytes 0) st buf nbytes

/-- The bytes of a number in memory, most significant first. -/
def bigEndianBytes (n : Nat) : Nat → List UInt8
  | 0 => []
  | k + 1 => .ofNat (n >>> (8 * k)) :: bigEndianBytes n k

/-- `copyout(&seconds, ...)`. -/
def copySeconds (st : KState) (userPtr : Nat) : Except Halt (Mach × Nat) :=
  copyout st.mach (bigEndianBytes st.now.1.toNat 8) userPtr

/-- `copyout(&nanoseconds, ...)`. -/
def copyNanoseconds (st : KState) (m : Mach) (userPtr : Nat) : Except Halt (Mach × Nat) :=
  copyout m (bigEndianBytes st.now.2.toNat 4) userPtr

/-- Gets the time of day (C `sys___time`). -/
def sysTime (st : KState) (userSecondsPtr userNanosecondsPtr : Nat) : Except Halt (KState × Outcome) := do
  let (m, result) ← copySeconds st userSecondsPtr
  if result ≠ 0 then .ok ({ st with mach := m }, .errno result)
  else do
    let (m, result) ← copyNanoseconds st m userNanosecondsPtr
    if result ≠ 0 then .ok ({ st with mach := m }, .errno result)
    else .ok ({ st with mach := m }, .value 0)

/-- Reboots, halts or powers off (codes `0`, `1` and `2`) and does not return (C `sys_reboot`). -/
def sysReboot (st : KState) (code : Nat) : Except Halt (KState × Outcome) :=
  if code = 0 ∨ code = 1 ∨ code = 2 then .error .stop else .ok (st, .errno einval)

/-- The registers in a trapframe (C `struct trapframe`). -/
inductive TfReg where
  | vaddr | status | cause | lo | hi | ra | at | v0 | v1 | a0 | a1 | a2 | a3
  | t0 | t1 | t2 | t3 | t4 | t5 | t6 | t7 | s0 | s1 | s2 | s3 | s4 | s5 | s6 | s7
  | t8 | t9 | k0 | k1 | gp | sp | s8 | epc
deriving DecidableEq, Repr

/-- C `struct trapframe`. -/
abbrev Trapframe := TfReg → UInt32

/-- The system calls that are implemented (C `SYS__exit`, `SYS_read`, `SYS_write`, `SYS___time`,
`SYS_reboot`). -/
inductive Call where
  | exit
  | read
  | write
  | time
  | reboot
  | unknown
deriving DecidableEq, Repr

/-- `switch (callno)`. -/
def Call.ofNumber (callno : UInt32) : Call :=
  if callno = 3 then .exit
  else if callno = 50 then .read
  else if callno = 55 then .write
  else if callno = 113 then .time
  else if callno = 119 then .reboot
  else .unknown

/-- The call that a trapframe asks for. -/
def Trapframe.call (tf : Trapframe) : Call := .ofNumber (tf .v0)

/-- The system call that a trapframe asks for, with its arguments. -/
def dispatch (st : KState) (tf : Trapframe) : Except Halt (KState × Outcome) :=
  match tf.call with
  | .reboot => sysReboot st (tf .a0).toNat
  | .time => sysTime st (tf .a0).toNat (tf .a1).toNat
  | .exit => .error .stop
  | .read => sysRead st (tf .a1).toNat (tf .a2).toNat
  | .write => sysWrite st (tf .a1).toNat (tf .a2).toNat
  | .unknown => .ok (st, .errno enosys)

/-- `tf->tf_... = x`. -/
def Trapframe.set (tf : Trapframe) (r : TfReg) (x : UInt32) : Trapframe := Function.update tf r x

/-- Handles a system call (C `syscall`). -/
def syscall (st : KState) (tf : Trapframe) : Except Halt (KState × Trapframe) := do
  let (st, outcome) ← dispatch st tf
  let err := outcome.err
  let tf := if cInt err < 0 then (tf.set .v0 err).set .a3 1 else (tf.set .v0 err).set .a3 0
  .ok (st, tf.set .epc (tf .epc + 4))

end PDS.Kern
