import PDS.Lib.Fallible
import PDS.Lib.Word

/-!
# The machine underneath the kernel

The constants of `kern/arch/mips/include/vm.h`, `kern/include/vm.h` and `kern/include/kern/errno.h`
that the kernel modules share, and port of `kern/arch/mips/vm/ram.c`, which hands out physical memory
before the VM system exists.

Addresses (`vaddr_t`, `paddr_t`) and sizes (`size_t`) are 32-bit numbers. Kernel code
returns, calls `panic`, loops for ever, or stops the thread or the machine; a function of the source is a
function into `Except Halt`, and its loops carry fuel whose end is reported as `Halt.spin`.
-/

namespace PDS.Kern
open Word

/-- How the kernel can fail to return. -/
inductive Halt where
  /-- `panic(msg)` -/
  | panic (msg : String)
  /-- a failed `KASSERT(cond)` -/
  | kassert (cond : String)
  /-- a loop that outlives its fuel -/
  | spin
  /-- the thread exits or the machine is switched off, as asked -/
  | stop
deriving DecidableEq, Repr

/-- A fault in kernel mode that cannot be handled, without `tm_badfaultfunc` (C `mips_trap`). -/
def fatalFault : Halt := .panic "I can't handle this... I think I'll just die now...\n"

/-- The result of a loop. -/
def ofLoop {α : Type} : Option α → Except Halt α
  | none => .error .spin
  | some a => .ok a

/-- A loop that ends has a result. -/
@[simp] lemma ofLoop_some {α : Type} (a : α) : ofLoop (some a) = .ok a := rfl

/-- A result that is there. -/
lemma ok_of_toOption {α : Type} {x : Except Halt α} {a : α} (h : x.toOption = some a) : x = .ok a := by
  cases x with
  | error => cases h
  | ok => exact congrArg _ (Option.some.inj h)

/-- `KASSERT(c)`. -/
def kassert (c : Prop) [Decidable c] (cond : String) : Except Halt Unit :=
  if c then .ok () else .error (.kassert cond)

/-- An assertion that holds. -/
lemma kassert_pos {c : Prop} [Decidable c] (h : c) (cond : String) : kassert c cond = .ok () :=
  if_pos h

/-- An assertion passes exactly if it holds. -/
@[simp] lemma kassert_ok_iff {c : Prop} [Decidable c] {cond : String} {u : Unit} :
    kassert c cond = .ok u ↔ c := by
  simp [kassert]

/-- Size of a VM page (C `PAGE_SIZE`). -/
def pageSize : Nat := 4096

/-- Mask for getting the page number from an address (C `PAGE_FRAME`). -/
def pageFrame : Nat := 0xfffff000

/-- Start of the unmapped, cached kernel segment (C `MIPS_KSEG0`). -/
def kseg0 : Nat := 0x80000000

/-- The address above the last valid user address (C `USERSPACETOP`). -/
def userspaceTop : Nat := kseg0

/-! The error codes of `kern/include/kern/errno.h` that the modelled code returns. -/

/-- No such system call (C `ENOSYS`). -/
def enosys : Nat := 1

/-- Unimplemented feature (C `EUNIMP`). -/
def eunimp : Nat := 2

/-- Out of memory (C `ENOMEM`). -/
def enomem : Nat := 3

/-- Bad memory reference (C `EFAULT`). -/
def efault : Nat := 6

/-- Invalid argument (C `EINVAL`). -/
def einval : Nat := 8

/-- File is not executable (C `ENOEXEC`). -/
def enoexec : Nat := 13

/-- The kernel address of a physical address (C `PADDR_TO_KVADDR`). -/
def paddrToKvaddr (paddr : Nat) : Nat := wadd 32 paddr kseg0

/-- The physical address of a kernel address (C `KVADDR_TO_PADDR`). -/
def kvaddrToPaddr (vaddr : Nat) : Nat := wsub 32 vaddr kseg0

/-- What the boot loader leaves behind. `start.S` loads the kernel at the bottom of physical memory
and sets `firstfree` to the page boundary after it, so the kernel image fits into the memory the
machine has; `ramsize` is what `mainbus_ramsize` reports. -/
structure Boot where
  firstfree : Nat
  ramsize : Nat
  aligned : pageSize ∣ firstfree
  above : kseg0 < firstfree
  loaded : firstfree - kseg0 ≤ min ramsize (508 * 1024 * 1024)

/-- The static variables of `ram.c`. -/
structure Ram where
  firstpaddr : Nat
  lastpaddr : Nat
deriving DecidableEq, Repr

/-- Figures out how much physical memory is available (C `ram_bootstrap`). -/
def ramBootstrap (b : Boot) : Ram where
  firstpaddr := wsub 32 b.firstfree kseg0
  lastpaddr := if b.ramsize > 508 * 1024 * 1024 then 508 * 1024 * 1024 else b.ramsize

/-- Takes pages before the VM system is initialized; the address is `0` on failure
(C `ram_stealmem`). -/
def ramStealmem (r : Ram) (npages : Nat) : Ram × Nat :=
  let size := wmul 32 npages pageSize
  if wadd 32 r.firstpaddr size > r.lastpaddr then (r, 0)
  else ({ r with firstpaddr := wadd 32 r.firstpaddr size }, r.firstpaddr)

/-- The bounds of the memory that is left, which the caller now manages (C `ram_getsize`, which also
clears its variables: it is called once). -/
def ramGetsize (r : Ram) : Nat × Nat := (r.firstpaddr, r.lastpaddr)

end PDS.Kern
