import PDS.Kern.Addrspace

/-!
# Access to memory

How kernel code reads and writes bytes at virtual addresses: through the TLB, with `vm_fault` called by
`mips_trap` (`kern/arch/mips/locore/trap.c`) for a page that the TLB does not have, or directly for the
unmapped segments `kseg0` and `kseg1`. Port of the part of `kern/vm/copyinout.c` that writes to user
memory.

A page fault that `vm_fault` cannot handle is fatal in kernel mode unless `tm_badfaultfunc` is set, which
`copyout` does. While the thread does not run, other threads use the TLB; when it runs again,
`thread_switch` calls `as_activate`, which invalidates all entries. `Mach.preempted` says when that
happens. Every physical address is taken to be memory.
-/

namespace PDS.Kern
open Word

/-- Start of the unmapped, uncached kernel segment (C `MIPS_KSEG1`). -/
def kseg1 : Nat := 0xa0000000

/-- Start of the mapped kernel segment (C `MIPS_KSEG2`). -/
def kseg2 : Nat := 0xc0000000

/-- The bits of the virtual page (C `TLBHI_VPAGE`). -/
def tlbhiVpage : Nat := 0xfffff000

/-- A virtual page in `kseg0`, distinct for each entry (C `TLBHI_INVALID`). -/
def tlbhiInvalid (entryno : Nat) : Nat := (0x80000 + entryno) <<< 12

/-- The TLB without valid entries (C `as_activate`). -/
def asActivate : Tlb := fun i => ⟨tlbhiInvalid i, 0⟩

/-- The entry that the processor finds for a virtual address. -/
def Tlb.probe (tlb : Tlb) (vaddr : Nat) : Option TlbEntry :=
  ((List.finRange numTlb).map tlb).find?
    (fun e => e.ehi &&& tlbhiVpage == vaddr &&& pageFrame && e.elo &&& tlbloValid != 0)

/-- The machine as the current thread sees it. -/
structure Mach where
  phys : Phys
  /-- `curthread->t_addrspace` -/
  as : Option AddrSpace
  tlb : Tlb
  /-- number of accesses to mapped memory so far -/
  clock : Nat
  /-- whether other threads run between two accesses -/
  preempted : Nat → Bool

namespace Mach

/-- An access to mapped memory begins. -/
def tick (m : Mach) : Mach :=
  { m with
    tlb := if m.preempted m.clock then asActivate else m.tlb
    clock := m.clock + 1 }

/-- The physical address for a virtual one, through an entry of the TLB. A write to a page that is not
writable traps with `VM_FAULT_READONLY`. -/
def through (e : TlbEntry) (faulttype vaddr : Nat) : Except Halt Nat :=
  if faulttype = vmFaultWrite ∧ e.elo &&& tlbloDirty = 0 then
    .error (.panic "dumbvm: got VM_FAULT_READONLY\n")
  else .ok ((e.elo &&& tlbloPpage) + vaddr % pageSize)

/-- The physical address for a virtual one; there is none when the access ends in a page fault that
cannot be handled. After one that can, the instruction is executed again. -/
def translate (m : Mach) (faulttype vaddr : Nat) : Except Halt (Mach × Option Nat) :=
  if kseg0 ≤ vaddr ∧ vaddr < kseg1 then .ok (m, some (vaddr - kseg0))
  else if kseg1 ≤ vaddr ∧ vaddr < kseg2 then .ok (m, some (vaddr - kseg1))
  else
    let m := m.tick
    match m.tlb.probe vaddr with
    | some e => do
      let paddr ← through e faulttype vaddr
      .ok (m, some paddr)
    | none => do
      let (tlb, result) ← vmFault m.as m.tlb faulttype vaddr
      if result ≠ 0 then .ok ({ m with tlb := tlb }, none)
      else
        match tlb.probe vaddr with
        | none => .error .spin
        | some e => do
          let paddr ← through e faulttype vaddr
          .ok ({ m with tlb := tlb }, some paddr)

/-- `*(char *)vaddr = b`; the second component says whether the access succeeded. -/
def store (m : Mach) (vaddr : Nat) (b : UInt8) : Except Halt (Mach × Bool) := do
  match ← m.translate vmFaultWrite vaddr with
  | (m, none) => .ok (m, false)
  | (m, some paddr) =>
    .ok ({ m with phys := { m.phys with mem := Function.update m.phys.mem paddr b } }, true)

/-- `*(char *)vaddr`, if the access succeeds. -/
def load (m : Mach) (vaddr : Nat) : Except Halt (Mach × Option UInt8) := do
  let (m, paddr) ← m.translate vmFaultRead vaddr
  .ok (m, paddr.map m.phys.mem)

/-- The loop of `memcpy` to a user address. -/
def storeBytes (m : Mach) (vaddr : Nat) : List UInt8 → Except Halt (Mach × Bool)
  | [] => .ok (m, true)
  | b :: bs => do
    let (m, ok) ← m.store vaddr b
    if ok then m.storeBytes (wadd 32 vaddr 1) bs else .ok (m, false)

end Mach

/-- Checks that `len` bytes of memory are user memory. The first component is `*stoplen`
(C `copycheck`). -/
def copycheck (userptr len : Nat) : Nat × Nat :=
  let bot := userptr
  let top := wsub 32 (wadd 32 bot len) 1
  if top < bot then (len, efault)
  else if bot ≥ userspaceTop then (len, efault)
  else if top ≥ userspaceTop then (wsub 32 userspaceTop bot, 0)
  else (len, 0)

/-- Copies bytes to user memory (C `copyout`). -/
def copyout (m : Mach) (src : List UInt8) (userdest : Nat) : Except Halt (Mach × Nat) :=
  let check := copycheck userdest src.length
  if check.2 ≠ 0 then .ok (m, check.2)
  -- "Single block, can't legally truncate it."
  else if check.1 ≠ src.length then .ok (m, efault)
  else do
    let (m, ok) ← m.storeBytes userdest src
    .ok (m, if ok then 0 else efault)

end PDS.Kern
