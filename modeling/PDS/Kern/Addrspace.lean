import PDS.Kern.Ppages

/-!
# Address spaces

Port of `kern/vm/addrspace.c` and of `vm_fault` in `kern/arch/mips/vm/vm.c`, with the constants of
`kern/arch/mips/include/tlb.h` and `kern/include/vm.h`.

An address space is two regions of user pages and a stack, each backed by one block of contiguous
physical memory; a field of `0` says that there is none. Kernel code reaches physical memory through
`PADDR_TO_KVADDR`, user code through the entries that `vm_fault` writes into the TLB. The record itself
comes from `kmalloc` and goes back with `kfree`; the only thing that a caller can observe of it is
whether `kmalloc` returned `NULL`, which is a parameter here.

C → Lean naming: `struct addrspace` → `AddrSpace`, without the prefix `as_` of the fields.
-/

namespace PDS.Kern
open Word Extent

/-- The bytes of physical memory. -/
abbrev Pmem := Nat → UInt8

/-- `memset`, on the kernel addresses of physical memory. -/
def Pmem.bzero (mem : Pmem) (vaddr len : Nat) : Pmem := fun p =>
  if kvaddrToPaddr vaddr ≤ p ∧ p < kvaddrToPaddr vaddr + len then 0 else mem p

/-- `memmove`, on the kernel addresses of physical memory. -/
def Pmem.memmove (mem : Pmem) (dst src len : Nat) : Pmem := fun p =>
  if kvaddrToPaddr dst ≤ p ∧ p < kvaddrToPaddr dst + len then
    mem (kvaddrToPaddr src + (p - kvaddrToPaddr dst))
  else mem p

/-- Physical memory together with its allocator. -/
structure Phys where
  vm : Vm
  mem : Pmem

/-- Number of stack pages (C `VM_STACKPAGES`). -/
def vmStackpages : Nat := 12

/-- Where the user stack starts, growing down (C `USERSTACK`). -/
def userstack : Nat := userspaceTop

/-- C `struct addrspace`. -/
structure AddrSpace where
  vbase1 : Nat
  pbase1 : Nat
  npages1 : Nat
  vbase2 : Nat
  pbase2 : Nat
  npages2 : Nat
  stackpbase : Nat
deriving DecidableEq, Repr

/-- The three parts of an address space. -/
inductive Region where
  | one
  | two
  | stack
deriving DecidableEq, Repr

namespace AddrSpace

/-- `as_pbase1`, `as_pbase2`, `as_stackpbase`. -/
def pbase (as : AddrSpace) : Region → Nat
  | .one => as.pbase1
  | .two => as.pbase2
  | .stack => as.stackpbase

/-- `as_npages1`, `as_npages2`, `VM_STACKPAGES`. -/
def npages (as : AddrSpace) : Region → Nat
  | .one => as.npages1
  | .two => as.npages2
  | .stack => vmStackpages

/-- `as->as_pbase1 = paddr` and so on. -/
def setPbase (as : AddrSpace) (r : Region) (paddr : Nat) : AddrSpace :=
  match r with
  | .one => { as with pbase1 := paddr }
  | .two => { as with pbase2 := paddr }
  | .stack => { as with stackpbase := paddr }

/-- The first user address of a region. -/
def vbase (as : AddrSpace) : Region → Nat
  | .one => as.vbase1
  | .two => as.vbase2
  | .stack => userstack - vmStackpages * pageSize

/-- The physical memory of a region. -/
def block (as : AddrSpace) (r : Region) : Block := ⟨as.pbase r, as.npages r * pageSize⟩

variable {as : AddrSpace} {r r' : Region} {p : Nat}

/-- Setting a base leaves the sizes alone. -/
@[simp] lemma setPbase_npages : (as.setPbase r p).npages = as.npages := by
  funext r'
  cases r <;> cases r' <;> rfl

/-- The base that has been set. -/
@[simp] lemma setPbase_self : (as.setPbase r p).pbase r = p := by
  cases r <;> rfl

/-- The other bases stay. -/
lemma setPbase_ne (h : r' ≠ r) : (as.setPbase r p).pbase r' = as.pbase r' := by
  cases r <;> cases r' <;> first | rfl | exact absurd rfl h

/-- Setting a base leaves the virtual addresses alone. -/
@[simp] lemma setPbase_vbase : (as.setPbase r p).vbase = as.vbase := by
  funext r'
  cases r <;> cases r' <;> rfl

/-- Setting a base to what it is changes nothing. -/
lemma setPbase_pbase : (as.setPbase r (as.pbase r)) = as := by
  cases r <;> rfl

/-- The other blocks stay. -/
lemma setPbase_block_ne (h : r' ≠ r) : (as.setPbase r p).block r' = as.block r' := by
  rw [block, block, setPbase_npages, setPbase_ne h]

end AddrSpace

/-- A new, empty address space, or `NULL` (C `as_create`). -/
def asCreate (kmalloc : Bool) : Option AddrSpace :=
  if kmalloc then some ⟨0, 0, 0, 0, 0, 0, 0⟩ else none

/-- Sets up a segment of `sz` bytes at `vaddr`, rounded to whole pages (C `as_define_region`; the
permissions are ignored). -/
def asDefineRegion (as : AddrSpace) (vaddr sz : Nat) : AddrSpace × Nat :=
  let sz := wadd 32 sz (vaddr &&& (2 ^ 32 - 1 - pageFrame))
  let vaddr := vaddr &&& pageFrame
  let sz := wsub 32 (wadd 32 sz pageSize) 1 &&& pageFrame
  let npages := sz / pageSize
  if as.vbase1 = 0 then ({ as with vbase1 := vaddr, npages1 := npages }, 0)
  else if as.vbase2 = 0 then ({ as with vbase2 := vaddr, npages2 := npages }, 0)
  else (as, eunimp)

/-- A new address space has no memory. -/
lemma asCreate_pbase {kmalloc : Bool} {as : AddrSpace} (e : asCreate kmalloc = some as) (r : Region) :
    as.pbase r = 0 := by
  cases kmalloc with
  | false => cases e
  | true =>
    cases e
    cases r <;> rfl

/-- Defining a region gives it no memory. -/
lemma asDefineRegion_pbase (as : AddrSpace) (vaddr sz : Nat) (r : Region) :
    (asDefineRegion as vaddr sz).1.pbase r = as.pbase r := by
  simp only [asDefineRegion]
  split_ifs <;> cases r <;> rfl

/-- C `as_zero_region`. -/
def asZeroRegion (mem : Pmem) (paddr npages : Nat) : Pmem :=
  mem.bzero (paddrToKvaddr paddr) (wmul 32 npages pageSize)

/-- `as->as_pbase1 = alloc_ppages(as->as_npages1);` and so on. -/
def AddrSpace.allocRegion (as : AddrSpace) (vm : Vm) (r : Region) : Except Halt (Vm × AddrSpace) := do
  let (vm, paddr) ← allocPpages vm (as.npages r)
  .ok (vm, as.setPbase r paddr)

/-- Allocates the physical memory of an address space and clears it. A failure leaves what has been
allocated before it in place (C `as_prepare_load`). -/
def asPrepareLoad (ph : Phys) (as : AddrSpace) : Except Halt (Phys × AddrSpace × Nat) := do
  kassert (as.pbase1 = 0) "as->as_pbase1 == 0"
  kassert (as.pbase2 = 0) "as->as_pbase2 == 0"
  kassert (as.stackpbase = 0) "as->as_stackpbase == 0"
  let (vm, as) ← as.allocRegion ph.vm .one
  if as.pbase1 = 0 then .ok (⟨vm, ph.mem⟩, as, enomem)
  else do
    let (vm, as) ← as.allocRegion vm .two
    if as.pbase2 = 0 then .ok (⟨vm, ph.mem⟩, as, enomem)
    else do
      let (vm, as) ← as.allocRegion vm .stack
      if as.stackpbase = 0 then .ok (⟨vm, ph.mem⟩, as, enomem)
      else
        let mem := asZeroRegion ph.mem as.pbase1 as.npages1
        let mem := asZeroRegion mem as.pbase2 as.npages2
        let mem := asZeroRegion mem as.stackpbase vmStackpages
        .ok (⟨vm, mem⟩, as, 0)

/-- `if (as->as_pbase1 != 0) free_ppages(as->as_pbase1);` and so on. -/
def AddrSpace.freeRegion (as : AddrSpace) (vm : Vm) (r : Region) : Except Halt Vm :=
  if as.pbase r ≠ 0 then freePpages vm (as.pbase r) else .ok vm

/-- Gives the physical memory of an address space back (C `as_destroy`). -/
def asDestroy (vm : Vm) (as : AddrSpace) : Except Halt Vm := do
  let vm ← as.freeRegion vm .one
  let vm ← as.freeRegion vm .two
  as.freeRegion vm .stack

/-- Gives a new address space the layout and the contents of an old one; the second component is
`*ret`, where it is set (C `as_copy`). -/
def asCopy (ph : Phys) (old : AddrSpace) (kmalloc : Bool) :
    Except Halt (Phys × Option AddrSpace × Nat) :=
  match asCreate kmalloc with
  | none => .ok (ph, none, enomem)
  | some new => do
    let new := { new with
      vbase1 := old.vbase1, npages1 := old.npages1, vbase2 := old.vbase2, npages2 := old.npages2 }
    let (ph, new, result) ← asPrepareLoad ph new
    if result ≠ 0 then do
      let vm ← asDestroy ph.vm new
      .ok (⟨vm, ph.mem⟩, none, enomem)
    else do
      kassert (new.pbase1 ≠ 0) "new->as_pbase1 != 0"
      kassert (new.pbase2 ≠ 0) "new->as_pbase2 != 0"
      kassert (new.stackpbase ≠ 0) "new->as_stackpbase != 0"
      let mem := ph.mem.memmove (paddrToKvaddr new.pbase1) (paddrToKvaddr old.pbase1)
        (wmul 32 old.npages1 pageSize)
      let mem := mem.memmove (paddrToKvaddr new.pbase2) (paddrToKvaddr old.pbase2)
        (wmul 32 old.npages2 pageSize)
      let mem := mem.memmove (paddrToKvaddr new.stackpbase) (paddrToKvaddr old.stackpbase)
        (wmul 32 vmStackpages pageSize)
      .ok (⟨ph.vm, mem⟩, some new, 0)

/-- Number of TLB entries (C `NUM_TLB`). -/
def numTlb : Nat := 64

/-- The bits of the physical page (C `TLBLO_PPAGE`). -/
def tlbloPpage : Nat := 0xfffff000

/-- The page is writable (C `TLBLO_DIRTY`). -/
def tlbloDirty : Nat := 0x00000400

/-- The entry is in use (C `TLBLO_VALID`). -/
def tlbloValid : Nat := 0x00000200

/-- A TLB entry. -/
structure TlbEntry where
  ehi : Nat
  elo : Nat
deriving DecidableEq, Repr

abbrev Tlb := Fin numTlb → TlbEntry

/-- The types of a fault (C `VM_FAULT_READ`, `VM_FAULT_WRITE`, `VM_FAULT_READONLY`). -/
def vmFaultRead : Nat := 0

@[inherit_doc vmFaultRead]
def vmFaultWrite : Nat := 1

@[inherit_doc vmFaultRead]
def vmFaultReadonly : Nat := 2

/-- "Assert that the address space has been set up properly." -/
def AddrSpace.assertSetUp (as : AddrSpace) : Except Halt Unit := do
  kassert (as.vbase1 ≠ 0) "as->as_vbase1 != 0"
  kassert (as.pbase1 ≠ 0) "as->as_pbase1 != 0"
  kassert (as.npages1 ≠ 0) "as->as_npages1 != 0"
  kassert (as.vbase2 ≠ 0) "as->as_vbase2 != 0"
  kassert (as.pbase2 ≠ 0) "as->as_pbase2 != 0"
  kassert (as.npages2 ≠ 0) "as->as_npages2 != 0"
  kassert (as.stackpbase ≠ 0) "as->as_stackpbase != 0"
  kassert (as.vbase1 &&& pageFrame = as.vbase1) "(as->as_vbase1 & PAGE_FRAME) == as->as_vbase1"
  kassert (as.pbase1 &&& pageFrame = as.pbase1) "(as->as_pbase1 & PAGE_FRAME) == as->as_pbase1"
  kassert (as.vbase2 &&& pageFrame = as.vbase2) "(as->as_vbase2 & PAGE_FRAME) == as->as_vbase2"
  kassert (as.pbase2 &&& pageFrame = as.pbase2) "(as->as_pbase2 & PAGE_FRAME) == as->as_pbase2"
  kassert (as.stackpbase &&& pageFrame = as.stackpbase)
    "(as->as_stackpbase & PAGE_FRAME) == as->as_stackpbase"

/-- The physical page of a user page, if it has one: the regions are tried in turn. -/
def AddrSpace.lookup (as : AddrSpace) (faultaddress : Nat) : Option Nat :=
  let vtop1 := wadd 32 as.vbase1 (wmul 32 as.npages1 pageSize)
  let vtop2 := wadd 32 as.vbase2 (wmul 32 as.npages2 pageSize)
  let stackbase := wsub 32 userstack (wmul 32 vmStackpages pageSize)
  if as.vbase1 ≤ faultaddress ∧ faultaddress < vtop1 then
    some (wadd 32 (wsub 32 faultaddress as.vbase1) as.pbase1)
  else if as.vbase2 ≤ faultaddress ∧ faultaddress < vtop2 then
    some (wadd 32 (wsub 32 faultaddress as.vbase2) as.pbase2)
  else if stackbase ≤ faultaddress ∧ faultaddress < userstack then
    some (wadd 32 (wsub 32 faultaddress stackbase) as.stackpbase)
  else none

/-- The first TLB entry that is not in use. -/
def Tlb.unused (tlb : Tlb) : Option (Fin numTlb) :=
  (List.finRange numTlb).find? (fun i => (tlb i).elo &&& tlbloValid == 0)

/-- Handles a page fault of a thread with the given address space: translates the page and enters it
into the TLB (C `vm_fault`). -/
def vmFault (as : Option AddrSpace) (tlb : Tlb) (faulttype faultaddress : Nat) :
    Except Halt (Tlb × Nat) :=
  let faultaddress := faultaddress &&& pageFrame
  if faulttype = vmFaultReadonly then .error (.panic "dumbvm: got VM_FAULT_READONLY\n")
  else if ¬ (faulttype = vmFaultRead ∨ faulttype = vmFaultWrite) then .ok (tlb, einval)
  else
    match as with
    | none => .ok (tlb, efault)
    | some as => do
      as.assertSetUp
      match as.lookup faultaddress with
      | none => .ok (tlb, efault)
      | some paddr => do
        kassert (paddr &&& pageFrame = paddr) "(paddr & PAGE_FRAME) == paddr"
        match tlb.unused with
        -- "Ran out of TLB entries - cannot handle page fault"
        | none => .ok (tlb, efault)
        | some i =>
          .ok (Function.update tlb i ⟨faultaddress, paddr ||| tlbloDirty ||| tlbloValid⟩, 0)

end PDS.Kern
