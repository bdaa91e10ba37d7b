import PDS.Kern.Machine
import PDS.Lib.Links
import PDS.Lib.Extent

/-!
# The page allocator

Port of the contiguous allocator in `kern/arch/mips/vm/vm.c` (with the types of `kern/include/vm.h`):
`vm_bootstrap`, `alloc_ppages`, `free_ppages` and the node pool below them.

The nodes of the two block lists live in `vm_space`, an array of `MAX_NODES` slots that
`vm_bootstrap` steals from physical memory and clears. A slot is free iff its `addr` field is `0`; the
pool is searched from the front, both for a free slot and for the slot to be released. A pointer to a
node is the index of its slot; where the source uses the pointer as a number (`freeNode` is called with
a node pointer), `Vm.nodeAddr` is that number.

C → Lean naming: `node_t` → `Slot`, `mem_policy_t` → `MemPolicy`, `memory_t` together with `vm_space` →
`Vm`, field `end` → `stop`. An `int` number of pages is the `size_t` it is converted to in the
comparisons.
-/

namespace PDS.Kern
open Word Links Extent

/-- Pages reserved for the node pool (C `VM_PAGES`). -/
def vmPages : Nat := 16

/-- `sizeof(node_t)`. -/
def nodeSize : Nat := 12

/-- Number of slots of the pool (C `MAX_NODES`). -/
def maxNodes : Nat := vmPages * pageSize / nodeSize

/-- Policy for choosing a free block (C `mem_policy_t`). -/
inductive MemPolicy where
  | firstFit
  | bestFit
  | worstFit
deriving DecidableEq, Repr

/-- A slot of the node pool (C `struct node_s`). -/
structure Slot where
  addr : Nat
  pages : Nat
  next : Option Nat
deriving DecidableEq, Repr, Inhabited

/-- The memory record and the node pool (C `struct memory_s` and `vm_space`). -/
structure Vm where
  start : Nat
  stop : Nat
  pages : Nat
  freePages : Nat
  freeBlks : Option Nat
  usedBlks : Option Nat
  policy : MemPolicy
  /-- kernel address of the pool -/
  vmSpace : Nat
  slots : Nat → Slot

namespace Vm

/-- `node->next`. -/
def next (v : Vm) (i : Nat) : Option Nat := (v.slots i).next

/-- The bytes a node describes. -/
def blk (v : Vm) (i : Nat) : Block := ⟨(v.slots i).addr, (v.slots i).pages * pageSize⟩

/-- A node pointer as a number. -/
def nodeAddr (v : Vm) (i : Nat) : Nat := wadd 32 v.vmSpace (wmul 32 i nodeSize)

/-- Overwrites a slot. -/
def setSlot (v : Vm) (i : Nat) (s : Slot) : Vm := { v with slots := Function.update v.slots i s }

/-- `node->next = x`. -/
def setNext (v : Vm) (i : Nat) (x : Option Nat) : Vm := v.setSlot i { v.slots i with next := x }

/-- `if (prev == NULL) mem.free_blks = x; else prev->next = x;` -/
def setFreeLink (v : Vm) (prev x : Option Nat) : Vm :=
  match prev with
  | none => { v with freeBlks := x }
  | some p => v.setNext p x

/-- `if (prev == NULL) mem.used_blks = x; else prev->next = x;` -/
def setUsedLink (v : Vm) (prev x : Option Nat) : Vm :=
  match prev with
  | none => { v with usedBlks := x }
  | some p => v.setNext p x

/-- The loop of `allocNode` and `freeNode`: the first slot whose `addr` field is `addr`. -/
def findNode (v : Vm) (addr : Nat) : Option Nat :=
  (List.range maxNodes).find? (fun i => (v.slots i).addr == addr)

/-- Iterations granted to a loop over a list. -/
def fuel : Nat := maxNodes + 1

end Vm

/-- Takes a free slot of the pool for a node; a null result says that there is none
(C `allocNode`). -/
def allocNode (v : Vm) (addr pages : Nat) : Vm × Option Nat :=
  if addr = 0 then (v, none)
  else
    match v.findNode 0 with
    | none => (v, none)
    | some i => (v.setSlot i ⟨addr, pages, none⟩, some i)

/-- Clears the slot of the node at a given address, if there is one (C `freeNode`). -/
def freeNode (v : Vm) (addr : Nat) : Vm :=
  if addr = 0 then v
  else
    match v.findNode addr with
    | none => v
    | some i => v.setSlot i ⟨0, 0, none⟩

/-- The memory record for the memory `[lo, hi)` and a cleared pool at `paddr`, before it has a block. -/
def Vm.clear (lo hi paddr : Nat) : Vm where
  start := lo
  stop := hi
  pages := wsub 32 hi lo / pageSize
  freePages := wsub 32 hi lo / pageSize
  freeBlks := none
  usedBlks := none
  policy := .firstFit
  vmSpace := paddrToKvaddr paddr
  slots := fun _ => ⟨0, 0, none⟩

/-- `mem.free_blks = allocNode(mem.start, mem.pages);` and the check after it. -/
def Vm.firstBlk (v : Vm) : Except Halt Vm :=
  match allocNode v v.start v.pages with
  | (_, none) => .error (.panic "Not enough memory for VM system!\n")
  | (v, some i) => .ok { v with freeBlks := some i }

/-- Sets up the pool and one free block of all the memory that is left (C `vm_bootstrap`). -/
def vmBootstrap (r : Ram) : Except Halt Vm :=
  let stolen := ramStealmem r vmPages
  let size := ramGetsize stolen.1
  (Vm.clear size.1 size.2 stolen.2).firstBlk

/-- The policy switch of `alloc_ppages`: `(prevSelected, selected)`, or `none` when no block fits. -/
def Vm.select (v : Vm) (npages : Nat) : Option (Option (Option Nat × Nat)) :=
  match v.policy with
  | .firstFit => firstFit v.next (fun i => (v.slots i).pages) npages Vm.fuel v.freeBlks
  | .bestFit => bestFit v.next (fun i => (v.slots i).pages) (2 ^ 32 - 1) npages Vm.fuel v.freeBlks
  | .worstFit => worstFit v.next (fun i => (v.slots i).pages) npages Vm.fuel v.freeBlks

/-- Takes `npages` pages off the selected node: the node itself when they are all of it, a node from
the pool for its front otherwise. -/
def Vm.detach (v : Vm) (npages : Nat) (prevSelected : Option Nat) (selected : Nat) :
    Except Halt (Vm × Nat) :=
  if (v.slots selected).pages = npages then
    .ok (v.setFreeLink prevSelected (v.next selected), selected)
  else
    match allocNode v (v.slots selected).addr npages with
    | (_, none) => .error (.panic "Not enough memory for VM system!\n")
    | (v, some used) =>
      let s := v.slots selected
      .ok (v.setSlot selected { s with
        addr := wadd 32 s.addr (wmul 32 npages pageSize)
        pages := wsub 32 s.pages npages }, used)

/-- Inserts a node into the used list, keeping it ordered by address. -/
def Vm.insertUsed (v : Vm) (used : Nat) : Option Vm := do
  let (prev, node) ←
    walk v.next (fun i => (v.slots i).addr < (v.slots used).addr) Vm.fuel none v.usedBlks
  some ((v.setNext used node).setUsedLink prev (some used))

/-- Allocates `npages` contiguous pages; the address is `0` on failure (C `alloc_ppages`). -/
def allocPpages (v : Vm) (npages : Nat) : Except Halt (Vm × Nat) :=
  if npages = 0 then .ok (v, 0)
  else if v.freePages < npages ∨ v.freeBlks = none then .ok (v, 0)
  else do
    match ← ofLoop (v.select npages) with
    | none => .ok (v, 0)
    | some (prevSelected, selected) =>
      let (v, used) ← v.detach npages prevSelected selected
      let v ← ofLoop (v.insertUsed used)
      .ok ({ v with freePages := wsub 32 v.freePages (v.slots used).pages }, (v.slots used).addr)

/-- Inserts a node into the free list, keeping it ordered by address, and accounts for it; `prev` and
`node` are its neighbours. -/
def Vm.insertFree (v : Vm) (freeN : Nat) : Option (Vm × Option Nat × Option Nat) := do
  let (prev, node) ←
    walk v.next (fun i => (v.slots i).addr < (v.slots freeN).addr) Vm.fuel none v.freeBlks
  let v := (v.setNext freeN node).setFreeLink prev (some freeN)
  some ({ v with freePages := wadd 32 v.freePages (v.slots freeN).pages }, prev, node)

/-- `node->addr == prev->addr + prev->pages * PAGE_SIZE`. -/
def Vm.follows (v : Vm) (prev node : Nat) : Prop :=
  (v.slots node).addr = wadd 32 (v.slots prev).addr (wmul 32 (v.slots prev).pages pageSize)

instance (v : Vm) (prev node : Nat) : Decidable (v.follows prev node) :=
  inferInstanceAs (Decidable (_ = _))

/-- Merges a node into the one before it: pages and link are taken over, and the pool is asked to
release the node. The argument of `freeNode` is the node pointer. -/
def Vm.merge (v : Vm) (prev node : Nat) : Vm :=
  let v := v.setSlot prev { v.slots prev with
    pages := wadd 32 (v.slots prev).pages (v.slots node).pages
    next := v.next node }
  freeNode v (v.nodeAddr node)

/-- `if (prev != NULL && ...)`: merges `free_n` into the node before it when they touch. The second
component is the value of `free_n` afterwards. -/
def Vm.joinPrev (v : Vm) (prev : Option Nat) (freeN : Nat) : Vm × Nat :=
  match prev with
  | none => (v, freeN)
  | some p => if v.follows p freeN then (v.merge p freeN, p) else (v, freeN)

/-- `if (node != NULL && ...)`: merges the following node into `free_n` when they touch. -/
def Vm.joinNext (v : Vm) (freeN : Nat) (node : Option Nat) : Vm :=
  match node with
  | none => v
  | some n => if v.follows freeN n then v.merge freeN n else v

/-- Gives back the block that starts at `addr`; does nothing when there is none (C `free_ppages`). -/
def freePpages (v : Vm) (addr : Nat) : Except Halt Vm :=
  if addr = 0 then .ok v
  else do
    match ← ofLoop (walk v.next (fun i => (v.slots i).addr != addr) Vm.fuel none v.usedBlks) with
    | (_, none) => .ok v
    | (prev, some freeN) =>
      let (v, prev, node) ← ofLoop ((v.setUsedLink prev (v.next freeN)).insertFree freeN)
      let (v, freeN) := v.joinPrev prev freeN
      .ok (v.joinNext freeN node)

/-- Allocates kernel pages (C `alloc_kpages`). -/
def allocKpages (v : Vm) (npages : Nat) : Except Halt (Vm × Nat) := do
  let (v, paddr) ← allocPpages v npages
  .ok (v, paddrToKvaddr paddr)

/-- Frees kernel pages (C `free_kpages`). -/
def freeKpages (v : Vm) (vaddr : Nat) : Except Halt Vm := freePpages v (kvaddrToPaddr vaddr)

end PDS.Kern
