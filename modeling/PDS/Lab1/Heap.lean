import PDS.Lib.Word
import PDS.Lib.Links
import PDS.Lib.Extent

/-!
# The heap of lab 1

Port of `Cabodi/lab1/heap.c`: a heap manager that keeps one address-ordered list of free blocks and
one of used blocks inside an arena obtained from `malloc`. The two lists, and the copy of the used
list that `heapDefrag` leaves behind, share one store of nodes.

C → Lean naming: `heap_t` → `Heap`, `node_t` → `Node`, `heap_policy_t` → `HeapPolicy`; fields and
functions keep their names in camel case (`free_blks` → `freeBlks`). Pointers into the arena and node
pointers are numbers. A null node pointer is `none`, a null arena pointer is `0`. Node pointers are
only compared with `NULL`, so `malloc` hands out the next unused number (`Heap.brk` counts them) and
`free` clears the node, which makes a use after `free` visible as a zero block.

`size_t` arithmetic is reduced modulo `2 ^ 64`. The loops over the lists run on fuel `Heap.fuel`, one
more than the number of nodes ever allocated; a result `none` is a loop that outlives it.
-/

namespace PDS.Lab1
open Word Links Extent

/-- Policy for choosing a free block (C `heap_policy_t`). -/
inductive HeapPolicy where
  | firstFit
  | bestFit
  | worstFit
deriving DecidableEq, Repr

/-- A node of a block list (C `struct node_s`). -/
structure Node where
  start : Nat
  size : Nat
  next : Option Nat
deriving DecidableEq, Repr, Inhabited

/-- The heap record together with the memory it points to (C `struct heap_s`). -/
structure Heap where
  start : Nat
  size : Nat
  freeSize : Nat
  freeBlks : Option Nat
  usedBlks : Option Nat
  dfrgBlks : Option Nat
  policy : HeapPolicy
  /-- the node store -/
  nodes : Nat → Node
  /-- number of nodes handed out by `malloc` -/
  brk : Nat
  /-- the bytes of the arena -/
  bytes : Nat → UInt8

namespace Heap

/-- `node->next`. -/
def next (h : Heap) (i : Nat) : Option Nat := (h.nodes i).next

/-- The block a node describes. -/
def blk (h : Heap) (i : Nat) : Block := ⟨(h.nodes i).start, (h.nodes i).size⟩

/-- Iterations granted to a loop over a list. -/
def fuel (h : Heap) : Nat := h.brk + 1

/-- `node->next = v`. -/
def setNext (h : Heap) (i : Nat) (v : Option Nat) : Heap :=
  { h with nodes := Function.update h.nodes i { h.nodes i with next := v } }

/-- `node->start = b.start; node->size = b.size`. -/
def setBlk (h : Heap) (i : Nat) (b : Block) : Heap :=
  { h with nodes := Function.update h.nodes i { h.nodes i with start := b.start, size := b.size } }

/-- `malloc` of a node, its block and link filled in. -/
def malloc (h : Heap) (b : Block) (v : Option Nat) : Heap × Nat :=
  ({ h with nodes := Function.update h.nodes h.brk ⟨b.start, b.size, v⟩, brk := h.brk + 1 }, h.brk)

/-- `free` of a node. -/
def free (h : Heap) (i : Nat) : Heap :=
  { h with nodes := Function.update h.nodes i default }

/-- `if (prev == NULL) h->free_blks = v; else prev->next = v;` -/
def setFreeLink (h : Heap) (prev v : Option Nat) : Heap :=
  match prev with
  | none => { h with freeBlks := v }
  | some p => h.setNext p v

/-- `if (prev == NULL) h->used_blks = v; else prev->next = v;` -/
def setUsedLink (h : Heap) (prev v : Option Nat) : Heap :=
  match prev with
  | none => { h with usedBlks := v }
  | some p => h.setNext p v

end Heap

/-- Rounding up to a multiple of `ALIGNMENT = 8` (C `ALIGN`). -/
def align (x : Nat) : Nat := wadd 64 x 7 &&& (2 ^ 64 - 2 ^ 3)

/-- The heap `heapCreate` fills in for an arena at `base`. -/
def Heap.init (base heapSize : Nat) : Heap where
  start := base
  size := heapSize
  freeSize := heapSize
  freeBlks := some 0
  usedBlks := none
  dfrgBlks := none
  policy := .firstFit
  nodes := Function.update (fun _ => default) 0 ⟨base, heapSize, none⟩
  brk := 1
  bytes := fun _ => 0

/-- Creates a heap (C `heapCreate`). The arguments before the size are what the three calls of `malloc`
return: whether the heap record was allocated, the address of the arena, whether the first node was
allocated. -/
def heapCreate (newHeap : Bool) (base : Nat) (node : Bool) (heapSize : Nat) : Option Heap :=
  if newHeap = false then none
  else if base = 0 then none
  else if node = false then none
  else some (Heap.init base heapSize)

/-- The policy switch of `heapAlloc`: `(prevSelected, selected)`, or `none` when no block fits. -/
def Heap.select (h : Heap) (size : Nat) : Option (Option (Option Nat × Nat)) :=
  match h.policy with
  | .firstFit => do
    let (prev, node) ← walk h.next (fun i => ! size ≤ (h.blk i).size) h.fuel none h.freeBlks
    some (node.map (fun i => (prev, i)))
  | .bestFit =>
    -- `selectedSize = -1`
    pick h.next (fun i selectedSize => size ≤ (h.blk i).size && (h.blk i).size < selectedSize)
      (fun i => (h.blk i).size) h.fuel none h.freeBlks none (2 ^ 64 - 1)
  | .worstFit =>
    pick h.next (fun i selectedSize => size ≤ (h.blk i).size && selectedSize < (h.blk i).size)
      (fun i => (h.blk i).size) h.fuel none h.freeBlks none 0

/-- Takes `size` bytes off the selected node: the node itself when they are all of it, a new node for
its front otherwise. -/
def Heap.detach (h : Heap) (size : Nat) (prevSelected : Option Nat) (selected : Nat) : Heap × Nat :=
  if (h.blk selected).size = size then
    (h.setFreeLink prevSelected (h.next selected), selected)
  else
    let (h', used) := h.malloc ⟨(h.blk selected).start, size⟩ none
    (h'.setBlk selected ⟨wadd 64 (h.blk selected).start size, wsub 64 (h.blk selected).size size⟩, used)

/-- Inserts a node into the used list, keeping it ordered by address. -/
def Heap.insertUsed (h : Heap) (used : Nat) : Option Heap := do
  let (prev, node) ← walk h.next (fun i => (h.blk i).start < (h.blk used).start) h.fuel none h.usedBlks
  some ((h.setNext used node).setUsedLink prev (some used))

/-- Allocates `size` bytes; the pointer is `0` on failure (C `heapAlloc`). -/
def heapAlloc (h : Heap) (size : Nat) : Option (Heap × Nat) :=
  if size = 0 then some (h, 0)
  else if h.freeSize < align size ∨ h.freeBlks = none then some (h, 0)
  else do
    match ← h.select (align size) with
    | none => some (h, 0)
    | some (prevSelected, selected) =>
      let (h₁, used) := h.detach (align size) prevSelected selected
      let h₂ ← h₁.insertUsed used
      some ({ h₂ with freeSize := wsub 64 h₂.freeSize (h₂.blk used).size }, (h₂.blk used).start)

/-- Inserts a node into the free list, keeping it ordered by address, and accounts for it; `prev` and
`node` are its neighbours. -/
def Heap.insertFree (h : Heap) (freeNode : Nat) : Option (Heap × Option Nat × Option Nat) := do
  let (prev, node) ←
    walk h.next (fun i => (h.blk i).start < (h.blk freeNode).start) h.fuel none h.freeBlks
  let h' := (h.setNext freeNode node).setFreeLink prev (some freeNode)
  some ({ h' with freeSize := wadd 64 h'.freeSize (h'.blk freeNode).size }, prev, node)

/-- `if (prev != NULL && (freeNode->start == prev->start + prev->size))`: merges `freeNode` into the
node before it. The second component is the value of `freeNode` afterwards. -/
def Heap.joinPrev (h : Heap) (prev : Option Nat) (freeNode : Nat) : Heap × Nat :=
  match prev with
  | none => (h, freeNode)
  | some p =>
    if (h.blk freeNode).start = wadd 64 (h.blk p).start (h.blk p).size then
      (((h.setBlk p ⟨(h.blk p).start, wadd 64 (h.blk p).size (h.blk freeNode).size⟩).setNext p
        (h.next freeNode)).free freeNode, p)
    else (h, freeNode)

/-- `if (node != NULL && (node->start == freeNode->start + freeNode->size))`: merges the following
node into `freeNode`. -/
def Heap.joinNext (h : Heap) (freeNode : Nat) (node : Option Nat) : Heap :=
  match node with
  | none => h
  | some n =>
    if (h.blk n).start = wadd 64 (h.blk freeNode).start (h.blk freeNode).size then
      ((h.setBlk freeNode
        ⟨(h.blk freeNode).start, wadd 64 (h.blk freeNode).size (h.blk n).size⟩).setNext freeNode
          (h.next n)).free n
    else h

/-- Returns the block that starts at `p` to the free list; does nothing when there is none
(C `heapFree`). -/
def heapFree (h : Heap) (p : Nat) : Option Heap :=
  if p = 0 then some h
  else do
    match ← walk h.next (fun i => (h.blk i).start != p) h.fuel none h.usedBlks with
    | (_, none) => some h
    | (prev, some freeNode) =>
      let (h₁, prev, node) ← (h.setUsedLink prev (h.next freeNode)).insertFree freeNode
      let (h₂, freeNode) := h₁.joinPrev prev freeNode
      some (h₂.joinNext freeNode node)

/-- Changes the allocation policy (C `heapSetPolicy`). -/
def heapSetPolicy (h : Heap) (policy : HeapPolicy) : Heap := { h with policy := policy }

/-- Copies a list node by node; `copy` is the head of the copy and `node` its last node
(C `listCopy`). -/
def listCopy : Nat → Heap → Option Nat → Option Nat → Option Nat → Option (Heap × Option Nat)
  | 0, _, _, _, _ => none
  | _ + 1, h, none, copy, _ => some (h, copy)
  | n + 1, h, some i, copy, node =>
    let (h', new) := h.malloc (h.blk i) none
    match node with
    | none => listCopy n h' (h'.next i) (some new) (some new)
    | some m => listCopy n (h'.setNext m (some new)) ((h'.setNext m (some new)).next i) copy (some new)

/-- Frees a list node by node (C `listDestroy`). -/
def listDestroy : Nat → Heap → Option Nat → Option Heap
  | 0, _, _ => none
  | _ + 1, h, none => some h
  | n + 1, h, some i => listDestroy n (h.free i) (h.next i)

/-- `memmove` inside the arena. -/
def memmove (bytes : Nat → UInt8) (dst src n : Nat) : Nat → UInt8 :=
  fun x => if dst ≤ x ∧ x < dst + n then bytes (src + (x - dst)) else bytes x

/-- Moves the used blocks down one after the other; `prev` is where the last one ended. -/
def defragLoop : Nat → Heap → Option Nat → Nat → Option Heap
  | 0, _, _, _ => none
  | _ + 1, h, none, _ => some h
  | n + 1, h, some i, prev =>
    let h' :=
      if prev ≠ (h.blk i).start then
        { h.setBlk i ⟨prev, (h.blk i).size⟩ with
          bytes := memmove h.bytes prev (h.blk i).start (h.blk i).size }
      else h
    defragLoop n h' (h'.next i) (wadd 64 (h'.blk i).start (h'.blk i).size)

/-- Packs the used blocks at the start of the arena and remembers the old list (C `heapDefrag`). -/
def heapDefrag (h : Heap) : Option Heap :=
  match h.usedBlks with
  | none => some h
  | some node => do
    let (h₁, copy) ← listCopy h.fuel h (some node) none none
    let h₂ ← defragLoop h₁.fuel { h₁ with dfrgBlks := copy } (some node) h₁.start
    match h₂.freeBlks with
    | none => some h₂
    | some f =>
      let h₃ := h₂.setBlk f ⟨wsub 64 (wadd 64 h₂.start h₂.size) h₂.freeSize, h₂.freeSize⟩
      let h₄ ← listDestroy h₃.fuel h₃ (h₃.next f)
      some (h₄.setNext f none)

/-- The loop of `heapNewPointer`, which walks the old list and the used list side by side. A used list that ends before
the old one is a null pointer that is followed: `none`. -/
def newPointerLoop (h : Heap) (p : Nat) : Nat → Option Nat → Option Nat → Option Nat
  | 0, _, _ => none
  | _ + 1, none, _ => some 0
  | _ + 1, some _, none => none
  | n + 1, some i, some j =>
    if (h.blk i).start = p then some (h.blk j).start else newPointerLoop h p n (h.next i) (h.next j)

/-- Where the block that started at `p` before the defragmentation starts now; `0` if there was none
(C `heapNewPointer`). -/
def heapNewPointer (h : Heap) (p : Nat) : Option Nat := newPointerLoop h p h.fuel h.dfrgBlks h.usedBlks

/-- Forgets the old list (C `heapDefragClose`). -/
def heapDefragClose (h : Heap) : Option Heap := do
  let h' ← listDestroy h.fuel h h.dfrgBlks
  some { h' with dfrgBlks := none }

end PDS.Lab1
