import PDS.Kern.Ppages

/-!
# The kernel heap

Port of `kern/vm/kmalloc.c`: a pool-based subpage allocator on top of `alloc_kpages`. A page that is
cut into blocks has a `pageref`, which records the page, its block size, the number of free blocks and
the offset of the first one; the free blocks are linked through their first word. The pagerefs come
from an array with a bitmap, and each is on the list of its block size (`sizebases`) and on the list of
all pages (`allbase`).

`Km` is the state that `kmalloc_spinlock` protects: these tables, and the words of kernel memory. The
functions below are the critical sections: `subpageKmalloc1` and `subpageKmalloc2` are the parts of
`subpage_kmalloc` before and after the lock is dropped to call `alloc_kpages`, and `kfree` ends where
`free_kpages` is called. `kmalloc` is their sequential composition with the page allocator of `vm.c`.
The consistency checks that `SLOW` and `SLOWER` enable are compiled out, as in the source.
-/

namespace PDS.Kern
open Word Links

/-- Number of block sizes (C `NSIZES`). -/
def nsizes : Nat := 8

/-- The block sizes (C `sizes`). -/
def sizes (blktype : Nat) : Nat := [16, 32, 64, 128, 256, 512, 1024, 2048].getD blktype 0

/-- C `LARGEST_SUBPAGE_SIZE`. -/
def largestSubpageSize : Nat := 2048

/-- C `INVALID_OFFSET`. -/
def invalidOffset : Nat := 0xffff

/-- Number of pagerefs: one page of them, 16 bytes each (C `NPAGEREFS`). -/
def npagerefs : Nat := pageSize / 16

/-- C `INUSE_WORDS`. -/
def inuseWords : Nat := npagerefs / 32

/-- The record of a page that is cut into blocks (C `struct pageref`). -/
structure PageRef where
  nextSamesize : Option Nat
  nextAll : Option Nat
  pageaddrAndBlocktype : Nat
  freelistOffset : Nat
  nfree : Nat
deriving DecidableEq, Repr, Inhabited

/-- C `PR_PAGEADDR`. -/
def PageRef.pageaddr (pr : PageRef) : Nat := pr.pageaddrAndBlocktype &&& pageFrame

/-- C `PR_BLOCKTYPE`. -/
def PageRef.blocktype (pr : PageRef) : Nat := pr.pageaddrAndBlocktype &&& (2 ^ 32 - 1 - pageFrame)

/-- C `MKPAB`. -/
def mkpab (pa blk : Nat) : Nat := (pa &&& pageFrame) ||| (blk &&& (2 ^ 32 - 1 - pageFrame))

/-- The data protected by `kmalloc_spinlock`. -/
structure Km where
  pagerefs : Nat → PageRef
  /-- C `pagerefs_inuse` -/
  inuse : Nat → BitVec 32
  sizebases : Nat → Option Nat
  allbase : Option Nat
  /-- the 32-bit words of kernel memory, by address -/
  mem : Nat → Nat

namespace Km

/-- The tables at boot. -/
def init (mem : Nat → Nat) : Km where
  pagerefs := fun _ => ⟨none, none, 0, 0, 0⟩
  inuse := fun _ => 0
  sizebases := fun _ => none
  allbase := none
  mem := mem

/-- Overwrites a pageref. -/
def setRef (k : Km) (i : Nat) (pr : PageRef) : Km :=
  { k with pagerefs := Function.update k.pagerefs i pr }

/-- `pr->next_samesize`. -/
def nextSamesize (k : Km) (i : Nat) : Option Nat := (k.pagerefs i).nextSamesize

/-- `pr->next_all`. -/
def nextAll (k : Km) (i : Nat) : Option Nat := (k.pagerefs i).nextAll

/-- The bit of a pageref in `pagerefs_inuse`. -/
def bit (k : Km) (i : Nat) : Bool := (k.inuse (i / 32)).getLsbD (i % 32)

/-- Iterations granted to a loop over a list of pagerefs. -/
def fuel : Nat := npagerefs + 1

end Km

/-- Takes a pageref; a null result says that all are in use (C `allocpageref`). -/
def allocpageref (k : Km) : Except Halt (Km × Option Nat) :=
  match (List.range inuseWords).find? (fun i => k.inuse i != 0xffffffff#32) with
  | none => .ok (k, none)
  | some i =>
    match (List.range 32).find? (fun j => k.inuse i &&& (1#32 <<< j) == 0#32) with
    | none => .error (.kassert "0")
    | some j =>
      .ok ({ k with inuse := Function.update k.inuse i (k.inuse i ||| (1#32 <<< j)) }, some (i * 32 + j))

/-- Gives a pageref back (C `freepageref`). -/
def freepageref (k : Km) (p : Nat) : Except Halt Km := do
  kassert (p < npagerefs) "j < NPAGEREFS"
  kassert (k.inuse (p / 32) &&& (1#32 <<< (p % 32)) ≠ 0#32) "(pagerefs_inuse[i] & k) != 0"
  .ok { k with inuse :=
    Function.update k.inuse (p / 32) (k.inuse (p / 32) &&& ~~~ (1#32 <<< (p % 32))) }

/-- `for (guy = &sizebases[blktype]; *guy; ...)`: unlinks a pageref from the list of its size. -/
def Km.removeSamesize (k : Km) (pr blktype : Nat) : Option Km := do
  match ← walk k.nextSamesize (fun i => i != pr) Km.fuel none (k.sizebases blktype) with
  | (_, none) => some k
  | (none, some _) =>
    some { k with sizebases := Function.update k.sizebases blktype (k.nextSamesize pr) }
  | (some p, some _) => some (k.setRef p { k.pagerefs p with nextSamesize := k.nextSamesize pr })

/-- `for (guy = &allbase; *guy; ...)`: unlinks a pageref from the list of all pages. -/
def Km.removeAll (k : Km) (pr : Nat) : Option Km := do
  match ← walk k.nextAll (fun i => i != pr) Km.fuel none k.allbase with
  | (_, none) => some k
  | (none, some _) => some { k with allbase := k.nextAll pr }
  | (some p, some _) => some (k.setRef p { k.pagerefs p with nextAll := k.nextAll pr })

/-- C `remove_lists`. -/
def removeLists (k : Km) (pr blktype : Nat) : Except Halt Km := do
  kassert (blktype < nsizes) "blktype>=0 && blktype<NSIZES"
  let k ← ofLoop (k.removeSamesize pr blktype)
  ofLoop (k.removeAll pr)

/-- The smallest block size that holds `sz` bytes (C `blocktype`). -/
def blocktype (sz : Nat) : Except Halt Nat :=
  match (List.range nsizes).find? (fun i => sz ≤ sizes i) with
  | some i => .ok i
  | none => .error (.panic ("Subpage allocator cannot handle allocation of size " ++ toString sz ++ "\n"))

/-- The loop over the pages of a block size: the first one with a free block. -/
def Km.scanSize (k : Km) (blktype : Nat) : Nat → Option Nat → Except Halt (Option Nat)
  | 0, _ => .error .spin
  | _ + 1, none => .ok none
  | n + 1, some pr => do
    kassert ((k.pagerefs pr).blocktype = blktype) "PR_BLOCKTYPE(pr) == blktype"
    if (k.pagerefs pr).nfree > 0 then .ok (some pr)
    else k.scanSize blktype n (k.nextSamesize pr)

/-- Takes the first free block of a page (label `doalloc` of C `subpage_kmalloc`). -/
def Km.doalloc (k : Km) (pr : Nat) : Except Halt (Km × Nat) := do
  let r := k.pagerefs pr
  kassert (r.freelistOffset < pageSize) "pr->freelist_offset < PAGE_SIZE"
  let retptr := wadd 32 r.pageaddr r.freelistOffset
  let fl := k.mem retptr
  let nfree := wsub 16 r.nfree 1
  if fl ≠ 0 then do
    kassert (nfree > 0) "pr->nfree > 0"
    kassert (wsub 32 fl r.pageaddr < pageSize) "fla - prpage < PAGE_SIZE"
    .ok (k.setRef pr { r with nfree := nfree, freelistOffset := wsub 32 fl r.pageaddr % 2 ^ 16 }, retptr)
  else do
    kassert (nfree = 0) "pr->nfree == 0"
    .ok (k.setRef pr { r with nfree := nfree, freelistOffset := invalidOffset }, retptr)

/-- C `subpage_kmalloc` up to the point where it drops the lock: a block of an existing page, or a null
result when no page of the right size has one. -/
def subpageKmalloc1 (k : Km) (sz : Nat) : Except Halt (Option (Km × Nat)) := do
  let blktype ← blocktype sz
  match ← k.scanSize blktype Km.fuel (k.sizebases blktype) with
  | none => .ok none
  | some pr => (k.doalloc pr).map some

/-- The `for` loop that links the blocks of a new page: `n` iterations from `i` on, giving the last
block and the memory. -/
def linkBlocks (page size : Nat) : Nat → Nat → Nat → (Nat → Nat) → Except Halt (Nat × (Nat → Nat))
  | 0, _, fl, mem => .ok (fl, mem)
  | n + 1, i, _, mem => do
    let fl := wadd 32 page (wmul 32 i size)
    let mem := Function.update mem fl (wadd 32 page (wmul 32 (i - 1) size))
    kassert (fl ≠ mem fl) "fl != fl->next"
    linkBlocks page size n (i + 1) fl mem

/-- Enters a new page and its blocks into the tables. -/
def Km.addPage (k : Km) (pr blktype prpage : Nat) : Except Halt Km := do
  let nfree := pageSize / sizes blktype
  let (fl, mem) ← linkBlocks prpage (sizes blktype) (nfree - 1) 1 prpage (Function.update k.mem prpage 0)
  let offset := wsub 32 fl prpage % 2 ^ 16
  kassert (offset = (nfree - 1) * sizes blktype) "pr->freelist_offset == (pr->nfree-1)*sizes[blktype]"
  .ok { k with
    mem := mem
    pagerefs := Function.update k.pagerefs pr
      ⟨k.sizebases blktype, k.allbase, mkpab prpage blktype, offset, nfree⟩
    sizebases := Function.update k.sizebases blktype (some pr)
    allbase := some pr }

/-- C `subpage_kmalloc` after it has got the page `prpage` and the lock again; a null result says that
there is no pageref for the page, which then goes back to `free_kpages`. -/
def subpageKmalloc2 (k : Km) (sz prpage : Nat) : Except Halt (Km × Option Nat) := do
  let blktype ← blocktype sz
  match ← allocpageref k with
  | (k, none) => .ok (k, none)
  | (k, some pr) =>
    let k ← k.addPage pr blktype prpage
    let (k, retptr) ← k.doalloc pr
    .ok (k, some retptr)

/-- What `subpage_kfree` finds out about a pointer. -/
inductive Freed where
  /-- not on any page of the subpage allocator -/
  | notMine
  | done
  /-- the whole page is free and goes back to `free_kpages` -/
  | drained (prpage : Nat)
deriving DecidableEq, Repr

/-- The loop over all pages: the one that contains the address. -/
def Km.scanAll (k : Km) (ptraddr : Nat) : Nat → Option Nat → Except Halt (Option Nat)
  | 0, _ => .error .spin
  | _ + 1, none => .ok none
  | n + 1, some pr => do
    kassert ((k.pagerefs pr).blocktype < nsizes) "blktype>=0 && blktype<NSIZES"
    if (k.pagerefs pr).pageaddr ≤ ptraddr ∧ ptraddr < wadd 32 (k.pagerefs pr).pageaddr pageSize then
      .ok (some pr)
    else k.scanAll ptraddr n (k.nextAll pr)

/-- The words of memory after filling a block (C `fill_deadbeef`). -/
def fillDeadbeef (mem : Nat → Nat) (ptr len : Nat) : Nat → Nat :=
  fun a => if ptr ≤ a ∧ a < ptr + len / 4 * 4 ∧ (a - ptr) % 4 = 0 then 0xdeadbeef else mem a

/-- Puts a block at the front of the free list of its page. -/
def Km.push (k : Km) (pr offset : Nat) : Km :=
  let r := k.pagerefs pr
  let fla := wadd 32 r.pageaddr offset
  let next := if r.freelistOffset = invalidOffset then 0 else wadd 32 r.pageaddr r.freelistOffset
  { k.setRef pr { r with freelistOffset := offset % 2 ^ 16, nfree := wadd 16 r.nfree 1 } with
    mem := Function.update (fillDeadbeef k.mem fla (sizes r.blocktype)) fla next }

/-- Frees a block of a page; reports when the pointer is on none of them (C `subpage_kfree`). -/
def subpageKfree (k : Km) (ptraddr : Nat) : Except Halt (Km × Freed) := do
  match ← k.scanAll ptraddr Km.fuel k.allbase with
  | none => .ok (k, .notMine)
  | some pr =>
    let prpage := (k.pagerefs pr).pageaddr
    let blktype := (k.pagerefs pr).blocktype
    let offset := wsub 32 ptraddr prpage
    if offset ≥ pageSize ∨ offset % sizes blktype ≠ 0 then
      .error (.panic ("kfree: subpage free of invalid addr 0x" ++
        String.ofList (Nat.toDigits 16 ptraddr) ++ "\n"))
    else do
      let k := k.push pr offset
      kassert ((k.pagerefs pr).nfree ≤ pageSize / sizes blktype) "pr->nfree <= PAGE_SIZE / sizes[blktype]"
      if (k.pagerefs pr).nfree = pageSize / sizes blktype then do
        let k ← removeLists k pr blktype
        let k ← freepageref k pr
        .ok (k, .drained prpage)
      else .ok (k, .done)

/-- C `kfree` up to its call of `free_kpages`; the second component is the page it is called with. -/
def kfree (k : Km) (ptr : Nat) : Except Halt (Km × Option Nat) :=
  if ptr = 0 then .ok (k, none)
  else do
    match ← subpageKfree k ptr with
    | (k, .notMine) =>
      kassert (ptr % pageSize = 0) "(vaddr_t)ptr%PAGE_SIZE==0"
      .ok (k, some ptr)
    | (k, .done) => .ok (k, none)
    | (k, .drained prpage) => .ok (k, some prpage)

/-- `(sz + PAGE_SIZE - 1)/PAGE_SIZE`. -/
def npagesFor (sz : Nat) : Nat := wsub 32 (wadd 32 sz pageSize) 1 / pageSize

/-- C `kmalloc`, run without interference on the page allocator `v`. -/
def kmalloc (v : Vm) (k : Km) (sz : Nat) : Except Halt (Vm × Km × Nat) :=
  if sz ≥ largestSubpageSize then do
    let (v, address) ← allocKpages v (npagesFor sz)
    if address = 0 then .ok (v, k, 0) else .ok (v, k, address)
  else do
    match ← subpageKmalloc1 k sz with
    | some (k, retptr) => .ok (v, k, retptr)
    | none =>
      let (v, prpage) ← allocKpages v 1
      if prpage = 0 then .ok (v, k, 0)
      else
        match ← subpageKmalloc2 k sz prpage with
        | (k, some retptr) => .ok (v, k, retptr)
        | (k, none) => do
          let v ← freeKpages v prpage
          .ok (v, k, 0)

end PDS.Kern
