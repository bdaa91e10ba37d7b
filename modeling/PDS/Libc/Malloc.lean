import PDS.Lib.Word

/-!
# The C library's `malloc`

Port of `user/lib/libc/stdlib/malloc.c` for the 32-bit machine (`MALLOC32`, without `MALLOCDEBUG`).

The heap is a row of blocks between `__heapbase` and `__heaptop`, and every block begins with a header of two words
(`Mheader`). The memory is bytes; words are big-endian and bit-fields start at the most significant bit, as on the MIPS.
An assignment to a field is a header that is read, changed and written. `sbrk` is a parameter that behaves as its manual
page says (`Sbrk`). A call either returns or ends the process (`Abort`).
-/

namespace PDS.Libc
open Word

/-- Size of a header (C `MBLOCKSIZE`). -/
def mblocksize : Nat := 8

/-- Its logarithm (C `MBLOCKSHIFT`). -/
def mblockshift : Nat := 3

/-- The value of `mh_magic1` and `mh_magic2` (C `MMAGIC`). -/
def mmagic : BitVec 2 := 2

/-- `(void *)-1`. -/
def minusOne : Nat := 2 ^ 32 - 1

/-- How a call can fail to return. -/
inductive Abort where
  /-- `errx(1, fmt, ...)` -/
  | errx (fmt : String)
  /-- `err(1, fmt, ...)` -/
  | err (fmt : String)
  /-- a loop that outlives its fuel -/
  | spin
deriving DecidableEq, Repr

abbrev Mem := Nat → UInt8

/-- The word at an address. -/
def Mem.word (m : Mem) (a : Nat) : Nat :=
  (m a).toNat * 2 ^ 24 + (m (a + 1)).toNat * 2 ^ 16 + (m (a + 2)).toNat * 2 ^ 8 + (m (a + 3)).toNat

/-- Overwrites the word at an address. -/
def Mem.setWord (m : Mem) (a v : Nat) : Mem := fun x =>
  if x = a then .ofNat (v / 2 ^ 24)
  else if x = a + 1 then .ofNat (v / 2 ^ 16)
  else if x = a + 2 then .ofNat (v / 2 ^ 8)
  else if x = a + 3 then .ofNat v
  else m x

/-- The header of a block (C `struct mheader`). -/
structure Mheader where
  prevblock : BitVec 29
  pad : BitVec 1
  magic1 : BitVec 2
  nextblock : BitVec 29
  inuse : BitVec 1
  magic2 : BitVec 2
deriving DecidableEq, Repr

/-- The header at an address. -/
def Mem.header (m : Mem) (mh : Nat) : Mheader where
  prevblock := .ofNat 29 (m.word mh / 8)
  pad := .ofNat 1 (m.word mh / 4)
  magic1 := .ofNat 2 (m.word mh)
  nextblock := .ofNat 29 (m.word (mh + 4) / 8)
  inuse := .ofNat 1 (m.word (mh + 4) / 4)
  magic2 := .ofNat 2 (m.word (mh + 4))

/-- Overwrites the header at an address. -/
def Mem.setHeader (m : Mem) (mh : Nat) (h : Mheader) : Mem :=
  (m.setWord mh (h.prevblock.toNat * 8 + h.pad.toNat * 4 + h.magic1.toNat)).setWord (mh + 4)
    (h.nextblock.toNat * 8 + h.inuse.toNat * 4 + h.magic2.toNat)

/-- Distance to the next header (C `M_NEXTOFF`). -/
def Mheader.nextoff (h : Mheader) : Nat := h.nextblock.toNat * 2 ^ mblockshift

/-- Distance to the previous header (C `M_PREVOFF`). -/
def Mheader.prevoff (h : Mheader) : Nat := h.prevblock.toNat * 2 ^ mblockshift

/-- Size of the data (C `M_SIZE`). -/
def Mheader.size (h : Mheader) : Nat := wsub 32 h.nextoff mblocksize

/-- The magic values are right (C `M_OK`). -/
def Mheader.ok (h : Mheader) : Bool := h.magic1 == mmagic && h.magic2 == mmagic

/-- The next header (C `M_NEXT`). -/
def mNext (m : Mem) (mh : Nat) : Nat := wadd 32 mh (m.header mh).nextoff

/-- The previous header (C `M_PREV`). -/
def mPrev (m : Mem) (mh : Nat) : Nat := wsub 32 mh (m.header mh).prevoff

/-- The data of a block (C `M_DATA`). -/
def mData (mh : Nat) : Nat := wadd 32 mh mblocksize

/-- A value for `mh_prevblock` or `mh_nextblock` (C `M_MKFIELD`). -/
def mMkfield (off : Nat) : BitVec 29 := .ofNat 29 (off / 2 ^ mblockshift)

/-- `sbrk`, on the state `W` of the rest of the system: it returns the old break and moves it, or it fails and changes
nothing. The break is an address behind the program's data. -/
structure Sbrk (W : Type) where
  brk : W → Nat
  call : W → Nat → W × Nat
  moves : ∀ w amount, amount < 2 ^ 31 →
    ((call w amount).2 = brk w ∧ brk (call w amount).1 = brk w + amount) ∨
      ((call w amount).2 = minusOne ∧ brk (call w amount).1 = brk w)
  brk_pos : ∀ w, 0 < brk w
  brk_lt : ∀ w, brk w < 2 ^ 32

/-- The process: its memory, the static variables of `malloc.c` and the rest of the system. -/
structure Process (W : Type) where
  mem : Mem
  heapbase : Nat
  heaptop : Nat
  world : W

variable {W : Type}

/-- Aligns the base of the heap. -/
def mallocAlign (sb : Sbrk W) (s : Process W) : Except Abort (Process W) :=
  if s.heapbase % mblocksize ≠ 0 then
    let adjust := mblocksize - s.heapbase % mblocksize
    let (w, x) := sb.call s.world adjust
    if x = minusOne then .error (.err "malloc: sbrk failed aligning heap base")
    else if x ≠ s.heapbase then .error (.err "malloc: heap base moved during init")
    else .ok { s with
      heapbase := wadd 32 s.heapbase adjust, heaptop := wadd 32 s.heapbase adjust, world := w }
  else .ok s

/-- Finds the base of the heap (C `__malloc_init`; the checks of constants are true). -/
def mallocInit (sb : Sbrk W) (s : Process W) : Except Abort (Process W) :=
  if s.heapbase ≠ 0 ∨ s.heaptop ≠ 0 then .error (.errx "malloc: Internal error - bad init call")
  else
    let (w, x) := sb.call s.world 0
    if x = minusOne then .error (.err "malloc: initial sbrk failed")
    else if x = 0 then .error (.errx "malloc: Internal error - heap began at 0")
    else mallocAlign sb { s with heapbase := x, heaptop := x, world := w }

/-- Gets more memory at the top of the heap; the address is `0` on failure (C `__malloc_sbrk`). -/
def mallocSbrk (sb : Sbrk W) (s : Process W) (size : Nat) : Except Abort (Process W × Nat) :=
  let (w, x) := sb.call s.world size
  if x = minusOne then .ok ({ s with world := w }, 0)
  else if x ≠ s.heaptop then
    .error (.errx "malloc: Internal error - heap top moved itself from 0x%lx to 0x%lx")
  else .ok ({ s with heaptop := wadd 32 s.heaptop size, world := w }, x)

/-- Makes a new free block of what `size` bytes of data leave of a block, when that is enough for one
(C `__malloc_split`). -/
def mallocSplit (m : Mem) (heaptop mh size : Nat) : Except Abort Mem :=
  if size % mblocksize ≠ 0 then .error (.errx "malloc: Internal error (size %lu passed to split)")
  else if wsub 32 (m.header mh).size size < 2 * mblocksize then .ok m
  else
    let mhnext := mNext m mh
    let oldsize := (m.header mh).size
    let m := m.setHeader mh { m.header mh with nextblock := mMkfield (wadd 32 size mblocksize) }
    let mhnew := mNext m mh
    if mhnew = mhnext then .error (.errx "malloc: Internal error (split screwed up?)")
    else
      let m := m.setHeader mhnew {
        prevblock := mMkfield (wadd 32 size mblocksize)
        pad := 0
        magic1 := mmagic
        nextblock := mMkfield (wsub 32 oldsize size)
        inuse := 0
        magic2 := mmagic }
      if mhnext ≠ heaptop then
        .ok (m.setHeader mhnext { m.header mhnext with prevblock := (m.header mhnew).nextblock })
      else .ok m

/-- The search for a free block that is big enough, with `rightprevblock`; without one, the second component is the last
value of `mh_nextblock`. -/
def findFit (m : Mem) (heaptop size : Nat) : Nat → Nat → Nat → Except Abort (Option Nat × Nat)
  | 0, _, _ => .error .spin
  | fuel + 1, i, rightprevblock =>
    if i < heaptop then
      let h := m.header i
      if ¬ h.ok then .error (.errx "malloc: Heap corrupt; header at 0x%lx has bad magic bits")
      else if h.prevblock.toNat ≠ rightprevblock then
        .error (.errx ("malloc: Heap corrupt; header at 0x%lx" ++
          " has bad previous-block size %lu (should be %lu)"))
      else if h.inuse ≠ 0 then findFit m heaptop size fuel (wadd 32 i h.nextoff) h.nextblock.toNat
      else if h.size < size then findFit m heaptop size fuel (wadd 32 i h.nextoff) h.nextblock.toNat
      else .ok (some i, h.nextblock.toNat)
    else if i ≠ heaptop then .error (.errx "malloc: Heap corrupt; ran off end")
    else .ok (none, rightprevblock)

/-- The size rounded up to whole blocks. -/
def roundUp (size : Nat) : Nat := wsub 32 (wadd 32 size mblocksize) 1 &&& (2 ^ 32 - 1 - (mblocksize - 1))

/-- The search, and the block that it finds or a new one at the top of the heap. -/
def mallocBlock (sb : Sbrk W) (s : Process W) (size : Nat) : Except Abort (Process W × Nat) := do
  match ← findFit s.mem s.heaptop size (s.heaptop - s.heapbase + 1) s.heapbase 0 with
  | (some mh, _) =>
    let m ← mallocSplit s.mem s.heaptop mh size
    .ok ({ s with mem := m.setHeader mh { m.header mh with inuse := 1 } }, mData mh)
  | (none, rightprevblock) =>
    let (s, mh) ← mallocSbrk sb s (wadd 32 size mblocksize)
    if mh = 0 then .ok (s, 0)
    else
      let h : Mheader := {
        prevblock := .ofNat 29 rightprevblock
        pad := 0
        magic1 := mmagic
        nextblock := mMkfield (wadd 32 size mblocksize)
        inuse := 1
        magic2 := mmagic }
      .ok ({ s with mem := s.mem.setHeader mh h }, mData mh)

/-- "Internal error - local data corrupt". -/
def Process.corrupt (s : Process W) : Prop := s.heapbase = 0 ∨ s.heaptop = 0 ∨ s.heapbase > s.heaptop

instance (s : Process W) : Decidable s.corrupt := inferInstanceAs (Decidable (_ ∨ _ ∨ _))

/-- C `malloc`. -/
def malloc (sb : Sbrk W) (s : Process W) (size : Nat) : Except Abort (Process W × Nat) := do
  let s ← if s.heapbase = 0 then mallocInit sb s else .ok s
  if s.corrupt then .error (.errx "malloc: heapbase 0x%lx; heaptop 0x%lx")
  else mallocBlock sb s (roundUp size)

/-- Clears `n` words. -/
def deadbeefWords (m : Mem) (ptr : Nat) : Nat → Mem
  | 0 => m
  | n + 1 => (deadbeefWords m ptr n).setWord (ptr + 4 * n) 0xdeadbeef

/-- Clears a range of memory (C `__malloc_deadbeef`). -/
def deadbeef (m : Mem) (ptr size : Nat) : Mem := deadbeefWords m ptr (size / 4)

/-- Merges two adjacent blocks when both are free (C `__malloc_trymerge`). -/
def trymerge (m : Mem) (heaptop mh mhnext : Nat) : Except Abort Mem :=
  let h := m.header mh
  let hnext := m.header mhnext
  if h.nextblock ≠ hnext.prevblock then .error (.errx "free: Heap corrupt (%p and %p inconsistent)")
  else if h.inuse ≠ 0 ∨ hnext.inuse ≠ 0 then .ok m
  else
    let mhnextnext := mNext m mhnext
    let m := m.setHeader mh { h with
      nextblock := mMkfield (wadd 32 (wadd 32 (wadd 32 mblocksize h.size) mblocksize) hnext.size) }
    let m :=
      if mhnextnext ≠ heaptop then
        m.setHeader mhnextnext { m.header mhnextnext with prevblock := (m.header mh).nextblock }
      else m
    .ok (deadbeef m mhnext mblocksize)

/-- Marks a block free, wipes it and merges it with its neighbours. -/
def freeBlock (m : Mem) (heapbase heaptop mh : Nat) : Except Abort Mem := do
  let m := m.setHeader mh { m.header mh with inuse := 0 }
  let m := deadbeef m (mData mh) (m.header mh).size
  let mhnext := mNext m mh
  let m ← if mhnext ≠ heaptop then trymerge m heaptop mh mhnext else .ok m
  if mh ≠ heapbase then trymerge m heaptop (mPrev m mh) mh else .ok m

/-- C `free`. -/
def free (s : Process W) (x : Nat) : Except Abort (Process W) :=
  if x = 0 then .ok s
  else if s.corrupt then .error (.errx "free: heapbase 0x%lx; heaptop 0x%lx")
  else if x < s.heapbase ∨ x ≥ s.heaptop then
    .error (.errx "free: Invalid pointer %p freed (out of range)")
  else
    let mh := wsub 32 x mblocksize
    let h := s.mem.header mh
    if ¬ h.ok then .error (.errx "free: Invalid pointer %p freed (corrupt header)")
    else if h.inuse = 0 then .error (.errx "free: Invalid pointer %p freed (already free)")
    else do
      let m ← freeBlock s.mem s.heapbase s.heaptop mh
      .ok { s with mem := m }

end PDS.Libc
