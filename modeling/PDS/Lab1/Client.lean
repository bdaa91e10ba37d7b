import PDS.Lab1.Heap
import PDS.Lib.Objects

/-!
# The clients of lab 1

Port of `Cabodi/lab1/client.c`, `clientWithDefrag.c` and `clientWithMalloc.c`. The three programs have the same functions;
they differ in where their memory comes from, in the condition under which `strArrayPush` allocates a larger array and in
what they do after a page (`Client`).

All that the programs keep, pointers included, lies in memory that has been allocated: pointers have 8 bytes, an `int` has
4. The line buffer is a list of bytes. An `int` here is never negative, and one that overflows is a fault. The files open;
what goes to the standard output is left out.
-/

namespace PDS.Lab1
open Word Objects

/-- How a program can end early. -/
inductive Fault where
  /-- an allocation returns `NULL` -/
  | null
  /-- the C standard does not say what happens: an `int` overflows, or there is an access before a buffer -/
  | undefined
  /-- a loop that outlives its fuel -/
  | spin
deriving DecidableEq, Repr

/-- What differs among the programs. -/
structure Client (σ : Type) extends Allocator σ where
  /-- the condition of `strArrayPush` on `num + 1` and `allocSize` -/
  full : Nat → Nat → Bool
  /-- what is done after a page, with the pointers `save` and `page` -/
  afterPage : σ → Nat → Nat → Except Fault (σ × Nat × Nat)

/-- C `MAXLINELEN`. -/
def maxLineLen : Nat := 100

def newline : UInt8 := 10

/-- An `int` as a `size_t`. -/
def toSize (i : Int) : Nat := (i % 2 ^ 64).toNat

/-- The result of `int` arithmetic. -/
def toInt (n : Nat) : Except Fault Nat := if n < 2 ^ 31 then .ok n else .error .undefined

/-- The bytes before the first `NUL` of a buffer. -/
def bufStr (buf : List UInt8) : List UInt8 := buf.takeWhile (· ≠ 0)

/-- The bytes before the first `NUL`, of at most `n`. -/
def strLoop (m : Mem) : Nat → Nat → List UInt8
  | 0, _ => []
  | n + 1, a => if m a = 0 then [] else m a :: strLoop m n (a + 1)

/-- The string at an address. -/
def str (m : Mem) (a : Nat) : List UInt8 := strLoop m (2 ^ 64) a

/-- Writes a string and a `NUL`. -/
def strcpy (m : Mem) (dst : Nat) : List UInt8 → Mem
  | [] => Function.update m dst 0
  | c :: src => strcpy (Function.update m dst c) (dst + 1) src

/-- A line of at most `n` bytes, and the rest of the file. -/
def takeLine : Nat → List UInt8 → List UInt8 × List UInt8
  | 0, fp => ([], fp)
  | _ + 1, [] => ([], [])
  | n + 1, c :: fp => if c = newline then ([c], fp) else (c :: (takeLine n fp).1, (takeLine n fp).2)

/-- C `fgets` with a buffer of the size `n`: what is in the buffer, and the rest of the file. -/
def fgets (n : Nat) (fp : List UInt8) : Option (List UInt8 × List UInt8) :=
  if fp = [] then none else some ((takeLine (n - 1) fp).1 ++ [0], (takeLine (n - 1) fp).2)

namespace Client

variable {σ : Type} (C : Client σ)

/-- An allocation. -/
def allocate (s : σ) (size : Nat) : Except Fault (σ × Nat) :=
  match C.alloc s size with
  | none => .error .spin
  | some (s, p) => if p = 0 then .error .null else .ok (s, p)

/-- Gives a block back. -/
def release (s : σ) (p : Nat) : Except Fault σ :=
  match C.free s p with
  | none => .error .spin
  | some s => .ok s

/-- `array[i]` of an array of pointers. -/
def ptr (s : σ) (array i : Nat) : Nat := read (C.mem s) 8 (array + 8 * i)

/-- `array[i] = p`. -/
def setPtr (s : σ) (array i p : Nat) : σ := C.setMem s (write (C.mem s) 8 (array + 8 * i) p)

/-- `sarray->array`. -/
def array (s : σ) (sarray : Nat) : Nat := read (C.mem s) 8 sarray

/-- `sarray->num`. -/
def num (s : σ) (sarray : Nat) : Nat := read (C.mem s) 4 (sarray + 8)

/-- `sarray->allocSize`. -/
def allocSize (s : σ) (sarray : Nat) : Nat := read (C.mem s) 4 (sarray + 12)

def setArray (s : σ) (sarray p : Nat) : σ := C.setMem s (write (C.mem s) 8 sarray p)

def setNum (s : σ) (sarray n : Nat) : σ := C.setMem s (write (C.mem s) 4 (sarray + 8) n)

def setAllocSize (s : σ) (sarray n : Nat) : σ := C.setMem s (write (C.mem s) 4 (sarray + 12) n)

/-- Reads up to `n` lines to `page[nr]` and the pointers behind it. -/
def leggiLoop (page : Nat) : Nat → Nat → σ → List UInt8 → Except Fault (σ × List UInt8 × Nat)
  | 0, nr, s, fp => .ok (s, fp, nr)
  | n + 1, nr, s, fp =>
    match fgets maxLineLen fp with
    | none => .ok (s, fp, nr)
    | some (buf, fp) =>
      let len := (bufStr buf).length
      if len = 0 then .error .undefined
      else do
        let ended := buf.getD (len - 1) 0 = newline
        let buf := if ended then buf.set (len - 1) 0 else buf
        let len := if ended then len - 1 else len
        let (s, p) ← C.allocate s (len + 1)
        let s := C.setPtr s page nr p
        let s := C.setMem s (strcpy (C.mem s) (C.ptr s page nr) (bufStr buf))
        leggiLoop page n (nr + 1) s fp

/-- Reads a page of up to `maxR` lines; the number is that of the lines (C `leggiPagina`). -/
def leggiPagina (s : σ) (page : Nat) (fp : List UInt8) (maxR : Nat) : Except Fault (σ × List UInt8 × Nat) :=
  C.leggiLoop page maxR 0 s fp

/-- The inner loop of the sort, with `j + 1`. -/
def sposta (page xp : Nat) : Nat → σ → σ × Nat
  | 0, s => (s, 0)
  | j + 1, s =>
    -- `strcmp(xp, page[j]) < 0`
    if str (C.mem s) xp < str (C.mem s) (C.ptr s page j) then
      sposta page xp j (C.setPtr s page (j + 1) (C.ptr s page j))
    else (s, j + 1)

/-- `n` turns of the outer loop. -/
def ordinaLoop (page : Nat) : Nat → Nat → σ → σ
  | 0, _, s => s
  | n + 1, i, s =>
    let xp := C.ptr s page i
    let (s, j) := C.sposta page xp i s
    ordinaLoop page n (i + 1) (C.setPtr s page j xp)

/-- Insertion sort (C `ordinaPagina`). -/
def ordinaPagina (s : σ) (page nr : Nat) : σ := C.ordinaLoop page (nr - 1) 1 s

/-- What is written to a file (C `scriviPagina`). -/
def scriviPagina (s : σ) (page nr : Nat) : List UInt8 :=
  (List.range nr).flatMap fun i => str (C.mem s) (C.ptr s page i) ++ [newline]

/-- An empty array (C `strArrayInit`). -/
def strArrayInit (s : σ) (initSize : Nat) : Except Fault (σ × Nat) := do
  let (s, p) ← C.allocate s 16
  let s := C.setArray s p 0
  let s := C.setNum s p 0
  let s := C.setAllocSize s p initSize
  if initSize > 0 then
    let (s, q) ← C.allocate s (wmul 64 initSize 8)
    .ok (C.setArray s p q, p)
  else .ok (s, p)

/-- C `strArrayFree`. -/
def strArrayFree (s : σ) (sarray : Nat) : Except Fault σ := do
  let s ← (if C.allocSize s sarray > 0 then C.release s (C.array s sarray) else .ok s)
  C.release s sarray

/-- Copies `n` pointers from `i` on. -/
def copyLoop (sarray old : Nat) : Nat → Nat → σ → σ
  | 0, _, s => s
  | n + 1, i, s => copyLoop sarray old n (i + 1) (C.setPtr s (C.array s sarray) i (C.ptr s old i))

/-- `sarray->allocSize` pointers take the place of the array. -/
def grow (s : σ) (sarray : Nat) : Except Fault σ := do
  let old := C.array s sarray
  let double ← toInt (C.allocSize s sarray * 2)
  let s := C.setAllocSize s sarray double
  let s := if C.allocSize s sarray = 0 then C.setAllocSize s sarray 2 else s
  let (s, q) ← C.allocate s (wmul 64 (C.allocSize s sarray) 8)
  let s := C.setArray s sarray q
  if old ≠ 0 then C.release (C.copyLoop sarray old (C.num s sarray) 0 s) old
  else .ok s

/-- Appends a string (C `strArrayPush`). -/
def strArrayPush (s : σ) (sarray p : Nat) : Except Fault σ := do
  let next ← toInt (C.num s sarray + 1)
  let s ← (if C.full next (C.allocSize s sarray) then C.grow s sarray else .ok s)
  let s := C.setPtr s (C.array s sarray) (C.num s sarray) p
  .ok (C.setNum s sarray next)

/-- C `strArraySort`. -/
def strArraySort (s : σ) (sarray : Nat) : σ :=
  if C.num s sarray = 0 then s else C.ordinaPagina s (C.array s sarray) (C.num s sarray)

/-- What is written to a file (C `strArrayPrint`). -/
def strArrayPrint (s : σ) (sarray : Nat) : List UInt8 :=
  if C.num s sarray = 0 then [] else C.scriviPagina s (C.array s sarray) (C.num s sarray)

/-- Frees or saves `n` lines from `page[i]` on. -/
def filtraLoop (page save : Nat) (M : Int) : Nat → Nat → σ → Except Fault σ
  | 0, _, s => .ok s
  | n + 1, i, s => do
    -- `strlen(page[i]) <= M`, where the `int` is converted to a `size_t`
    let s ← (
      if (str (C.mem s) (C.ptr s page i)).length ≤ toSize M then C.release s (C.ptr s page i)
      else C.strArrayPush s save (C.ptr s page i))
    filtraLoop page save M n (i + 1) s

/-- C `filtraeLiberaPagina`. -/
def filtraeLiberaPagina (s : σ) (page nr save : Nat) (M : Int) : Except Fault σ := C.filtraLoop page save M nr 0 s

/-- The loop over the pages; what it writes comes last. -/
def mainLoop (maxR : Nat) (M : Int) : Nat → σ → Nat → Nat → List UInt8 → Except Fault (σ × Nat × Nat × List UInt8)
  | 0, _, _, _, _ => .error .spin
  | fuel + 1, s, save, page, fp => do
    let (s, fp, nr) ← C.leggiPagina s page fp maxR
    if nr = 0 then .ok (s, save, page, [])
    else
      let s := C.ordinaPagina s page nr
      let fpO := C.scriviPagina s page nr
      let s ← C.filtraeLiberaPagina s page nr save M
      let (s, save, page) ← C.afterPage s save page
      let (s, save, page, rest) ← mainLoop maxR M fuel s save page fp
      .ok (s, save, page, fpO ++ rest)

/-- The two output files (C `main`, from the call of `strArrayInit` to that of `strArrayFree`). -/
def main (s : σ) (fileIn : List UInt8) (N M : Int) : Except Fault (List UInt8 × List UInt8) := do
  let (s, save) ← C.strArrayInit s 0
  let (s, page) ← C.allocate s (wmul 64 (toSize N) 8)
  let (s, save, page, fileOut) ← C.mainLoop N.toNat M (fileIn.length + 1) s save page fileIn
  let s ← C.release s page
  let s := C.strArraySort s save
  let fileOut2 := C.strArrayPrint s save
  let _ ← C.strArrayFree s save
  .ok (fileOut, fileOut2)

end Client

/-- The heap of `heap.c`. -/
def heapAllocator : Allocator Heap where
  alloc := heapAlloc
  free := heapFree
  mem := Heap.bytes
  setMem h bytes := { h with bytes := bytes }

/-- A call of `heapNewPointer`. -/
def newPointer (h : Heap) (p : Nat) : Except Fault Nat :=
  match heapNewPointer h p with
  | none => .error .spin
  | some p => .ok p

/-- The memory of `client.c`. -/
def clientOfHeap : Client Heap :=
  { heapAllocator with
    full := fun next allocSize => next ≥ allocSize
    afterPage := fun h save page => .ok (h, save, page) }

namespace Defrag

/-- The memory of `clientWithDefrag.c`, without the defragmentation. -/
def base : Client Heap :=
  { heapAllocator with
    full := fun next allocSize => next > allocSize
    afterPage := fun h save page => .ok (h, save, page) }

/-- Gives `n` strings from `save->array[i]` on their new addresses. -/
def moveLoop (save : Nat) : Nat → Nat → Heap → Except Fault Heap
  | 0, _, h => .ok h
  | n + 1, i, h => do
    let p ← newPointer h (base.ptr h (base.array h save) i)
    moveLoop save n (i + 1) (base.setPtr h (base.array h save) i p)

/-- Gives the array of strings and the strings their new addresses. -/
def movePointers (h : Heap) (save : Nat) : Except Fault Heap :=
  if base.array h save ≠ 0 then do
    let p ← newPointer h (base.array h save)
    let h := base.setArray h save p
    moveLoop save (base.num h save) 0 h
  else .ok h

/-- "Defrag and update pointers". -/
def afterPage (h : Heap) (save page : Nat) : Except Fault (Heap × Nat × Nat) :=
  match heapDefrag h with
  | none => .error .spin
  | some h => do
    let save ← newPointer h save
    let page ← newPointer h page
    let h ← movePointers h save
    match heapDefragClose h with
    | none => .error .spin
    | some h => .ok (h, save, page)

end Defrag

/-- The memory of `clientWithDefrag.c`. -/
def clientOfDefrag : Client Heap := { Defrag.base with afterPage := Defrag.afterPage }

/-- The memory of `clientWithMalloc.c`. -/
def clientOfMalloc {σ : Type} (A : Allocator σ) : Client σ :=
  { A with
    full := fun next allocSize => next ≥ allocSize
    afterPage := fun s save page => .ok (s, save, page) }

/-- The program of `client.c`; the first three arguments are what `malloc` returns to `heapCreate`. -/
def client (newHeap : Bool) (base : Nat) (node : Bool) (fileIn : List UInt8) (D N M : Int) :
    Except Fault (List UInt8 × List UInt8) :=
  match heapCreate newHeap base node (toSize D) with
  | none => .error .null
  | some heap => clientOfHeap.main heap fileIn N M

/-- The program of `clientWithDefrag.c`. -/
def clientWithDefrag (newHeap : Bool) (base : Nat) (node : Bool) (fileIn : List UInt8) (D N M : Int) :
    Except Fault (List UInt8 × List UInt8) :=
  match heapCreate newHeap base node (toSize D) with
  | none => .error .null
  | some heap => clientOfDefrag.main heap fileIn N M

/-- The program of `clientWithMalloc.c`, with `malloc` and `free`. -/
def clientWithMalloc {σ : Type} (A : Allocator σ) (s : σ) (fileIn : List UInt8) (N M : Int) :
    Except Fault (List UInt8 × List UInt8) :=
  (clientOfMalloc A).main s fileIn N M

end PDS.Lab1
