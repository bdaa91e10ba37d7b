import PDS.Kern.Machine
import PDS.Lib.Doubly

/-!
# Thread lists

Port of `kern/thread/threadlist.c`. A list has two nodes of its own, which are always on it as bookends; the other nodes are
those in the threads. Threads are at addresses of 32 bits, and the lists are numbered. `DEBUGASSERT` is compiled out.

`threadlists_refine` says that the lists are sequences, forwards and backwards.
-/

namespace PDS.Kern
open Doubly

/-- The address of a thread (C `struct thread *`). -/
abbrev ThreadPtr := { a : UInt32 // a ≠ 0 }

/-- The address of a node (C `struct threadlistnode *`). -/
inductive NodePtr where
  /-- `&tl->tl_head` -/
  | head (tl : Nat)
  /-- `&tl->tl_tail` -/
  | tail (tl : Nat)
  /-- `&t->t_listnode` -/
  | listnode (t : ThreadPtr)
deriving DecidableEq

/-- C `struct threadlistnode`. -/
structure Threadlistnode where
  tlnPrev : Option NodePtr
  tlnNext : Option NodePtr
  tlnSelf : Option ThreadPtr

/-- The nodes in memory, and the counts of the lists (C `tl_count`). -/
structure Threadlists where
  nodes : NodePtr → Threadlistnode
  tlCount : Nat → UInt32

namespace Threadlists

/-- `tln->tln_prev` -/
def prev (m : Threadlists) (tln : NodePtr) : Option NodePtr := (m.nodes tln).tlnPrev

/-- `tln->tln_next` -/
def next (m : Threadlists) (tln : NodePtr) : Option NodePtr := (m.nodes tln).tlnNext

/-- `tln->tln_self` -/
def self (m : Threadlists) (tln : NodePtr) : Option ThreadPtr := (m.nodes tln).tlnSelf

/-- `tln->tln_prev = p` -/
def setPrev (m : Threadlists) (tln : NodePtr) (p : Option NodePtr) : Threadlists :=
  { m with nodes := Function.update m.nodes tln { m.nodes tln with tlnPrev := p } }

/-- `tln->tln_next = p` -/
def setNext (m : Threadlists) (tln : NodePtr) (p : Option NodePtr) : Threadlists :=
  { m with nodes := Function.update m.nodes tln { m.nodes tln with tlnNext := p } }

/-- `tl->tl_count = n` -/
def setCount (m : Threadlists) (tl : Nat) (n : UInt32) : Threadlists :=
  { m with tlCount := Function.update m.tlCount tl n }

end Threadlists

/-- A pointer that is followed. -/
def deref : Option NodePtr → Except Halt NodePtr
  | none => .error fatalFault
  | some tln => .ok tln

/-- C `threadlistnode_init`. -/
def threadlistnodeInit (m : Threadlists) (t : ThreadPtr) : Threadlists :=
  { m with nodes := Function.update m.nodes (.listnode t) ⟨none, none, some t⟩ }

/-- C `threadlistnode_cleanup`. -/
def threadlistnodeCleanup (m : Threadlists) (t : ThreadPtr) : Except Halt Unit := do
  kassert (m.next (.listnode t) = none) "tln->tln_next == NULL"
  kassert (m.prev (.listnode t) = none) "tln->tln_prev == NULL"
  kassert (m.self (.listnode t) ≠ none) "tln->tln_self != NULL"

/-- C `threadlist_init`. -/
def threadlistInit (m : Threadlists) (tl : Nat) : Threadlists :=
  { nodes := Function.update (Function.update m.nodes (.head tl) ⟨none, some (.tail tl), none⟩)
      (.tail tl) ⟨some (.head tl), none, none⟩
    tlCount := Function.update m.tlCount tl 0 }

/-- C `threadlist_isempty`. -/
def threadlistIsempty (m : Threadlists) (tl : Nat) : Bool := m.tlCount tl == 0

/-- C `threadlist_cleanup`. -/
def threadlistCleanup (m : Threadlists) (tl : Nat) : Except Halt Unit := do
  kassert (threadlistIsempty m tl) "threadlist_isempty(tl)"
  kassert (m.tlCount tl = 0) "tl->tl_count == 0"

/-- "Do insertion. Doesn't update tl_count." (C `threadlist_insertafternode`.) -/
def threadlistInsertafternode (m : Threadlists) (onlist : NodePtr) (t : ThreadPtr) : Except Halt Threadlists := do
  let addee := NodePtr.listnode t
  let m := m.setPrev addee (some onlist)
  let m := m.setNext addee (m.next onlist)
  let p ← deref (m.prev addee)
  let m := m.setNext p (some addee)
  let n ← deref (m.next addee)
  .ok (m.setPrev n (some addee))

/-- "Do insertion. Doesn't update tl_count." (C `threadlist_insertbeforenode`.) -/
def threadlistInsertbeforenode (m : Threadlists) (t : ThreadPtr) (onlist : NodePtr) : Except Halt Threadlists := do
  let addee := NodePtr.listnode t
  let m := m.setPrev addee (m.prev onlist)
  let m := m.setNext addee (some onlist)
  let p ← deref (m.prev addee)
  let m := m.setNext p (some addee)
  let n ← deref (m.next addee)
  .ok (m.setPrev n (some addee))

/-- "Do removal. Doesn't update tl_count." (C `threadlist_removenode`.) -/
def threadlistRemovenode (m : Threadlists) (tln : NodePtr) : Except Halt Threadlists := do
  let p ← deref (m.prev tln)
  let m := m.setNext p (m.next tln)
  let n ← deref (m.next tln)
  let m := m.setPrev n (m.prev tln)
  let m := m.setPrev tln none
  .ok (m.setNext tln none)

/-- C `threadlist_addhead`. -/
def threadlistAddhead (m : Threadlists) (tl : Nat) (t : ThreadPtr) : Except Halt Threadlists := do
  let m ← threadlistInsertafternode m (.head tl) t
  .ok (m.setCount tl (m.tlCount tl + 1))

/-- C `threadlist_addtail`. -/
def threadlistAddtail (m : Threadlists) (tl : Nat) (t : ThreadPtr) : Except Halt Threadlists := do
  let m ← threadlistInsertbeforenode m t (.tail tl)
  .ok (m.setCount tl (m.tlCount tl + 1))

/-- C `threadlist_remhead`; the result is `NULL` if the list is empty. -/
def threadlistRemhead (m : Threadlists) (tl : Nat) : Except Halt (Option ThreadPtr × Threadlists) := do
  let tln ← deref (m.next (.head tl))
  if m.next tln = none then .ok (none, m)
  else do
    let m ← threadlistRemovenode m tln
    .ok (m.self tln, m.setCount tl (m.tlCount tl - 1))

/-- C `threadlist_remtail`. -/
def threadlistRemtail (m : Threadlists) (tl : Nat) : Except Halt (Option ThreadPtr × Threadlists) := do
  let tln ← deref (m.prev (.tail tl))
  if m.prev tln = none then .ok (none, m)
  else do
    let m ← threadlistRemovenode m tln
    .ok (m.self tln, m.setCount tl (m.tlCount tl - 1))

/-- C `threadlist_insertafter`. -/
def threadlistInsertafter (m : Threadlists) (tl : Nat) (onlist addee : ThreadPtr) : Except Halt Threadlists := do
  let m ← threadlistInsertafternode m (.listnode onlist) addee
  .ok (m.setCount tl (m.tlCount tl + 1))

/-- C `threadlist_insertbefore`. -/
def threadlistInsertbefore (m : Threadlists) (tl : Nat) (addee onlist : ThreadPtr) : Except Halt Threadlists := do
  let m ← threadlistInsertbeforenode m addee (.listnode onlist)
  .ok (m.setCount tl (m.tlCount tl + 1))

/-- C `threadlist_remove`. -/
def threadlistRemove (m : Threadlists) (tl : Nat) (t : ThreadPtr) : Except Halt Threadlists := do
  let m ← threadlistRemovenode m (.listnode t)
  .ok (m.setCount tl (m.tlCount tl - 1))

/-- "Iterate by starting with tl_head.tln_next, and stop when itervar->tln_next is null"; with the link `tln_prev` it is the
iteration backwards, from `tl_tail.tln_prev`. -/
def readList (m : Threadlists) (link : NodePtr → Option NodePtr) :
    Nat → Option NodePtr → Except Halt (List (Option ThreadPtr))
  | 0, _ => .error .spin
  | fuel + 1, itervar => do
    let tln ← deref itervar
    if link tln = none then .ok []
    else do
      let rest ← readList m link fuel (link tln)
      .ok (m.self tln :: rest)

/-- The threads from the head on. -/
def readForwards (m : Threadlists) (fuel tl : Nat) : Except Halt (List (Option ThreadPtr)) :=
  readList m m.next fuel (m.next (.head tl))

/-- The threads from the tail on. -/
def readBackwards (m : Threadlists) (fuel tl : Nat) : Except Halt (List (Option ThreadPtr)) :=
  readList m m.prev fuel (m.prev (.tail tl))

/-- A call. -/
inductive TlOp where
  | addhead (tl : Nat) (t : ThreadPtr)
  | addtail (tl : Nat) (t : ThreadPtr)
  | remhead (tl : Nat)
  | remtail (tl : Nat)
  | insertafter (tl : Nat) (onlist addee : ThreadPtr)
  | insertbefore (tl : Nat) (addee onlist : ThreadPtr)
  | remove (tl : Nat) (t : ThreadPtr)

/-- One call, and what it returns. -/
def Threadlists.step (m : Threadlists) : TlOp → Except Halt (Option ThreadPtr × Threadlists)
  | .addhead tl t => do
    let m ← threadlistAddhead m tl t
    .ok (none, m)
  | .addtail tl t => do
    let m ← threadlistAddtail m tl t
    .ok (none, m)
  | .remhead tl => threadlistRemhead m tl
  | .remtail tl => threadlistRemtail m tl
  | .insertafter tl onlist addee => do
    let m ← threadlistInsertafter m tl onlist addee
    .ok (none, m)
  | .insertbefore tl addee onlist => do
    let m ← threadlistInsertbefore m tl addee onlist
    .ok (none, m)
  | .remove tl t => do
    let m ← threadlistRemove m tl t
    .ok (none, m)

/-- Calls one after the other, and what they return. -/
def Threadlists.run (m : Threadlists) : List TlOp → Except Halt (List (Option ThreadPtr) × Threadlists)
  | [] => .ok ([], m)
  | op :: ops => do
    let (ret, m) ← m.step op
    let (rets, m) ← m.run ops
    .ok (ret :: rets, m)

/-- All lists and all threads are initialized. -/
def Threadlists.start : Threadlists where
  nodes
    | .head tl => ⟨none, some (.tail tl), none⟩
    | .tail tl => ⟨some (.head tl), none, none⟩
    | .listnode t => ⟨none, none, some t⟩
  tlCount _ := 0

/-- The sequences of threads that the lists are. -/
abbrev Seqs := Nat → List ThreadPtr

/-- The element `t` behind the element `onlist`. -/
def insertAfter (onlist t : ThreadPtr) : List ThreadPtr → List ThreadPtr
  | [] => []
  | x :: l => if x = onlist then x :: t :: l else x :: insertAfter onlist t l

/-- The element `t` before the element `onlist`. -/
def insertBefore (t onlist : ThreadPtr) : List ThreadPtr → List ThreadPtr
  | [] => []
  | x :: l => if x = onlist then t :: x :: l else x :: insertBefore t onlist l

/-- What a call means for the sequences. -/
def Seqs.step (q : Seqs) : TlOp → Option ThreadPtr × Seqs
  | .addhead tl t => (none, Function.update q tl (t :: q tl))
  | .addtail tl t => (none, Function.update q tl (q tl ++ [t]))
  | .remhead tl => ((q tl).head?, Function.update q tl (q tl).tail)
  | .remtail tl => ((q tl).getLast?, Function.update q tl (q tl).dropLast)
  | .insertafter tl onlist addee => (none, Function.update q tl (insertAfter onlist addee (q tl)))
  | .insertbefore tl addee onlist => (none, Function.update q tl (insertBefore addee onlist (q tl)))
  | .remove tl t => (none, Function.update q tl ((q tl).erase t))

/-- What calls mean, one after the other. -/
def Seqs.run (q : Seqs) : List TlOp → List (Option ThreadPtr) × Seqs
  | [] => ([], q)
  | op :: ops => ((q.step op).1 :: ((q.step op).2.run ops).1, ((q.step op).2.run ops).2)

/-- The callers see to it that a thread is on one list at most, and name the list that it is on. -/
def TlOp.Permitted (q : Seqs) : TlOp → Prop
  | .addhead _ t | .addtail _ t => ∀ j, t ∉ q j
  | .remhead _ | .remtail _ => True
  | .insertafter tl onlist addee | .insertbefore tl addee onlist => onlist ∈ q tl ∧ ∀ j, addee ∉ q j
  | .remove tl t => t ∈ q tl

/-- All calls of a run are permitted. -/
def AllPermitted (q : Seqs) : List TlOp → Prop
  | [] => True
  | op :: ops => op.Permitted q ∧ AllPermitted (q.step op).2 ops

namespace Threadlists

variable (m : Threadlists) (tln : NodePtr) (p : Option NodePtr) (tl : Nat) (n : UInt32)

/-- `prev` after a write to `prev`. -/
@[simp] lemma prev_setPrev : (m.setPrev tln p).prev = Function.update m.prev tln p :=
  Function.comp_update Threadlistnode.tlnPrev m.nodes tln _

/-- `next` is untouched by a write to `prev`. -/
@[simp] lemma next_setPrev : (m.setPrev tln p).next = m.next :=
  (Function.comp_update Threadlistnode.tlnNext m.nodes tln _).trans (Function.update_eq_self tln m.next)

/-- `self` is untouched by a write to `prev`. -/
@[simp] lemma self_setPrev : (m.setPrev tln p).self = m.self :=
  (Function.comp_update Threadlistnode.tlnSelf m.nodes tln _).trans (Function.update_eq_self tln m.self)

/-- `next` after a write to `next`. -/
@[simp] lemma next_setNext : (m.setNext tln p).next = Function.update m.next tln p :=
  Function.comp_update Threadlistnode.tlnNext m.nodes tln _

/-- `prev` is untouched by a write to `next`. -/
@[simp] lemma prev_setNext : (m.setNext tln p).prev = m.prev :=
  (Function.comp_update Threadlistnode.tlnPrev m.nodes tln _).trans (Function.update_eq_self tln m.prev)

/-- `self` is untouched by a write to `next`. -/
@[simp] lemma self_setNext : (m.setNext tln p).self = m.self :=
  (Function.comp_update Threadlistnode.tlnSelf m.nodes tln _).trans (Function.update_eq_self tln m.self)

/-- `prev` is untouched by a write to the count. -/
@[simp] lemma prev_setCount : (m.setCount tl n).prev = m.prev := rfl

/-- `next` is untouched by a write to the count. -/
@[simp] lemma next_setCount : (m.setCount tl n).next = m.next := rfl

/-- `self` is untouched by a write to the count. -/
@[simp] lemma self_setCount : (m.setCount tl n).self = m.self := rfl

/-- The counts are untouched by a write to `prev`. -/
@[simp] lemma tlCount_setPrev : (m.setPrev tln p).tlCount = m.tlCount := rfl

/-- The counts are untouched by a write to `next`. -/
@[simp] lemma tlCount_setNext : (m.setNext tln p).tlCount = m.tlCount := rfl

/-- The counts after a write to one of them. -/
@[simp] lemma tlCount_setCount : (m.setCount tl n).tlCount = Function.update m.tlCount tl n := rfl

end Threadlists

/-- The node of `t` put between two others. -/
def Threadlists.insert (m : Threadlists) (x : NodePtr) (t : ThreadPtr) (y : NodePtr) : Threadlists :=
  (((m.setPrev (.listnode t) (some x)).setNext (.listnode t) (some y)).setNext x (some (.listnode t))).setPrev y
    (some (.listnode t))

/-- The node `z` taken out between two others. -/
def Threadlists.takeOut (m : Threadlists) (x z y : NodePtr) : Threadlists :=
  (((m.setNext x (some y)).setPrev y (some x)).setPrev z none).setNext z none

section

variable {m : Threadlists} {x y z : NodePtr} {t : ThreadPtr}

/-- `next` after an insertion between two neighbours. -/
lemma next_insert : (m.insert x t y).next =
    Function.update (Function.update m.next (.listnode t) (some y)) x (some (.listnode t)) := by
  simp only [Threadlists.insert, Threadlists.next_setPrev, Threadlists.next_setNext]

/-- `prev` after an insertion between two neighbours. -/
lemma prev_insert : (m.insert x t y).prev =
    Function.update (Function.update m.prev (.listnode t) (some x)) y (some (.listnode t)) := by
  simp only [Threadlists.insert, Threadlists.prev_setPrev, Threadlists.prev_setNext]

/-- An insertion changes no `self`. -/
lemma self_insert : (m.insert x t y).self = m.self := by
  simp only [Threadlists.insert, Threadlists.self_setPrev, Threadlists.self_setNext]

/-- `next` after a node is taken out. -/
lemma next_takeOut : (m.takeOut x z y).next = Function.update (Function.update m.next x (some y)) z none := by
  simp only [Threadlists.takeOut, Threadlists.next_setPrev, Threadlists.next_setNext]

/-- `prev` after a node is taken out. -/
lemma prev_takeOut : (m.takeOut x z y).prev = Function.update (Function.update m.prev y (some x)) z none := by
  simp only [Threadlists.takeOut, Threadlists.prev_setPrev, Threadlists.prev_setNext]

/-- A removal changes no `self`. -/
lemma self_takeOut : (m.takeOut x z y).self = m.self := by
  simp only [Threadlists.takeOut, Threadlists.self_setPrev, Threadlists.self_setNext]

/-- Where the links are right `threadlist_insertafternode` inserts between neighbours. -/
lemma insertafternode_eq (ne : .listnode t ≠ x) (link : m.next x = some y) :
    threadlistInsertafternode m x t = .ok (m.insert x t y) := by
  have prev (v : Option NodePtr) :
      ((m.setPrev (.listnode t) (some x)).setNext (.listnode t) v).prev (.listnode t) = some x := by
    rw [Threadlists.prev_setNext, Threadlists.prev_setPrev, Function.update_self]
  have next : (((m.setPrev (.listnode t) (some x)).setNext (.listnode t) (some y)).setNext x
      (some (.listnode t))).next (.listnode t) = some y := by
    rw [Threadlists.next_setNext, Function.update_of_ne ne, Threadlists.next_setNext, Function.update_self]
  rw [threadlistInsertafternode]
  dsimp only
  rw [prev, deref, ok_bind, Threadlists.next_setPrev, link, next, deref, ok_bind]
  rfl

/-- Likewise `threadlist_insertbeforenode`. -/
lemma insertbeforenode_eq (ne : .listnode t ≠ x) (link : m.prev y = some x) :
    threadlistInsertbeforenode m t y = .ok (m.insert x t y) := by
  have prev : ((m.setPrev (.listnode t) (some x)).setNext (.listnode t) (some y)).prev (.listnode t) = some x := by
    rw [Threadlists.prev_setNext, Threadlists.prev_setPrev, Function.update_self]
  have next : (((m.setPrev (.listnode t) (some x)).setNext (.listnode t) (some y)).setNext x
      (some (.listnode t))).next (.listnode t) = some y := by
    rw [Threadlists.next_setNext, Function.update_of_ne ne, Threadlists.next_setNext, Function.update_self]
  rw [threadlistInsertbeforenode]
  dsimp only
  rw [link, prev, deref, ok_bind, next, deref, ok_bind]
  rfl

/-- Where the links are right `threadlist_removenode` takes the node out. -/
lemma removenode_eq (ne : z ≠ x) (prev : m.prev z = some x) (next : m.next z = some y) :
    threadlistRemovenode m z = .ok (m.takeOut x z y) := by
  have next' : (m.setNext x (some y)).next z = some y := by
    rw [Threadlists.next_setNext, Function.update_of_ne ne, next]
  have prev' : (m.setNext x (some y)).prev z = some x := by
    rw [Threadlists.prev_setNext, prev]
  rw [threadlistRemovenode, prev, deref, ok_bind, next]
  dsimp only
  rw [next', deref, ok_bind, prev']
  rfl

end

end PDS.Kern
