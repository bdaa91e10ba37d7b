import PDS.Kern.Threadlist

/-!
# Thread lists are sequences

`Threadlists.Inv` relates the nodes to the sequences of threads. Every insertion is one between two nodes, and every
removal is one from between two nodes, wherever in a list they are (`Inv.insert`, `Inv.takeOut`).
-/

namespace PDS.Kern
open Doubly

/-- The nodes of a list, with the bookends. -/
def cells (tl : Nat) (l : List ThreadPtr) : List NodePtr := .head tl :: l.map .listnode ++ [.tail tl]

section

variable {tl j : Nat} {l l' : List ThreadPtr} {t : ThreadPtr} {a b : List NodePtr} {x y z : NodePtr}

/-- The inner cells of a list are the nodes of its threads. -/
lemma listnode_mem_cells : .listnode t ∈ cells tl l ↔ t ∈ l := by
  rw [cells, List.mem_append, List.mem_cons, List.mem_singleton, List.mem_map]
  constructor
  · rintro ((no | ⟨u, mem, same⟩) | no)
    · cases no
    · cases same
      exact mem
    · cases no
  · exact fun mem => .inl (.inr ⟨t, mem, rfl⟩)

/-- The nodes of the threads before a place in a list, and after it. -/
lemma cells_append (tl : Nat) (u v : List ThreadPtr) :
    cells tl (u ++ v) =
      (NodePtr.head tl :: u.map NodePtr.listnode) ++ (v.map NodePtr.listnode ++ [NodePtr.tail tl]) := by
  rw [cells, List.map_append, ← List.cons_append, List.append_assoc]

/-- The cells of a list are distinct. -/
lemma nodup_cells (nodup : l.Nodup) : (cells tl l).Nodup := by
  have inj : Function.Injective NodePtr.listnode := fun t u same => NodePtr.listnode.inj same
  refine List.nodup_append.2 ⟨List.nodup_cons.2 ⟨?_, nodup.map inj⟩, List.nodup_singleton _, ?_⟩
  · intro mem
    obtain ⟨u, -, no⟩ := List.mem_map.1 mem
    cases no
  · intro p mem q last
    rw [List.mem_singleton.1 last]
    rintro rfl
    cases mem with
    | tail _ mem =>
      obtain ⟨u, -, no⟩ := List.mem_map.1 mem
      cases no

/-- Nodes of different lists are different. -/
lemma apart_cells (ne : tl ≠ j) (apart : ∀ t ∈ l, t ∉ l') : ∀ p ∈ cells tl l, p ∉ cells j l' := by
  intro p mem mem'
  cases p with
  | listnode t => exact apart t (listnode_mem_cells.1 mem) (listnode_mem_cells.1 mem')
  | head k =>
    have here {k tl : Nat} {l : List ThreadPtr} (mem : .head k ∈ cells tl l) : k = tl := by
      simpa [cells] using mem
    exact ne ((here mem).symm.trans (here mem'))
  | tail k =>
    have here {k tl : Nat} {l : List ThreadPtr} (mem : .tail k ∈ cells tl l) : k = tl := by
      simpa [cells] using mem
    exact ne ((here mem).symm.trans (here mem'))

/-- The bookends are at the ends. -/
lemma bookends (eq : cells tl l = a ++ x :: y :: b) : .head tl ∈ a ++ [x] ∧ .tail tl ∈ y :: b := by
  constructor
  · have first := congrArg List.head? eq
    cases a with
    | nil =>
      cases first
      exact List.mem_cons_self
    | cons p a =>
      cases first
      exact List.mem_cons_self
  · have last := congrArg List.getLast? eq
    rw [cells, List.getLast?_concat, List.getLast?_append_cons, List.getLast?_cons_cons] at last
    exact List.mem_of_getLast? last.symm

/-- There are less than `2 ^ 32` threads. -/
lemma length_lt_of_nodup (nodup : l.Nodup) : l.length < 2 ^ 32 := by
  have inj : Function.Injective fun t : ThreadPtr => t.1.toNat := fun t u same => Subtype.ext (UInt32.toNat_inj.1 same)
  have sub : l.map (fun t => t.1.toNat) ⊆ List.range' 1 (2 ^ 32 - 1) := by
    intro n mem
    obtain ⟨t, -, rfl⟩ := List.mem_map.1 mem
    have pos : t.1.toNat ≠ 0 := fun zero => t.2 (UInt32.toNat_inj.1 zero)
    have lt := t.1.toNat_lt
    rw [List.mem_range'_1]
    omega
  have le := ((nodup.map inj).subperm sub).length_le
  rw [List.length_map, List.length_range'] at le
  omega

end

/-- The nodes hold the sequences. -/
structure Threadlists.Inv (m : Threadlists) (q : Seqs) : Prop where
  linked : ∀ tl, Linked m.next m.prev (cells tl (q tl))
  headPrev : ∀ tl, m.prev (.head tl) = none
  tailNext : ∀ tl, m.next (.tail tl) = none
  self : ∀ t, m.self (.listnode t) = some t
  count : ∀ tl, (m.tlCount tl).toNat = (q tl).length
  nodup : ∀ tl, (q tl).Nodup
  apart : ∀ j k, j ≠ k → ∀ t ∈ q j, t ∉ q k
  -- a thread that is on no list
  off : ∀ t, (∀ tl, t ∉ q tl) → m.next (.listnode t) = none ∧ m.prev (.listnode t) = none

namespace Threadlists.Inv

variable {m m' : Threadlists} {q : Seqs} {tl : Nat} {l : List ThreadPtr} {t : ThreadPtr} {a b : List NodePtr}
  {x y : NodePtr} {n : UInt32}

/-- That is what the functions for initialization do. -/
lemma init_start (tl : Nat) : threadlistInit .start tl = .start := by
  have head := Function.update_eq_self (.head tl) Threadlists.start.nodes
  have tail := Function.update_eq_self (.tail tl) Threadlists.start.nodes
  have count := Function.update_eq_self tl Threadlists.start.tlCount
  exact congrArg₂ Threadlists.mk ((congrArg (Function.update · _ _) head).trans tail) count

/-- A fresh node has no links to clear. -/
lemma nodeInit_start (t : ThreadPtr) : threadlistnodeInit .start t = .start :=
  congrArg (Threadlists.mk · _) (Function.update_eq_self (.listnode t) Threadlists.start.nodes)

/-- All lists are empty at the start. -/
lemma start : Threadlists.start.Inv fun _ => [] := by
  refine ⟨fun tl => ?_, fun _ => rfl, fun _ => rfl, fun _ => rfl, fun _ => rfl, fun _ => List.nodup_nil, ?_, ?_⟩
  · exact (Linked.append_iff (a := []) (b := [])).2 ⟨.singleton _, ⟨rfl, rfl⟩, .singleton _⟩
  · exact fun _ _ _ _ mem => absurd mem List.not_mem_nil
  · exact fun _ _ => ⟨rfl, rfl⟩

/-- An empty list can be cleaned up. -/
lemma cleanup (inv : m.Inv q) (empty : q tl = []) : threadlistCleanup m tl = .ok () := by
  have zero : m.tlCount tl = 0 := by
    refine UInt32.toNat_inj.1 ?_
    rw [inv.count, empty]
    rfl
  rw [threadlistCleanup, threadlistIsempty, zero, kassert_pos (by decide), ok_bind, kassert_pos rfl]

/-- The node of a thread that is on no list can be cleaned up. -/
lemma nodeCleanup (inv : m.Inv q) (none : ∀ tl, t ∉ q tl) : threadlistnodeCleanup m t = .ok () := by
  obtain ⟨next, prev⟩ := inv.off t none
  have self : m.self (.listnode t) ≠ .none := by
    rw [inv.self]
    exact Option.some_ne_none t
  rw [threadlistnodeCleanup, kassert_pos next, ok_bind, kassert_pos prev, ok_bind, kassert_pos self]

/-- One list changes by one thread, and nothing else does. -/
lemma change (inv : m.Inv q) (linked : Linked m'.next m'.prev (cells tl l))
    (frame : ∀ p ∉ cells tl (q tl), p ≠ .listnode t → m'.next p = m.next p ∧ m'.prev p = m.prev p)
    (head : m'.prev (.head tl) = none) (tail : m'.next (.tail tl) = none) (self : m'.self = m.self)
    (count : m'.tlCount = Function.update m.tlCount tl n) (length : n.toNat = l.length) (nodup : l.Nodup)
    (sub : ∀ u, u ≠ t → (u ∈ l ↔ u ∈ q tl)) (own : ∀ j, j ≠ tl → t ∉ q j)
    (cleared : t ∉ l → m'.next (.listnode t) = none ∧ m'.prev (.listnode t) = none) :
    m'.Inv (Function.update q tl l) := by
  have other {j : Nat} (ne : j ≠ tl) : ∀ p ∈ cells j (q j), m'.next p = m.next p ∧ m'.prev p = m.prev p := by
    intro p mem
    refine frame p (apart_cells ne (inv.apart j tl ne) p mem) ?_
    rintro rfl
    exact own j ne (listnode_mem_cells.1 mem)
  have outside {u : ThreadPtr} (mem : u ∈ l) {j : Nat} (ne : j ≠ tl) : u ∉ q j := by
    by_cases same : u = t
    · exact same ▸ own j ne
    · exact inv.apart tl j ne.symm u ((sub u same).1 mem)
  refine ⟨?_, ?_, ?_, ?_, ?_, ?_, ?_, ?_⟩
  · intro j
    by_cases same : j = tl
    · subst same
      rwa [Function.update_self]
    · rw [Function.update_of_ne same]
      exact (inv.linked j).frame (fun p mem => (other same p mem).1) fun p mem => (other same p mem).2
  · intro j
    by_cases same : j = tl
    · exact same ▸ head
    · exact ((other same (.head j) List.mem_cons_self).2).trans (inv.headPrev j)
  · intro j
    by_cases same : j = tl
    · exact same ▸ tail
    · exact ((other same (.tail j) (List.mem_append_right _ List.mem_cons_self)).1).trans (inv.tailNext j)
  · intro u
    rw [self, inv.self]
  · intro j
    rw [count]
    by_cases same : j = tl
    · rw [same, Function.update_self, Function.update_self, length]
    · rw [Function.update_of_ne same, Function.update_of_ne same, inv.count]
  · intro j
    by_cases same : j = tl
    · rwa [same, Function.update_self]
    · rw [Function.update_of_ne same]
      exact inv.nodup j
  · intro j k ne u mem
    by_cases same : j = tl
    · subst same
      rw [Function.update_self] at mem
      rw [Function.update_of_ne ne.symm]
      exact outside mem ne.symm
    · rw [Function.update_of_ne same] at mem
      by_cases same' : k = tl
      · subst same'
        rw [Function.update_self]
        exact fun mem' => outside mem' same mem
      · rw [Function.update_of_ne same']
        exact inv.apart j k ne u mem
  · intro u none
    have here : u ∉ l := by
      have out := none tl
      rwa [Function.update_self] at out
    by_cases same : u = t
    · subst same
      exact cleared here
    · have before : ∀ j, u ∉ q j := by
        intro j mem
        by_cases same' : j = tl
        · subst same'
          exact here ((sub u same).2 mem)
        · have out := none j
          rw [Function.update_of_ne same'] at out
          exact out mem
      obtain ⟨next, prev⟩ := frame (.listnode u) (fun mem => before tl (listnode_mem_cells.1 mem))
        fun eq => same (NodePtr.listnode.inj eq)
      rw [next, prev]
      exact inv.off u before

/-- A thread that is on no list is inserted between two nodes. -/
lemma insert (inv : m.Inv q) (free : ∀ j, t ∉ q j) (eq : cells tl (q tl) = a ++ x :: y :: b)
    (eq' : cells tl l = a ++ x :: .listnode t :: y :: b) (perm : l.Perm (t :: q tl)) :
    ((m.insert x t y).setCount tl (m.tlCount tl + 1)).Inv (Function.update q tl l) := by
  have nodup : (cells tl (q tl)).Nodup := nodup_cells (inv.nodup tl)
  have new : .listnode t ∉ cells tl (q tl) := fun mem => free tl (listnode_mem_cells.1 mem)
  have linked := inv.linked tl
  obtain ⟨first, last⟩ := bookends eq
  rw [eq] at nodup new linked
  obtain ⟨outx, outy, outx', outy'⟩ := Linked.apart nodup
  have nodup' : l.Nodup := perm.nodup_iff.2 (List.nodup_cons.2 ⟨free tl, inv.nodup tl⟩)
  have length := perm.length_eq
  rw [List.length_cons] at length
  have headNe : NodePtr.head tl ≠ .listnode t := fun no => by cases no
  have tailNe : NodePtr.tail tl ≠ .listnode t := fun no => by cases no
  refine inv.change (t := t) (n := m.tlCount tl + 1) ?_ ?_ ?_ ?_ ?_ rfl ?_ nodup' ?_ (fun j _ => free j) ?_
  · rw [eq', next_setCount, prev_setCount, next_insert, prev_insert]
    exact linked.insert nodup new
  · intro p out ne
    rw [eq] at out
    have nex : p ≠ x := fun same => out (same ▸ List.mem_append_right _ List.mem_cons_self)
    have ney : p ≠ y := fun same => out (same ▸ List.mem_append_right _ (List.mem_cons_of_mem _ List.mem_cons_self))
    rw [next_setCount, prev_setCount, next_insert, prev_insert]
    exact ⟨Linked.update_of_not ne nex, Linked.update_of_not ne ney⟩
  · rw [prev_setCount, prev_insert, Linked.update_of_not headNe (ne_of_mem_of_not_mem first outy)]
    exact inv.headPrev tl
  · rw [next_setCount, next_insert, Linked.update_of_not tailNe (ne_of_mem_of_not_mem last outx')]
    exact inv.tailNext tl
  · rw [self_setCount, self_insert]
  · have small := length_lt_of_nodup nodup'
    rw [UInt32.toNat_add, inv.count, length]
    exact Nat.mod_eq_of_lt (length ▸ small)
  · intro u ne
    rw [perm.mem_iff, List.mem_cons, or_iff_right ne]
  · exact fun out => absurd (perm.mem_iff.2 List.mem_cons_self) out

/-- A thread is removed from between two nodes. -/
lemma takeOut (inv : m.Inv q) (eq : cells tl (q tl) = a ++ x :: .listnode t :: y :: b)
    (eq' : cells tl l = a ++ x :: y :: b) (perm : (q tl).Perm (t :: l)) :
    ((m.takeOut x (.listnode t) y).setCount tl (m.tlCount tl - 1)).Inv (Function.update q tl l) := by
  have nodup : (cells tl (q tl)).Nodup := nodup_cells (inv.nodup tl)
  have linked := inv.linked tl
  obtain ⟨first, last⟩ := bookends eq'
  rw [eq] at nodup linked
  obtain ⟨out, nodup'⟩ := List.nodup_cons.1 (perm.nodup_iff.1 (inv.nodup tl))
  have rest : (cells tl l).Nodup := nodup_cells nodup'
  rw [eq'] at rest
  obtain ⟨outx, outy, outx', outy'⟩ := Linked.apart rest
  have length := perm.length_eq
  rw [List.length_cons] at length
  have headNe : NodePtr.head tl ≠ .listnode t := fun no => by cases no
  have tailNe : NodePtr.tail tl ≠ .listnode t := fun no => by cases no
  refine inv.change (t := t) (n := m.tlCount tl - 1) ?_ ?_ ?_ ?_ ?_ rfl ?_ nodup' ?_ ?_ ?_
  · rw [eq', next_setCount, prev_setCount, next_takeOut, prev_takeOut]
    exact linked.remove nodup
  · intro p out ne
    rw [eq] at out
    have nex : p ≠ x := fun same => out (same ▸ List.mem_append_right _ List.mem_cons_self)
    have ney : p ≠ y := by
      rintro rfl
      exact out (List.mem_append_right _ (List.mem_cons_of_mem _ (List.mem_cons_of_mem _ List.mem_cons_self)))
    rw [next_setCount, prev_setCount, next_takeOut, prev_takeOut]
    exact ⟨Linked.update_of_not nex ne, Linked.update_of_not ney ne⟩
  · rw [prev_setCount, prev_takeOut, Linked.update_of_not (ne_of_mem_of_not_mem first outy) headNe]
    exact inv.headPrev tl
  · rw [next_setCount, next_takeOut, Linked.update_of_not (ne_of_mem_of_not_mem last outx') tailNe]
    exact inv.tailNext tl
  · rw [self_setCount, self_takeOut]
  · have one : (1 : UInt32) ≤ m.tlCount tl := by
      rw [UInt32.le_iff_toNat_le, inv.count, length]
      exact Nat.succ_le_succ (Nat.zero_le _)
    rw [UInt32.toNat_sub_of_le _ _ one, inv.count, length]
    rfl
  · intro u ne
    rw [perm.mem_iff, List.mem_cons, or_iff_right ne]
  · exact fun j ne => inv.apart tl j ne.symm t (perm.mem_iff.2 List.mem_cons_self)
  · intro _
    rw [next_setCount, prev_setCount, next_takeOut, prev_takeOut, Function.update_self, Function.update_self]
    exact ⟨rfl, rfl⟩

/-- A node is inserted behind another one, which is not the last bookend. -/
lemma insertafternode (inv : m.Inv q) (free : ∀ j, t ∉ q j) {rest : List NodePtr} (more : rest ≠ [])
    (eq : cells tl (q tl) = a ++ x :: rest) (eq' : cells tl l = a ++ x :: .listnode t :: rest)
    (perm : l.Perm (t :: q tl)) :
    ∃ m', threadlistInsertafternode m x t = .ok m' ∧
      (m'.setCount tl (m'.tlCount tl + 1)).Inv (Function.update q tl l) := by
  obtain ⟨y, b, rfl⟩ := List.exists_cons_of_ne_nil more
  have ne : .listnode t ≠ x := by
    rintro rfl
    exact free tl (listnode_mem_cells.1 (eq ▸ List.mem_append_right _ List.mem_cons_self))
  have linked := inv.linked tl
  rw [eq] at linked
  exact ⟨_, insertafternode_eq ne (Linked.append_iff.1 linked).2.1.1, inv.insert free eq eq' perm⟩

/-- A node is inserted before another one, which is not the first bookend. -/
lemma insertbeforenode (inv : m.Inv q) (free : ∀ j, t ∉ q j) (more : a ≠ []) (eq : cells tl (q tl) = a ++ y :: b)
    (eq' : cells tl l = a ++ .listnode t :: y :: b) (perm : l.Perm (t :: q tl)) :
    ∃ m', threadlistInsertbeforenode m t y = .ok m' ∧
      (m'.setCount tl (m'.tlCount tl + 1)).Inv (Function.update q tl l) := by
  obtain ⟨a, x, rfl⟩ := (List.eq_nil_or_concat' a).resolve_left more
  rw [List.append_assoc, List.singleton_append] at eq eq'
  have ne : .listnode t ≠ x := by
    rintro rfl
    exact free tl (listnode_mem_cells.1 (eq ▸ List.mem_append_right _ List.mem_cons_self))
  have linked := inv.linked tl
  rw [eq] at linked
  exact ⟨_, insertbeforenode_eq ne (Linked.append_iff.1 linked).2.1.2, inv.insert free eq eq' perm⟩

/-- What comes before a thread on its list, and after it. -/
lemma neighbours {u v : List ThreadPtr} (inv : m.Inv q) (eq : q tl = u ++ t :: v) :
    ∃ x y, m.prev (.listnode t) = some x ∧ m.next (.listnode t) = some y ∧
      threadlistRemovenode m (.listnode t) = .ok (m.takeOut x (.listnode t) y) ∧
      ((m.takeOut x (.listnode t) y).setCount tl (m.tlCount tl - 1)).Inv (Function.update q tl (u ++ v)) := by
  obtain ⟨a, x, left⟩ :=
    (List.eq_nil_or_concat' (NodePtr.head tl :: u.map .listnode)).resolve_left (List.cons_ne_nil _ _)
  obtain ⟨y, b, right⟩ := List.exists_cons_of_ne_nil
    (List.append_ne_nil_of_right_ne_nil (v.map .listnode) (List.cons_ne_nil (NodePtr.tail tl) []))
  have all : cells tl (q tl) = a ++ x :: .listnode t :: y :: b := by
    rw [List.append_cons, ← left, ← right, eq]
    exact cells_append tl u (t :: v)
  have rest : cells tl (u ++ v) = a ++ x :: y :: b := by
    rw [List.append_cons, ← left, ← right]
    exact cells_append tl u v
  have linked := inv.linked tl
  have nodup : (cells tl (q tl)).Nodup := nodup_cells (inv.nodup tl)
  rw [all] at linked nodup
  obtain ⟨-, ⟨-, prev⟩, after⟩ := Linked.append_iff.1 linked
  obtain ⟨-, ⟨next, -⟩, -⟩ := (Linked.append_iff (a := [])).1 after
  have ne : .listnode t ≠ x := fun same => (Linked.apart nodup).2.1 (same ▸ List.mem_append_right _ List.mem_cons_self)
  exact ⟨x, y, prev, next, removenode_eq ne prev next, inv.takeOut all rest (eq ▸ List.perm_middle)⟩

end Threadlists.Inv

/-- Insertion after an element splits the list there. -/
lemma insertAfter_split {onlist t : ThreadPtr} {l : List ThreadPtr} (mem : onlist ∈ l) :
    ∃ u v, l = u ++ onlist :: v ∧ insertAfter onlist t l = u ++ onlist :: t :: v := by
  induction l with
  | nil => exact absurd mem List.not_mem_nil
  | cons x l ih =>
    rw [insertAfter]
    split_ifs with same
    · exact ⟨[], l, congrArg (· :: l) same, congrArg (· :: t :: l) same⟩
    · obtain ⟨u, v, rfl, eq⟩ := ih (List.mem_of_ne_of_mem (Ne.symm same) mem)
      exact ⟨x :: u, v, rfl, congrArg (x :: ·) eq⟩

/-- Insertion before an element splits the list there. -/
lemma insertBefore_split {onlist t : ThreadPtr} {l : List ThreadPtr} (mem : onlist ∈ l) :
    ∃ u v, l = u ++ onlist :: v ∧ insertBefore t onlist l = u ++ t :: onlist :: v := by
  induction l with
  | nil => exact absurd mem List.not_mem_nil
  | cons x l ih =>
    rw [insertBefore]
    split_ifs with same
    · exact ⟨[], l, congrArg (· :: l) same, congrArg (t :: · :: l) same⟩
    · obtain ⟨u, v, rfl, eq⟩ := ih (List.mem_of_ne_of_mem (Ne.symm same) mem)
      exact ⟨x :: u, v, rfl, congrArg (x :: ·) eq⟩

namespace Threadlists.Inv

variable {m m' : Threadlists} {q : Seqs} {op : TlOp} {ops : List TlOp}

/-- The list is empty: the bookends point to each other. -/
lemma of_nil (inv : m.Inv q) {tl : Nat} (eq : q tl = []) :
    m.next (.head tl) = some (.tail tl) ∧ m.prev (.tail tl) = some (.head tl) := by
  have linked := inv.linked tl
  rw [eq] at linked
  exact ((Linked.append_iff (a := []) (b := [])).1 linked).2.1

/-- The head points to the first thread. -/
lemma next_head (inv : m.Inv q) {tl : Nat} {t : ThreadPtr} {v : List ThreadPtr} (eq : q tl = t :: v) :
    m.next (.head tl) = some (.listnode t) := by
  have linked := inv.linked tl
  rw [eq] at linked
  exact ((Linked.append_iff (a := [])).1 linked).2.1.1

/-- The tail points back to the last thread. -/
lemma prev_tail (inv : m.Inv q) {tl : Nat} {t : ThreadPtr} {u : List ThreadPtr} (eq : q tl = u ++ [t]) :
    m.prev (.tail tl) = some (.listnode t) := by
  have linked := inv.linked tl
  have end_ : cells tl (q tl) =
      (NodePtr.head tl :: u.map NodePtr.listnode) ++ NodePtr.listnode t :: [NodePtr.tail tl] :=
    eq ▸ cells_append tl u [t]
  rw [end_] at linked
  exact (Linked.append_iff.1 linked).2.1.2

/-- A call does to the lists what it means for the sequences. -/
lemma step (inv : m.Inv q) (permitted : op.Permitted q) :
    ∃ m', m.step op = .ok ((q.step op).1, m') ∧ m'.Inv (q.step op).2 := by
  cases op with
  | addhead tl t =>
    obtain ⟨m', run, inv'⟩ := inv.insertafternode permitted
      (List.append_ne_nil_of_right_ne_nil ((q tl).map .listnode) (List.cons_ne_nil (NodePtr.tail tl) [])) (a := []) rfl
      (l := t :: q tl) rfl (.refl _)
    refine ⟨_, ?_, inv'⟩
    rw [Threadlists.step, threadlistAddhead, run]
    rfl
  | addtail tl t =>
    obtain ⟨m', run, inv'⟩ := inv.insertbeforenode permitted (List.cons_ne_nil (NodePtr.head tl) ((q tl).map .listnode))
      rfl (cells_append tl (q tl) [t]) List.perm_append_comm
    refine ⟨_, ?_, inv'⟩
    rw [Threadlists.step, threadlistAddtail, run]
    rfl
  | remhead tl =>
    rw [Threadlists.step, threadlistRemhead, Seqs.step]
    cases eq : q tl with
    | nil =>
      refine ⟨m, ?_, ?_⟩
      · rw [(inv.of_nil eq).1, deref, ok_bind, if_pos (inv.tailNext tl)]
        rfl
      · rw [List.tail_nil, ← eq, Function.update_eq_self]
        exact inv
    | cons t v =>
      obtain ⟨x, y, -, more, run, inv'⟩ := inv.neighbours (u := []) eq
      refine ⟨_, ?_, inv'⟩
      rw [inv.next_head eq, deref, ok_bind, more, if_neg (Option.some_ne_none y), run, ok_bind, self_takeOut, inv.self]
      rfl
  | remtail tl =>
    rw [Threadlists.step, threadlistRemtail, Seqs.step]
    obtain eq | ⟨u, t, eq⟩ := List.eq_nil_or_concat' (q tl)
    · refine ⟨m, ?_, ?_⟩
      · rw [(inv.of_nil eq).2, deref, ok_bind, if_pos (inv.headPrev tl), eq]
        rfl
      · rw [eq, List.dropLast_nil, ← eq, Function.update_eq_self]
        exact inv
    · obtain ⟨x, y, more, -, run, inv'⟩ := inv.neighbours (v := []) eq
      rw [List.append_nil] at inv'
      rw [inv.prev_tail eq, deref, ok_bind, more, if_neg (Option.some_ne_none x), run, ok_bind, self_takeOut, inv.self,
        eq, List.getLast?_concat, List.dropLast_concat]
      exact ⟨_, rfl, inv'⟩
  | insertafter tl onlist addee =>
    obtain ⟨mem, free⟩ := permitted
    obtain ⟨u, v, eq, eq'⟩ := insertAfter_split (t := addee) mem
    have before := cells_append tl u (onlist :: v)
    have after := cells_append tl u (onlist :: addee :: v)
    rw [← eq] at before
    rw [← eq'] at after
    have perm : (insertAfter onlist addee (q tl)).Perm (addee :: q tl) := by
      rw [eq', eq, List.append_cons u onlist (addee :: v), List.append_cons u onlist v]
      exact List.perm_middle
    obtain ⟨m', run, inv'⟩ := inv.insertafternode free
      (List.append_ne_nil_of_right_ne_nil (v.map .listnode) (List.cons_ne_nil (NodePtr.tail tl) [])) before after perm
    refine ⟨_, ?_, inv'⟩
    rw [Threadlists.step, threadlistInsertafter, run]
    rfl
  | insertbefore tl addee onlist =>
    obtain ⟨mem, free⟩ := permitted
    obtain ⟨u, v, eq, eq'⟩ := insertBefore_split (t := addee) mem
    have before := cells_append tl u (onlist :: v)
    have after := cells_append tl u (addee :: onlist :: v)
    rw [← eq] at before
    rw [← eq'] at after
    have perm : (insertBefore addee onlist (q tl)).Perm (addee :: q tl) := by
      rw [eq', eq]
      exact List.perm_middle
    obtain ⟨m', run, inv'⟩ := inv.insertbeforenode free (List.cons_ne_nil _ _) before after perm
    refine ⟨_, ?_, inv'⟩
    rw [Threadlists.step, threadlistInsertbefore, run]
    rfl
  | remove tl t =>
    obtain ⟨u, v, eq⟩ := List.append_of_mem permitted
    obtain ⟨x, y, -, -, run, inv'⟩ := inv.neighbours eq
    have out : t ∉ u := by
      have nodup := inv.nodup tl
      rw [eq, List.nodup_middle, List.nodup_cons, List.mem_append, not_or] at nodup
      exact nodup.1.1
    have erased : (q tl).erase t = u ++ v := by
      rw [eq, List.erase_append_right _ out, List.erase_cons_head]
    rw [Threadlists.step, threadlistRemove, run, Seqs.step, erased]
    exact ⟨_, rfl, inv'⟩

/-- Calls do to the lists, one after the other, what they mean for the sequences. -/
lemma run (inv : m.Inv q) (permitted : AllPermitted q ops) :
    ∃ m', m.run ops = .ok ((q.run ops).1, m') ∧ m'.Inv (q.run ops).2 := by
  induction ops generalizing m q with
  | nil => exact ⟨m, rfl, inv⟩
  | cons op ops ih =>
    obtain ⟨m₁, one, inv₁⟩ := inv.step permitted.1
    obtain ⟨m₂, rest, inv₂⟩ := ih inv₁ permitted.2
    refine ⟨m₂, ?_, inv₂⟩
    rw [Threadlists.run, one, ok_bind]
    dsimp only
    rw [rest, ok_bind]
    rfl

end Threadlists.Inv

section

variable {m : Threadlists} {q : Seqs} {link : NodePtr → Option NodePtr} {l : List ThreadPtr} {end_ : NodePtr}
  {fuel : Nat}

/-- The iteration gives the threads between the bookends. -/
lemma readList_spec {itervar : Option NodePtr} (self : ∀ t, m.self (.listnode t) = some t)
    (seg : Links.Seg link itervar (l.map .listnode) (some end_)) (stop : link end_ = none) (enough : l.length < fuel) :
    readList m link fuel itervar = .ok (l.map some) := by
  induction l generalizing itervar fuel with
  | nil =>
    cases fuel with
    | zero => exact absurd enough (Nat.not_lt_zero _)
    | succ fuel =>
      have here : itervar = some end_ := seg
      rw [readList, here, deref, ok_bind, if_pos stop]
      rfl
  | cons t l ih =>
    cases fuel with
    | zero => exact absurd enough (Nat.not_lt_zero _)
    | succ fuel =>
      obtain ⟨rfl, seg⟩ := seg
      have more : link (.listnode t) ≠ none := by
        intro none
        rw [none] at seg
        cases l with
        | nil => cases seg
        | cons u l => cases seg.1
      rw [readList, deref, ok_bind, if_neg more, ih seg (Nat.lt_of_succ_lt_succ enough), ok_bind, self]
      rfl

/-- Following `next` reads the list off. -/
lemma Threadlists.Inv.readForwards (inv : m.Inv q) {tl : Nat} (enough : (q tl).length < fuel) :
    readForwards m fuel tl = .ok ((q tl).map some) :=
  readList_spec inv.self (inv.linked tl).seg (inv.tailNext tl) enough

/-- Following `prev` reads the list off backwards. -/
lemma Threadlists.Inv.readBackwards (inv : m.Inv q) {tl : Nat} (enough : (q tl).length < fuel) :
    readBackwards m fuel tl = .ok ((q tl).reverse.map some) := by
  have linked := (inv.linked tl).reverse
  have eq : (cells tl (q tl)).reverse =
      NodePtr.tail tl :: (q tl).reverse.map NodePtr.listnode ++ [NodePtr.head tl] := by
    rw [cells, List.map_reverse, List.reverse_append, List.reverse_singleton, List.reverse_cons]
    rfl
  rw [eq] at linked
  exact readList_spec inv.self linked.seg (inv.headPrev tl) (by rwa [List.length_reverse])

end

/-- Thread lists are sequences of threads. After any calls, of which each returns what it means for the sequences, the
list gives its sequence forwards and its reverse backwards, the count is the length, and the links of a thread that is on
no list are cleared. -/
theorem threadlists_refine {ops : List TlOp} (permitted : AllPermitted (fun _ => []) ops) :
    ∃ m q rets, Threadlists.start.run ops = .ok (rets, m) ∧ Seqs.run (fun _ => []) ops = (rets, q) ∧
      (∀ tl fuel, (q tl).length < fuel → readForwards m fuel tl = .ok ((q tl).map some) ∧
        readBackwards m fuel tl = .ok ((q tl).reverse.map some)) ∧
      (∀ tl, (m.tlCount tl).toNat = (q tl).length) ∧
      ∀ t, (∀ tl, t ∉ q tl) → m.next (.listnode t) = none ∧ m.prev (.listnode t) = none := by
  obtain ⟨m, run, inv⟩ := Threadlists.Inv.start.run permitted
  refine ⟨m, _, _, run, rfl, fun tl fuel enough => ?_, inv.count, inv.off⟩
  exact ⟨inv.readForwards enough, inv.readBackwards enough⟩

/-- The thread that has been put before another one is the first to be removed. -/
theorem threadlists_refine_two : ∃ m,
    Threadlists.start.run [.addtail 0 ⟨1, by decide⟩, .insertbefore 0 ⟨2, by decide⟩ ⟨1, by decide⟩, .remhead 0] =
      .ok ([none, none, some ⟨2, by decide⟩], m) ∧
    readForwards m 2 0 = .ok [some ⟨1, by decide⟩] ∧ m.next (.listnode ⟨2, by decide⟩) = none := by
  have permitted : AllPermitted (fun _ => [])
      [.addtail 0 ⟨1, by decide⟩, .insertbefore 0 ⟨2, by decide⟩ ⟨1, by decide⟩, .remhead 0] := by
    refine ⟨fun _ => List.not_mem_nil, ⟨List.mem_cons_self, fun j => ?_⟩, trivial, trivial⟩
    by_cases zero : j = 0
    · subst zero
      decide
    · simp [Seqs.step, Function.update_of_ne zero]
  obtain ⟨m, q, rets, run, spec, read, -, off⟩ := threadlists_refine permitted
  cases spec
  refine ⟨m, run, (read 0 2 (by decide)).1, (off _ fun j => ?_).1⟩
  by_cases zero : j = 0
  · subst zero
    decide
  · simp [Seqs.run, Seqs.step, Function.update_of_ne zero]

end PDS.Kern
