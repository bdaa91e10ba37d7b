import PDS.Lib.Links
import PDS.Lib.Extent

/-!
# Two block lists in one store

The pointer structure of a contiguous allocator: an `Arena` is a store of nodes, each with a link and
a block, and the heads of a free and of a used list. `Arena.Inv` is the representation invariant (two
disjoint chains whose blocks form a separated layout). The allocator's list surgery passes through two
intermediate situations:
* `Arena.Hand`: a node `u` belongs to neither list, its block still counts as free between `p` and `q`;
* `Arena.Placed`: `u` is on the free list between `p` and `q`, but may touch its neighbours.

`detachWhole`/`detachFront` lead from the invariant to `Hand`, `attachUsed` back; `placeFree` leads to
`Placed`, and `joinPrev`, `joinNext` restore separation on one side each.
-/

namespace PDS.Extent
open Links

/-- Nodes with links and blocks, and the heads of two lists of them. -/
structure Arena (ι : Type) where
  free : Option ι
  used : Option ι
  next : ι → Option ι
  blk : ι → Block

namespace Arena

variable {ι : Type} [DecidableEq ι]

/-- `i->next = v`. -/
def setNext (A : Arena ι) (i : ι) (v : Option ι) : Arena ι :=
  { A with next := Function.update A.next i v }

/-- Overwrites the block of a node. -/
def setBlk (A : Arena ι) (i : ι) (b : Block) : Arena ι :=
  { A with blk := Function.update A.blk i b }

/-- `if (prev == NULL) free = v; else prev->next = v;` -/
def setFree (A : Arena ι) (prev v : Option ι) : Arena ι :=
  { A with free := (setLink prev v A.free A.next).1, next := (setLink prev v A.free A.next).2 }

/-- `if (prev == NULL) used = v; else prev->next = v;` -/
def setUsed (A : Arena ι) (prev v : Option ι) : Arena ι :=
  { A with used := (setLink prev v A.used A.next).1, next := (setLink prev v A.used A.next).2 }

/-- The two lists are disjoint chains whose blocks form a layout. -/
structure Linked (A : Arena ι) (lo hi : Nat) (fl ul : List ι) : Prop where
  free : Chain A.next A.free fl
  used : Chain A.next A.used ul
  nodup : (fl ++ ul).Nodup
  layout : Layout lo hi (fl.map A.blk) (ul.map A.blk)

/-- The representation invariant: no two free blocks touch. -/
structure Inv (A : Arena ι) (lo hi : Nat) (fl ul : List ι) : Prop extends Linked A lo hi fl ul where
  separated : Separated (fl.map A.blk)

/-- `u` is on neither list; its block counts as free between `p` and `q`. -/
structure Hand (A : Arena ι) (lo hi : Nat) (p q ul : List ι) (u : ι) : Prop where
  free : Chain A.next A.free (p ++ q)
  used : Chain A.next A.used ul
  nodup : (p ++ u :: q ++ ul).Nodup
  layout : Layout lo hi ((p ++ u :: q).map A.blk) (ul.map A.blk)
  separated : Separated ((p ++ q).map A.blk)

/-- `u` is on the free list between `p` and `q`, and may touch its neighbours. -/
structure Placed (A : Arena ι) (lo hi : Nat) (p q ul : List ι) (u : ι) : Prop
    extends Linked A lo hi (p ++ u :: q) ul where
  separated : Separated ((p ++ q).map A.blk)

/-- The block before `u` does not touch it. -/
def Clear (A : Arena ι) (p : List ι) (u : ι) : Prop :=
  ∀ i, p.getLast? = some i → (A.blk i).stop ≠ (A.blk u).start

/-- Outside the nodes of `l` the two stores hold the same links and blocks. -/
def Agree (A A' : Arena ι) (l : List ι) : Prop :=
  ∀ i, i ∉ l → A'.next i = A.next i ∧ A'.blk i = A.blk i

omit [DecidableEq ι] in
/-- Arenas agree through an intermediate one. -/
lemma Agree.trans {A A' A'' : Arena ι} {l} (ag : Agree A A' l) (ag' : Agree A' A'' l) :
    Agree A A'' l := by
  intro i hi
  obtain ⟨e1, e2⟩ := ag i hi
  obtain ⟨e1', e2'⟩ := ag' i hi
  exact ⟨e1'.trans e1, e2'.trans e2⟩

omit [DecidableEq ι] in
/-- Arenas that agree outside of some nodes agree outside of more. -/
lemma Agree.mono {A A' : Arena ι} {l l'} (ag : Agree A A' l) (sub : l ⊆ l') : Agree A A' l' :=
  fun i hi => ag i (fun h => hi (sub h))

/-- Setting a link changes one node. -/
lemma agree_setNext (A : Arena ι) (i : ι) (v : Option ι) : Agree A (A.setNext i v) [i] := by
  intro j hj
  have ne : j ≠ i := by simpa using hj
  exact ⟨Function.update_of_ne ne _ _, rfl⟩

/-- Setting a block changes one node. -/
lemma agree_setBlk (A : Arena ι) (i : ι) (b : Block) : Agree A (A.setBlk i b) [i] := by
  intro j hj
  have ne : j ≠ i := by simpa using hj
  exact ⟨rfl, Function.update_of_ne ne _ _⟩

/-- Linking the free list anew changes its nodes only. -/
lemma agree_setFree (A : Arena ι) (p : List ι) (v : Option ι) :
    Agree A (A.setFree p.getLast? v) p := by
  intro j hj
  refine ⟨?_, rfl⟩
  cases e : p.getLast? with
  | none => rfl
  | some x =>
    apply Function.update_of_ne
    rintro rfl
    exact hj (List.mem_of_getLast? e)

/-- Linking the used list anew changes its nodes only. -/
lemma agree_setUsed (A : Arena ι) (p : List ι) (v : Option ι) :
    Agree A (A.setUsed p.getLast? v) p := by
  intro j hj
  refine ⟨?_, rfl⟩
  cases e : p.getLast? with
  | none => rfl
  | some x =>
    apply Function.update_of_ne
    rintro rfl
    exact hj (List.mem_of_getLast? e)

/-- The writes that link a node into the used list. -/
lemma agree_attachUsed (A : Arena ι) (u : ι) (a : List ι) (v w : Option ι) :
    Agree A ((A.setNext u v).setUsed a.getLast? w) (u :: a) := by
  have h1 : Agree A (A.setNext u v) (u :: a) := (agree_setNext A u v).mono (by simp)
  have h2 := (agree_setUsed (A.setNext u v) a w).mono (List.subset_cons_self u a)
  exact h1.trans h2

/-- The writes that move a node from the used to the free list. -/
lemma agree_placeFree (A : Arena ι) (u : ι) (a p : List ι) (v w x : Option ι) :
    Agree A (((A.setUsed a.getLast? v).setNext u w).setFree p.getLast? x) (p ++ (a ++ [u])) := by
  have h1 : Agree A (A.setUsed a.getLast? v) (p ++ (a ++ [u])) :=
    (agree_setUsed A a v).mono (by simp)
  have h2 : Agree (A.setUsed a.getLast? v) ((A.setUsed a.getLast? v).setNext u w) (p ++ (a ++ [u])) :=
    (agree_setNext _ u w).mono (by simp)
  have h3 := (agree_setFree ((A.setUsed a.getLast? v).setNext u w) p x).mono
    (List.subset_append_left p (a ++ [u]))
  exact (h1.trans h2).trans h3

omit [DecidableEq ι] in
/-- Blocks of nodes outside the written ones are unchanged. -/
lemma Agree.map_blk {A A' : Arena ι} {l l' : List ι} (ag : Agree A A' l) (dj : ∀ i ∈ l', i ∉ l) :
    l'.map A'.blk = l'.map A.blk :=
  List.map_congr_left (fun i hi => (ag i (dj i hi)).2)

omit [DecidableEq ι] in
/-- Chains outside the written nodes are unchanged. -/
lemma Agree.seg {A A' : Arena ι} {l l' : List ι} {h t} (ag : Agree A A' l) (dj : ∀ i ∈ l', i ∉ l)
    (sg : Seg A.next h l' t) : Seg A'.next h l' t :=
  sg.frame (fun i hi => (ag i (dj i hi)).1)

variable {A A' : Arena ι} {lo hi n : Nat} {fl ul p q a b : List ι} {s u x y : ι}

/-- Unlinking a whole free node. -/
lemma Inv.detachWhole (inv : Inv A lo hi (p ++ s :: q) ul) :
    Hand (A.setFree p.getLast? (A.next s)) lo hi p q ul s := by
  have nd := inv.nodup
  simp only [List.append_assoc, List.cons_append] at nd
  obtain ⟨ndp, nds, djp⟩ := List.nodup_append.1 nd
  obtain ⟨m, sp, e, sq⟩ := seg_append.1 inv.free
  have djq : ∀ i ∈ p, i ∉ q := fun i hi hq => djp i hi i (by simp [hq]) rfl
  have dju : ∀ i ∈ p, i ∉ ul := fun i hi hu => djp i hi i (by simp [hu]) rfl
  refine ⟨?_, ?_, inv.nodup, inv.layout, ?_⟩
  · exact seg_append.2 ⟨_, sp.setLink ndp, sq.setLink_frame djq⟩
  · exact inv.used.setLink_frame dju
  · have sep := inv.separated
    simp only [List.map_append, List.map_cons] at sep ⊢
    exact (separated_middle.1 sep).1

/-- Cutting the first `n` addresses off a free node into a node `u` from outside. -/
lemma Inv.detachFront (inv : Inv A lo hi (p ++ s :: q) ul) (fresh : u ∉ p ++ s :: q ++ ul)
    (h0 : 0 < n) (hn : n < (A.blk s).size)
    (ag : Agree A A' [u]) (free : A'.free = A.free) (used : A'.used = A.used)
    (bu : A'.blk u = ⟨(A.blk s).start, n⟩) :
    Hand (A'.setBlk s ⟨(A.blk s).start + n, (A.blk s).size - n⟩) lo hi p (s :: q) ul u := by
  have nd := inv.nodup
  have ndu : ∀ i ∈ p ++ s :: q ++ ul, i ≠ u := by
    rintro i hi rfl
    exact fresh hi
  have dj : ∀ l' : List ι, (∀ i ∈ l', i ∈ p ++ s :: q ++ ul) → ∀ i ∈ l', i ∉ [u] := by
    intro l' sub i hi
    simpa using ndu i (sub i hi)
  have us : u ≠ s := fun e => ndu s (by simp) e.symm
  simp only [List.append_assoc, List.cons_append] at nd
  obtain ⟨ndp, nds, djp⟩ := List.nodup_append.1 nd
  obtain ⟨ns, ndq⟩ := List.nodup_cons.1 nds
  have spq : s ∉ p := fun h => djp s h s (by simp) rfl
  have e1 : ∀ l' : List ι, s ∉ l' → (∀ i ∈ l', i ∈ p ++ s :: q ++ ul) →
      l'.map (A'.setBlk s ⟨(A.blk s).start + n, (A.blk s).size - n⟩).blk = l'.map A.blk := by
    intro l' hs sub
    rw [(agree_setBlk A' s _).map_blk (by intro i hi; simp; rintro rfl; exact hs hi)]
    exact ag.map_blk (dj l' sub)
  have ep := e1 p spq (fun i hi => by simp [hi])
  have eq := e1 q (fun h => ns (by simp [h])) (fun i hi => by simp [hi])
  have eu := e1 ul (fun h => ns (by simp [h])) (fun i hi => by simp [hi])
  have es : (A'.setBlk s ⟨(A.blk s).start + n, (A.blk s).size - n⟩).blk s
      = ⟨(A.blk s).start + n, (A.blk s).size - n⟩ := Function.update_self _ _ _
  have euu : (A'.setBlk s ⟨(A.blk s).start + n, (A.blk s).size - n⟩).blk u
      = ⟨(A.blk s).start, n⟩ := (Function.update_of_ne us _ _).trans bu
  have ly := inv.layout
  have sep := inv.separated
  simp only [List.map_append, List.map_cons] at ly sep
  refine ⟨?_, ?_, ?_, ?_, ?_⟩
  · show Chain A'.next A'.free (p ++ s :: q)
    rw [free]
    exact ag.seg (dj _ (fun i hi => by simp only [List.mem_append] at hi ⊢; tauto)) inv.free
  · show Chain A'.next A'.used ul
    rw [used]
    exact ag.seg (dj _ (fun i hi => by simp [hi])) inv.used
  · rw [List.append_assoc, List.cons_append, List.nodup_middle]
    refine List.nodup_cons.2 ⟨?_, by simpa using inv.nodup⟩
    simpa using fresh
  · simp only [List.map_append, List.map_cons, ep, eq, eu, es, euu]
    exact ly.split h0 hn
  · simp only [List.map_append, List.map_cons, ep, eq, es]
    exact sep.carve hn.le

/-- A node that is not on the used list is linked into it. -/
lemma attachUsed_used (used : Chain A.next A.used (a ++ b)) (nd : (a ++ b).Nodup) (nu : u ∉ a ++ b) :
    Chain ((A.setNext u b.head?).setUsed a.getLast? (some u)).next
      ((A.setNext u b.head?).setUsed a.getLast? (some u)).used (a ++ u :: b) := by
  obtain ⟨nda, -, dj⟩ := List.nodup_append.1 nd
  have djab : ∀ i ∈ a, i ∉ b := fun i hi hb => dj i hi i hb rfl
  simp only [List.mem_append, not_or] at nu
  obtain ⟨nua, nub⟩ := nu
  obtain ⟨m, sa, sb⟩ := seg_append.1 used
  have eb : m = b.head? := Seg.head_eq sb
  apply seg_append.2
  refine ⟨some u, (sa.update nua).setLink nda, rfl, ?_⟩
  apply Seg.setLink_frame _ djab
  have e : (A.setNext u b.head?).next u = b.head? := Function.update_self _ _ _
  have eu := (agree_setUsed (A.setNext u b.head?) a (some u) u nua).1
  rw [eu, e, ← eb]
  exact sb.update nub

/-- Linking the node in hand into its place on the used list. -/
lemma Hand.attachUsed (hd : Hand A lo hi p q (a ++ b) u)
    (ha : ∀ i ∈ a, (A.blk i).start < (A.blk u).start)
    (hb : ∀ i, b.head? = some i → (A.blk u).start ≤ (A.blk i).start) :
    Inv ((A.setNext u b.head?).setUsed a.getLast? (some u)) lo hi (p ++ q) (a ++ u :: b) := by
  have nd := hd.nodup
  rw [List.append_assoc, List.cons_append, List.nodup_middle] at nd
  obtain ⟨nu, nd⟩ := List.nodup_cons.1 nd
  simp only [List.mem_append, not_or] at nu
  obtain ⟨nup, nuq, nua, nub⟩ := nu
  have nd' := nd
  rw [← List.append_assoc, ← List.append_assoc] at nd'
  obtain ⟨ndpqa, ndb, djb⟩ := List.nodup_append.1 nd'
  obtain ⟨ndpq, nda, dja⟩ := List.nodup_append.1 ndpqa
  have djf : ∀ i ∈ a, i ∉ p ++ q := fun i hi hf => dja i hf i hi rfl
  have ly := hd.layout
  simp only [List.map_append, List.map_cons] at ly
  refine ⟨⟨?_, ?_, ?_, ?_⟩, ?_⟩
  · apply Seg.setLink_frame _ djf
    exact hd.free.update (by simp [nup, nuq])
  · exact attachUsed_used hd.used (List.nodup_append.1 (List.nodup_append.1 nd).2.1).2.1 (by simp [nua, nub])
  · rw [← List.append_assoc, List.nodup_middle]
    refine List.nodup_cons.2 ⟨by simp [nup, nuq, nua, nub], by simpa using nd⟩
  · simp only [List.map_append, List.map_cons]
    exact ly.take (by simpa using ha) (by
      intro x hx
      rw [List.head?_map, Option.map_eq_some_iff] at hx
      obtain ⟨i, hi, rfl⟩ := hx
      exact hb i hi)
  · exact hd.separated

/-- Moving a used node to its place on the free list. -/
lemma Inv.placeFree (inv : Inv A lo hi (p ++ q) (a ++ u :: b))
    (hp : ∀ i ∈ p, (A.blk i).start < (A.blk u).start)
    (hq : ∀ i, q.head? = some i → (A.blk u).start ≤ (A.blk i).start) :
    Placed (((A.setUsed a.getLast? (A.next u)).setNext u q.head?).setFree p.getLast? (some u))
      lo hi p q (a ++ b) u := by
  have nd := inv.nodup
  rw [← List.append_assoc, List.nodup_middle] at nd
  obtain ⟨nu, nd⟩ := List.nodup_cons.1 nd
  simp only [List.mem_append, not_or] at nu
  obtain ⟨⟨⟨nup, nuq⟩, nua⟩, nub⟩ := nu
  obtain ⟨ndpqa, ndb, djb⟩ := List.nodup_append.1 nd
  obtain ⟨ndpq, nda, dja⟩ := List.nodup_append.1 ndpqa
  obtain ⟨ndp, ndq, djpq⟩ := List.nodup_append.1 ndpq
  have djab : ∀ i ∈ a, i ∉ b := fun i hi hb => djb i (by simp [hi]) i hb rfl
  have djf : ∀ i ∈ a, i ∉ p ++ q := fun i hi hf => dja i hf i hi rfl
  have djq : ∀ i ∈ p, i ∉ q := fun i hi hq => djpq i hi i hq rfl
  have djp : ∀ i ∈ p, i ∉ a ++ b := by
    intro i hi hab
    cases List.mem_append.1 hab with
    | inl ha => exact djf i ha (by simp [hi])
    | inr hb => exact djb i (by simp [hi]) i hb rfl
  obtain ⟨m, sa, e, sb⟩ := seg_append.1 inv.used
  obtain ⟨m', sp, sq⟩ := seg_append.1 (inv.free.setLink_frame (h := A.used) (v := A.next u) djf)
  have eq : m' = q.head? := Seg.head_eq sq
  refine ⟨⟨?_, ?_, ?_, ?_⟩, ?_⟩
  · apply seg_append.2
    refine ⟨some u, (sp.update nup).setLink ndp, rfl, ?_⟩
    apply Seg.setLink_frame _ djq
    have eu := (agree_setFree ((A.setUsed a.getLast? (A.next u)).setNext u q.head?) p (some u) u nup).1
    have e1 : ((A.setUsed a.getLast? (A.next u)).setNext u q.head?).next u = q.head? :=
      Function.update_self _ _ _
    rw [eu, e1, ← eq]
    exact sq.update nuq
  · apply Seg.setLink_frame _ djp
    refine Seg.update ?_ (by simp [nua, nub])
    exact seg_append.2 ⟨_, sa.setLink nda, sb.setLink_frame djab⟩
  · rw [List.append_assoc, List.cons_append, List.nodup_middle]
    exact List.nodup_cons.2 ⟨by simp [nup, nuq, nua, nub], by simpa using nd⟩
  · have ly := inv.layout
    simp only [List.map_append, List.map_cons] at ly ⊢
    exact ly.release (by simpa using hp) (by
      intro x hx
      rw [List.head?_map, Option.map_eq_some_iff] at hx
      obtain ⟨i, hi, rfl⟩ := hx
      exact hq i hi)
  · exact inv.separated

/-- Merging a node into the one before it: `x` takes over the block and the link of `y`, and `y` is
given up. -/
lemma Linked.merge (lk : Linked A lo hi (p ++ x :: y :: q) ul)
    (touch : (A.blk x).stop = (A.blk y).start)
    (ag : Agree ((A.setBlk x ⟨(A.blk x).start, (A.blk x).size + (A.blk y).size⟩).setNext x (A.next y))
      A' [y])
    (free : A'.free = A.free) (used : A'.used = A.used) :
    Linked A' lo hi (p ++ x :: q) ul ∧ Agree A A' [x, y] ∧
      A'.blk x = ⟨(A.blk x).start, (A.blk x).size + (A.blk y).size⟩ := by
  have nd := lk.nodup
  simp only [List.append_assoc, List.cons_append] at nd
  obtain ⟨ndp, ndxy, djp⟩ := List.nodup_append.1 nd
  obtain ⟨nx, ndy⟩ := List.nodup_cons.1 ndxy
  obtain ⟨ny, ndq⟩ := List.nodup_cons.1 ndy
  simp only [List.mem_cons, List.mem_append, not_or] at nx ny
  obtain ⟨xy, nxq, nxu⟩ := nx
  obtain ⟨nyq, nyu⟩ := ny
  have nxp : x ∉ p := fun h => djp x h x (by simp) rfl
  have nyp : y ∉ p := fun h => djp y h y (by simp) rfl
  have ag' : Agree A A' [x, y] := by
    refine Agree.trans ?_ (ag.mono (by simp))
    exact Agree.trans ((agree_setBlk _ _ _).mono (by simp)) ((agree_setNext _ _ _).mono (by simp))
  have bx : A'.blk x = ⟨(A.blk x).start, (A.blk x).size + (A.blk y).size⟩ :=
    (ag x (by simpa using xy)).2.trans (Function.update_self _ _ _)
  have lx : A'.next x = A.next y :=
    (ag x (by simpa using xy)).1.trans (Function.update_self _ _ _)
  have dj : ∀ l' : List ι, x ∉ l' → y ∉ l' → ∀ i ∈ l', i ∉ [x, y] := by
    intro l' hx hy i hi
    simp only [List.mem_cons, List.not_mem_nil, or_false, not_or]
    exact ⟨fun e => hx (e ▸ hi), fun e => hy (e ▸ hi)⟩
  obtain ⟨m, sp, e, -, sq⟩ := seg_append.1 lk.free
  refine ⟨⟨?_, ?_, ?_, ?_⟩, ag', bx⟩
  · rw [free]
    apply seg_append.2
    refine ⟨m, ag'.seg (dj p nxp nyp) sp, e, ?_⟩
    rw [lx]
    exact ag'.seg (dj q nxq nyq) sq
  · rw [used]
    exact ag'.seg (dj ul nxu nyu) lk.used
  · have nd' := lk.nodup
    rw [show p ++ x :: y :: q = (p ++ [x]) ++ y :: q by simp, List.append_assoc, List.cons_append,
      List.nodup_middle] at nd'
    simpa using (List.nodup_cons.1 nd').2
  · have ly := lk.layout
    simp only [List.map_append, List.map_cons] at ly
    simp only [List.map_append, List.map_cons, bx, ag'.map_blk (dj p nxp nyp),
      ag'.map_blk (dj q nxq nyq), ag'.map_blk (dj ul nxu nyu)]
    exact ly.join touch

/-- Merging the placed node into the one before it. -/
lemma Placed.joinPrev (pl : Placed A lo hi (p ++ [x]) q ul u)
    (touch : (A.blk x).stop = (A.blk u).start)
    (ag : Agree ((A.setBlk x ⟨(A.blk x).start, (A.blk x).size + (A.blk u).size⟩).setNext x (A.next u))
      A' [u])
    (free : A'.free = A.free) (used : A'.used = A.used) :
    Placed A' lo hi p q ul x ∧ Clear A' p x := by
  have lk := pl.toLinked
  rw [List.append_assoc, List.singleton_append] at lk
  obtain ⟨lk', ag', bx⟩ := lk.merge touch ag free used
  have nd := lk.nodup
  simp only [List.append_assoc, List.cons_append] at nd
  obtain ⟨-, ndx, djp⟩ := List.nodup_append.1 nd
  have out : ∀ i ∈ p ++ q, i ∉ [x, u] := by
    intro i hi
    simp only [List.nodup_cons, List.mem_cons, List.mem_append, not_or] at ndx
    simp only [List.mem_cons, List.not_mem_nil, or_false, not_or]
    cases List.mem_append.1 hi with
    | inl hp => exact ⟨djp i hp x (by simp), djp i hp u (by simp)⟩
    | inr hq =>
      constructor
      · rintro rfl
        exact ndx.1.2.1 hq
      · rintro rfl
        exact ndx.2.1.1 hq
  have sep : Separated (p.map A.blk ++ A.blk x :: q.map A.blk) := by simpa using pl.separated
  obtain ⟨seppq, sepx, -⟩ := separated_middle.1 sep
  refine ⟨⟨lk', ?_⟩, ?_⟩
  · rw [ag'.map_blk out, List.map_append]
    exact seppq
  · intro i hi
    have hip := List.mem_of_getLast? hi
    rw [(ag' i (out i (by simp [hip]))).2, bx]
    exact (sepx (A.blk i) (List.mem_map_of_mem hip)).ne

omit [DecidableEq ι] in
/-- A placed node that touches neither neighbour restores the invariant. -/
lemma Placed.inv (pl : Placed A lo hi p q ul u) (clear : Clear A p u)
    (hq : ∀ i, q.head? = some i → (A.blk u).stop ≠ (A.blk i).start) :
    Inv A lo hi (p ++ u :: q) ul := by
  refine ⟨pl.toLinked, ?_⟩
  have sep := pl.separated
  have ord := pl.layout.free_ordered
  simp only [List.map_append, List.map_cons] at sep ord ⊢
  refine sep.insert ord ?_ ?_
  · intro x hx
    rw [List.getLast?_map, Option.map_eq_some_iff] at hx
    obtain ⟨i, hi, rfl⟩ := hx
    exact clear i hi
  · intro x hx
    rw [List.head?_map, Option.map_eq_some_iff] at hx
    obtain ⟨i, hi, rfl⟩ := hx
    exact hq i hi

/-- Merging the following node into the placed one restores the invariant. -/
lemma Placed.joinNext (pl : Placed A lo hi p (y :: q) ul u) (clear : Clear A p u)
    (touch : (A.blk u).stop = (A.blk y).start)
    (ag : Agree ((A.setBlk u ⟨(A.blk u).start, (A.blk u).size + (A.blk y).size⟩).setNext u (A.next y))
      A' [y])
    (free : A'.free = A.free) (used : A'.used = A.used) :
    Inv A' lo hi (p ++ u :: q) ul := by
  obtain ⟨lk', ag', bu⟩ := pl.toLinked.merge touch ag free used
  have nd := pl.nodup
  simp only [List.append_assoc, List.cons_append] at nd
  obtain ⟨-, ndu, djp⟩ := List.nodup_append.1 nd
  have out : ∀ i ∈ p ++ q, i ∉ [u, y] := by
    intro i hi
    simp only [List.nodup_cons, List.mem_cons, List.mem_append, not_or] at ndu
    simp only [List.mem_cons, List.not_mem_nil, or_false, not_or]
    cases List.mem_append.1 hi with
    | inl hp => exact ⟨djp i hp u (by simp), djp i hp y (by simp)⟩
    | inr hq =>
      constructor
      · rintro rfl
        exact ndu.1.2.1 hq
      · rintro rfl
        exact ndu.2.1.1 hq
  have sep : Separated (p.map A.blk ++ A.blk y :: q.map A.blk) := by simpa using pl.separated
  obtain ⟨seppq, -, sepy⟩ := separated_middle.1 sep
  have pl' : Placed A' lo hi p q ul u := by
    refine ⟨lk', ?_⟩
    rw [ag'.map_blk out, List.map_append]
    exact seppq
  refine pl'.inv ?_ ?_
  · intro i hi
    have hip := List.mem_of_getLast? hi
    rw [(ag' i (out i (by simp [hip]))).2, bu]
    exact clear i hi
  · intro i hi
    have hiq := List.mem_of_head? hi
    rw [(ag' i (out i (by simp [hiq]))).2, bu]
    have := sepy (A.blk i) (List.mem_map_of_mem hiq)
    simp only [Block.stop] at touch this ⊢
    omega

end Arena

end PDS.Extent
