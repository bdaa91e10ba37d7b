import PDS.Lab1.Heap
import PDS.Lib.Arena

/-!
# The heap invariant

`Heap.Inv h fl ul dl` is the representation invariant of the lab 1 heap: the nodes of `fl`, `ul` and
`dl` are the free, the used and the defragmentation list, the first two form an `Arena.Inv` over the
arena, and `freeSize` is the total of the free blocks. `Inv.alloc` and `Inv.free` show that `heapAlloc`
and `heapFree` return (their loops end within their fuel) and re-establish the invariant; both say in
addition what moved. The defragmentation is in `HeapDefrag.lean`.
-/

namespace PDS.Lab1
open Word Links Extent

namespace Heap

/-- The free and the used list of a heap. -/
def arena (h : Heap) : Arena Nat where
  free := h.freeBlks
  used := h.usedBlks
  next := h.next
  blk := h.blk

/-- The free list of the arena. -/
@[simp] lemma arena_free (h : Heap) : h.arena.free = h.freeBlks := rfl

/-- The used list of the arena. -/
@[simp] lemma arena_used (h : Heap) : h.arena.used = h.usedBlks := rfl

/-- The links of the arena. -/
@[simp] lemma arena_next (h : Heap) : h.arena.next = h.next := rfl

/-- The blocks of the arena. -/
@[simp] lemma arena_blk (h : Heap) : h.arena.blk = h.blk := rfl

/-- The representation invariant. -/
structure Inv (h : Heap) (fl ul dl : List Nat) : Prop where
  arena : h.arena.Inv h.start (h.start + h.size) fl ul
  dfrg : Chain h.next h.dfrgBlks dl
  dfrg_nodup : dl.Nodup
  dfrg_disj : ∀ i ∈ dl, i ∉ fl ++ ul
  bound : ∀ i ∈ fl ++ ul ++ dl, i < h.brk
  freeSize : h.freeSize = total (fl.map h.blk)
  start_pos : 0 < h.start
  room : h.start + h.size < 2 ^ 64

/-- Setting a link sets it. -/
@[simp] lemma next_setNext (h : Heap) (i : Nat) (v : Option Nat) :
    (h.setNext i v).next = Function.update h.next i v :=
  Function.comp_update Node.next h.nodes i _

/-- Setting a link leaves the blocks alone. -/
@[simp] lemma blk_setNext (h : Heap) (i : Nat) (v : Option Nat) : (h.setNext i v).blk = h.blk :=
  (Function.comp_update (fun n : Node => Block.mk n.start n.size) h.nodes i _).trans (Function.update_eq_self i h.blk)

/-- Setting a block leaves the links alone. -/
@[simp] lemma next_setBlk (h : Heap) (i : Nat) (b : Block) : (h.setBlk i b).next = h.next :=
  (Function.comp_update Node.next h.nodes i _).trans (Function.update_eq_self i h.next)

/-- Setting a block sets it. -/
@[simp] lemma blk_setBlk (h : Heap) (i : Nat) (b : Block) :
    (h.setBlk i b).blk = Function.update h.blk i b :=
  Function.comp_update (fun n : Node => Block.mk n.start n.size) h.nodes i _

/-- Setting a link, in the arena. -/
lemma arena_setNext (h : Heap) (i : Nat) (v : Option Nat) :
    (h.setNext i v).arena = h.arena.setNext i v := by
  simp only [arena, Arena.setNext, next_setNext, blk_setNext]
  rfl

/-- Setting a block, in the arena. -/
lemma arena_setBlk (h : Heap) (i : Nat) (b : Block) :
    (h.setBlk i b).arena = h.arena.setBlk i b := by
  simp only [arena, Arena.setBlk, next_setBlk, blk_setBlk]
  rfl

/-- Linking the free list anew, in the arena. -/
lemma arena_setFreeLink (h : Heap) (prev v : Option Nat) :
    (h.setFreeLink prev v).arena = h.arena.setFree prev v := by
  cases prev with
  | none => rfl
  | some p => exact h.arena_setNext p v

/-- Linking the used list anew, in the arena. -/
lemma arena_setUsedLink (h : Heap) (prev v : Option Nat) :
    (h.setUsedLink prev v).arena = h.arena.setUsed prev v := by
  cases prev with
  | none => rfl
  | some p => exact h.arena_setNext p v

/-- `malloc` only touches the node it hands out. -/
lemma agree_malloc (h : Heap) (b : Block) (v : Option Nat) :
    Arena.Agree h.arena (h.malloc b v).1.arena [h.brk] := by
  intro j hj
  have ne : j ≠ h.brk := by simpa using hj
  simp [arena, malloc, next, blk, ne]

/-- A new node gets its block. -/
lemma blk_malloc (h : Heap) (b : Block) (v : Option Nat) : (h.malloc b v).1.blk h.brk = b := by
  simp [malloc, blk]

/-- `free` only touches the node it gives up. -/
lemma agree_free (h : Heap) (i : Nat) : Arena.Agree h.arena (h.free i).arena [i] := by
  intro j hj
  have ne : j ≠ i := by simpa using hj
  simp [arena, free, next, blk, ne]

/-- The fields that list surgery leaves alone. -/
structure Same (h h' : Heap) : Prop where
  start : h'.start = h.start
  size : h'.size = h.size
  freeSize : h'.freeSize = h.freeSize
  dfrgBlks : h'.dfrgBlks = h.dfrgBlks
  policy : h'.policy = h.policy
  bytes : h'.bytes = h.bytes

/-- Nodes may be written, and new ones handed out. -/
lemma same_nodes (h : Heap) (nodes : Nat → Node) (brk : Nat) : Same h { h with nodes := nodes, brk := brk } :=
  ⟨rfl, rfl, rfl, rfl, rfl, rfl⟩

/-- Nothing has changed. -/
lemma Same.refl (h : Heap) : Same h h := h.same_nodes h.nodes h.brk

/-- Nothing has changed over two steps. -/
lemma Same.trans {h h' h'' : Heap} (s : Same h h') (s' : Same h' h'') : Same h h'' where
  start := s'.start.trans s.start
  size := s'.size.trans s.size
  freeSize := s'.freeSize.trans s.freeSize
  dfrgBlks := s'.dfrgBlks.trans s.dfrgBlks
  policy := s'.policy.trans s.policy
  bytes := s'.bytes.trans s.bytes

/-- Linking the free list anew changes nothing else. -/
lemma same_setFreeLink (h : Heap) (prev v : Option Nat) :
    Same h (h.setFreeLink prev v) ∧ (h.setFreeLink prev v).brk = h.brk := by
  cases prev with
  | none => exact ⟨⟨rfl, rfl, rfl, rfl, rfl, rfl⟩, rfl⟩
  | some p => exact ⟨h.same_nodes _ _, rfl⟩

/-- Linking the used list anew changes nothing else. -/
lemma same_setUsedLink (h : Heap) (prev v : Option Nat) :
    Same h (h.setUsedLink prev v) ∧ (h.setUsedLink prev v).brk = h.brk := by
  cases prev with
  | none => exact ⟨⟨rfl, rfl, rfl, rfl, rfl, rfl⟩, rfl⟩
  | some p => exact ⟨h.same_nodes _ _, rfl⟩

end Heap

/-- Rounding up does not shrink a request, and keeps it a multiple of 8. -/
lemma align_spec {x} (h : x + 7 < 2 ^ 64) : x ≤ align x ∧ align x < x + 8 ∧ align x % 8 = 0 := by
  have e : align x = (x + 7) / 2 ^ 3 * 2 ^ 3 := by
    rw [align, wadd_of_lt h]
    exact and_highMask (by decide) h
  omega

/-- Distinct numbers below `n` are at most `n` many. -/
lemma length_le_of_bound {l : List Nat} {n} (nd : l.Nodup) (hb : ∀ i ∈ l, i < n) : l.length ≤ n := by
  have sub : l ⊆ List.range n := fun i hi => List.mem_range.2 (hb i hi)
  simpa using (nd.subperm sub).length_le

namespace Heap

variable {h : Heap} {fl ul dl : List Nat}

/-- The fuel is enough for the free list. -/
lemma Inv.free_fuel (inv : h.Inv fl ul dl) : fl.length < h.fuel := by
  have nd := (List.nodup_append.1 inv.arena.nodup).1
  exact Nat.lt_succ_of_le (length_le_of_bound nd (fun i hi => inv.bound i (by simp [hi])))

/-- The fuel is enough for the used list. -/
lemma Inv.used_fuel (inv : h.Inv fl ul dl) : ul.length < h.fuel := by
  have nd := (List.nodup_append.1 inv.arena.nodup).2.1
  exact Nat.lt_succ_of_le (length_le_of_bound nd (fun i hi => inv.bound i (by simp [hi])))

/-- Blocks of the lists lie inside the arena. -/
lemma Inv.within (inv : h.Inv fl ul dl) {i} (hi : i ∈ fl ++ ul) :
    0 < (h.blk i).size ∧ h.start ≤ (h.blk i).start ∧ (h.blk i).stop ≤ h.start + h.size := by
  have ly := inv.arena.layout
  have mem : h.blk i ∈ fl.map h.arena.blk ++ ul.map h.arena.blk := by
    rw [← List.map_append]
    exact List.mem_map_of_mem hi
  exact ⟨ly.pos _ mem, ly.within _ mem⟩

/-- List surgery confined to the two lists and to a fresh node does not disturb the rest of the
invariant. -/
lemma Inv.reassemble {h' : Heap} {fl' ul'} (inv : h.Inv fl ul dl)
    (ia : h'.arena.Inv h.start (h.start + h.size) fl' ul')
    (ag : Arena.Agree h.arena h'.arena (fl ++ ul ++ [h.brk]))
    (old : ∀ i ∈ fl' ++ ul', i ∈ fl ++ ul ∨ i = h.brk) (bd : ∀ i ∈ fl' ++ ul', i < h'.brk)
    (brk : h.brk ≤ h'.brk) (start : h'.start = h.start) (size : h'.size = h.size)
    (dfrg : h'.dfrgBlks = h.dfrgBlks) (free : h'.freeSize = total (fl'.map h'.blk)) :
    h'.Inv fl' ul' dl := by
  have out : ∀ i ∈ dl, i ∉ fl ++ ul ++ [h.brk] := by
    intro i hi hm
    cases List.mem_append.1 hm with
    | inl hm => exact inv.dfrg_disj i hi hm
    | inr hm => exact (inv.bound i (by simp [hi])).ne (List.mem_singleton.1 hm)
  refine ⟨?_, ?_, inv.dfrg_nodup, ?_, ?_, free, ?_, ?_⟩
  · rw [start, size]
    exact ia
  · rw [dfrg]
    exact ag.seg out inv.dfrg
  · intro i hi hm
    apply out i hi
    cases old i hm with
    | inl hm => exact List.mem_append_left _ hm
    | inr e => simp [e]
  · intro i hi
    cases List.mem_append.1 hi with
    | inl hi => exact bd i hi
    | inr hi => exact lt_of_lt_of_le (inv.bound i (by simp [hi])) brk
  · rw [start]
    exact inv.start_pos
  · rw [start, size]
    exact inv.room

/-- What the used list gains the free list loses. -/
lemma Inv.free_total {h' : Heap} {fl' ul'} (inv : h.Inv fl ul dl)
    (ia : h'.arena.Inv h.start (h.start + h.size) fl' ul') :
    h.freeSize + total (ul.map h.blk) = total (fl'.map h'.blk) + total (ul'.map h'.blk) ∧
      h.freeSize + total (ul.map h.blk) < 2 ^ 64 := by
  have tot := ia.layout.total_eq
  have tot₀ := inv.arena.layout.total_eq
  have room := inv.room
  simp only [arena_blk] at tot tot₀
  rw [inv.freeSize]
  omega

/-- The quick reject is right: no free block is larger than their total. -/
lemma Inv.reject (inv : h.Inv fl ul dl) {n} (hf : h.freeSize < n ∨ h.freeBlks = none) :
    ∀ i ∈ fl, (h.blk i).size < n := by
  intro i hi
  have hle : (h.blk i).size ≤ total (fl.map h.blk) :=
    List.single_le_sum (by simp) _ (List.mem_map_of_mem (List.mem_map_of_mem hi))
  cases hf with
  | inl lt =>
    rw [inv.freeSize] at lt
    omega
  | inr nil =>
    have hc : Chain h.next h.freeBlks fl := inv.arena.free
    rw [hc.unique (show Chain h.next h.freeBlks [] from nil)] at hi
    cases hi

/-- The policy switch finds a free node that is large enough, or reports that there is none. -/
lemma Inv.select (inv : h.Inv fl ul dl) (n : Nat) :
    Fits fl (fun i => (h.blk i).size) n (h.select n) := by
  have hw : ∀ i ∈ fl, 0 < (h.blk i).size ∧ (h.blk i).size < 2 ^ 64 - 1 := by
    intro i hi
    obtain ⟨pos, lo, hi⟩ := inv.within (i := i) (by simp [hi])
    have := inv.room
    have := inv.start_pos
    simp only [Block.stop] at hi
    omega
  unfold Heap.select
  cases h.policy with
  | firstFit => exact firstFit_fits n inv.arena.free inv.free_fuel
  | bestFit => exact bestFit_fits n inv.arena.free inv.free_fuel (fun i hi => (hw i hi).2)
  | worstFit => exact worstFit_fits n inv.arena.free inv.free_fuel (fun i hi => (hw i hi).1)

/-- Taking `n` bytes off a free node leaves a node `u` of exactly these bytes in hand. -/
lemma Inv.detach {p s q n} (inv : h.Inv (p ++ s :: q) ul dl) (h0 : 0 < n)
    (hs : n ≤ (h.blk s).size) :
    ∃ h₁ u q', h.detach n p.getLast? s = (h₁, u) ∧
      h₁.arena.Hand h.start (h.start + h.size) p q' ul u ∧
      h₁.blk u = ⟨(h.blk s).start, n⟩ ∧ (∀ i ∈ q', i ∈ s :: q) ∧ (u = s ∨ u = h.brk) ∧
      Same h h₁ ∧ h.brk ≤ h₁.brk ∧ u < h₁.brk ∧
      Arena.Agree h.arena h₁.arena (p ++ s :: [h.brk]) ∧ (∀ i, i ≠ s → i ≠ h.brk → h₁.blk i = h.blk i) ∧
      q'.map h₁.blk = (h.blk s).rest n ++ q.map h.blk := by
  have hw := inv.within (i := s) (by simp)
  unfold Heap.detach
  by_cases eq : (h.blk s).size = n
  · -- the whole node changes lists
    obtain ⟨same, brk⟩ := h.same_setFreeLink p.getLast? (h.next s)
    have ar := h.arena_setFreeLink p.getLast? (h.next s)
    refine ⟨h.setFreeLink p.getLast? (h.next s), s, q, by simp [eq], ?_, ?_, by simp +contextual,
      .inl rfl, same, brk.ge, ?_, ?_, ?_, ?_⟩
    · rw [ar]
      exact inv.arena.detachWhole
    · have e : (h.setFreeLink p.getLast? (h.next s)).blk s = h.blk s :=
        congrFun (congrArg Arena.blk ar) s
      rw [e, ← eq]
    · rw [brk]
      exact inv.bound s (by simp)
    · rw [ar]
      exact (Arena.agree_setFree h.arena p (h.next s)).mono (by simp)
    · exact fun i _ _ => congrFun (congrArg Arena.blk ar) i
    · rw [Block.rest, if_pos eq, List.nil_append]
      exact congrArg (q.map ·) (congrArg Arena.blk ar)
  · -- a new node takes the front of the block
    have lt : n < (h.blk s).size := by omega
    have room := inv.room
    simp only [Block.stop] at hw
    have e1 : wadd 64 (h.blk s).start n = (h.blk s).start + n := wadd_of_lt (by omega)
    have e2 : wsub 64 (h.blk s).size n = (h.blk s).size - n := wsub_of_le hs (by omega)
    have fresh : h.brk ∉ p ++ s :: q ++ ul := by
      intro hi
      exact lt_irrefl _ (inv.bound h.brk (by simp only [List.mem_append] at hi ⊢; grind))
    have sb : s ≠ h.brk := by
      rintro rfl
      exact fresh (by simp)
    have ag := h.agree_malloc ⟨(h.blk s).start, n⟩ none
    have other : ∀ i, i ≠ s → i ≠ h.brk → ((h.malloc ⟨(h.blk s).start, n⟩ none).1.setBlk s
        ⟨(h.blk s).start + n, (h.blk s).size - n⟩).blk i = h.blk i := by
      intro i is ib
      rw [blk_setBlk, Function.update_of_ne is]
      exact (ag i (by simpa using ib)).2
    have ar := (h.malloc ⟨(h.blk s).start, n⟩ none).1.arena_setBlk s
      ⟨(h.blk s).start + n, (h.blk s).size - n⟩
    refine ⟨(h.malloc ⟨(h.blk s).start, n⟩ none).1.setBlk s
        ⟨(h.blk s).start + n, (h.blk s).size - n⟩, h.brk, s :: q, by simp [eq, e1, e2, malloc],
        ?_, ?_, fun i hi => hi, .inr rfl, h.same_nodes _ _, Nat.le_succ _,
        Nat.lt_succ_self _, ?_, ?_, ?_⟩
    · rw [ar]
      exact inv.arena.detachFront fresh h0 lt ag rfl rfl (h.blk_malloc _ _)
    · rw [blk_setBlk, Function.update_of_ne sb.symm]
      exact h.blk_malloc _ _
    · rw [ar]
      refine Arena.Agree.trans (ag.mono (by simp)) ?_
      exact (Arena.agree_setBlk _ _ _).mono (by simp)
    · exact other
    · have nd := (List.nodup_append.1 inv.arena.nodup).1
      have ns := (List.nodup_cons.1 (List.nodup_append.1 nd).2.1).1
      rw [Block.rest, if_neg eq, List.map_cons, blk_setBlk, Function.update_self, ← blk_setBlk]
      refine congrArg (_ :: ·) (List.map_congr_left fun i hi => other i ?_ ?_)
      · exact fun e => ns (e ▸ hi)
      · exact fun e => fresh (by simp [← e, hi])

/-- The node in hand goes to its place on the used list. -/
lemma insertUsed_spec {lo hi p q u} (hd : h.arena.Hand lo hi p q ul u)
    (fuel : ul.length < h.fuel) :
    ∃ a b, ul = a ++ b ∧ h.insertUsed u = some ((h.setNext u b.head?).setUsedLink a.getLast? (some u)) ∧
      ((h.setNext u b.head?).setUsedLink a.getLast? (some u)).arena.Inv lo hi (p ++ q) (a ++ u :: b) := by
  obtain ⟨a, b, rfl, ha, hb, e⟩ :=
    walk_spec (fun i => (h.blk i).start < (h.blk u).start) none hd.used fuel
  rw [lastOr_none] at e
  have e' : walk h.next (fun i => (h.blk i).start < (h.blk u).start) h.fuel none h.usedBlks
      = some (a.getLast?, b.head?) := e
  refine ⟨a, b, rfl, by simp [insertUsed, e'], ?_⟩
  rw [arena_setUsedLink, arena_setNext]
  apply hd.attachUsed
  · exact fun i hi => by simpa using ha i hi
  · exact fun i hi => by simpa using hb i hi

/-- `heapAlloc` returns; it changes nothing, or moves `align size` bytes from the front of a free
block to a used node. -/
lemma Inv.alloc (inv : h.Inv fl ul dl) {size} (nowrap : size + 7 < 2 ^ 64) :
    (heapAlloc h size = some (h, 0) ∧ (size = 0 ∨ ∀ i ∈ fl, (h.blk i).size < align size)) ∨
    ∃ h' p s q q' a b u, fl = p ++ s :: q ∧ ul = a ++ b ∧ align size ≤ (h.blk s).size ∧
      h.select (align size) = some (some (p.getLast?, s)) ∧
      heapAlloc h size = some (h', (h.blk s).start) ∧
      h'.Inv (p ++ q') (a ++ u :: b) dl ∧ h'.blk u = ⟨(h.blk s).start, align size⟩ ∧
      h'.policy = h.policy ∧ h'.bytes = h.bytes ∧ h'.start = h.start ∧ h'.size = h.size ∧
      (p ++ q').map h'.blk = p.map h.blk ++ ((h.blk s).rest (align size) ++ q.map h.blk) ∧
      (∀ i ∈ a ++ b, h'.blk i = h.blk i) := by
  obtain ⟨le, -, -⟩ := align_spec nowrap
  unfold heapAlloc
  by_cases hz : size = 0
  · exact .inl ⟨by simp [hz], .inl hz⟩
  by_cases hf : h.freeSize < align size ∨ h.freeBlks = none
  · exact .inl ⟨by simp [hz, hf], .inr (inv.reject hf)⟩
  cases inv.select (align size) with
  | inl hno => exact .inl ⟨by simp [hz, hf, hno.1], .inr hno.2⟩
  | inr hyes =>
    obtain ⟨p, s, q, rfl, hs, sel⟩ := hyes
    obtain ⟨h₁, u, q', ed, hd, bu, mem, hu, same, brk, ub, ag, other, rest⟩ := inv.detach (by omega) hs
    have fuel : ul.length < h₁.fuel := lt_of_lt_of_le inv.used_fuel (Nat.succ_le_succ brk)
    obtain ⟨a, b, rfl, ei, ia⟩ := insertUsed_spec hd fuel
    obtain ⟨same₂, brk₂⟩ := (h₁.setNext u b.head?).same_setUsedLink a.getLast? (some u)
    have ar₂ := (h₁.setNext u b.head?).arena_setUsedLink a.getLast? (some u)
    rw [arena_setNext] at ar₂
    have same₁ : Same h₁ (h₁.setNext u b.head?) := h₁.same_nodes _ _
    have same' := same.trans (same₁.trans same₂)
    have ag₂ := h₁.arena.agree_attachUsed u a b.head? (some u)
    rw [← ar₂] at ag₂
    have eb : ((h₁.setNext u b.head?).setUsedLink a.getLast? (some u)).blk = h₁.blk :=
      congrArg Arena.blk ar₂
    have brk' : ((h₁.setNext u b.head?).setUsedLink a.getLast? (some u)).brk = h₁.brk := brk₂
    generalize (h₁.setNext u b.head?).setUsedLink a.getLast? (some u) = h₂ at *
    have bu₂ : h₂.blk u = ⟨(h.blk s).start, align size⟩ := by rw [eb, bu]
    have keep : ∀ i ∈ p ++ (q ++ (a ++ b)), h₁.blk i = h.blk i := by
      have nd := inv.arena.nodup
      rw [List.append_assoc, List.cons_append, List.nodup_middle, List.nodup_cons] at nd
      intro i hi
      refine other i (fun e => nd.1 (e ▸ hi)) (inv.bound i ?_).ne
      simp only [List.mem_append, List.mem_cons] at hi ⊢
      grind
    -- every node of the new lists was in the old ones or is the new node
    have old : ∀ i ∈ p ++ q' ++ (a ++ u :: b), i ∈ p ++ s :: q ++ (a ++ b) ∨ i = u := by
      intro i hi
      have := mem i
      simp only [List.mem_append, List.mem_cons] at hi this ⊢
      grind
    have mu : u ∈ p ++ s :: q ++ (a ++ b) ++ [h.brk] := by
      cases hu with
      | inl e => simp [e]
      | inr e => simp [e]
    refine .inr ⟨{ h₂ with freeSize := wsub 64 h₂.freeSize (h₂.blk u).size }, p, s, q, q', a, b, u,
      rfl, rfl, hs, sel, by simp [hz, hf, sel, ed, ei, bu₂], ?_, bu₂, same'.policy, same'.bytes,
      same'.start, same'.size, ?_, ?_⟩
    rotate_left
    · show (p ++ q').map h₂.blk = _
      rw [eb, List.map_append, rest]
      exact congrArg (· ++ _) (List.map_congr_left fun i hi => keep i (List.mem_append_left _ hi))
    · intro i hi
      show h₂.blk i = h.blk i
      rw [eb]
      exact keep i (List.mem_append_right _ (List.mem_append_right _ hi))
    refine inv.reassemble ia ?_ ?_ ?_ ?_ same'.start same'.size same'.dfrgBlks ?_
    · refine Arena.Agree.trans (ag.mono ?_) (ag₂.mono ?_)
      · intro i hi
        simp only [List.mem_append, List.mem_cons] at hi ⊢
        grind
      · intro i hi
        cases List.mem_cons.1 hi with
        | inl e => exact e ▸ mu
        | inr hi => simp [hi]
    · intro i hi
      cases old i hi with
      | inl hm => exact .inl hm
      | inr e =>
        rw [e]
        simpa [or_assoc] using mu
    · intro i hi
      show i < h₂.brk
      rw [brk']
      cases old i hi with
      | inl hm => exact lt_of_lt_of_le (inv.bound i (List.mem_append_left _ hm)) brk
      | inr e => exact e ▸ ub
    · exact brk'.ge.trans' brk
    · -- the used list gains `align size` bytes, so the free list loses as many
      have eab : (a ++ b).map h₂.blk = (a ++ b).map h.blk := by
        rw [eb]
        exact List.map_congr_left fun i hi => keep i (List.mem_append_right _ (List.mem_append_right _ hi))
      have eab' := congrArg total eab
      obtain ⟨tot, lt⟩ := inv.free_total ia
      show wsub 64 h₂.freeSize (h₂.blk u).size = total ((p ++ q').map h₂.blk)
      rw [same'.freeSize, bu₂]
      simp only [List.map_append, List.map_cons, total_append, total_cons, bu₂] at tot lt eab' ⊢
      rw [wsub_of_le (by omega) (by omega)]
      omega

/-- Merging with the node before keeps the node placed and clears its left side. -/
lemma joinPrev_spec {lo hi p q u} (pl : h.arena.Placed lo hi p q ul u) (hi64 : hi < 2 ^ 64) :
    ∃ h' p' u', h.joinPrev p.getLast? u = (h', u') ∧ h'.arena.Placed lo hi p' q ul u' ∧
      h'.arena.Clear p' u' ∧ Same h h' ∧ h'.brk = h.brk ∧
      Arena.Agree h.arena h'.arena (p ++ [u]) ∧ (∀ i ∈ p' ++ [u'], i ∈ p ++ [u]) := by
  unfold joinPrev
  induction p using List.reverseRecOn with
  | nil =>
    exact ⟨h, [], u, rfl, pl, by simp [Arena.Clear], .refl h, rfl,
      fun _ _ => ⟨rfl, rfl⟩, fun i hi => hi⟩
  | append_singleton p x _ =>
    have ord := pl.layout.free_ordered
    have wx := pl.layout.within (h.blk x) (by simp)
    have wu := pl.layout.within (h.blk u) (by simp)
    simp only [arena_blk, List.append_assoc, List.singleton_append, List.map_append, List.map_cons]
      at ord
    have xu : (h.blk x).stop ≤ (h.blk u).start := (ordered_middle.1 ord).2.2 _ (by simp)
    simp only [Block.stop] at xu wx wu
    have e : wadd 64 (h.blk x).start (h.blk x).size = (h.blk x).stop := wadd_of_lt (by omega)
    simp only [List.getLast?_concat, e]
    by_cases touch : (h.blk u).start = (h.blk x).stop
    · have e2 : wadd 64 (h.blk x).size (h.blk u).size = (h.blk x).size + (h.blk u).size :=
        wadd_of_lt (by simp only [Block.stop] at touch; omega)
      have ag := ((h.setBlk x ⟨(h.blk x).start, (h.blk x).size + (h.blk u).size⟩).setNext x
        (h.next u)).agree_free u
      rw [arena_setNext, arena_setBlk] at ag
      obtain ⟨pl', cl⟩ := pl.joinPrev touch.symm ag rfl rfl
      refine ⟨_, p, x, by rw [if_pos touch, e2], pl', cl, h.same_nodes _ _, rfl, ?_, ?_⟩
      · have h1 : Arena.Agree h.arena (h.arena.setBlk x
            ⟨(h.blk x).start, (h.blk x).size + (h.blk u).size⟩) (p ++ [x] ++ [u]) :=
          (h.arena.agree_setBlk x _).mono (by simp)
        have h2 := (Arena.agree_setNext (h.arena.setBlk x
            ⟨(h.blk x).start, (h.blk x).size + (h.blk u).size⟩) x (h.next u)).mono
              (show [x] ⊆ p ++ [x] ++ [u] by simp)
        exact (h1.trans h2).trans (ag.mono (by simp))
      · intro i hi
        exact List.mem_append_left _ hi
    · refine ⟨h, p ++ [x], u, by rw [if_neg touch], pl, ?_, .refl h, rfl,
        fun _ _ => ⟨rfl, rfl⟩, fun i hi => hi⟩
      intro i hi
      rw [List.getLast?_concat] at hi
      cases hi
      exact fun e => touch e.symm

/-- Merging with the following node restores the invariant of the lists. -/
lemma joinNext_spec {lo hi p q u} (pl : h.arena.Placed lo hi p q ul u) (cl : h.arena.Clear p u)
    (hi64 : hi < 2 ^ 64) :
    ∃ q', (h.joinNext u q.head?).arena.Inv lo hi (p ++ u :: q') ul ∧
      Same h (h.joinNext u q.head?) ∧ (h.joinNext u q.head?).brk = h.brk ∧
      Arena.Agree h.arena (h.joinNext u q.head?).arena (u :: q) ∧ (∀ i ∈ q', i ∈ q) := by
  unfold joinNext
  cases q with
  | nil =>
    exact ⟨[], pl.inv cl (by simp), .refl h, rfl, fun _ _ => ⟨rfl, rfl⟩,
      fun i hi => hi⟩
  | cons y q =>
    have ord := pl.layout.free_ordered
    have wy := pl.layout.within (h.blk y) (by simp)
    simp only [arena_blk, List.map_append, List.map_cons] at ord
    have uy : (h.blk u).stop ≤ (h.blk y).start := (ordered_middle.1 ord).2.2 _ (by simp)
    simp only [Block.stop] at uy wy
    have e : wadd 64 (h.blk u).start (h.blk u).size = (h.blk u).stop := wadd_of_lt (by omega)
    simp only [List.head?_cons, e]
    by_cases touch : (h.blk y).start = (h.blk u).stop
    · have e2 : wadd 64 (h.blk u).size (h.blk y).size = (h.blk u).size + (h.blk y).size :=
        wadd_of_lt (by simp only [Block.stop] at touch; omega)
      have ag := ((h.setBlk u ⟨(h.blk u).start, (h.blk u).size + (h.blk y).size⟩).setNext u
        (h.next y)).agree_free y
      rw [arena_setNext, arena_setBlk] at ag
      have inv := pl.joinNext cl touch.symm ag rfl rfl
      rw [if_pos touch, e2]
      refine ⟨q, inv, h.same_nodes _ _, rfl, ?_, fun i hi => List.mem_cons_of_mem _ hi⟩
      have h1 : Arena.Agree h.arena (h.arena.setBlk u
          ⟨(h.blk u).start, (h.blk u).size + (h.blk y).size⟩) (u :: y :: q) :=
        (h.arena.agree_setBlk u _).mono (by simp)
      have h2 := (Arena.agree_setNext (h.arena.setBlk u
          ⟨(h.blk u).start, (h.blk u).size + (h.blk y).size⟩) u (h.next y)).mono
            (show [u] ⊆ u :: y :: q by simp)
      exact (h1.trans h2).trans (ag.mono (by simp))
    · rw [if_neg touch]
      refine ⟨y :: q, pl.inv cl ?_, .refl h, rfl, fun _ _ => ⟨rfl, rfl⟩,
        fun i hi => hi⟩
      intro i hi
      cases hi
      exact fun e => touch e.symm

/-- A used node goes to its place on the free list. -/
lemma Inv.insertFree {a u b} (inv : h.Inv fl (a ++ u :: b) dl) :
    ∃ p q h', fl = p ++ q ∧
      (h.setUsedLink a.getLast? (h.next u)).insertFree u = some (h', p.getLast?, q.head?) ∧
      h'.arena.Placed h.start (h.start + h.size) p q (a ++ b) u ∧ h'.blk = h.blk ∧
      Arena.Agree h.arena h'.arena (p ++ (a ++ [u])) ∧ h'.brk = h.brk ∧
      Same { h with freeSize := wadd 64 h.freeSize (h.blk u).size } h' := by
  obtain ⟨ndf, -, djfu⟩ := List.nodup_append.1 inv.arena.nodup
  have djf : ∀ i ∈ a, i ∉ fl := fun i hi hf => djfu i hf i (by simp [hi]) rfl
  obtain ⟨same₁, brk₁⟩ := h.same_setUsedLink a.getLast? (h.next u)
  have ar₁ := h.arena_setUsedLink a.getLast? (h.next u)
  have blk₁ : (h.setUsedLink a.getLast? (h.next u)).blk = h.blk := congrArg Arena.blk ar₁
  have free₁ : Chain (h.setUsedLink a.getLast? (h.next u)).arena.next
      (h.setUsedLink a.getLast? (h.next u)).arena.free fl := by
    rw [ar₁]
    exact inv.arena.free.setLink_frame djf
  have fuel₁ : fl.length < (h.setUsedLink a.getLast? (h.next u)).fuel := by
    rw [fuel, brk₁]
    exact inv.free_fuel
  generalize h.setUsedLink a.getLast? (h.next u) = h₁ at *
  obtain ⟨p, q, rfl, hp, hq, e₁⟩ :=
    walk_spec (fun i => (h₁.blk i).start < (h₁.blk u).start) none free₁ fuel₁
  have e₁' : walk h₁.next (fun i => (h₁.blk i).start < (h₁.blk u).start) h₁.fuel none h₁.freeBlks
      = some (lastOr none p, q.head?) := e₁
  rw [lastOr_none] at e₁'
  rw [blk₁] at hp hq
  obtain ⟨same₂, brk₂⟩ := (h₁.setNext u q.head?).same_setFreeLink p.getLast? (some u)
  have ar₂ := (h₁.setNext u q.head?).arena_setFreeLink p.getLast? (some u)
  rw [arena_setNext, ar₁] at ar₂
  have pl := inv.arena.placeFree (p := p) (q := q)
    (fun i hi => by simpa using hp i hi) (fun i hi => by simpa using hq i hi)
  have ag₂ := h.arena.agree_placeFree u a p (h.next u) q.head? (some u)
  rw [arena_next, ← ar₂] at pl
  rw [← ar₂] at ag₂
  have blk₂ : ((h₁.setNext u q.head?).setFreeLink p.getLast? (some u)).blk = h.blk :=
    congrArg Arena.blk ar₂
  have same₁' : Same h₁ (h₁.setNext u q.head?) := h₁.same_nodes _ _
  have same := same₁.trans (same₁'.trans same₂)
  generalize h₂e : (h₁.setNext u q.head?).setFreeLink p.getLast? (some u) = h₂ at *
  refine ⟨p, q, { h₂ with freeSize := wadd 64 h₂.freeSize (h₂.blk u).size }, rfl,
    by simp [Heap.insertFree, e₁', h₂e], pl, blk₂, ag₂, brk₂.trans brk₁, ?_⟩
  refine ⟨same.start, same.size, ?_, same.dfrgBlks, same.policy, same.bytes⟩
  show wadd 64 _ _ = wadd 64 _ _
  rw [same.freeSize, blk₂]

/-- `heapFree` returns; it changes nothing when no used block starts at `p`, and otherwise moves that
block to the free list. -/
lemma Inv.free (inv : h.Inv fl ul dl) (p : Nat) :
    (heapFree h p = some h ∧ (p = 0 ∨ ∀ i ∈ ul, (h.blk i).start ≠ p)) ∨
    ∃ h' fl' a u b, ul = a ++ u :: b ∧ (h.blk u).start = p ∧ heapFree h p = some h' ∧
      h'.Inv fl' (a ++ b) dl ∧ (∀ i ∈ a ++ b, h'.blk i = h.blk i) ∧
      h'.policy = h.policy ∧ h'.bytes = h.bytes ∧ h'.start = h.start ∧ h'.size = h.size := by
  unfold heapFree
  by_cases hz : p = 0
  · exact .inl ⟨by simp [hz], .inl hz⟩
  obtain ⟨a, b, rfl, ha, hb, e⟩ :=
    walk_spec (fun i => (h.blk i).start != p) none inv.arena.used inv.used_fuel
  have e' : walk h.next (fun i => (h.blk i).start != p) h.fuel none h.usedBlks
      = some (lastOr none a, b.head?) := e
  rw [lastOr_none] at e'
  cases b with
  | nil =>
    refine .inl ⟨by simp [hz, e'], .inr ?_⟩
    intro i hi
    simpa using ha i (by simpa using hi)
  | cons u b =>
    have hu : (h.blk u).start = p := by simpa using hb u rfl
    obtain ⟨p, q, h₁, rfl, e₁, pl₁, blk₁, ag₁, brk₁, same₁⟩ := inv.insertFree
    obtain ⟨h₂, p', u', e₂, pl₂, cl₂, same₂, brk₂, ag₂, mem₂⟩ := joinPrev_spec pl₁ inv.room
    obtain ⟨q', inv₃, same₃, brk₃, ag₃, mem₃⟩ := joinNext_spec pl₂ cl₂ inv.room
    have same := same₁.trans (same₂.trans same₃)
    have brk := brk₃.trans (brk₂.trans brk₁)
    -- the nodes written are those of the old lists
    have mu' : u' ∈ p ++ [u] := mem₂ u' (by simp)
    have old : ∀ i ∈ p' ++ u' :: q' ++ (a ++ b), i ∈ p ++ q ++ (a ++ u :: b) := by
      intro i hi
      have h2 := mem₂ i
      have h3 := mem₃ i
      simp only [List.mem_append, List.mem_cons, List.not_mem_nil, or_false] at hi h2 h3 ⊢
      grind
    have sub : u' :: q ⊆ p ++ q ++ (a ++ u :: b) ++ [h.brk] := by
      simp only [List.mem_append, List.mem_singleton] at mu'
      intro i hi
      simp only [List.mem_append, List.mem_cons] at hi ⊢
      rcases hi with rfl | hi <;> grind
    have ag : Arena.Agree h.arena (h₂.joinNext u' q.head?).arena
        (p ++ q ++ (a ++ u :: b) ++ [h.brk]) := by
      refine (ag₁.mono ?_).trans ((ag₂.mono ?_).trans (ag₃.mono sub))
      · intro i hi
        simp only [List.mem_append, List.mem_cons] at hi ⊢
        grind
      · intro i hi
        simp only [List.mem_append, List.mem_cons] at hi ⊢
        grind
    -- only links are written on the used list
    have blk : ∀ i ∈ a ++ b, (h₂.joinNext u' q.head?).blk i = h.blk i := by
      intro i hi
      have nd := inv.arena.nodup
      rw [← List.append_assoc, List.nodup_middle, List.nodup_cons] at nd
      obtain ⟨nu, nd⟩ := nd
      rw [List.append_assoc] at nd
      obtain ⟨-, -, dj⟩ := List.nodup_append.1 nd
      have ip : i ∉ p ++ [u] := by
        intro hm
        cases List.mem_append.1 hm with
        | inl hm => exact dj i (by simp [hm]) i hi rfl
        | inr hm =>
          rw [List.mem_singleton.1 hm] at hi
          exact nu (by simp only [List.mem_append] at hi ⊢; grind)
      have iq : i ∉ u' :: q := by
        intro hm
        cases List.mem_cons.1 hm with
        | inl e => exact ip (e ▸ mu')
        | inr hm => exact dj i (by simp [hm]) i hi rfl
      exact ((ag₃ i iq).2.trans (ag₂ i ip).2).trans (congrFun blk₁ i)
    refine .inr ⟨h₂.joinNext u' q.head?, p' ++ u' :: q', a, u, b, rfl, hu, by simp [hz, e', e₁, e₂],
      ?_, blk, same.policy, same.bytes, same.start, same.size⟩
    refine inv.reassemble inv₃ ag (fun i hi => .inl (old i hi)) ?_ brk.ge same.start same.size
      same.dfrgBlks ?_
    · intro i hi
      rw [brk]
      exact inv.bound i (List.mem_append_left _ (old i hi))
    · have eab : (a ++ b).map (h₂.joinNext u' q.head?).blk = (a ++ b).map h.blk :=
        List.map_congr_left blk
      have eab' := congrArg total eab
      obtain ⟨tot, lt⟩ := inv.free_total inv₃
      rw [same.freeSize]
      simp only [List.map_append, List.map_cons, total_append, total_cons] at tot lt eab' ⊢
      rw [wadd_of_lt (by omega)]
      omega

end Heap

end PDS.Lab1
