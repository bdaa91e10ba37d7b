import PDS.Kern.Ppages
import PDS.Lib.Arena

/-!
# The invariant of the page allocator

`Vm.Inv v fl ul lk` is the representation invariant: the nodes of `fl` and `ul` form an `Arena.Inv`
over the managed memory, `freePages` counts the free pages, and the occupied slots of the pool are
those of `fl`, `ul` and `lk`. The slots of `lk` are on neither list: `free_ppages` hands `freeNode` the
pointer to a merged node where it expects the node's block address, no slot has such an address, and
the slot stays occupied. `Inv.alloc` and `Inv.free` say what the two operations do to the three lists.
-/

namespace PDS.Kern
open Word Links Extent

namespace Vm

/-- The free and the used list. -/
def arena (v : Vm) : Arena Nat where
  free := v.freeBlks
  used := v.usedBlks
  next := v.next
  blk := v.blk

/-- The free list of the arena. -/
@[simp] lemma arena_free (v : Vm) : v.arena.free = v.freeBlks := rfl

/-- The used list of the arena. -/
@[simp] lemma arena_used (v : Vm) : v.arena.used = v.usedBlks := rfl

/-- The links of the arena. -/
@[simp] lemma arena_next (v : Vm) : v.arena.next = v.next := rfl

/-- The blocks of the arena. -/
@[simp] lemma arena_blk (v : Vm) : v.arena.blk = v.blk := rfl

/-- The start of a block is the address of its slot. -/
@[simp] lemma blk_start (v : Vm) (i : Nat) : (v.blk i).start = (v.slots i).addr := rfl

/-- The size of a block is that of its pages. -/
@[simp] lemma blk_size (v : Vm) (i : Nat) : (v.blk i).size = (v.slots i).pages * pageSize := rfl

/-- The slots of `l` are exactly the occupied ones; their addresses are page addresses below
`MIPS_KSEG0`. -/
structure Pool (v : Vm) (l : List Nat) : Prop where
  nodup : l.Nodup
  mem : ∀ i, i ∈ l ↔ i < maxNodes ∧ (v.slots i).addr ≠ 0
  addr : ∀ i ∈ l, pageSize ∣ (v.slots i).addr ∧ (v.slots i).addr < kseg0

/-- The representation invariant. -/
structure Inv (v : Vm) (fl ul lk : List Nat) : Prop where
  arena : v.arena.Inv v.start (v.start + v.pages * pageSize) fl ul
  pool : v.Pool (fl ++ ul ++ lk)
  freePages : v.freePages * pageSize = total (fl.map v.blk)
  start_pos : 0 < v.start
  room : v.start + v.pages * pageSize ≤ kseg0
  space : kseg0 ≤ v.vmSpace ∧ v.vmSpace + vmPages * pageSize ≤ 2 ^ 32

/-- Setting a slot, in the arena. -/
lemma arena_setSlot (v : Vm) (i : Nat) (s : Slot) :
    (v.setSlot i s).arena = (v.arena.setBlk i ⟨s.addr, s.pages * pageSize⟩).setNext i s.next := by
  have hn : (v.setSlot i s).next = Function.update v.next i s.next :=
    Function.comp_update Slot.next v.slots i s
  have hb : (v.setSlot i s).blk = Function.update v.blk i ⟨s.addr, s.pages * pageSize⟩ :=
    Function.comp_update (fun s : Slot => Block.mk s.addr (s.pages * pageSize)) v.slots i s
  simp only [arena, Arena.setNext, Arena.setBlk, hn, hb]
  rfl

/-- Setting a slot changes one node. -/
lemma agree_setSlot (v : Vm) (i : Nat) (s : Slot) :
    Arena.Agree v.arena (v.setSlot i s).arena [i] := by
  rw [arena_setSlot]
  exact (Arena.agree_setBlk _ _ _).trans (Arena.agree_setNext _ _ _)

/-- Setting a link, in the arena. -/
lemma arena_setNext (v : Vm) (i : Nat) (x : Option Nat) :
    (v.setNext i x).arena = v.arena.setNext i x := by
  have e : v.arena.setBlk i ⟨(v.slots i).addr, (v.slots i).pages * pageSize⟩ = v.arena := by
    simp only [Arena.setBlk]
    rw [Function.update_eq_self_iff.2 (show Block.mk _ _ = v.blk i from rfl)]
  rw [setNext, arena_setSlot, e]

/-- Linking the free list anew, in the arena. -/
lemma arena_setFreeLink (v : Vm) (prev x : Option Nat) :
    (v.setFreeLink prev x).arena = v.arena.setFree prev x := by
  cases prev with
  | none => rfl
  | some p => exact v.arena_setNext p x

/-- Linking the used list anew, in the arena. -/
lemma arena_setUsedLink (v : Vm) (prev x : Option Nat) :
    (v.setUsedLink prev x).arena = v.arena.setUsed prev x := by
  cases prev with
  | none => rfl
  | some p => exact v.arena_setNext p x

/-- What relinking leaves alone: the record's other fields and the blocks of the slots. -/
structure Same (v v' : Vm) : Prop where
  start : v'.start = v.start
  pages : v'.pages = v.pages
  freePages : v'.freePages = v.freePages
  vmSpace : v'.vmSpace = v.vmSpace

/-- The slots describe the same blocks. -/
def SameBlks (v v' : Vm) : Prop :=
  ∀ i, (v'.slots i).addr = (v.slots i).addr ∧ (v'.slots i).pages = (v.slots i).pages

/-- Nothing has changed over two steps. -/
lemma Same.trans {v v' v'' : Vm} (s : Same v v') (s' : Same v' v'') : Same v v'' where
  start := s'.start.trans s.start
  pages := s'.pages.trans s.pages
  freePages := s'.freePages.trans s.freePages
  vmSpace := s'.vmSpace.trans s.vmSpace

/-- The blocks are the same over two steps. -/
lemma SameBlks.trans {v v' v'' : Vm} (s : SameBlks v v') (s' : SameBlks v' v'') : SameBlks v v'' :=
  fun i => ⟨(s' i).1.trans (s i).1, (s' i).2.trans (s i).2⟩

/-- The same blocks. -/
lemma SameBlks.blk {v v' : Vm} (s : SameBlks v v') : v'.blk = v.blk := by
  funext i
  simp only [Vm.blk, (s i).1, (s i).2]

/-- Setting a link changes nothing else. -/
lemma same_setNext (v : Vm) (i : Nat) (x : Option Nat) :
    Same v (v.setNext i x) ∧ SameBlks v (v.setNext i x) := by
  refine ⟨⟨rfl, rfl, rfl, rfl⟩, ?_⟩
  intro j
  by_cases e : j = i
  · subst e; simp [setNext, setSlot]
  · simp [setNext, setSlot, e]

/-- Linking the free list anew changes nothing else. -/
lemma same_setFreeLink (v : Vm) (prev x : Option Nat) :
    Same v (v.setFreeLink prev x) ∧ SameBlks v (v.setFreeLink prev x) := by
  cases prev with
  | none => exact ⟨⟨rfl, rfl, rfl, rfl⟩, fun _ => ⟨rfl, rfl⟩⟩
  | some p => exact v.same_setNext p x

/-- Linking the used list anew changes nothing else. -/
lemma same_setUsedLink (v : Vm) (prev x : Option Nat) :
    Same v (v.setUsedLink prev x) ∧ SameBlks v (v.setUsedLink prev x) := by
  cases prev with
  | none => exact ⟨⟨rfl, rfl, rfl, rfl⟩, fun _ => ⟨rfl, rfl⟩⟩
  | some p => exact v.same_setNext p x

variable {v v' : Vm} {l l' fl ul lk : List Nat}

/-- The order of the nodes does not matter. -/
lemma Pool.perm (pool : v.Pool l) (h : l.Perm l') : v.Pool l' where
  nodup := h.nodup_iff.1 pool.nodup
  mem i := h.mem_iff.symm.trans (pool.mem i)
  addr i hi := pool.addr i (h.mem_iff.2 hi)

/-- The slots in use depend on their addresses only. -/
lemma Pool.congr (pool : v.Pool l) (h : ∀ i, (v'.slots i).addr = (v.slots i).addr) : v'.Pool l where
  nodup := pool.nodup
  mem i := by rw [h]; exact pool.mem i
  addr i hi := by rw [h]; exact pool.addr i hi

/-- Rewriting an occupied slot with another block. -/
lemma Pool.setSlot (pool : v.Pool l) {i s} (hi : i ∈ l) (h0 : s.addr ≠ 0) (hd : pageSize ∣ s.addr)
    (hk : s.addr < kseg0) : (v.setSlot i s).Pool l := by
  have other : ∀ j, j ≠ i → (v.setSlot i s).slots j = v.slots j :=
    fun j hj => Function.update_of_ne hj _ _
  have self : (v.setSlot i s).slots i = s := Function.update_self _ _ _
  refine ⟨pool.nodup, ?_, ?_⟩
  · intro j
    by_cases e : j = i
    · subst e
      rw [self]
      exact ⟨fun _ => ⟨((pool.mem j).1 hi).1, h0⟩, fun _ => hi⟩
    · rw [other j e]
      exact pool.mem j
  · intro j hj
    by_cases e : j = i
    · subst e
      rw [self]
      exact ⟨hd, hk⟩
    · rw [other j e]
      exact pool.addr j hj

/-- The pool has no more slots than `MAX_NODES`. -/
lemma Pool.length_le (pool : v.Pool l) : l.length ≤ maxNodes := by
  have sub : l ⊆ List.range maxNodes := fun i hi => List.mem_range.2 ((pool.mem i).1 hi).1
  simpa using (pool.nodup.subperm sub).length_le

/-- No slot has the address. -/
lemma findNode_none {addr} (e : v.findNode addr = none) :
    ∀ i < maxNodes, (v.slots i).addr ≠ addr := by
  unfold findNode at e
  intro i hi
  simpa using List.find?_eq_none.1 e i (List.mem_range.2 hi)

/-- The slot with the address. -/
lemma findNode_some {addr i} (e : v.findNode addr = some i) :
    i < maxNodes ∧ (v.slots i).addr = addr := by
  unfold findNode at e
  have mem := List.mem_of_find?_eq_some e
  have eq := List.find?_some e
  exact ⟨List.mem_range.1 mem, by simpa using eq⟩

/-- No slot has an address in the kernel segment, so `freeNode` on a node pointer finds nothing. -/
lemma Pool.freeNode_high (pool : v.Pool l) {addr} (h : kseg0 ≤ addr) : freeNode v addr = v := by
  cases e : v.findNode addr with
  | none => simp [freeNode, e]
  | some i =>
    obtain ⟨hi, ei⟩ := findNode_some e
    have h0 : 0 < kseg0 := by decide
    have mem : i ∈ l := (pool.mem i).2 ⟨hi, by omega⟩
    have low := (pool.addr i mem).2
    omega

/-- A node from the pool is a slot that was free; without one, all slots are occupied. -/
lemma Pool.allocNode (pool : v.Pool l) {addr} (pages : Nat) (h0 : addr ≠ 0) (hd : pageSize ∣ addr)
    (hk : addr < kseg0) :
    (allocNode v addr pages = (v, none) ∧ l.length = maxNodes) ∨
    ∃ u, u ∉ l ∧ Kern.allocNode v addr pages = (v.setSlot u ⟨addr, pages, none⟩, some u) ∧
      (v.setSlot u ⟨addr, pages, none⟩).Pool (u :: l) := by
  cases e : v.findNode 0 with
  | none =>
    refine .inl ⟨by simp [Kern.allocNode, h0, e], le_antisymm pool.length_le ?_⟩
    have full : List.range maxNodes ⊆ l := by
      intro i hi
      have hi := List.mem_range.1 hi
      exact (pool.mem i).2 ⟨hi, findNode_none e i hi⟩
    simpa using (List.nodup_range.subperm full).length_le
  | some u =>
    obtain ⟨hu, free⟩ := findNode_some e
    have nu : u ∉ l := fun h => ((pool.mem u).1 h).2 free
    refine .inr ⟨u, nu, by simp [Kern.allocNode, h0, e], ?_⟩
    have other : ∀ j, j ≠ u → (v.setSlot u ⟨addr, pages, none⟩).slots j = v.slots j :=
      fun j hj => Function.update_of_ne hj _ _
    have self : (v.setSlot u ⟨addr, pages, none⟩).slots u = ⟨addr, pages, none⟩ :=
      Function.update_self _ _ _
    refine ⟨List.nodup_cons.2 ⟨nu, pool.nodup⟩, ?_, ?_⟩
    · intro j
      by_cases ej : j = u
      · subst ej
        simp [self, hu, h0]
      · rw [other j ej]
        simpa [ej] using pool.mem j
    · intro j hj
      by_cases ej : j = u
      · subst ej
        rw [self]
        exact ⟨hd, hk⟩
      · rw [other j ej]
        exact pool.addr j (by simpa [ej] using hj)

/-- The lists are shorter than the fuel of the loops over them. -/
lemma Inv.fuel (inv : v.Inv fl ul lk) : fl.length < Vm.fuel ∧ ul.length < Vm.fuel := by
  have le := inv.pool.length_le
  simp only [List.length_append] at le
  exact ⟨by unfold Vm.fuel; omega, by unfold Vm.fuel; omega⟩

/-- Blocks of the lists are non-empty and lie in the managed memory. -/
lemma Inv.within (inv : v.Inv fl ul lk) {i} (hi : i ∈ fl ++ ul) :
    0 < (v.slots i).pages ∧ v.start ≤ (v.slots i).addr ∧
      (v.slots i).addr + (v.slots i).pages * pageSize ≤ v.start + v.pages * pageSize := by
  have ly := inv.arena.layout
  have mem : v.blk i ∈ fl.map v.arena.blk ++ ul.map v.arena.blk := by
    rw [← List.map_append]
    exact List.mem_map_of_mem hi
  exact ⟨Nat.pos_of_mul_pos_right (ly.pos _ mem), ly.within _ mem⟩

/-- The policy switch finds a free node that is large enough, or reports that there is none. -/
lemma Inv.select (inv : v.Inv fl ul lk) (n : Nat) :
    Fits fl (fun i => (v.slots i).pages) n (v.select n) := by
  have hw : ∀ i ∈ fl, 0 < (v.slots i).pages ∧ (v.slots i).pages < 2 ^ 32 - 1 := by
    intro i hi
    obtain ⟨pos, lo, hi⟩ := inv.within (i := i) (by simp [hi])
    have := inv.room
    simp only [pageSize, kseg0] at hi this
    omega
  unfold Vm.select
  cases v.policy with
  | firstFit => exact firstFit_fits n inv.arena.free inv.fuel.1
  | bestFit => exact bestFit_fits n inv.arena.free inv.fuel.1 (fun i hi => (hw i hi).2)
  | worstFit => exact worstFit_fits n inv.arena.free inv.fuel.1 (fun i hi => (hw i hi).1)

/-- Taking `n` pages off a free node leaves a node `u` of exactly these pages in hand, unless the
front of the node is asked for and the pool is exhausted. -/
lemma Inv.detach {p s q n} (inv : v.Inv (p ++ s :: q) ul lk) (h0 : 0 < n)
    (hs : n ≤ (v.slots s).pages) :
    (v.detach n p.getLast? s = .error (.panic "Not enough memory for VM system!\n") ∧
      (p ++ s :: q ++ ul ++ lk).length = maxNodes) ∨
    ∃ v₁ u q', v.detach n p.getLast? s = .ok (v₁, u) ∧
      v₁.arena.Hand v.start (v.start + v.pages * pageSize) p q' ul u ∧
      v₁.Pool (u :: (p ++ q' ++ ul ++ lk)) ∧
      (v₁.slots u).addr = (v.slots s).addr ∧ (v₁.slots u).pages = n ∧ Same v v₁ ∧
      ∀ i ∈ ul, v₁.blk i = v.blk i := by
  obtain ⟨pos, lo, hi⟩ := inv.within (i := s) (by simp)
  have room := inv.room
  have start := inv.start_pos
  have nd := inv.arena.nodup
  unfold Vm.detach
  by_cases eq : (v.slots s).pages = n
  · -- the whole node changes lists
    obtain ⟨same, blks⟩ := v.same_setFreeLink p.getLast? (v.next s)
    have ar := v.arena_setFreeLink p.getLast? (v.next s)
    refine .inr ⟨v.setFreeLink p.getLast? (v.next s), s, q, by simp [eq], ?_, ?_, (blks s).1,
      (blks s).2.trans eq, same, fun i _ => by rw [blks.blk]⟩
    · rw [ar]
      exact inv.arena.detachWhole
    · refine (inv.pool.congr (fun i => (blks i).1)).perm ?_
      simp
  · -- a node from the pool takes the front of the block
    have lt : n < (v.slots s).pages := by omega
    have mem : s ∈ p ++ s :: q ++ ul ++ lk := by simp
    obtain ⟨al, low⟩ := inv.pool.addr s mem
    have ne0 : (v.slots s).addr ≠ 0 := by omega
    cases inv.pool.allocNode n ne0 al low with
    | inl full => exact .inl ⟨by simp [eq, full.1], full.2⟩
    | inr got =>
      obtain ⟨u, nu, e, pool⟩ := got
      have us : s ≠ u := fun h => nu (h ▸ mem)
      have es : (v.setSlot u ⟨(v.slots s).addr, n, none⟩).slots s = v.slots s :=
        Function.update_of_ne us _ _
      simp only [pageSize, kseg0] at room hi
      have e0 : wmul 32 n pageSize = n * pageSize := wmul_of_lt (by simp only [pageSize]; omega)
      have e1 : wadd 32 (v.slots s).addr (n * pageSize) = (v.slots s).addr + n * pageSize :=
        wadd_of_lt (by simp only [pageSize]; omega)
      have e2 : wsub 32 (v.slots s).pages n = (v.slots s).pages - n := wsub_of_le hs (by omega)
      have fresh : u ∉ p ++ s :: q ++ ul := fun h => nu (List.mem_append_left _ h)
      have size : (v.blk s).size - n * pageSize = ((v.slots s).pages - n) * pageSize :=
        (Nat.sub_mul _ _ _).symm
      have hn : n * pageSize < (v.blk s).size := Nat.mul_lt_mul_of_pos_right lt (by decide)
      generalize v₁e : v.setSlot u ⟨(v.slots s).addr, n, none⟩ = v₁ at e pool es
      have ag : Arena.Agree v.arena v₁.arena [u] := v₁e ▸ v.agree_setSlot u _
      have bu : v₁.blk u = ⟨(v.blk s).start, n * pageSize⟩ := by
        rw [← v₁e]
        simp [Vm.blk, setSlot]
      have ar := v₁.arena_setSlot s ⟨(v.slots s).addr + n * pageSize, (v.slots s).pages - n, v₁.next s⟩
      -- the link of the split node is written back unchanged
      have nx : Function.update v₁.next s (v₁.next s) = v₁.next := Function.update_eq_self _ _
      simp only [Arena.setNext, Arena.setBlk, arena_next, nx] at ar
      refine .inr ⟨v₁.setSlot s ⟨(v.slots s).addr + n * pageSize, (v.slots s).pages - n, v₁.next s⟩, u,
        s :: q, ?_, ?_, ?_, ?_, ?_, ?_, ?_⟩
      · simp [eq, e, es, e0, e1, e2, Vm.next]
      · have hd := inv.arena.detachFront fresh (Nat.mul_pos h0 (by decide)) hn ag
          (by rw [← v₁e]; rfl) (by rw [← v₁e]; rfl) bu
        rw [arena_blk, size] at hd
        rw [ar]
        exact hd
      · refine Pool.setSlot ?_ (i := s) (by simp) ?_ ?_ ?_
        · refine pool.perm (List.Perm.cons u ?_)
          simp
        · show (v.slots s).addr + n * pageSize ≠ 0
          omega
        · exact Dvd.dvd.add al (Dvd.intro_left n rfl)
        · simp only [pageSize, kseg0]
          omega
      · rw [show (v₁.setSlot s _).slots u = v₁.slots u from Function.update_of_ne us.symm _ _, ← v₁e]
        simp [setSlot]
      · rw [show (v₁.setSlot s _).slots u = v₁.slots u from Function.update_of_ne us.symm _ _, ← v₁e]
        simp [setSlot]
      · rw [← v₁e]
        exact ⟨rfl, rfl, rfl, rfl⟩
      · intro i mi
        have iu : i ≠ u := fun h => fresh (by simp [← h, mi])
        have is : i ≠ s := fun h => (List.nodup_append.1 nd).2.2 s (by simp) i mi h.symm
        have h1 := (v₁.agree_setSlot s ⟨(v.slots s).addr + n * pageSize, (v.slots s).pages - n,
          v₁.next s⟩ i (by simpa using is)).2
        exact h1.trans (ag i (by simpa using iu)).2

/-- The node in hand goes to its place on the used list. -/
lemma insertUsed_spec {lo hi p q u} (hd : v.arena.Hand lo hi p q ul u) (fuel : ul.length < Vm.fuel) :
    ∃ a b v', ul = a ++ b ∧ v.insertUsed u = some v' ∧ v'.arena.Inv lo hi (p ++ q) (a ++ u :: b) ∧
      Same v v' ∧ SameBlks v v' := by
  obtain ⟨a, b, rfl, ha, hb, e⟩ :=
    walk_spec (fun i => (v.slots i).addr < (v.slots u).addr) none hd.used fuel
  rw [lastOr_none] at e
  have e' : walk v.next (fun i => (v.slots i).addr < (v.slots u).addr) Vm.fuel none v.usedBlks
      = some (a.getLast?, b.head?) := e
  obtain ⟨same₁, blks₁⟩ := v.same_setNext u b.head?
  obtain ⟨same₂, blks₂⟩ := (v.setNext u b.head?).same_setUsedLink a.getLast? (some u)
  refine ⟨a, b, (v.setNext u b.head?).setUsedLink a.getLast? (some u), rfl, by simp [insertUsed, e'],
    ?_, same₁.trans same₂, blks₁.trans blks₂⟩
  rw [arena_setUsedLink, arena_setNext]
  apply hd.attachUsed
  · exact fun i hi => by simpa using ha i hi
  · exact fun i hi => by simpa using hb i hi

/-- `alloc_ppages` returns unless the pool is exhausted. It changes nothing when it reports `0`, and
otherwise moves `n` pages from the front of a free block to a used node. -/
lemma Inv.alloc (inv : v.Inv fl ul lk) (n : Nat) :
    (allocPpages v n = .ok (v, 0) ∧ (n = 0 ∨ ∀ i ∈ fl, (v.slots i).pages < n)) ∨
    (allocPpages v n = .error (.panic "Not enough memory for VM system!\n") ∧ n ≠ 0 ∧
      (fl ++ ul ++ lk).length = maxNodes ∧ ∃ s ∈ fl, n ≤ (v.slots s).pages) ∨
    ∃ v' p s q q' a b u, fl = p ++ s :: q ∧ ul = a ++ b ∧ n ≠ 0 ∧ n ≤ (v.slots s).pages ∧
      allocPpages v n = .ok (v', (v.slots s).addr) ∧ v'.Inv (p ++ q') (a ++ u :: b) lk ∧
      v'.blk u = ⟨(v.slots s).addr, n * pageSize⟩ ∧ (∀ i ∈ a ++ b, v'.blk i = v.blk i) ∧
      v'.start = v.start ∧ v'.pages = v.pages := by
  unfold allocPpages
  by_cases hz : n = 0
  · exact .inl ⟨by simp [hz], .inl hz⟩
  by_cases hf : v.freePages < n ∨ v.freeBlks = none
  · refine .inl ⟨by simp [hz, hf], .inr ?_⟩
    -- the quick reject is right: no free block is larger than their total
    intro i hi
    cases hf with
    | inl lt =>
      have hle : (v.blk i).size ≤ total (fl.map v.blk) :=
        List.single_le_sum (by simp) _ (List.mem_map_of_mem (List.mem_map_of_mem hi))
      rw [← inv.freePages, blk_size] at hle
      exact lt_of_le_of_lt (Nat.le_of_mul_le_mul_right hle (by decide)) lt
    | inr nil =>
      have hc : Chain v.next v.freeBlks fl := inv.arena.free
      rw [hc.unique (show Chain v.next v.freeBlks [] from nil)] at hi
      cases hi
  cases inv.select n with
  | inl hno => exact .inl ⟨by simp [hz, hf, hno.1, bind, Except.bind], .inr hno.2⟩
  | inr hyes =>
    obtain ⟨p, s, q, rfl, hs, sel⟩ := hyes
    cases inv.detach (Nat.pos_of_ne_zero hz) hs with
    | inl full =>
      exact .inr (.inl ⟨by simp [hz, hf, sel, full.1, bind, Except.bind], hz, full.2, s, by simp, hs⟩)
    | inr got =>
      obtain ⟨v₁, u, q', ed, hd, pool, addr, pages, same, keep⟩ := got
      obtain ⟨a, b, v₂, rfl, ei, ia, same₂, blks⟩ := insertUsed_spec hd inv.fuel.2
      have same' := same.trans same₂
      have addr₂ : (v₂.slots u).addr = (v.slots s).addr := (blks u).1.trans addr
      have pages₂ : (v₂.slots u).pages = n := (blks u).2.trans pages
      have bu : v₂.blk u = ⟨(v.slots s).addr, n * pageSize⟩ := by rw [Vm.blk, addr₂, pages₂]
      have keep₂ : ∀ i ∈ a ++ b, v₂.blk i = v.blk i := by
        intro i hi
        rw [blks.blk]
        exact keep i hi
      have res : allocPpages v n
          = .ok ({ v₂ with freePages := wsub 32 v₂.freePages n }, (v.slots s).addr) := by
        simp [allocPpages, hz, hf, sel, ed, ei, addr₂, pages₂, bind, Except.bind]
      unfold allocPpages at res
      refine .inr (.inr ⟨{ v₂ with freePages := wsub 32 v₂.freePages n }, p, s, q, q', a, b, u, rfl, rfl,
        hz, hs, res, ⟨?_, ?_, ?_, ?_, ?_, ?_⟩, bu, keep₂, same'.start, same'.pages⟩)
      · show v₂.arena.Inv v₂.start (v₂.start + v₂.pages * pageSize) _ _
        rw [same'.start, same'.pages]
        exact ia
      · have perm : (u :: (p ++ q' ++ (a ++ b) ++ lk)).Perm (p ++ q' ++ (a ++ u :: b) ++ lk) := by
          have mid : (p ++ (q' ++ a) ++ u :: (b ++ lk)).Perm (u :: (p ++ (q' ++ a) ++ (b ++ lk))) :=
            List.perm_middle
          simpa using mid.symm
        exact ((pool.congr (fun i => (blks i).1)).perm perm).congr (fun _ => rfl)
      · -- the used list gains `n` pages, so the free list loses as many
        have tot := ia.layout.total_eq
        have tot₀ := inv.arena.layout.total_eq
        have free₀ := inv.freePages
        have room := inv.room
        have eab := congrArg total (List.map_congr_left keep₂)
        simp only [arena_blk, List.map_append, List.map_cons, total_append, total_cons, bu]
          at tot tot₀ free₀ eab
        have lt : v.freePages < 2 ^ 32 := by
          simp only [pageSize, kseg0] at free₀ room tot₀
          omega
        show wsub 32 v₂.freePages n * pageSize = total ((p ++ q').map v₂.blk)
        rw [same'.freePages, wsub_of_le (by omega) lt, Nat.sub_mul, List.map_append, total_append]
        omega
      · show 0 < v₂.start
        rw [same'.start]
        exact inv.start_pos
      · show v₂.start + v₂.pages * pageSize ≤ kseg0
        rw [same'.start, same'.pages]
        exact inv.room
      · show kseg0 ≤ v₂.vmSpace ∧ v₂.vmSpace + vmPages * pageSize ≤ 2 ^ 32
        rw [same'.vmSpace]
        exact inv.space

/-- The block of `u` touches one of the blocks of `l`. -/
def Touches (v : Vm) (l : List Nat) (u : Nat) : Prop :=
  ∃ i ∈ l, (v.blk i).stop = (v.blk u).start ∨ (v.blk u).stop = (v.blk i).start

/-- Where the pool lies: inside the kernel segment. -/
abbrev Space (v : Vm) : Prop := kseg0 ≤ v.vmSpace ∧ v.vmSpace + vmPages * pageSize ≤ 2 ^ 32

/-- Node pointers are addresses of the kernel segment. -/
lemma nodeAddr_high (space : v.Space) {i} (hi : i < maxNodes) : kseg0 ≤ v.nodeAddr i := by
  have e : maxNodes = 5461 := by decide
  obtain ⟨low, top⟩ := space
  simp only [vmPages, pageSize, kseg0] at low top
  have e1 : wmul 32 i nodeSize = i * nodeSize := wmul_of_lt (by simp only [nodeSize]; omega)
  rw [nodeAddr, e1, wadd_of_lt (by simp only [nodeSize]; omega)]
  simp only [kseg0]
  omega

/-- Merging `y` into `x` only writes `x`; the slot of `y` stays as it is. -/
lemma merge_spec {x y} (space : v.Space) (pool : v.Pool l) (hx : x ∈ l) (hy : y ∈ l)
    (fit : (v.slots x).pages + (v.slots y).pages < 2 ^ 32) :
    (v.merge x y).arena = (v.arena.setBlk x ⟨(v.blk x).start, (v.blk x).size + (v.blk y).size⟩).setNext x
        (v.next y) ∧
      (v.merge x y).Pool l ∧ Same v (v.merge x y) ∧ ∀ i, i ≠ x → (v.merge x y).blk i = v.blk i := by
  have pool' : (v.setSlot x ⟨(v.slots x).addr, (v.slots x).pages + (v.slots y).pages, v.next y⟩).Pool l :=
    pool.setSlot hx ((pool.mem x).1 hx).2 (pool.addr x hx).1 (pool.addr x hx).2
  have high : kseg0 ≤ v.nodeAddr y := nodeAddr_high space ((pool.mem y).1 hy).1
  have e : v.merge x y
      = v.setSlot x ⟨(v.slots x).addr, (v.slots x).pages + (v.slots y).pages, v.next y⟩ := by
    rw [merge, wadd_of_lt fit]
    exact pool'.freeNode_high high
  rw [e]
  refine ⟨?_, pool', ⟨rfl, rfl, rfl, rfl⟩, ?_⟩
  · rw [arena_setSlot, blk_start, blk_size, blk_size, ← Nat.add_mul]
  · intro i hi
    exact (v.agree_setSlot x _ i (by simpa using hi)).2

section Join

variable {lo hi : Nat} {p q : List Nat} {u : Nat}

/-- Inside the managed memory the adjacency test of the source is adjacency. -/
lemma follows_iff {x y} (h : (v.blk x).stop < 2 ^ 32) :
    v.follows x y ↔ (v.blk x).stop = (v.blk y).start := by
  simp only [Block.stop, blk_start, blk_size] at h
  have e : wmul 32 (v.slots x).pages pageSize = (v.slots x).pages * pageSize := wmul_of_lt (by omega)
  rw [follows, e, wadd_of_lt h, eq_comm]
  rfl

/-- The first compaction step. -/
lemma joinPrev_spec (pl : v.arena.Placed lo hi p q ul u) (room : hi ≤ kseg0) (space : v.Space)
    (pool : v.Pool l) (sub : ∀ i ∈ p ++ u :: q, i ∈ l) :
    (v.joinPrev p.getLast? u = (v, u) ∧ v.arena.Clear p u) ∨
    ∃ p' x v', p = p' ++ [x] ∧ (v.blk x).stop = (v.blk u).start ∧
      v.joinPrev p.getLast? u = (v', x) ∧ v'.arena.Placed lo hi p' q ul x ∧ v'.arena.Clear p' x ∧
      v'.Pool l ∧ Same v v' ∧ ∀ i, i ≠ x → v'.blk i = v.blk i := by
  induction p using List.reverseRecOn with
  | nil => exact .inl ⟨rfl, by simp [Arena.Clear]⟩
  | append_singleton p x _ =>
    have wx := pl.layout.within (v.blk x) (by simp)
    have wu := pl.layout.within (v.blk u) (by simp)
    simp only [kseg0] at room
    rw [List.getLast?_concat, joinPrev]
    by_cases touch : (v.blk x).stop = (v.blk u).start
    · have fit : (v.slots x).pages + (v.slots u).pages < 2 ^ 32 := by
        simp only [Block.stop, blk_start, blk_size, pageSize] at touch wu
        omega
      obtain ⟨ar, pool', same, keep⟩ := merge_spec space pool (sub x (by simp)) (sub u (by simp)) fit
      have ag : Arena.Agree ((v.arena.setBlk x ⟨(v.blk x).start, (v.blk x).size + (v.blk u).size⟩).setNext
          x (v.next u)) (v.merge x u).arena [u] := fun i _ => by rw [ar]; exact ⟨rfl, rfl⟩
      have placed := pl.joinPrev touch ag (by rw [ar]; rfl) (by rw [ar]; rfl)
      refine .inr ⟨p, x, v.merge x u, rfl, touch, ?_, placed.1, placed.2, pool', same, keep⟩
      rw [if_pos ((follows_iff (by omega)).2 touch)]
    · refine .inl ⟨?_, ?_⟩
      · rw [if_neg (fun h => touch ((follows_iff (by omega)).1 h))]
      · intro i hi
        rw [List.getLast?_concat] at hi
        cases hi
        exact touch

/-- The second compaction step. -/
lemma joinNext_spec (pl : v.arena.Placed lo hi p q ul u) (clear : v.arena.Clear p u)
    (room : hi ≤ kseg0) (space : v.Space) (pool : v.Pool l) (sub : ∀ i ∈ p ++ u :: q, i ∈ l) :
    (v.joinNext u q.head? = v ∧ v.arena.Inv lo hi (p ++ u :: q) ul) ∨
    ∃ y q' v', q = y :: q' ∧ (v.blk u).stop = (v.blk y).start ∧ v.joinNext u q.head? = v' ∧
      v'.arena.Inv lo hi (p ++ u :: q') ul ∧ v'.Pool l ∧ Same v v' ∧
      ∀ i, i ≠ u → v'.blk i = v.blk i := by
  cases q with
  | nil => exact .inl ⟨rfl, pl.inv clear (by simp)⟩
  | cons y q =>
    have wu := pl.layout.within (v.blk u) (by simp)
    have wy := pl.layout.within (v.blk y) (by simp)
    simp only [kseg0] at room
    rw [List.head?_cons, joinNext]
    by_cases touch : (v.blk u).stop = (v.blk y).start
    · have fit : (v.slots u).pages + (v.slots y).pages < 2 ^ 32 := by
        simp only [Block.stop, blk_start, blk_size, pageSize] at touch wy
        omega
      obtain ⟨ar, pool', same, keep⟩ := merge_spec space pool (sub u (by simp)) (sub y (by simp)) fit
      have ag : Arena.Agree ((v.arena.setBlk u ⟨(v.blk u).start, (v.blk u).size + (v.blk y).size⟩).setNext
          u (v.next y)) (v.merge u y).arena [y] := fun i _ => by rw [ar]; exact ⟨rfl, rfl⟩
      have inv := pl.joinNext clear touch ag (by rw [ar]; rfl) (by rw [ar]; rfl)
      refine .inr ⟨y, q, v.merge u y, rfl, touch, ?_, inv, pool', same, keep⟩
      rw [if_pos ((follows_iff (by omega)).2 touch)]
    · refine .inl ⟨?_, pl.inv clear ?_⟩
      · rw [if_neg (fun h => touch ((follows_iff (by omega)).1 h))]
      · intro i hi
        cases hi
        exact touch

/-- Elements that are moved to the end. -/
lemma perm_drop {α : Type} (p : List α) (x : α) (d q : List α) :
    (p ++ x :: (d ++ q)).Perm (p ++ x :: q ++ d) := by
  rw [List.append_assoc, List.cons_append]
  exact (List.perm_append_comm.cons x).append_left p

/-- Compaction of the free list around a node that was just inserted. The nodes in `d` drop out of
the list; there are none exactly when the node touches no other free block. -/
lemma compact_spec (pl : v.arena.Placed lo hi p q ul u) (room : hi ≤ kseg0) (space : v.Space)
    (pool : v.Pool l) (sub : ∀ i ∈ p ++ u :: q, i ∈ l) :
    ∃ v' fl' d, (v.joinPrev p.getLast? u).1.joinNext (v.joinPrev p.getLast? u).2 q.head? = v' ∧
      v'.arena.Inv lo hi fl' ul ∧ v'.Pool l ∧ Same v v' ∧ (∀ i ∈ ul, v'.blk i = v.blk i) ∧
      (p ++ u :: q).Perm (fl' ++ d) ∧ (d = [] ↔ ¬ v.Touches (p ++ q) u) := by
  have out : ∀ i ∈ ul, i ∉ p ++ u :: q :=
    fun i hi h => (List.nodup_append.1 pl.nodup).2.2 i h i hi rfl
  cases joinPrev_spec pl room space pool sub with
  | inl stay =>
    rw [stay.1]
    cases joinNext_spec pl stay.2 room space pool sub with
    | inl stay' =>
      refine ⟨v, p ++ u :: q, [], stay'.1, stay'.2, pool, ⟨rfl, rfl, rfl, rfl⟩, fun _ _ => rfl,
        by simp, ?_⟩
      have ne := stay'.2.separated.stop_ne_start
        (fun b hb => pl.layout.pos b (List.mem_append_left _ hb))
      refine ⟨fun _ => ?_, fun _ => rfl⟩
      rintro ⟨i, hi, h⟩
      have mi : v.blk i ∈ (p ++ u :: q).map v.blk := by
        apply List.mem_map_of_mem
        simp only [List.mem_append, List.mem_cons] at hi ⊢
        tauto
      have mu : v.blk u ∈ (p ++ u :: q).map v.blk := List.mem_map_of_mem (by simp)
      cases h with
      | inl h => exact ne _ mi _ mu h
      | inr h => exact ne _ mu _ mi h
    | inr join =>
      obtain ⟨y, q', v', rfl, touch, e, inv, pool', same, keep⟩ := join
      refine ⟨v', p ++ u :: q', [y], e, inv, pool', same, ?_, ?_, by simp, ?_⟩
      · intro i hi
        exact keep i (fun h => out i hi (by simp [h]))
      · exact perm_drop p u [y] q'
      · intro quiet
        exact absurd ⟨y, by simp, .inr touch⟩ quiet
  | inr join =>
    obtain ⟨p', x, v₁, rfl, touch, e, pl₁, clear₁, pool₁, same₁, keep₁⟩ := join
    have loud : v.Touches (p' ++ [x] ++ q) u := ⟨x, by simp, .inl touch⟩
    have sub₁ : ∀ i ∈ p' ++ x :: q, i ∈ l := by
      intro i hi
      apply sub
      simp only [List.mem_append, List.mem_cons] at hi ⊢
      tauto
    have space₁ : v₁.Space := by
      unfold Space
      rw [same₁.vmSpace]
      exact space
    have keep₁' : ∀ i ∈ ul, v₁.blk i = v.blk i := by
      intro i hi
      exact keep₁ i (fun h => out i hi (by simp [h]))
    rw [e]
    cases joinNext_spec pl₁ clear₁ room space₁ pool₁ sub₁ with
    | inl stay =>
      refine ⟨v₁, p' ++ x :: q, [u], stay.1, stay.2, pool₁, same₁, keep₁', ?_, by simp,
        fun quiet => absurd loud quiet⟩
      simpa using perm_drop p' x [u] q
    | inr join' =>
      obtain ⟨y, q', v', rfl, -, e', inv, pool', same, keep⟩ := join'
      refine ⟨v', p' ++ x :: q', [u, y], e', inv, pool', same₁.trans same, ?_, ?_, by simp,
        fun quiet => absurd loud quiet⟩
      · intro i hi
        rw [keep i (fun h => out i hi (by simp [h])), keep₁' i hi]
      · simpa using perm_drop p' x [u, y] q'

end Join

/-- A used node goes to its place on the free list. -/
lemma Inv.insertFree {a u b} (inv : v.Inv fl (a ++ u :: b) lk) :
    ∃ p q v', fl = p ++ q ∧
      (v.setUsedLink a.getLast? (v.next u)).insertFree u = some (v', p.getLast?, q.head?) ∧
      v'.arena.Placed v.start (v.start + v.pages * pageSize) p q (a ++ b) u ∧ SameBlks v v' ∧
      Same { v with freePages := wadd 32 v.freePages (v.slots u).pages } v' := by
  obtain ⟨ndf, -, djfu⟩ := List.nodup_append.1 inv.arena.nodup
  have djf : ∀ i ∈ a, i ∉ fl := fun i hi hf => djfu i hf i (by simp [hi]) rfl
  obtain ⟨same₁, blks₁⟩ := v.same_setUsedLink a.getLast? (v.next u)
  have ar₁ := v.arena_setUsedLink a.getLast? (v.next u)
  have free₁ : Chain (v.setUsedLink a.getLast? (v.next u)).arena.next
      (v.setUsedLink a.getLast? (v.next u)).arena.free fl := by
    rw [ar₁]
    exact inv.arena.free.setLink_frame djf
  generalize v.setUsedLink a.getLast? (v.next u) = v₁ at *
  obtain ⟨p, q, rfl, hp, hq, e₁⟩ :=
    walk_spec (fun i => (v₁.slots i).addr < (v₁.slots u).addr) none free₁ inv.fuel.1
  have e₁' : walk v₁.next (fun i => (v₁.slots i).addr < (v₁.slots u).addr) Vm.fuel none v₁.freeBlks
      = some (lastOr none p, q.head?) := e₁
  rw [lastOr_none] at e₁'
  simp only [(blks₁ _).1, decide_eq_true_eq, not_lt] at hp hq
  obtain ⟨same₂, blks₂⟩ := v₁.same_setNext u q.head?
  obtain ⟨same₃, blks₃⟩ := (v₁.setNext u q.head?).same_setFreeLink p.getLast? (some u)
  have ar₂ := (v₁.setNext u q.head?).arena_setFreeLink p.getLast? (some u)
  rw [arena_setNext, ar₁] at ar₂
  have pl := inv.arena.placeFree (p := p) (q := q) hp hq
  rw [arena_next, ← ar₂] at pl
  have same := same₁.trans (same₂.trans same₃)
  have blks := blks₁.trans (blks₂.trans blks₃)
  generalize v₂e : (v₁.setNext u q.head?).setFreeLink p.getLast? (some u) = v₂ at *
  refine ⟨p, q, { v₂ with freePages := wadd 32 v₂.freePages (v₂.slots u).pages }, rfl,
    by simp [Vm.insertFree, e₁', v₂e], pl, blks, ⟨same.start, same.pages, ?_, same.vmSpace⟩⟩
  show wadd 32 _ _ = wadd 32 _ _
  rw [same.freePages, (blks u).2]

/-- `free_ppages` returns. It changes nothing when no used block starts at `addr`, and otherwise moves
that block to the free list; the slots `d` of the nodes merged away leave the lists but not the
pool. -/
lemma Inv.free (inv : v.Inv fl ul lk) (addr : Nat) :
    (freePpages v addr = .ok v ∧ ∀ i ∈ ul, (v.slots i).addr ≠ addr) ∨
    ∃ v' fl' a u b d, ul = a ++ u :: b ∧ (v.slots u).addr = addr ∧ freePpages v addr = .ok v' ∧
      v'.Inv fl' (a ++ b) (d ++ lk) ∧ (∀ i ∈ a ++ b, v'.blk i = v.blk i) ∧
      (fl'.length + d.length = fl.length + 1) ∧ (d = [] ↔ ¬ v.Touches fl u) ∧
      v'.start = v.start ∧ v'.pages = v.pages := by
  unfold freePpages
  by_cases hz : addr = 0
  · refine .inl ⟨by simp [hz], ?_⟩
    intro i hi
    have := (inv.within (i := i) (by simp [hi])).2.1
    have := inv.start_pos
    omega
  obtain ⟨a, b, rfl, ha, hb, e⟩ :=
    walk_spec (fun i => (v.slots i).addr != addr) none inv.arena.used inv.fuel.2
  have e' : walk v.next (fun i => (v.slots i).addr != addr) Vm.fuel none v.usedBlks
      = some (lastOr none a, b.head?) := e
  rw [lastOr_none] at e'
  cases b with
  | nil =>
    refine .inl ⟨by simp [hz, e', bind, Except.bind], ?_⟩
    intro i hi
    simpa using ha i (by simpa using hi)
  | cons u b =>
    have hu : (v.slots u).addr = addr := by simpa using hb u rfl
    obtain ⟨p, q, v₁, rfl, e₁, pl₁, blks₁, same₁⟩ := inv.insertFree
    have pool₁ : v₁.Pool (p ++ q ++ (a ++ u :: b) ++ lk) := inv.pool.congr (fun i => (blks₁ i).1)
    have space₁ : v₁.Space := by
      unfold Space
      rw [same₁.vmSpace]
      exact inv.space
    have sub : ∀ i ∈ p ++ u :: q, i ∈ p ++ q ++ (a ++ u :: b) ++ lk := by
      intro i hi
      simp only [List.mem_append, List.mem_cons] at hi ⊢
      tauto
    obtain ⟨v₂, fl', d, e₂, ia, pool₂, same₂, keep, perm, quiet⟩ :=
      compact_spec pl₁ inv.room space₁ pool₁ sub
    have same := same₁.trans same₂
    have keep' : ∀ i ∈ a ++ b, v₂.blk i = v.blk i := by
      intro i hi
      rw [keep i hi, blks₁.blk]
    have len := perm.length_eq
    have touch : v₁.Touches (p ++ q) u ↔ v.Touches (p ++ q) u := by simp only [Touches, blks₁.blk]
    simp only [List.length_append, List.length_cons] at len
    have res : freePpages v addr = .ok v₂ := by
      simp [freePpages, hz, e', e₁, e₂, bind, Except.bind]
    unfold freePpages at res
    refine .inr ⟨v₂, fl', a, u, b, d, rfl, hu, res, ⟨?_, ?_, ?_, ?_, ?_, ?_⟩, keep',
      by simp only [List.length_append]; omega, quiet.trans (not_congr touch), same.start, same.pages⟩
    · rw [same.start, same.pages]
      exact ia
    · refine pool₂.perm (List.perm_iff_count.2 ?_)
      intro i
      have cnt := List.perm_iff_count.1 perm i
      simp only [List.count_append, List.count_cons] at cnt ⊢
      omega
    · -- the used list loses the pages of `u`, so the free list gains as many
      have tot := ia.layout.total_eq
      have tot₀ := inv.arena.layout.total_eq
      have free₀ := inv.freePages
      have room := inv.room
      have eab := congrArg total (List.map_congr_left keep')
      simp only [arena_blk, List.map_append, List.map_cons, total_append, total_cons, blk_size]
        at tot tot₀ free₀ eab
      have lt : v.freePages + (v.slots u).pages < 2 ^ 32 := by
        simp only [pageSize, kseg0] at free₀ room tot₀
        omega
      rw [same.freePages, wadd_of_lt lt, Nat.add_mul]
      omega
    · rw [same.start]
      exact inv.start_pos
    · rw [same.start, same.pages]
      exact inv.room
    · rw [same.vmSpace]
      exact inv.space

end Vm

end PDS.Kern
