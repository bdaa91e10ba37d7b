import PDS.Lab1.ClientRun
import PDS.Lab1.HeapMove

/-!
# The clients agree

The heap of `heap.c` keeps the contract of an allocator (`heap_lawful`). A defragmentation moves every object, and the
pointers to the objects are then translated one after the other (`defrag_ok`). So the three programs write the same
(`clients_agree`).
-/

namespace PDS.Lab1
open Word Objects Extent Links

/-- The used blocks of a heap. -/
def HeapOk (room : Nat) (h : Heap) (l : Multiset Block) : Prop :=
  h.size = room ∧ ∃ fl ul dl, h.Inv fl ul dl ∧ ↑(ul.map h.blk) = l

section Heap

variable {room : Nat} {h h' : Heap} {fl ul dl : List Nat} {l : Multiset Block}

/-- What is stored in the blocks does not matter. -/
lemma Heap.Inv.setMem (inv : h.Inv fl ul dl) (m : Mem) : Heap.Inv { h with bytes := m } fl ul dl :=
  ⟨inv.arena, inv.dfrg, inv.dfrg_nodup, inv.dfrg_disj, inv.bound, inv.freeSize, inv.start_pos, inv.room⟩

/-- A block that the client has is a used block. -/
lemma HeapOk.mem {b : Block} (ok : HeapOk room h l) (hb : b ∈ l) :
    ∃ fl ul dl, h.Inv fl ul dl ∧ ∃ i ∈ ul, h.blk i = b := by
  obtain ⟨-, fl, ul, dl, inv, rfl⟩ := ok
  exact ⟨fl, ul, dl, inv, List.mem_map.1 (Multiset.mem_coe.1 hb)⟩

/-- `heap.c` is an allocator. -/
theorem heap_lawful (room : Nat) : Lawful heapAllocator room (HeapOk room) where
  apart := by
    rintro h b l ⟨-, fl, ul, dl, inv, eq⟩ c hc
    have ordered : Ordered (ul.map h.blk) := inv.arena.layout.used_ordered
    have pairs : (ul.map h.blk).Pairwise Block.Apart := ordered.imp fun le => .inl le
    obtain ⟨l', rfl⟩ := Quot.exists_rep l
    have perm : (ul.map h.blk).Perm (b :: l') := Multiset.coe_eq_coe.1 eq
    have pairs' := (List.Perm.pairwise_iff (R := Block.Apart) Or.symm perm).1 pairs
    exact (List.pairwise_cons.1 pairs').1 c (Multiset.mem_coe.1 hc)
  within := by
    intro h l ok b hb
    have size := ok.1
    obtain ⟨fl, ul, dl, inv, i, hi, rfl⟩ := ok.mem hb
    obtain ⟨-, le, le'⟩ := inv.within (List.mem_append_right fl hi)
    have pos := inv.start_pos
    have fit := inv.room
    refine ⟨by omega, by omega, ?_⟩
    rw [Block.stop] at le'
    omega
  setMem := by
    rintro h l m ⟨size, fl, ul, dl, inv, eq⟩
    exact ⟨size, fl, ul, dl, inv.setMem m, eq⟩
  mem_setMem _ _ := rfl
  alloc := by
    rintro h l n ⟨size, fl, ul, dl, inv, rfl⟩ pos lt
    obtain ⟨e, -⟩ | ⟨h', p, i, q, q', a, b, u, rfl, rfl, -, -, e, inv', new, -, bytes, -, size', -, other⟩ :=
      inv.alloc lt
    · exact ⟨h, 0, e, .inl rfl⟩
    · refine ⟨h', _, e, .inr ⟨align n, (align_spec lt).1, ?_, fun _ _ _ _ => congrFun bytes _⟩⟩
      refine ⟨size'.trans size, _, _, dl, inv', ?_⟩
      have map : (a ++ b).map h'.blk = (a ++ b).map h.blk := List.map_congr_left other
      rw [← map, ← new]
      exact Multiset.coe_eq_coe.2 (List.perm_middle.map h'.blk)
  free := by
    rintro h b l ⟨size, fl, ul, dl, inv, eq⟩
    have hb : b ∈ ul.map h.blk := by
      rw [← Multiset.mem_coe, eq]
      exact Multiset.mem_cons_self b l
    obtain ⟨i, hi, rfl⟩ := List.mem_map.1 hb
    have pos := inv.start_pos
    have within := inv.within (List.mem_append_right fl hi)
    obtain ⟨-, zero | none⟩ | ⟨h', fl', a, u, b, rfl, start, e, inv', other, -, bytes, -, size'⟩ :=
      inv.free (h.blk i).start
    · omega
    · exact absurd rfl (none i hi)
    · refine ⟨h', e, ⟨size'.trans size, fl', _, dl, inv', ?_⟩, fun _ _ _ _ => congrFun bytes _⟩
      have same : u = i := inv.start_inj (by simp) hi start
      have map : (a ++ b).map h'.blk = (a ++ b).map h.blk := List.map_congr_left other
      have perm : (↑((a ++ u :: b).map h.blk) : Multiset Block) = h.blk u ::ₘ ↑((a ++ b).map h.blk) :=
        Multiset.coe_eq_coe.2 (List.perm_middle.map h.blk)
      rw [perm, same] at eq
      rw [map]
      exact (Multiset.cons_inj_right _).1 eq

/-- `heapNewPointer` does not look at what is stored in the blocks. -/
lemma newPointer_setMem (h : Heap) (m : Mem) (p : Nat) : heapNewPointer { h with bytes := m } p = heapNewPointer h p := by
  have loop : ∀ n i j, newPointerLoop { h with bytes := m } p n i j = newPointerLoop h p n i j := by
    intro n
    induction n with
    | zero => exact fun _ _ => rfl
    | succ n ih =>
      intro i j
      cases i with
      | none => rfl
      | some i =>
        cases j with
        | none => rfl
        | some j =>
          by_cases start : (h.blk i).start = p
          · exact (if_pos start).trans (if_pos start).symm
          · exact (if_neg start).trans ((ih _ _).trans (if_neg start).symm)
  exact loop _ _ _

/-- Packing does not change the sizes. -/
lemma pack_sizes (lo : Nat) (l : List Block) : (pack lo l).map Block.size = l.map Block.size := by
  induction l generalizing lo with
  | nil => rfl
  | cons b l ih => rw [pack, List.map_cons, List.map_cons, ih]

/-- A block at its new address. -/
def moveBlock (f : Nat → Nat) (b : Block) : Block := ⟨f b.start, b.size⟩

/-- All objects are moved, and `heapNewPointer` finds them. -/
lemma defrag_holds {cells : Multiset (Block × Obj)} (hold : Defrag.base.Has (HeapOk room) h cells) (ne : cells ≠ 0) :
    ∃ h' f, heapDefrag h = some h' ∧ (∀ c ∈ cells, heapNewPointer h' c.1.start = some (f c.1.start)) ∧
      Defrag.base.Has (HeapOk room) h' (cells.map fun c => (moveBlock f c.1, c.2)) := by
  obtain ⟨⟨size, fl, ul, dl, inv, eq⟩, lies⟩ := hold
  have used : ∀ c ∈ cells, ∃ j ∈ ul, h.blk j = c.1 := by
    intro c hc
    have mem := Multiset.mem_map_of_mem Prod.fst hc
    rw [← eq] at mem
    exact List.mem_map.1 (Multiset.mem_coe.1 mem)
  obtain ⟨-, nil⟩ | ⟨h', dl', e, inv', packed, aligned, -, -, size', -⟩ := inv.defrag
  · obtain ⟨c, hc⟩ := Multiset.exists_mem_of_ne_zero ne
    obtain ⟨j, hj, -⟩ := used c hc
    rw [nil] at hj
    cases hj
  · have fuel : dl'.length < h'.fuel :=
      Nat.lt_succ_of_le (length_le_of_bound inv'.dfrg_nodup fun i hi => inv'.bound i (by simp [hi]))
    have found : ∀ j ∈ ul, heapNewPointer h' (h.blk j).start = some (h'.blk j).start := fun j hj =>
      (Heap.newPointer_of_aligned inv inv'.dfrg inv'.arena.used fuel aligned _).1 j hj rfl
    have moved := inv.defrag_bytes e packed
    have sizes : ∀ j ∈ ul, (h'.blk j).size = (h.blk j).size := by
      have map : (ul.map h'.blk).map Block.size = (ul.map h.blk).map Block.size := by rw [packed, pack_sizes]
      rw [List.map_map, List.map_map] at map
      exact List.map_inj_left.1 map
    obtain ⟨f, new⟩ : ∃ f : Nat → Nat, ∀ j ∈ ul, f (h.blk j).start = (h'.blk j).start := by
      refine ⟨fun p => (heapNewPointer h' p).getD 0, fun j hj => ?_⟩
      dsimp only
      rw [found j hj]
      rfl
    refine ⟨h', f, e, ?_, ?_, ?_⟩
    · intro c hc
      obtain ⟨j, hj, b⟩ := used c hc
      rw [← b, found j hj, new j hj]
    · refine ⟨size'.trans size, _, ul, dl', inv', ?_⟩
      rw [Multiset.map_map]
      have blocks : ul.map h'.blk = (ul.map h.blk).map (moveBlock f) := by
        rw [List.map_map]
        refine List.map_congr_left fun j hj => ?_
        rw [Function.comp_apply, moveBlock, new j hj, ← sizes j hj]
      rw [blocks, ← Multiset.map_coe, eq, Multiset.map_map]
      rfl
    · intro _ mem
      obtain ⟨c, hc, rfl⟩ := Multiset.mem_map.1 mem
      obtain ⟨j, hj, b⟩ := used c hc
      obtain ⟨le, at_⟩ := lies c hc
      refine ⟨le, objKind.move at_ fun k lt => ?_⟩
      have bytes := moved j hj k (by rw [b]; exact lt.trans_le le)
      rw [← new j hj, b] at bytes
      exact bytes

/-- The pointer that is found. -/
lemma newPointer_ok {p q : Nat} (e : heapNewPointer h p = some q) : newPointer h p = .ok q := by
  rw [newPointer, e]

/-- The strings get their new addresses. -/
lemma moveLoop_spec {F : Multiset (Block × Obj)} {head b : Block} {f : Nat → Nat} {cap : Nat} {rest : List Nat}
    (done : List Nat)
    (hold : Defrag.base.Has (HeapOk room) h
      ((b, .ptrs (done ++ rest)) ::ₘ (head, .sarr b.start (done ++ rest).length cap) ::ₘ F))
    (found : ∀ p ∈ rest, heapNewPointer h p = some (f p)) (small : ∀ p ∈ rest, f p < 2 ^ 64) :
    ∃ h', Defrag.moveLoop head.start rest.length done.length h = .ok h' ∧ Defrag.base.Has (HeapOk room) h'
      ((b, .ptrs (done ++ rest.map f)) ::ₘ (head, .sarr b.start (done ++ rest).length cap) ::ₘ F) := by
  induction rest generalizing h done with
  | nil => exact ⟨h, rfl, hold⟩
  | cons p rest ih =>
    have law : Lawful Defrag.base.toAllocator room (HeapOk room) := heap_lawful room
    have record : (head, Obj.sarr b.start (done ++ p :: rest).length cap) ∈ (b, .ptrs (done ++ p :: rest)) ::ₘ
        (head, Obj.sarr b.start (done ++ p :: rest).length cap) ::ₘ F := by simp
    have at_ : (done ++ p :: rest)[done.length]? = some p := by simp
    have first := found p List.mem_cons_self
    rw [List.length_cons, Defrag.moveLoop, array_eq hold record, ptr_eq hold (Multiset.mem_cons_self _ _) at_,
      newPointer_ok first]
    have hold₁ := setPtr_spec (i := done.length) law hold (by simp) (small p List.mem_cons_self)
    have set : (done ++ p :: rest).set done.length (f p) = (done ++ [f p]) ++ rest := by simp
    have length : (done ++ p :: rest).length = ((done ++ [f p]) ++ rest).length := by simp
    rw [set, length] at hold₁
    have found₁ : ∀ q ∈ rest, heapNewPointer (Defrag.base.setPtr h b.start done.length (f p)) q = some (f q) :=
      fun q hq => (newPointer_setMem h _ q).trans (found q (List.mem_cons_of_mem _ hq))
    obtain ⟨h', e, hold'⟩ := ih _ hold₁ found₁ fun q hq => small q (List.mem_cons_of_mem _ hq)
    rw [List.length_append, List.length_singleton] at e
    refine ⟨h', e, ?_⟩
    rw [length]
    rwa [List.append_assoc] at hold'

/-- The lines at their new addresses. -/
def moveLines (f : Nat → Nat) (l : List Line) : List Line := l.map fun e => (moveBlock f e.1, e.2)

/-- The strings of the lines that have been moved. -/
lemma strs_moveLines (f : Nat → Nat) (l : List Line) :
    (strs l).map (fun c => (moveBlock f c.1, c.2)) = strs (moveLines f l) := by
  rw [strs, strs, Multiset.map_coe, moveLines, List.map_map, List.map_map]
  rfl

/-- The starts of the lines that have been moved. -/
lemma starts_moveLines (f : Nat → Nat) (l : List Line) : starts (moveLines f l) = (starts l).map f := by
  rw [starts, starts, moveLines, List.map_map, List.map_map]
  rfl

/-- The texts of the lines that have been moved. -/
lemma texts_moveLines (f : Nat → Nat) (l : List Line) : texts (moveLines f l) = texts l := by
  rw [texts, texts, moveLines, List.map_map]
  rfl

/-- After the moves the record and the array still hold the old pointers; each of them is translated. -/
lemma movePointers_spec {F : Multiset (Block × Obj)} {x : SArr} {f : Nat → Nat} {saved : List Line} (fits : x.Fits)
    (pointers : x.ps = starts saved)
    (hold : Defrag.base.Has (HeapOk room) h
      (x.cells.map (fun c => (moveBlock f c.1, c.2)) + (strs (moveLines f saved) + F)))
    (array : ∀ b ∈ x.body, 0 < b.start ∧ heapNewPointer h b.start = some (f b.start))
    (found : ∀ e ∈ saved, heapNewPointer h e.1.start = some (f e.1.start)) :
    ∃ h' x', Defrag.movePointers h (f x.head.start) = .ok h' ∧ SArr.head x' = moveBlock f x.head ∧ x'.Fits ∧
      x'.ps = starts (moveLines f saved) ∧
      Defrag.base.Has (HeapOk room) h' (x'.cells + (strs (moveLines f saved) + F)) := by
  have law : Lawful Defrag.base.toAllocator room (HeapOk room) := heap_lawful room
  obtain ⟨head, body, cap, ps⟩ := x
  dsimp only at pointers array ⊢
  cases body with
  | none =>
    obtain ⟨rfl, rfl⟩ : cap = 0 ∧ ps = [] := fits
    obtain rfl : saved = [] := List.map_eq_nil_iff.1 pointers.symm
    have hold₁ : Defrag.base.Has (HeapOk room) h
        ((SArr.mk (moveBlock f head) none 0 []).cells + (strs (moveLines f []) + F)) :=
      hold.of_eq (by simp [SArr.cells])
    have zero : Defrag.base.array h (f head.start) = 0 :=
      array_eq (b := moveBlock f head) hold₁ (Multiset.mem_add.2 (.inl (Multiset.mem_singleton_self _)))
    rw [Defrag.movePointers, zero, if_neg (not_not.2 rfl)]
    exact ⟨h, ⟨moveBlock f head, none, 0, []⟩, rfl, rfl, ⟨rfl, rfl⟩, rfl, hold₁⟩
  | some b =>
    obtain ⟨pos, le, size, lt⟩ : 0 < cap ∧ ps.length ≤ cap ∧ 8 * cap ≤ b.size ∧ cap < 2 ^ 31 := fits
    subst pointers
    obtain ⟨ne, new⟩ := array b rfl
    have hold₁ : Defrag.base.Has (HeapOk room) h ((moveBlock f head, .sarr b.start (starts saved).length cap) ::ₘ
        (moveBlock f b, .ptrs (starts saved)) ::ₘ (strs (moveLines f saved) + F)) :=
      hold.of_eq (by simp [SArr.cells])
    have old : Defrag.base.array h (f head.start) = b.start :=
      array_eq (b := moveBlock f head) hold₁ (Multiset.mem_cons_self _ _)
    have small : (moveBlock f b).start < 2 ^ 64 :=
      start_lt law hold₁ (Multiset.mem_cons_of_mem (Multiset.mem_cons_self _ _))
    have hold₂ := setArray_spec law hold₁ small
    have num : Defrag.base.num (Defrag.base.setArray h (f head.start) (f b.start)) (f head.start) = (starts saved).length :=
      num_eq (b := moveBlock f head) hold₂ (Multiset.mem_cons_self _ _)
    rw [Multiset.cons_swap] at hold₂
    have found₂ : ∀ p ∈ starts saved,
        heapNewPointer (Defrag.base.setArray h (f head.start) (f b.start)) p = some (f p) := by
      intro p hp
      obtain ⟨e, he, rfl⟩ := List.mem_map.1 hp
      exact (newPointer_setMem h _ _).trans (found e he)
    have small₂ : ∀ p ∈ starts saved, f p < 2 ^ 64 := by
      intro p hp
      obtain ⟨e, he, rfl⟩ := List.mem_map.1 hp
      have line : (moveBlock f e.1, e.2) ∈ moveLines f saved := List.mem_map_of_mem he
      have mem := mem_strs line
      exact start_lt law hold₁ (b := moveBlock f e.1) (o := .str e.2) (by simp [mem])
    obtain ⟨h₃, moved, hold₃⟩ := moveLoop_spec [] hold₂ found₂ small₂
    rw [Defrag.movePointers, old, if_pos ne.ne', newPointer_ok new]
    refine ⟨h₃, ⟨moveBlock f head, some (moveBlock f b), cap, starts (moveLines f saved)⟩, ?_, rfl, ?_, rfl, ?_⟩
    · show Defrag.moveLoop (f head.start) (Defrag.base.num _ (f head.start)) 0 _ = _
      rw [num]
      exact moved
    · rw [starts_moveLines]
      exact ⟨pos, by rwa [List.length_map], size, lt⟩
    · refine hold₃.of_eq ?_
      dsimp only [SArr.cells]
      rw [starts_moveLines, List.length_map, Multiset.cons_add, Multiset.singleton_add]
      exact Multiset.cons_swap _ _ _

/-- "Defrag and update pointers": the same strings are saved. -/
lemma defrag_ok (room : Nat) : ClientOk clientOfDefrag room (HeapOk room) where
  law := heap_lawful room
  full n k := by
    refine ⟨fun full => ?_, fun full => ?_⟩
    · exact (of_decide_eq_true full).le
    · exact Nat.le_of_not_lt (of_decide_eq_false full)
  afterPage := by
    intro h x page saved hold fits pointers
    have law : Lawful Defrag.base.toAllocator room (HeapOk room) := heap_lawful room
    have hold₀ : Defrag.base.Has (HeapOk room) h ((page, .raw) ::ₘ (x.cells + strs saved)) := hold
    obtain ⟨h₁, f, e, found, hold₁⟩ := defrag_holds hold₀ Multiset.cons_ne_zero
    rw [Multiset.map_cons, Multiset.map_add, strs_moveLines] at hold₁
    have hold₂ : Defrag.base.Has (HeapOk room) h₁ (x.cells.map (fun c => (moveBlock f c.1, c.2)) +
        (strs (moveLines f saved) + {(moveBlock f page, .raw)})) := by
      refine hold₁.of_eq ?_
      rw [← Multiset.singleton_add]
      abel
    have array : ∀ b ∈ x.body, 0 < b.start ∧ heapNewPointer h₁ b.start = some (f b.start) := by
      intro b hb
      have mem : (b, Obj.ptrs x.ps) ∈ (page, Obj.raw) ::ₘ (x.cells + strs saved) := by
        rw [SArr.cells, Option.mem_def.1 hb]
        simp
      exact ⟨(hold₀.within law mem).1, found _ mem⟩
    have lines : ∀ e ∈ saved, heapNewPointer h₁ e.1.start = some (f e.1.start) := fun e he =>
      found (e.1, .str e.2) (by simp [mem_strs he])
    obtain ⟨h₂, x', moved, head, fits', pointers', hold₃⟩ := movePointers_spec fits pointers hold₂ array lines
    obtain ⟨p, record⟩ := x.record_mem (F := strs saved)
    have save : heapNewPointer h₁ x.head.start = some (f x.head.start) :=
      found _ (Multiset.mem_cons_of_mem record)
    have page' : heapNewPointer h₁ page.start = some (f page.start) := found _ (Multiset.mem_cons_self _ _)
    obtain ⟨⟨size, fl, ul, dl, inv, eq⟩, lies⟩ := hold₃
    obtain ⟨h₃, close, inv', -, size', blocks, bytes⟩ := inv.defragClose
    refine ⟨h₃, x', moveBlock f page, moveLines f saved, ?_, ?_, fits', pointers', texts_moveLines f saved, rfl⟩
    · show Defrag.afterPage h x.head.start page.start = _
      rw [Defrag.afterPage, e]
      dsimp only
      rw [newPointer_ok save, newPointer_ok page', head]
      dsimp only [bind, Except.bind]
      rw [moved]
      dsimp only
      rw [close]
      rfl
    · have hold₄ : clientOfDefrag.Has (HeapOk room) h₃
          (x'.cells + (strs (moveLines f saved) + {(moveBlock f page, .raw)})) := by
        refine ⟨⟨size'.trans size, fl, ul, [], inv', blocks ▸ eq⟩, fun c hc => ?_⟩
        have mem : clientOfDefrag.mem h₃ = Defrag.base.mem h₂ := bytes
        rw [mem]
        exact lies c hc
      refine hold₄.of_eq ?_
      rw [← Multiset.singleton_add]
      abel

end Heap

/-- A client that does nothing after a page. -/
lemma plain_ok {σ : Type} {C : Client σ} {room : Nat} {Ok : σ → Multiset Block → Prop}
    (law : Lawful C.toAllocator room Ok) (full : ∀ n k, C.full n k = decide (n ≥ k))
    (same : ∀ s save page, C.afterPage s save page = .ok (s, save, page)) : ClientOk C room Ok where
  law := law
  full n k := by
    rw [full]
    refine ⟨of_decide_eq_true, fun less => ?_⟩
    have less := of_decide_eq_false less
    omega
  afterPage s x page saved hold fits pointers :=
    ⟨s, x, page, saved, same _ _ _, hold, fits, pointers, rfl, rfl⟩

/-- What the address of a block from `malloc` promises: the block is no larger than `PTRDIFF_MAX` and does not wrap. -/
def Placed (base n : Nat) : Prop := base ≠ 0 → n < 2 ^ 63 ∧ base + n < 2 ^ 64

section Programs

variable {newHeap node : Bool} {base : Nat} {fileIn : List UInt8} {D N M : Int}

/-- How many strings are saved. -/
def savedCount (fileIn : List UInt8) (N M : Int) : Nat := (pages N.toNat M (fileIn.length + 1) fileIn []).2.length

/-- In an empty heap there is no room for the `strArray_t`. -/
lemma main_of_empty {C : Client Heap} (alloc : C.alloc = heapAlloc) :
    C.main (Heap.init base 0) fileIn N M = .error .null := by
  have none : C.allocate (Heap.init base 0) 16 = .error .null := by
    rw [Client.allocate, alloc, heapAlloc, if_neg (by decide), if_pos (.inl (show 0 < align 16 by decide))]
    rfl
  rw [Client.main, Client.strArrayInit, none]
  rfl

/-- A client of the heap ends with the two files, unless an allocation fails. -/
lemma heap_main {C : Client Heap} (ok : ∀ room, ClientOk C room (HeapOk room)) (alloc : C.alloc = heapAlloc) {h : Heap}
    (mk : heapCreate newHeap base node (toSize D) = some h) (placed : Placed base (toSize D)) (lower : -2 ^ 31 ≤ D)
    (upper : D < 2 ^ 31) (clean : 0 ∉ fileIn) (pos : 1 ≤ N) (lt : N < 2 ^ 31) :
    C.main h fileIn N M = .error .null ∨
      C.main h fileIn N M = .ok (computes fileIn N M) ∧ savedCount fileIn N M < 2 ^ 28 := by
  obtain ⟨start, rfl⟩ := heapCreate_inv mk
  obtain ⟨size, fit⟩ := placed start.ne'
  have small : toSize D < 2 ^ 31 := by
    rw [toSize] at size ⊢
    omega
  obtain empty | some := Nat.eq_zero_or_pos (toSize D)
  · rw [empty]
    exact .inl (main_of_empty alloc)
  · have inv := Heap.inv_init start some fit
    have first : HeapOk (toSize D) (Heap.init base (toSize D)) 0 := ⟨rfl, _, _, _, inv, rfl⟩
    obtain null | ⟨-, large, -⟩ | ⟨r, e, rfl, count⟩ := main_spec (ok _) first clean pos lt M
    · exact .inl null
    · omega
    · refine .inr ⟨e, ?_⟩
      rw [savedCount]
      omega

/-- Unless an allocation fails, the three programs end and write the same files: `malloc` and `free` keep the contract of
an allocator, and the heaps may have different sizes. -/
theorem clients_agree {σ : Type} {A : Allocator σ} {room : Nat} {Ok : σ → Multiset Block → Prop}
    (law : Lawful A room Ok) {s : σ} (start : Ok s 0) {newHeap' node' : Bool} {base' : Nat} {D' : Int}
    (placed : Placed base (toSize D)) (placed' : Placed base' (toSize D')) (clean : 0 ∉ fileIn)
    (size : -2 ^ 31 ≤ D ∧ D < 2 ^ 31) (size' : -2 ^ 31 ≤ D' ∧ D' < 2 ^ 31) (rows : 1 ≤ N ∧ N < 2 ^ 31)
    (heap : client newHeap base node fileIn D N M ≠ .error .null)
    (defrag : clientWithDefrag newHeap' base' node' fileIn D' N M ≠ .error .null)
    (malloc : clientWithMalloc A s fileIn N M ≠ .error .null) :
    ∃ files, client newHeap base node fileIn D N M = .ok files ∧
      clientWithDefrag newHeap' base' node' fileIn D' N M = .ok files ∧ clientWithMalloc A s fileIn N M = .ok files := by
  rw [client] at heap ⊢
  rw [clientWithDefrag] at defrag ⊢
  cases mk : heapCreate newHeap base node (toSize D) with
  | none =>
    rw [mk] at heap
    exact absurd rfl heap
  | some h =>
    cases mk' : heapCreate newHeap' base' node' (toSize D') with
    | none =>
      rw [mk'] at defrag
      exact absurd rfl defrag
    | some h' =>
      rw [mk] at heap
      rw [mk'] at defrag
      dsimp only at heap defrag ⊢
      have plain : ∀ room, ClientOk clientOfHeap room (HeapOk room) := fun room =>
        plain_ok (heap_lawful room) (fun _ _ => rfl) fun _ _ _ => rfl
      obtain ⟨e, few⟩ := (heap_main plain rfl mk placed size.1 size.2 clean rows.1 rows.2).resolve_left heap
      obtain ⟨e', -⟩ := (heap_main defrag_ok rfl mk' placed' size'.1 size'.2 clean rows.1 rows.2).resolve_left defrag
      have other : ClientOk (clientOfMalloc A) room Ok := plain_ok law (fun _ _ => rfl) fun _ _ _ => rfl
      obtain null | ⟨-, -, many⟩ | ⟨r, e'', rfl, -⟩ := main_spec other start clean rows.1 rows.2 M
      · exact absurd null malloc
      · rw [savedCount] at few
        omega
      · exact ⟨_, e, e', e''⟩

end Programs

/-- The lines "pear", "fig", "x" and "kiwi". -/
def fourLines : List UInt8 := [112, 101, 97, 114, 10, 102, 105, 103, 10, 120, 10, 107, 105, 119, 105, 10]

/-- Pages of three lines, of which those with more than two characters are saved; the second heap is the larger one, and
the place of `malloc` is taken by another heap. -/
theorem clients_agree_four_lines : ∃ files, client true 4096 true fourLines 1000 3 2 = .ok files ∧
    clientWithDefrag true 8192 true fourLines 2000 3 2 = .ok files ∧
    clientWithMalloc heapAllocator (Heap.init 4096 4096) fourLines 3 2 = .ok files := by
  have start : HeapOk 4096 (Heap.init 4096 4096) 0 :=
    ⟨rfl, _, _, _, Heap.inv_init (by decide) (by decide) (by decide), rfl⟩
  have heap : client true 4096 true fourLines 1000 3 2 ≠ .error .null := by decide +kernel
  have defrag : clientWithDefrag true 8192 true fourLines 2000 3 2 ≠ .error .null := by decide +kernel
  have malloc : clientWithMalloc heapAllocator (Heap.init 4096 4096) fourLines 3 2 ≠ .error .null := by decide +kernel
  exact clients_agree (heap_lawful 4096) start (fun _ => by decide) (fun _ => by decide) (by decide) (by decide)
    (by decide) (by decide) heap defrag malloc

end PDS.Lab1
