import PDS.Lab1.HeapPlace

/-!
# What defragmentation does to the blocks

The moves of `heapDefrag` go down, in the order of the addresses: a move may overwrite the block it moves, and what has
been moved already lies below it. So no move touches a block that is still to be moved, and every block holds the bytes
that it held before. The list of the old blocks that `heapDefrag` leaves behind is aligned with the used list, which is
all that `heapNewPointer` needs.

All this is so as long as no request is rounded up to nothing (`HeapOp.Rounds`). A block of no bytes starts where its
neighbour does, and then an old pointer does not say which of the two is meant (`heapDefrag_confuses`).
-/

namespace PDS.Lab1
open Word Links Extent

/-- Bytes before the destination stay. -/
lemma memmove_of_lt {bytes : Nat → UInt8} {dst src n x : Nat} (lt : x < dst) : memmove bytes dst src n x = bytes x :=
  if_neg fun inside => absurd inside.1 lt.not_ge

/-- Bytes behind the destination stay. -/
lemma memmove_of_ge {bytes : Nat → UInt8} {dst src n x : Nat} (ge : dst + n ≤ x) :
    memmove bytes dst src n x = bytes x :=
  if_neg fun inside => absurd inside.2 ge.not_gt

/-- Bytes of the destination are those of the source. -/
lemma memmove_add {bytes : Nat → UInt8} {dst src n k : Nat} (lt : k < n) :
    memmove bytes dst src n (dst + k) = bytes (src + k) := by
  rw [memmove, if_pos ⟨Nat.le_add_right _ _, Nat.add_lt_add_left lt _⟩, Nat.add_sub_cancel_left]

/-- Moving a block to where it is changes nothing. -/
lemma memmove_self (bytes : Nat → UInt8) (dst n : Nat) : memmove bytes dst dst n = bytes := by
  funext x
  rw [memmove]
  split_ifs with inside
  · rw [Nat.add_sub_cancel' inside.1]
  · rfl

namespace Heap

variable {h h' : Heap} {fl ul dl : List Nat}

/-- The moves of the defragmentation loop leave what is below alone, and carry every block's bytes along. -/
lemma defragLoop_bytes {n : Nat} {i : Option Nat} {l : List Nat} {p : Nat} (run : defragLoop n h i p = some h')
    (ch : Chain h.next i l) (nd : l.Nodup) (hn : l.length < n) (fit : p + total (l.map h.blk) < 2 ^ 64)
    (ord : Ordered (l.map h.blk)) (above : ∀ j ∈ l, p ≤ (h.blk j).start) :
    (∀ x < p, h'.bytes x = h.bytes x) ∧
      ∀ j ∈ l, ∀ k < (h.blk j).size, h'.bytes ((h'.blk j).start + k) = h.bytes ((h.blk j).start + k) := by
  induction n generalizing h i l p with
  | zero => omega
  | succ n ih =>
    cases l with
    | nil =>
      have e : i = none := ch
      rw [e] at run
      cases run
      exact ⟨fun _ _ => rfl, by simp⟩
    | cons j l =>
      obtain ⟨rfl, ch⟩ := ch
      obtain ⟨nj, nd⟩ := List.nodup_cons.1 nd
      simp only [List.map_cons, total_cons] at fit
      obtain ⟨below, ord⟩ := List.pairwise_cons.1 ord
      have le := above j List.mem_cons_self
      -- one turn of the loop: the block moves, or it is there already
      obtain ⟨h₁, e₁, b₁, o₁, x₁, m₁⟩ : ∃ h₁ : Heap,
          (if p ≠ (h.blk j).start then
            { h.setBlk j ⟨p, (h.blk j).size⟩ with
              bytes := memmove h.bytes p (h.blk j).start (h.blk j).size }
          else h) = h₁ ∧ h₁.blk j = ⟨p, (h.blk j).size⟩ ∧ (∀ k, k ≠ j → h₁.blk k = h.blk k) ∧
          h₁.next = h.next ∧ h₁.bytes = memmove h.bytes p (h.blk j).start (h.blk j).size := by
        by_cases e : p = (h.blk j).start
        · refine ⟨h, by simp [e], by rw [e], fun _ _ => rfl, rfl, ?_⟩
          rw [e, memmove_self]
        · rw [if_pos e]
          refine ⟨_, rfl, ?_, ?_, h.next_setBlk j _, rfl⟩
          · exact congrFun (h.blk_setBlk j _) j |>.trans (Function.update_self _ _ _)
          · intro k hk
            exact congrFun (h.blk_setBlk j _) k |>.trans (Function.update_of_ne hk _ _)
      have bl : ∀ k ∈ l, h₁.blk k = h.blk k := fun k hk => o₁ k fun e => nj (e ▸ hk)
      have bl' : l.map h₁.blk = l.map h.blk := List.map_congr_left bl
      have later : ∀ k ∈ l, p + (h.blk j).size ≤ (h.blk k).start := by
        intro k hk
        have := below _ (List.mem_map_of_mem hk)
        simp only [Block.stop] at this
        omega
      simp only [defragLoop, e₁, b₁, x₁] at run
      rw [wadd_of_lt (by omega)] at run
      have ch₁ : Chain h₁.next (h.next j) l := x₁ ▸ ch
      have fuel : l.length < n := by simpa using hn
      have fit₁ : p + (h.blk j).size + total (l.map h₁.blk) < 2 ^ 64 := by
        rw [bl']
        omega
      obtain ⟨h'', run', -, -, other, -⟩ := defragLoop_spec ch₁ nd fuel fit₁
      cases run.symm.trans run'
      obtain ⟨low, high⟩ := ih run ch₁ nd fuel fit₁ (bl' ▸ ord) fun k hk => by
        rw [bl k hk]
        exact later k hk
      refine ⟨?_, List.forall_mem_cons.2 ⟨?_, ?_⟩⟩
      · intro x lt
        rw [low x (by omega), m₁, memmove_of_lt lt]
      · intro k lt
        rw [other j nj, b₁, low _ (Nat.add_lt_add_left lt p), m₁, memmove_add lt]
      · intro k hk m lt
        rw [high k hk m (by rwa [bl k hk]), bl k hk, m₁, memmove_of_ge]
        have := later k hk
        omega

/-- Freeing a list leaves the bytes alone. -/
lemma listDestroy_bytes {n : Nat} {i : Option Nat} (run : listDestroy n h i = some h') : h'.bytes = h.bytes := by
  induction n generalizing h i with
  | zero => cases run
  | succ n ih =>
    cases i with
    | none =>
      cases run
      rfl
    | some i => exact (ih run).trans rfl

/-- Every block holds after the defragmentation the bytes that it held before. -/
lemma Inv.defrag_bytes (inv : h.Inv fl ul dl) (run : heapDefrag h = some h')
    (packed : ul.map h'.blk = pack h.start (ul.map h.blk)) :
    ∀ j ∈ ul, ∀ k < (h.blk j).size, h'.bytes ((h'.blk j).start + k) = h.bytes ((h.blk j).start + k) := by
  cases ul with
  | nil => exact fun j hj => absurd hj List.not_mem_nil
  | cons i ul =>
    have cu : Chain h.next h.usedBlks (i :: ul) := inv.arena.used
    have eu : h.usedBlks = some i := cu.1
    rw [eu] at cu
    have bu : ∀ j ∈ i :: ul, j < h.brk := fun j hj =>
      inv.bound j (List.mem_append_left _ (List.mem_append_right _ hj))
    have cp₀ : Copied h h none [] [] :=
      ⟨rfl, List.nodup_nil, by simp, rfl, le_rfl, ⟨rfl, rfl, rfl, rfl, rfl, rfl⟩, rfl, rfl, fun _ _ => ⟨rfl, rfl⟩⟩
    obtain ⟨h₁, copy, c, e₁, cp⟩ := listCopy_spec cp₀ cu bu inv.used_fuel
    obtain ⟨h₁', copy', h₂, c', e₁', e₂, pk⟩ := inv.packed
    cases e₁.symm.trans e₁'
    have bl : ∀ j ∈ i :: ul, h₁.blk j = h.blk j := fun j hj => (cp.old j (bu j hj)).2
    have bl' : (i :: ul).map h₁.blk = (i :: ul).map h.blk := List.map_congr_left bl
    have tot := inv.arena.layout.total_eq
    have room := inv.room
    have moved := (defragLoop_bytes e₂ (cu.frame fun j hj => (cp.old j (bu j hj)).1)
      (List.nodup_append.1 inv.arena.nodup).2.1 (inv.used_fuel.trans_le (Nat.succ_le_succ cp.brk)) ?_ ?_ ?_).2
    · -- what is left to do concerns the free list
      have bytes : h'.bytes = h₂.bytes := by
        rw [heapDefrag, eu] at run
        simp only [e₁', e₂, Option.bind_eq_bind, Option.bind_some] at run
        cases free : h₂.freeBlks with
        | none =>
          simp only [free] at run
          cases run
          rfl
        | some f =>
          simp only [free] at run
          obtain ⟨h₃, destroy, run⟩ := Option.bind_eq_some_iff.1 run
          cases run
          exact (listDestroy_bytes destroy).trans rfl
      intro j hj k lt
      have same : h'.blk j = h₂.blk j := List.map_inj_left.1 (packed.trans pk.blk_used.symm) j hj
      have eq : h₂.bytes ((h₂.blk j).start + k) = h₁.bytes ((h₁.blk j).start + k) :=
        moved j hj k (show k < (h₁.blk j).size from (bl j hj).symm ▸ lt)
      rw [bytes, same, eq, bl j hj, cp.same.bytes]
    · show h₁.start + total ((i :: ul).map h₁.blk) < 2 ^ 64
      rw [bl', cp.same.start]
      simp only [arena_blk] at tot
      omega
    · show Ordered ((i :: ul).map h₁.blk)
      rw [bl']
      exact inv.arena.layout.used_ordered
    · intro j hj
      show h₁.start ≤ (h₁.blk j).start
      rw [bl j hj, cp.same.start]
      exact (inv.within (List.mem_append_right _ hj)).2.1

/-- Used blocks are told by their starts. -/
lemma Inv.start_inj (inv : h.Inv fl ul dl) {j k : Nat} (hj : j ∈ ul) (hk : k ∈ ul)
    (eq : (h.blk j).start = (h.blk k).start) : j = k := by
  have ly := inv.arena.layout
  have lt := ly.used_ordered.starts_lt fun b hb => ly.pos b (List.mem_append_right _ hb)
  rw [arena_blk, List.map_map] at lt
  exact List.inj_on_of_nodup_map (lt.imp ne_of_lt) hj hk eq

/-- The old list and the used list are walked side by side. -/
lemma newPointerLoop_spec {n p : Nat} {i j : Option Nat} {cl l : List Nat} (old : Chain h.next i cl)
    (new : Chain h.next j l) (same : cl.length = l.length) (hn : cl.length < n) :
    (∃ k x y : Nat, cl[k]? = some x ∧ l[k]? = some y ∧ (h.blk x).start = p ∧
        newPointerLoop h p n i j = some (h.blk y).start) ∨
      (∀ x ∈ cl, (h.blk x).start ≠ p) ∧ newPointerLoop h p n i j = some 0 := by
  induction n generalizing i j cl l with
  | zero => omega
  | succ n ih =>
    cases cl with
    | nil =>
      have e : i = none := old
      rw [e]
      exact .inr ⟨by simp, rfl⟩
    | cons x cl =>
      cases l with
      | nil => cases same
      | cons y l =>
        obtain ⟨rfl, old⟩ := old
        obtain ⟨rfl, new⟩ := new
        rw [newPointerLoop]
        split_ifs with start
        · exact .inl ⟨0, x, y, rfl, rfl, start, rfl⟩
        · rcases ih old new (Nat.succ.inj same) (Nat.lt_of_succ_lt_succ hn) with ⟨k, x', y', hx, hy, eq⟩ | ⟨ne, eq⟩
          · exact .inl ⟨k + 1, x', y', hx, hy, eq⟩
          · exact .inr ⟨List.forall_mem_cons.2 ⟨start, ne⟩, eq⟩

/-- After a defragmentation of `h` the new start of a block is found by the old one. -/
lemma newPointer_of_aligned {g : Heap} {cl : List Nat} (inv : h.Inv fl ul dl) (old : Chain g.next g.dfrgBlks cl)
    (new : Chain g.next g.usedBlks ul) (fuel : cl.length < g.fuel) (aligned : cl.map g.blk = ul.map h.blk) (p : Nat) :
    (∀ j ∈ ul, (h.blk j).start = p → heapNewPointer g p = some (g.blk j).start) ∧
      ((∀ j ∈ ul, (h.blk j).start ≠ p) → heapNewPointer g p = some 0) := by
  have same : cl.length = ul.length := by simpa using congrArg List.length aligned
  have block : ∀ {k x y : Nat}, cl[k]? = some x → ul[k]? = some y → g.blk x = h.blk y := by
    intro k x y hx hy
    have := congrArg (·[k]?) aligned
    simp only [List.getElem?_map, hx, hy, Option.map_some] at this
    exact Option.some.inj this
  rcases newPointerLoop_spec old new same fuel with ⟨k, x, y, hx, hy, start, eq⟩ | ⟨ne, eq⟩
  · have mem := List.mem_of_getElem? hy
    rw [block hx hy] at start
    refine ⟨?_, fun none => absurd start (none y mem)⟩
    intro j hj start'
    rw [inv.start_inj hj mem (start'.trans start.symm)]
    exact eq
  · refine ⟨?_, fun _ => eq⟩
    intro j hj start
    obtain ⟨k, lt, rfl⟩ := List.mem_iff_getElem.1 hj
    have hk : k < cl.length := same ▸ lt
    have b := block (List.getElem?_eq_getElem hk) (List.getElem?_eq_getElem lt)
    refine absurd ?_ (ne cl[k] (List.getElem_mem hk))
    rw [b]
    exact start

end Heap

/-- The heaps that come of `h₀` by calls of the interface that meet `P`, and by what the clients store in their blocks. -/
inductive HeapReach (P : Heap → HeapOp → Prop) (h₀ : Heap) : Heap → Prop where
  | refl : HeapReach P h₀ h₀
  | call {h h' : Heap} {op : HeapOp} : HeapReach P h₀ h → P h op → op.step h = some h' → HeapReach P h₀ h'
  | store {h : Heap} (bytes : Nat → UInt8) : HeapReach P h₀ h → HeapReach P h₀ { h with bytes := bytes }

/-- Calls keep the invariant if no request is rounded up to nothing. -/
lemma HeapReach.inv {h₀ h : Heap} (reach : HeapReach (fun h op => op.Rounds h) h₀ h) {fl ul dl : List Nat}
    (inv : h₀.Inv fl ul dl) : ∃ fl ul dl, h.Inv fl ul dl := by
  induction reach with
  | refl => exact ⟨fl, ul, dl, inv⟩
  | call _ rounds step ih =>
    obtain ⟨fl, ul, dl, inv⟩ := ih
    obtain ⟨h', fl', ul', dl', step', inv'⟩ := inv.step_of_rounds rounds
    cases step.symm.trans step'
    exact ⟨fl', ul', dl', inv'⟩
  | store bytes _ ih =>
    obtain ⟨fl, ul, dl, inv⟩ := ih
    exact ⟨fl, ul, dl, inv.arena, inv.dfrg, inv.dfrg_nodup, inv.dfrg_disj, inv.bound, inv.freeSize, inv.start_pos,
      inv.room⟩

/-- If there is a used block, `heapDefrag` packs the used blocks from the start of the heap, in their order and with the
bytes they hold, and leaves the free memory in one block at the end. Until the lists change again, and whatever is stored
in the blocks and whichever policy is set, `heapNewPointer` finds the new start of a block by the old one. -/
def Heap.Defragments (h : Heap) : Prop :=
  ∃ fl ul, Chain h.next h.freeBlks fl ∧ Chain h.next h.usedBlks ul ∧
    (ul ≠ [] → ∃ h' fl', heapDefrag h = some h' ∧ Chain h'.next h'.usedBlks ul ∧
      ul.map h'.blk = pack h.start (ul.map h.blk) ∧ Chain h'.next h'.freeBlks fl' ∧
      fl'.map h'.blk =
        (if total (fl.map h.blk) = 0 then []
        else [⟨h.start + h.size - total (fl.map h.blk), total (fl.map h.blk)⟩]) ∧
      (∀ j ∈ ul, ∀ k < (h.blk j).size, h'.bytes ((h'.blk j).start + k) = h.bytes ((h.blk j).start + k)) ∧
      ∀ policy bytes p,
        (∀ j ∈ ul, (h.blk j).start = p →
          heapNewPointer { h' with policy := policy, bytes := bytes } p = some (h'.blk j).start) ∧
        ((∀ j ∈ ul, (h.blk j).start ≠ p) →
          heapNewPointer { h' with policy := policy, bytes := bytes } p = some 0))

/-- The invariant is all that `heapDefrag` needs. -/
lemma Heap.Inv.defragments {h : Heap} {fl ul dl : List Nat} (inv : h.Inv fl ul dl) : h.Defragments := by
  refine ⟨fl, ul, inv.arena.free, inv.arena.used, ?_⟩
  intro ne
  rcases inv.defrag with ⟨-, nil⟩ | ⟨h', dl', eq, inv', packed, aligned, policy, start, size, blk⟩
  · exact absurd nil ne
  · have fuel : dl'.length < h'.fuel :=
      Nat.lt_succ_of_le (length_le_of_bound inv'.dfrg_nodup fun i hi => inv'.bound i (by simp [hi]))
    refine ⟨h', fl.take 1, eq, inv'.arena.used, packed, inv'.arena.free, ?_, inv.defrag_bytes eq packed, ?_⟩
    · have free₀ := inv.freeSize
      cases fl with
      | nil => rfl
      | cons f fl =>
        have pos := (inv.within (i := f) (by simp)).1
        rw [if_neg (by simp only [List.map_cons, total_cons]; omega), List.take_succ_cons, List.take_zero,
          List.map_singleton, blk f (by simp), free₀]
    · intro policy bytes p
      exact Heap.newPointer_of_aligned (g := { h' with policy := policy, bytes := bytes }) inv inv'.dfrg
        inv'.arena.used fuel aligned p

/-- `heapDefrag` does what it is for in every heap that comes of `heapCreate` by calls of which no request is rounded up
to nothing while something is free. -/
theorem heapDefrag_packs {newHeap node : Bool} {base n : Nat} {h₀ h : Heap}
    (mk : heapCreate newHeap base node n = some h₀) (hn : 1 ≤ n) (fit : base + n < 2 ^ 64)
    (reach : HeapReach (fun h op => op.Rounds h) h₀ h) : h.Defragments := by
  obtain ⟨hb, rfl⟩ := heapCreate_inv mk
  obtain ⟨fl, ul, dl, inv⟩ := reach.inv (Heap.inv_init hb hn fit)
  exact inv.defragments

/-- A heap in which a block before the last one was given back, and the last one has been written: it moves down. -/
theorem heapDefrag_packs_hole : ∃ h h' j, heapRun (Heap.init 4096 64) [.alloc 5, .alloc 9, .free 4096] = some h ∧
    heapDefrag { h with bytes := fun x => UInt8.ofNat x } = some h' ∧ h.blk j = ⟨4104, 16⟩ ∧ h'.blk j = ⟨4096, 16⟩ ∧
    (∀ k < 16, h'.bytes (4096 + k) = UInt8.ofNat (4104 + k)) ∧ heapNewPointer h' 4104 = some 4096 := by
  obtain ⟨h₁, step₁⟩ : ∃ h₁, HeapOp.step (Heap.init 4096 64) (.alloc 5) = some h₁ := ⟨_, rfl⟩
  obtain ⟨h₂, step₂⟩ : ∃ h₂, HeapOp.step h₁ (.alloc 9) = some h₂ := by
    cases step₁
    exact ⟨_, rfl⟩
  obtain ⟨h, step₃, start, first, last, blk⟩ : ∃ h, HeapOp.step h₂ (.free 4096) = some h ∧ h.start = 4096 ∧
      h.usedBlks = some 2 ∧ h.next 2 = none ∧ h.blk 2 = ⟨4104, 16⟩ := by
    cases step₁
    cases step₂
    exact ⟨_, rfl, rfl, rfl, rfl, rfl⟩
  have rounds (h : Heap) (size : Nat) (small : size + 7 < 2 ^ 64) : HeapOp.Rounds h (.alloc size) := .inl small
  have two := (HeapReach.refl.call (rounds _ 5 (by decide)) step₁).call (rounds _ 9 (by decide)) step₂
  have reach := (two.call (show HeapOp.Rounds h₂ (.free 4096) from trivial) step₃).store fun x => UInt8.ofNat x
  obtain ⟨fl, ul, free, used, packs⟩ := heapDefrag_packs
    (show heapCreate true 4096 true 64 = some (Heap.init 4096 64) from rfl) (by decide) (by decide) reach
  have chain : Chain h.next h.usedBlks [2] := ⟨first, last⟩
  cases used.unique chain
  obtain ⟨h', fl', eq, -, packed, -, -, bytes, pointer⟩ := packs (List.cons_ne_nil _ _)
  have blk₀ : Heap.blk { h with bytes := fun x => UInt8.ofNat x } 2 = ⟨4104, 16⟩ := blk
  have blk' : h'.blk 2 = ⟨4096, 16⟩ := by
    rw [List.map_singleton, List.map_singleton, blk₀, show Heap.start { h with bytes := _ } = 4096 from start] at packed
    exact List.singleton_inj.1 packed
  refine ⟨h, h', 2, ?_, eq, blk, blk', ?_, ?_⟩
  · simp only [heapRun, step₁, step₂, step₃, Option.bind_eq_bind, Option.bind_some]
  · intro k lt
    have moved := bytes 2 (List.mem_singleton_self 2) k (by rw [blk₀]; exact lt)
    rw [blk', blk₀] at moved
    exact moved
  · have found := (pointer h'.policy h'.bytes 4104).1 2 (List.mem_singleton_self 2) (by rw [blk₀])
    rw [blk'] at found
    exact found

/-- A request of `SIZE_MAX` bytes is given a block of none; the next block starts where this one does, and its old start
is that of another block as well. -/
theorem heapDefrag_confuses :
    ∃ h, HeapReach (fun _ op => op.Typed) (Heap.init 4096 64) h ∧ ¬ h.Defragments := by
  obtain ⟨h₁, step₁⟩ : ∃ h₁, HeapOp.step (Heap.init 4096 64) (.alloc 8) = some h₁ := ⟨_, rfl⟩
  obtain ⟨h₂, step₂⟩ : ∃ h₂, HeapOp.step h₁ (.alloc (2 ^ 64 - 1)) = some h₂ := by
    cases step₁
    exact ⟨_, rfl⟩
  obtain ⟨h₃, step₃⟩ : ∃ h₃, HeapOp.step h₂ (.alloc 8) = some h₃ := by
    cases step₁
    cases step₂
    exact ⟨_, rfl⟩
  obtain ⟨h, h', step₄, first, second, last, -, blk, eq, -, moved, found⟩ :
      ∃ h h', HeapOp.step h₃ (.free 4096) = some h ∧ h.usedBlks = some 3 ∧ h.next 3 = some 2 ∧ h.next 2 = none ∧
        h.blk 3 = ⟨4104, 8⟩ ∧ h.blk 2 = ⟨4104, 0⟩ ∧ heapDefrag h = some h' ∧ h'.blk 3 = ⟨4096, 8⟩ ∧
        h'.blk 2 = ⟨4104, 0⟩ ∧ heapNewPointer h' 4104 = some 4096 := by
    cases step₁
    cases step₂
    cases step₃
    exact ⟨_, _, rfl, rfl, rfl, rfl, rfl, rfl, rfl, rfl, rfl, rfl⟩
  have typed (size : Nat) (lt : size < 2 ^ 64) : HeapOp.Typed (.alloc size) := lt
  have reach : HeapReach (fun _ op => op.Typed) (Heap.init 4096 64) h :=
    (((HeapReach.refl.call (typed 8 (by decide)) step₁).call (typed (2 ^ 64 - 1) (by decide)) step₂).call
      (typed 8 (by decide)) step₃).call (show HeapOp.Typed (.free 4096) from trivial) step₄
  refine ⟨h, reach, ?_⟩
  rintro ⟨fl, ul, -, used, packs⟩
  have chain : Chain h.next h.usedBlks [3, 2] := ⟨first, second, last⟩
  cases used.unique chain
  obtain ⟨g, fl', run, -, -, -, -, -, pointer⟩ := packs (List.cons_ne_nil _ _)
  cases eq.symm.trans run
  -- the block of no bytes stays at `4104`, but its old start leads to the other one
  have wanted := (pointer h'.policy h'.bytes 4104).1 2 (List.mem_cons_of_mem _ (List.mem_singleton_self 2)) (by rw [blk])
  rw [moved] at wanted
  cases found.symm.trans wanted

end PDS.Lab1
