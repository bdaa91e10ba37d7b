import PDS.Lab1.HeapDefrag

/-!
# Runs of the heap

A run is a sequence of calls of the heap interface on a heap from `heapCreate`. One call keeps the
heap invariant (`Heap.Inv.step`), hence so does every run (`Heap.Inv.run`); `heap_lists_tile` reads off
what the invariant says about the two lists.
-/

namespace PDS.Lab1
open Word Links Extent

/-- A new heap satisfies the invariant. -/
lemma Heap.inv_init {base n} (hb : 0 < base) (hn : 0 < n) (fit : base + n < 2 ^ 64) :
    (Heap.init base n).Inv [0] [] [] := by
  have b0 : (Heap.init base n).blk 0 = ⟨base, n⟩ := by simp [blk, Heap.init]
  refine ⟨⟨⟨⟨rfl, ?_⟩, rfl, by simp, ?_⟩, List.pairwise_singleton _ _⟩, rfl, List.nodup_nil, by simp,
    ?_, ?_, hb, fit⟩
  · simp [next, Heap.init]
  · rw [arena_blk, List.map_singleton, b0]
    refine ⟨by simpa using hn, ?_, List.pairwise_singleton _ _, List.Pairwise.nil, by simp, ?_⟩
    · simp [Heap.init]
    · simp [Heap.init]
  · simp [Heap.init]
  · rw [List.map_singleton, b0]
    simp [Heap.init]

/-- `heapCreate` succeeds only with a non-null arena. -/
lemma heapCreate_inv {newHeap node base n h} (mk : heapCreate newHeap base node n = some h) :
    0 < base ∧ h = Heap.init base n := by
  unfold heapCreate at mk
  split at mk
  · cases mk
  · split at mk
    · cases mk
    · split at mk
      · cases mk
      · cases mk
        exact ⟨by omega, rfl⟩

/-- A call of the heap interface. -/
inductive HeapOp where
  | alloc (size : Nat)
  | free (p : Nat)
  | setPolicy (policy : HeapPolicy)
  | defrag
  | defragClose

/-- The heap after a call. -/
def HeapOp.step (h : Heap) : HeapOp → Option Heap
  | .alloc size => (heapAlloc h size).map Prod.fst
  | .free p => heapFree h p
  | .setPolicy policy => some (heapSetPolicy h policy)
  | .defrag => heapDefrag h
  | .defragClose => heapDefragClose h

/-- The heap after a sequence of calls. -/
def heapRun (h : Heap) : List HeapOp → Option Heap
  | [] => some h
  | op :: ops => op.step h >>= fun h' => heapRun h' ops

/-- A request whose rounding up to a multiple of 8 does not wrap. -/
def HeapOp.NoWrap : HeapOp → Prop
  | .alloc size => size + 7 < 2 ^ 64
  | _ => True

/-- Every call returns and keeps the invariant. -/
lemma Heap.Inv.step {h : Heap} {fl ul dl op} (inv : h.Inv fl ul dl) (nw : HeapOp.NoWrap op) :
    ∃ h' fl' ul' dl', op.step h = some h' ∧ h'.Inv fl' ul' dl' ∧ h'.start = h.start ∧
      h'.size = h.size := by
  cases op with
  | alloc size =>
    cases inv.alloc nw with
    | inl hn => exact ⟨h, fl, ul, dl, by simp [HeapOp.step, hn.1], inv, rfl, rfl⟩
    | inr hy =>
      obtain ⟨h', p, s, q, q', a, b, u, -, -, -, -, e, inv', -, -, -, st, sz, -⟩ := hy
      exact ⟨h', _, _, dl, by simp [HeapOp.step, e], inv', st, sz⟩
  | free p =>
    cases inv.free p with
    | inl hn => exact ⟨h, fl, ul, dl, hn.1, inv, rfl, rfl⟩
    | inr hy =>
      obtain ⟨h', fl', a, u, b, -, -, e, inv', -, -, -, st, sz⟩ := hy
      exact ⟨h', fl', a ++ b, dl, e, inv', st, sz⟩
  | setPolicy policy =>
    exact ⟨heapSetPolicy h policy, fl, ul, dl, rfl, ⟨inv.arena, inv.dfrg, inv.dfrg_nodup,
      inv.dfrg_disj, inv.bound, inv.freeSize, inv.start_pos, inv.room⟩, rfl, rfl⟩
  | defrag =>
    cases inv.defrag with
    | inl hn => exact ⟨h, fl, ul, dl, hn.1, inv, rfl, rfl⟩
    | inr hy =>
      obtain ⟨h', dl', e, inv', -, -, -, st, sz, -⟩ := hy
      exact ⟨h', _, ul, dl', e, inv', st, sz⟩
  | defragClose =>
    obtain ⟨h', e, inv', st, sz, -⟩ := inv.defragClose
    exact ⟨h', fl, ul, [], e, inv', st, sz⟩

/-- Every sequence of calls returns and keeps the invariant. -/
lemma Heap.Inv.run {h : Heap} {fl ul dl ops} (inv : h.Inv fl ul dl)
    (nw : ∀ op ∈ ops, HeapOp.NoWrap op) :
    ∃ h' fl' ul' dl', heapRun h ops = some h' ∧ h'.Inv fl' ul' dl' ∧ h'.start = h.start ∧
      h'.size = h.size := by
  induction ops generalizing h fl ul dl with
  | nil => exact ⟨h, fl, ul, dl, rfl, inv, rfl, rfl⟩
  | cons op ops ih =>
    obtain ⟨h₁, fl₁, ul₁, dl₁, e₁, inv₁, st₁, sz₁⟩ := inv.step (nw op (by simp))
    obtain ⟨h', fl', ul', dl', e', inv', st', sz'⟩ := ih inv₁ (fun op hop => nw op (by simp [hop]))
    exact ⟨h', fl', ul', dl', by simp [heapRun, e₁, e'], inv', st'.trans st₁, sz'.trans sz₁⟩

/-- In every heap reached from `heapCreate`, the free and the used list are strictly sorted by start,
their blocks tile the arena, free blocks do not touch and `freeSize` is their total size. -/
theorem heap_lists_tile {newHeap node : Bool} {base n : Nat} {h₀ : Heap} {ops : List HeapOp}
    (mk : heapCreate newHeap base node n = some h₀) (hn : 1 ≤ n) (fit : base + n < 2 ^ 64)
    (nw : ∀ op ∈ ops, op.NoWrap) :
    ∃ h fl ul, heapRun h₀ ops = some h ∧
      Chain h.next h.freeBlks fl ∧ Chain h.next h.usedBlks ul ∧
      (fl.map (fun i => (h.blk i).start)).Pairwise (· < ·) ∧
      (ul.map (fun i => (h.blk i).start)).Pairwise (· < ·) ∧
      Tiles h.start (h.start + h.size) (fl.map h.blk ++ ul.map h.blk) ∧
      h.start = base ∧ h.size = n ∧
      (∀ i ∈ fl, ∀ j ∈ fl, (h.blk i).stop ≠ (h.blk j).start) ∧
      h.freeSize = total (fl.map h.blk) := by
  obtain ⟨hb, e₀⟩ := heapCreate_inv mk
  obtain ⟨h, fl, ul, dl, e, inv, st, sz⟩ := (Heap.inv_init hb hn fit).run nw
  rw [← e₀] at e st sz
  have ly := inv.arena.layout
  have posf : ∀ b ∈ fl.map h.blk, 0 < b.size := fun b hb => ly.pos b (List.mem_append_left _ hb)
  have posu : ∀ b ∈ ul.map h.blk, 0 < b.size := fun b hb => ly.pos b (List.mem_append_right _ hb)
  refine ⟨h, fl, ul, e, inv.arena.free, inv.arena.used, ?_, ?_, ly.tiles, ?_, ?_, ?_, inv.freeSize⟩
  · have sorted := ly.free_ordered.starts_lt posf
    rwa [List.map_map] at sorted
  · have sorted := ly.used_ordered.starts_lt posu
    rwa [List.map_map] at sorted
  · rw [st, e₀]
    rfl
  · rw [sz, e₀]
    rfl
  · intro i hi j hj
    exact inv.arena.separated.stop_ne_start posf _ (List.mem_map_of_mem hi) _ (List.mem_map_of_mem hj)

/-- A run that allocates under two policies, frees and defragments. -/
theorem heap_lists_tile_run :
    ∃ h fl ul, heapRun (Heap.init 4096 64)
        [.alloc 5, .setPolicy .bestFit, .alloc 9, .free 4096, .defrag, .defragClose, .free 4100]
      = some h ∧
      Chain h.next h.freeBlks fl ∧ Chain h.next h.usedBlks ul ∧
      (fl.map (fun i => (h.blk i).start)).Pairwise (· < ·) ∧
      (ul.map (fun i => (h.blk i).start)).Pairwise (· < ·) ∧
      Tiles h.start (h.start + h.size) (fl.map h.blk ++ ul.map h.blk) ∧
      h.start = 4096 ∧ h.size = 64 ∧
      (∀ i ∈ fl, ∀ j ∈ fl, (h.blk i).stop ≠ (h.blk j).start) ∧
      h.freeSize = total (fl.map h.blk) :=
  heap_lists_tile (show heapCreate true 4096 true 64 = some (Heap.init 4096 64) from rfl) (by decide) (by decide)
    (by simp [HeapOp.NoWrap])

end PDS.Lab1
