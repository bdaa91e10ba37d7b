import PDS.Lab1.HeapInv

/-!
# Defragmentation of the heap

`heapDefrag` copies the used list (`listCopy_spec`), moves the used blocks down one after the other
(`defragLoop_spec`, against the abstract `pack`) and replaces the free list by one block at the end of
the arena. `Inv.defrag` and `Inv.defragClose` show that the two entry points return and keep the heap
invariant.
-/

namespace PDS.Lab1
open Word Links Extent

namespace Heap

variable {h : Heap} {fl ul dl : List Nat}

/-- `h` is `h₀` with fresh nodes `c`, linked from `copy`, that copy the blocks of `l`. -/
structure Copied (h₀ h : Heap) (copy : Option Nat) (c l : List Nat) : Prop where
  chain : Chain h.next copy c
  nodup : c.Nodup
  range : ∀ j ∈ c, h₀.brk ≤ j ∧ j < h.brk
  blocks : c.map h.blk = l.map h₀.blk
  brk : h₀.brk ≤ h.brk
  same : Same h₀ h
  free : h.freeBlks = h₀.freeBlks
  used : h.usedBlks = h₀.usedBlks
  old : ∀ j, j < h₀.brk → h.next j = h₀.next j ∧ h.blk j = h₀.blk j

/-- The node that `listCopy` adds for `j`. -/
lemma Copied.snoc {h₀ copy c l j} (cp : Copied h₀ h copy c l) (hj : j < h₀.brk) :
    Copied h₀
      (match c.getLast? with
        | none => (h.malloc (h.blk j) none).1
        | some m => (h.malloc (h.blk j) none).1.setNext m (some h.brk))
      (match c.getLast? with
        | none => some h.brk
        | some _ => copy)
      (c ++ [h.brk]) (l ++ [j]) := by
  have fresh : h.brk ∉ c := fun hm => lt_irrefl _ (cp.range _ hm).2
  have agm := h.agree_malloc (h.blk j) none
  have out : ∀ k ∈ c, k ∉ [h.brk] := fun k hk hm => fresh (List.mem_singleton.1 hm ▸ hk)
  have c' : Chain (h.malloc (h.blk j) none).1.next copy c := agm.seg out cp.chain
  have nn : (h.malloc (h.blk j) none).1.next h.brk = none := by simp [malloc, next]
  have bn : (h.malloc (h.blk j) none).1.blk h.brk = h.blk j := h.blk_malloc _ _
  have bc : c.map (h.malloc (h.blk j) none).1.blk = c.map h.blk := agm.map_blk out
  have nd : (c ++ [h.brk]).Nodup := by
    refine List.nodup_append.2 ⟨cp.nodup, List.nodup_singleton _, ?_⟩
    rintro k hk m hm rfl
    exact out k hk hm
  have rg : ∀ k ∈ c ++ [h.brk], h₀.brk ≤ k ∧ k < h.brk + 1 := by
    intro k hk
    have := cp.brk
    cases List.mem_append.1 hk with
    | inl hk =>
      have := cp.range k hk
      omega
    | inr hk =>
      have := List.mem_singleton.1 hk
      omega
  have old : ∀ k, k < h₀.brk → (h.malloc (h.blk j) none).1.next k = h₀.next k ∧
      (h.malloc (h.blk j) none).1.blk k = h₀.blk k := by
    intro k hk
    have := cp.brk
    obtain ⟨e1, e2⟩ := agm k (by simp; omega)
    obtain ⟨e1', e2'⟩ := cp.old k hk
    exact ⟨e1.trans e1', e2.trans e2'⟩
  have sl := c'.setLink (v := some h.brk) cp.nodup
  have eb : (c ++ [h.brk]).map (h.malloc (h.blk j) none).1.blk = (l ++ [j]).map h₀.blk := by
    rw [List.map_append, List.map_append, bc, cp.blocks, List.map_singleton, List.map_singleton, bn,
      (cp.old j hj).2]
  cases e : c.getLast? with
  | none =>
    rw [e] at sl
    exact ⟨seg_append.2 ⟨_, sl, rfl, nn⟩, nd, rg, eb, Nat.le_succ_of_le cp.brk,
      cp.same.trans ⟨rfl, rfl, rfl, rfl, rfl, rfl⟩, cp.free, cp.used, old⟩
  | some m =>
    have mc : m ∈ c := List.mem_of_getLast? e
    rw [e] at sl
    refine ⟨?_, nd, rg, ?_, Nat.le_succ_of_le cp.brk, cp.same.trans ⟨rfl, rfl, rfl, rfl, rfl, rfl⟩,
      cp.free, cp.used, ?_⟩
    · rw [next_setNext]
      refine seg_append.2 ⟨_, sl, rfl, ?_⟩
      have ne : h.brk ≠ m := fun e => fresh (e ▸ mc)
      rw [Function.update_of_ne ne]
      exact nn
    · rw [blk_setNext]
      exact eb
    · intro k hk
      have ne : k ≠ m := fun e => by have := (cp.range m mc).1; omega
      rw [next_setNext, blk_setNext, Function.update_of_ne ne]
      exact old k hk

/-- `listCopy` returns with the rest of the list copied. -/
lemma listCopy_spec {h₀ n i copy c l l'} (cp : Copied h₀ h copy c l)
    (ch : Chain h₀.next i l') (bd : ∀ j ∈ l', j < h₀.brk) (hn : l'.length < n) :
    ∃ h' copy' c', listCopy n h i copy c.getLast? = some (h', copy') ∧
      Copied h₀ h' copy' c' (l ++ l') := by
  induction n generalizing h i copy c l l' with
  | zero => omega
  | succ n ih =>
    cases l' with
    | nil =>
      have e : i = none := ch
      exact ⟨h, copy, c, by simp [listCopy, e], by simpa using cp⟩
    | cons j l' =>
      obtain ⟨rfl, ch⟩ := ch
      have hj := bd j (by simp)
      have st := cp.snoc hj
      have nx := (st.old j hj).1
      cases e : c.getLast? with
      | none =>
        rw [e] at st nx
        obtain ⟨h', copy', c', er, cp'⟩ := ih st ch (fun k hk => bd k (by simp [hk])) (by simpa using hn)
        rw [List.getLast?_concat, ← nx] at er
        exact ⟨h', copy', c', er, by simpa using cp'⟩
      | some m =>
        rw [e] at st nx
        obtain ⟨h', copy', c', er, cp'⟩ := ih st ch (fun k hk => bd k (by simp [hk])) (by simpa using hn)
        rw [List.getLast?_concat, ← nx] at er
        exact ⟨h', copy', c', er, by simpa using cp'⟩

/-- Destroying a list only touches its nodes. -/
lemma listDestroy_spec {n i l} (ch : Chain h.next i l) (nd : l.Nodup) (hn : l.length < n) :
    ∃ h', listDestroy n h i = some h' ∧ Arena.Agree h.arena h'.arena l ∧ Same h h' ∧
      h'.brk = h.brk ∧ h'.freeBlks = h.freeBlks ∧ h'.usedBlks = h.usedBlks := by
  induction n generalizing h i l with
  | zero => omega
  | succ n ih =>
    cases l with
    | nil =>
      have e : i = none := ch
      exact ⟨h, by simp [listDestroy, e], fun _ _ => ⟨rfl, rfl⟩, ⟨rfl, rfl, rfl, rfl, rfl, rfl⟩, rfl,
        rfl, rfl⟩
    | cons j l =>
      obtain ⟨rfl, ch⟩ := ch
      obtain ⟨nj, nd⟩ := List.nodup_cons.1 nd
      have ag := h.agree_free j
      have ch' : Chain (h.free j).next (h.next j) l :=
        ag.seg (fun k hk hm => nj (List.mem_singleton.1 hm ▸ hk)) ch
      obtain ⟨h', e, ag', same, brk, fr, us⟩ := ih ch' nd (by simpa using hn)
      have same₁ : Same h (h.free j) := ⟨rfl, rfl, rfl, rfl, rfl, rfl⟩
      refine ⟨h', e, ?_, same₁.trans same, brk, fr, us⟩
      exact (ag.mono (by simp)).trans (ag'.mono (by simp))

/-- The defragmentation loop packs the blocks of the used list from `prev` on and touches nothing else
in the store. -/
lemma defragLoop_spec {n i l p} (ch : Chain h.next i l) (nd : l.Nodup) (hn : l.length < n)
    (fit : p + total (l.map h.blk) < 2 ^ 64) :
    ∃ h', defragLoop n h i p = some h' ∧ l.map h'.blk = pack p (l.map h.blk) ∧
      h'.next = h.next ∧ (∀ j, j ∉ l → h'.blk j = h.blk j) ∧ h'.brk = h.brk ∧
      h'.freeBlks = h.freeBlks ∧ h'.usedBlks = h.usedBlks ∧ h'.dfrgBlks = h.dfrgBlks ∧
      h'.start = h.start ∧ h'.size = h.size ∧ h'.freeSize = h.freeSize ∧ h'.policy = h.policy := by
  induction n generalizing h i l p with
  | zero => omega
  | succ n ih =>
    cases l with
    | nil =>
      have e : i = none := ch
      exact ⟨h, by simp [defragLoop, e], rfl, rfl, fun _ _ => rfl, rfl, rfl, rfl, rfl, rfl, rfl, rfl,
        rfl⟩
    | cons j l =>
      obtain ⟨rfl, ch⟩ := ch
      obtain ⟨nj, nd⟩ := List.nodup_cons.1 nd
      simp only [List.map_cons, total_cons] at fit
      -- one turn of the loop, whether or not the block had to move
      obtain ⟨h₁, e₁, b₁, o₁, x₁, rest₁⟩ : ∃ h₁ : Heap,
          (if p ≠ (h.blk j).start then
            { h.setBlk j ⟨p, (h.blk j).size⟩ with
              bytes := memmove h.bytes p (h.blk j).start (h.blk j).size }
          else h) = h₁ ∧ h₁.blk j = ⟨p, (h.blk j).size⟩ ∧ (∀ k, k ≠ j → h₁.blk k = h.blk k) ∧
          h₁.next = h.next ∧ h₁.brk = h.brk ∧ h₁.freeBlks = h.freeBlks ∧ h₁.usedBlks = h.usedBlks ∧
          h₁.dfrgBlks = h.dfrgBlks ∧ h₁.start = h.start ∧ h₁.size = h.size ∧
          h₁.freeSize = h.freeSize ∧ h₁.policy = h.policy := by
        by_cases e : p = (h.blk j).start
        · refine ⟨h, by simp [e], ?_, fun _ _ => rfl, rfl, rfl, rfl, rfl, rfl, rfl, rfl, rfl, rfl⟩
          rw [e]
        · refine ⟨_, rfl, ?_, ?_, ?_, ?_⟩
          · rw [if_pos e]
            exact congrFun (h.blk_setBlk j _) j |>.trans (Function.update_self _ _ _)
          · intro k hk
            rw [if_pos e]
            exact congrFun (h.blk_setBlk j _) k |>.trans (Function.update_of_ne hk _ _)
          · rw [if_pos e]
            exact h.next_setBlk j _
          · rw [if_pos e]
            exact ⟨rfl, rfl, rfl, rfl, rfl, rfl, rfl, rfl⟩
      have bl : l.map h₁.blk = l.map h.blk :=
        List.map_congr_left (fun k hk => o₁ k (fun e => nj (e ▸ hk)))
      obtain ⟨h', e', pk, nx, ob, brk, fr, us, df, st, sz, fs, po⟩ := ih
        (h := h₁) (p := p + (h.blk j).size) (by rw [x₁]; exact ch) nd (by simpa using hn)
        (by rw [bl]; omega)
      obtain ⟨brk₁, fr₁, us₁, df₁, st₁, sz₁, fs₁, po₁⟩ := rest₁
      refine ⟨h', ?_, ?_, nx.trans x₁, ?_, brk.trans brk₁, fr.trans fr₁, us.trans us₁, df.trans df₁,
        st.trans st₁, sz.trans sz₁, fs.trans fs₁, po.trans po₁⟩
      · simp only [defragLoop, e₁, b₁, x₁]
        rw [wadd_of_lt (by omega)]
        exact e'
      · simp only [List.map_cons, pack, pk, bl, ob j nj, b₁]
      · intro k hk
        simp only [List.mem_cons, not_or] at hk
        exact (ob k hk.2).trans (o₁ k hk.1)

/-- The heap after the copy and the moves of `heapDefrag`, before the free list is adjusted. -/
structure Packed (h h' : Heap) (fl ul c : List Nat) : Prop where
  free : Chain h'.next h'.freeBlks fl
  used : Chain h'.next h'.usedBlks ul
  dfrg : Chain h'.next h'.dfrgBlks c
  nodup : c.Nodup
  disj : ∀ j ∈ c, j ∉ fl ++ ul
  bound : ∀ j ∈ fl ++ ul ++ c, j < h'.brk
  blk_free : fl.map h'.blk = fl.map h.blk
  blk_used : ul.map h'.blk = pack h.start (ul.map h.blk)
  blk_dfrg : c.map h'.blk = ul.map h.blk
  start : h'.start = h.start
  size : h'.size = h.size
  freeSize : h'.freeSize = h.freeSize
  policy : h'.policy = h.policy

/-- The copy and the moves of `heapDefrag`. -/
lemma Inv.packed {i} (inv : h.Inv fl (i :: ul) dl) :
    ∃ h₁ copy h₂ c, listCopy h.fuel h (some i) none none = some (h₁, copy) ∧
      defragLoop h₁.fuel { h₁ with dfrgBlks := copy } (some i) h₁.start = some h₂ ∧
      Packed h h₂ fl (i :: ul) c := by
  have cf : Chain h.next h.freeBlks fl := inv.arena.free
  have cu : Chain h.next h.usedBlks (i :: ul) := inv.arena.used
  have eu : h.usedBlks = some i := cu.1
  rw [eu] at cu
  have bf : ∀ j ∈ fl, j < h.brk := fun j hj => inv.bound j (by simp [hj])
  have bu : ∀ j ∈ i :: ul, j < h.brk := fun j hj =>
    inv.bound j (List.mem_append_left _ (List.mem_append_right _ hj))
  obtain ⟨-, ndu, dj⟩ := List.nodup_append.1 inv.arena.nodup
  have tot := inv.arena.layout.total_eq
  have room := inv.room
  have cp₀ : Copied h h none [] [] :=
    ⟨rfl, List.nodup_nil, by simp, rfl, le_rfl, ⟨rfl, rfl, rfl, rfl, rfl, rfl⟩, rfl, rfl,
      fun _ _ => ⟨rfl, rfl⟩⟩
  obtain ⟨h₁, copy, c, e₁, cp⟩ := listCopy_spec cp₀ cu bu inv.used_fuel
  rw [List.nil_append] at cp
  have ch₁ : Chain h₁.next (some i) (i :: ul) := cu.frame (fun j hj => (cp.old j (bu j hj)).1)
  have bl₁ : (i :: ul).map h₁.blk = (i :: ul).map h.blk :=
    List.map_congr_left (fun j hj => (cp.old j (bu j hj)).2)
  have fuel₁ : (i :: ul).length < h₁.fuel :=
    lt_of_lt_of_le inv.used_fuel (Nat.succ_le_succ cp.brk)
  have fit : h₁.start + total ((i :: ul).map h₁.blk) < 2 ^ 64 := by
    rw [bl₁, cp.same.start]
    simp only [arena_blk] at tot
    omega
  obtain ⟨h₂, e₂, pk, nx, ob, brk, fr, us, df, st, sz, fs, po⟩ := defragLoop_spec
    (h := { h₁ with dfrgBlks := copy }) (p := h₁.start) ch₁ ndu fuel₁ fit
  have nx₂ : ∀ j, j < h.brk → h₂.next j = h.next j := fun j hj =>
    (congrFun nx j).trans (cp.old j hj).1
  have disj : ∀ j ∈ c, j ∉ fl ++ i :: ul := by
    intro j hj hm
    have := (cp.range j hj).1
    have := inv.bound j (List.mem_append_left _ hm)
    omega
  refine ⟨h₁, copy, h₂, c, e₁, e₂, ?_⟩
  constructor
  case free =>
    rw [fr.trans cp.free]
    exact cf.frame (fun j hj => nx₂ j (bf j hj))
  case used =>
    rw [us.trans cp.used, eu]
    exact cu.frame (fun j hj => nx₂ j (bu j hj))
  case dfrg =>
    rw [nx, df]
    exact cp.chain
  case nodup => exact cp.nodup
  case disj => exact disj
  case bound =>
    intro j hj
    have brk' : h₂.brk = h₁.brk := brk
    rw [brk']
    cases List.mem_append.1 hj with
    | inl hj => exact lt_of_lt_of_le (inv.bound j (List.mem_append_left _ hj)) cp.brk
    | inr hj => exact (cp.range j hj).2
  case blk_free =>
    refine List.map_congr_left (fun j hj => ?_)
    exact (ob j (fun hm => dj j hj j hm rfl)).trans (cp.old j (bf j hj)).2
  case blk_used =>
    rw [pk, cp.same.start]
    exact congrArg (pack h.start) bl₁
  case blk_dfrg =>
    rw [← cp.blocks]
    exact List.map_congr_left (fun j hj => ob j (fun hm => disj j hj (List.mem_append_right _ hm)))
  case start => exact st.trans cp.same.start
  case size => exact sz.trans cp.same.size
  case freeSize => exact fs.trans cp.same.freeSize
  case policy => exact po.trans cp.same.policy

/-- `heapDefrag` returns; unless the used list is empty it packs the used blocks and leaves the free
space in one block. -/
lemma Inv.defrag (inv : h.Inv fl ul dl) :
    (heapDefrag h = some h ∧ ul = []) ∨
    ∃ h' dl', heapDefrag h = some h' ∧ h'.Inv (fl.take 1) ul dl' ∧
      ul.map h'.blk = pack h.start (ul.map h.blk) ∧ dl'.map h'.blk = ul.map h.blk ∧
      h'.policy = h.policy ∧ h'.start = h.start ∧ h'.size = h.size ∧
      ∀ f ∈ fl.take 1, h'.blk f = ⟨h.start + h.size - h.freeSize, h.freeSize⟩ := by
  have cu : Chain h.next h.usedBlks ul := inv.arena.used
  have room := inv.room
  have tot := inv.arena.layout.total_eq
  unfold heapDefrag
  cases ul with
  | nil =>
    have e : h.usedBlks = none := cu
    exact .inl ⟨by simp [e], rfl⟩
  | cons i ul =>
    have e : h.usedBlks = some i := cu.1
    obtain ⟨h₁, copy, h₂, c, e₁, e₂, pk⟩ := inv.packed
    cases fl with
    | nil =>
      have en : h₂.freeBlks = none := pk.free
      refine .inr ⟨h₂, c, by simp [e, e₁, e₂, en], ?_, pk.blk_used, pk.blk_dfrg, pk.policy, pk.start,
        pk.size, by simp⟩
      refine ⟨⟨⟨pk.free, pk.used, inv.arena.nodup, ?_⟩, List.Pairwise.nil⟩, pk.dfrg, pk.nodup, pk.disj,
        pk.bound, ?_, ?_, ?_⟩
      · rw [pk.start, pk.size, arena_blk, pk.blk_used]
        exact inv.arena.layout.pack_full
      · rw [pk.freeSize, inv.freeSize]
        rfl
      · rw [pk.start]
        exact inv.start_pos
      · rw [pk.start, pk.size]
        exact room
    | cons f fl =>
      obtain ⟨ef, cf⟩ := pk.free
      have nd := inv.arena.nodup
      rw [List.cons_append, List.nodup_cons] at nd
      obtain ⟨nf, nd⟩ := nd
      obtain ⟨ndf, ndu, dj⟩ := List.nodup_append.1 nd
      have free₀ := inv.freeSize
      have eb : wsub 64 (wadd 64 h₂.start h₂.size) h₂.freeSize = h.start + h.size - h.freeSize := by
        rw [pk.start, pk.size, pk.freeSize, wadd_of_lt room, wsub_of_le _ room]
        simp only [arena_blk] at tot
        omega
      have cf₃ : Chain (h₂.setBlk f ⟨h.start + h.size - h.freeSize, h₂.freeSize⟩).next
          ((h₂.setBlk f ⟨h.start + h.size - h.freeSize, h₂.freeSize⟩).next f) fl := by
        rw [next_setBlk]
        exact cf
      have fuel₃ : fl.length < (h₂.setBlk f ⟨h.start + h.size - h.freeSize, h₂.freeSize⟩).fuel :=
        Nat.lt_succ_of_le (length_le_of_bound ndf (fun j hj => pk.bound j (by simp [hj])))
      obtain ⟨h₄, e₄, ag, same, brk, fr, us⟩ := listDestroy_spec cf₃ ndf fuel₃
      rw [next_setBlk] at e₄
      -- what the adjustment leaves alone, and what it writes
      have keep : ∀ j, j ∉ f :: fl → (h₄.setNext f none).next j = h₂.next j ∧
          (h₄.setNext f none).blk j = h₂.blk j := by
        intro j hj
        simp only [List.mem_cons, not_or] at hj
        obtain ⟨e1, e2⟩ := ag j hj.2
        rw [next_setNext, blk_setNext, Function.update_of_ne hj.1]
        simp only [arena_next, arena_blk, next_setBlk, blk_setBlk, Function.update_of_ne hj.1] at e1 e2
        exact ⟨e1, e2⟩
      have bf : (h₄.setNext f none).blk f = ⟨h.start + h.size - h.freeSize, h.freeSize⟩ := by
        have e2 := (ag f (fun hm => nf (by simp [hm]))).2
        simp only [arena_blk, blk_setBlk, Function.update_self] at e2
        rw [blk_setNext, e2, pk.freeSize]
      have outu : ∀ j ∈ i :: ul, j ∉ f :: fl := by
        intro j hj hm
        cases List.mem_cons.1 hm with
        | inl e => exact nf (e ▸ List.mem_append_right _ hj)
        | inr hm => exact dj j hm j hj rfl
      have outc : ∀ j ∈ c, j ∉ f :: fl := fun j hj hm => pk.disj j hj (List.mem_append_left _ hm)
      have bu : (i :: ul).map (h₄.setNext f none).blk = pack h.start ((i :: ul).map h.blk) := by
        rw [← pk.blk_used]
        exact List.map_congr_left (fun j hj => (keep j (outu j hj)).2)
      have st : (h₄.setNext f none).start = h.start := same.start.trans pk.start
      have sz : (h₄.setNext f none).size = h.size := same.size.trans pk.size
      refine .inr ⟨h₄.setNext f none, c, by simp [e, e₁, e₂, ef, eb, e₄], ?_, bu, ?_,
        same.policy.trans pk.policy, st, sz, by simpa using bf⟩
      · refine ⟨⟨⟨?_, ?_, ?_, ?_⟩, List.pairwise_singleton _ _⟩, ?_, pk.nodup, ?_, ?_, ?_, ?_, ?_⟩
        · refine ⟨fr.trans ef, ?_⟩
          show (h₄.setNext f none).next f = none
          rw [next_setNext, Function.update_self]
        · have eu : (h₄.setNext f none).usedBlks = h₂.usedBlks := us
          rw [arena_used, eu]
          exact pk.used.frame (fun j hj => (keep j (outu j hj)).1)
        · exact List.nodup_cons.2 ⟨fun hm => nf (List.mem_append_right _ hm), ndu⟩
        · have ly := inv.arena.layout.pack (by simp)
          rw [st, sz, arena_blk, bu]
          simp only [List.take_succ_cons, List.take_zero, List.map_cons, List.map_nil, bf, free₀]
          exact ly
        · have ed : (h₄.setNext f none).dfrgBlks = h₂.dfrgBlks := same.dfrgBlks
          rw [ed]
          exact pk.dfrg.frame (fun j hj => (keep j (outc j hj)).1)
        · intro j hj hm
          apply pk.disj j hj
          simp only [List.take_succ_cons, List.take_zero, List.mem_append, List.mem_cons,
            List.not_mem_nil, or_false] at hm ⊢
          tauto
        · intro j hj
          have eb : (h₄.setNext f none).brk = h₂.brk := brk
          rw [eb]
          apply pk.bound
          simp only [List.take_succ_cons, List.take_zero, List.mem_append, List.mem_cons,
            List.not_mem_nil, or_false] at hj ⊢
          tauto
        · have es : (h₄.setNext f none).freeSize = h₂.freeSize := same.freeSize
          rw [es, pk.freeSize]
          simp only [List.take_succ_cons, List.take_zero, List.map_cons, List.map_nil, total_cons,
            total_nil, bf, Nat.add_zero]
        · rw [st]
          exact inv.start_pos
        · rw [st, sz]
          exact room
      · rw [← pk.blk_dfrg]
        exact List.map_congr_left (fun j hj => (keep j (outc j hj)).2)

/-- `heapDefragClose` returns and drops the copy of the used list; the blocks stay as they are. -/
lemma Inv.defragClose (inv : h.Inv fl ul dl) :
    ∃ h', heapDefragClose h = some h' ∧ h'.Inv fl ul [] ∧ h'.start = h.start ∧ h'.size = h.size ∧
      ul.map h'.blk = ul.map h.blk ∧ h'.bytes = h.bytes := by
  have fuel : dl.length < h.fuel :=
    Nat.lt_succ_of_le (length_le_of_bound inv.dfrg_nodup (fun i hi => inv.bound i (by simp [hi])))
  obtain ⟨h', e, ag, same, brk, fr, us⟩ := listDestroy_spec inv.dfrg inv.dfrg_nodup fuel
  have outf : ∀ i ∈ fl, i ∉ dl := fun i hi hd => inv.dfrg_disj i hd (by simp [hi])
  have outu : ∀ i ∈ ul, i ∉ dl := fun i hi hd => inv.dfrg_disj i hd (by simp [hi])
  have ia := inv.arena
  have ef : fl.map h'.blk = fl.map h.blk := ag.map_blk outf
  have eu : ul.map h'.blk = ul.map h.blk := ag.map_blk outu
  refine ⟨{ h' with dfrgBlks := none }, by simp [heapDefragClose, e], ?_, same.start, same.size, eu, same.bytes⟩
  refine ⟨⟨⟨?_, ?_, ia.nodup, ?_⟩, ?_⟩, rfl, List.nodup_nil, by simp, ?_, ?_, ?_, ?_⟩
  · show Chain h'.next h'.freeBlks fl
    rw [fr]
    exact ag.seg outf ia.free
  · show Chain h'.next h'.usedBlks ul
    rw [us]
    exact ag.seg outu ia.used
  · show Layout h'.start (h'.start + h'.size) (fl.map h'.blk) (ul.map h'.blk)
    rw [same.start, same.size, ef, eu]
    exact ia.layout
  · show Separated (fl.map h'.blk)
    rw [ef]
    exact ia.separated
  · intro i hi
    show i < h'.brk
    rw [brk]
    rw [List.append_nil] at hi
    exact inv.bound i (List.mem_append_left _ hi)
  · show h'.freeSize = total (fl.map h'.blk)
    rw [same.freeSize, ef]
    exact inv.freeSize
  · show 0 < h'.start
    rw [same.start]
    exact inv.start_pos
  · show h'.start + h'.size < 2 ^ 64
    rw [same.start, same.size]
    exact inv.room

end Heap

end PDS.Lab1
