import PDS.Sfs.Io

/-!
# Truncation

`sfs_truncate` frees the blocks past the new end of a file. The blocks of the indirect block are freed before the
indirect block is written back, so the volume is only consistent again afterwards; the direct blocks are freed one
by one.
-/

namespace PDS.Sfs
open Kern Word

section

variable {s s' : SfsFs} {N : Nat → Prop} {sv i b : Nat}

/-- Changes that only concern the inode `i`, which keeps its kind and its links. -/
structure Only (N : Nat → Prop) (i : Nat) (s s' : SfsFs) : Prop where
  core : Core s' N
  frame : Frame s s'
  files : ∀ j, s.Live N j → j ≠ i → s'.file j = s.file j
  type : (s'.file i).type = (s.file i).type
  links : (s'.file i).links = (s.file i).links
  keeps : ∀ j l, s.Live N j → j ≠ i → s.ptr j l ≠ 0 → s'.ptr j l ≠ 0

/-- Nothing has changed. -/
lemma Only.refl (h : Core s N) : Only N i s s :=
  ⟨h, .refl s, fun _ _ _ => rfl, rfl, rfl, fun _ _ _ _ ne => ne⟩

/-- Changes to one file compose. -/
lemma Only.trans {s'' : SfsFs} (h : Only N i s s') (h' : Only N i s' s'') : Only N i s s'' where
  core := h'.core
  frame := h.frame.trans h'.frame
  files j live ne := (h'.files j (h.frame.live_iff.2 live) ne).trans (h.files j live ne)
  type := h'.type.trans h.type
  links := h'.links.trans h.links
  keeps j l live ne used := h'.keeps j l (h.frame.live_iff.2 live) ne (h.keeps j l live ne used)

/-- An inode gives up some of its blocks. -/
lemma Core.cut (h : Core s N) (live : s.Live N i) (cut : Nat → Prop) [DecidablePred cut] (fr : Frame s s')
    (blocks : s'.dev.blocks = s.dev.blocks)
    (map : ∀ x, s'.freemap x = true ↔ s.freemap x = true ∧ ∀ l, cut l → s.ptr i l ≠ 0 → s.ptr i l ≠ x)
    (mapdirty : s'.freemapdirty = true) (superdirty : s'.superdirty = s.superdirty)
    (zero : s'.dev.sect 0 = s.dev.sect 0)
    (clean : ∀ sw ∈ s.vnodes, (s'.vnode sw).dirty = false → (s.vnode sw).dirty = false ∧
      (s'.vnode sw).i = (s.vnode sw).i ∧ s'.dev.sect (s.vnode sw).ino = s.dev.sect (s.vnode sw).ino)
    (kept : ∀ j, s.Live N j → (s'.inode j).type = (s.inode j).type ∧ (s'.inode j).linkcount = (s.inode j).linkcount ∧
      (s'.inode j).size = (s.inode j).size)
    (ptr : ∀ j l, s.Live N j → s'.ptr j l = if j = i ∧ cut l then 0 else s.ptr j l)
    (sect : ∀ j l, s.Live N j → j ≠ i → l ≠ 15 → s.ptr j l ≠ 0 → s'.dev.sect (s.ptr j l) = s.dev.sect (s.ptr j l)) :
    Only N i s s' := by
  refine ⟨?_, fr, ?_, (kept i live).1, (kept i live).2.1, ?_⟩
  · exact h.of_frame fr blocks mapdirty superdirty zero clean (fun j live => (kept j live).1)
      (h.own_cut live cut fr.nblocks (fun _ => fr.live_iff) ptr map)
  · intro j hj ne
    obtain ⟨type, links, size⟩ := kept j hj
    refine SfsFs.file_eq type links size ?_
    intro fb
    have same : s'.ptr j (dataSlot fb) = s.ptr j (dataSlot fb) := by
      rw [ptr j _ hj, if_neg (fun e => ne e.1)]
    dsimp only [SfsFs.file]
    rw [same]
    by_cases hole : s.ptr j (dataSlot fb) = 0
    · rw [if_pos hole, if_pos hole]
    · rw [if_neg hole, if_neg hole, sect j _ hj ne (dataSlot_ne fb) hole]
  · intro j l hj ne used
    rw [ptr j l hj, if_neg (fun e => ne e.1)]
    exact used

/-- A marked block can be freed. -/
lemma wp_sfsBfree (inside : b < bitmapsize s.nblocks) (marked : s.freemap b = true) {Q : Unit → SfsFs → Prop}
    {E : Nat → SfsFs → Prop} (post : Q () (s.unmark b)) : Prog.wp (sfsBfree b) Q E s := by
  rw [sfsBfree, Prog.wp_andThen_iff, Prog.wp_get_iff, Prog.wp_andThen_iff]
  refine Prog.wp.require inside ?_
  rw [Prog.wp_andThen_iff]
  exact Prog.wp.require marked post

/-- The rule of `sfs_bfree`. -/
lemma wlp_sfsBfree {Q : Unit → SfsFs → Prop} {E : Nat → SfsFs → Prop} (post : Q () (s.unmark b)) :
    Prog.wlp (sfsBfree b) Q E s := by
  rw [sfsBfree, Prog.wlp_andThen_iff, Prog.wlp_get_iff, Prog.wlp_andThen_iff]
  refine Prog.wlp.require fun _ => ?_
  rw [Prog.wlp_andThen_iff]
  exact Prog.wlp.require fun _ => post

/-- Pointers have a bit in the map. -/
lemma Core.ptr_inside (h : Core s N) (live : s.Live N i) {k : Nat} : s.ptr i k < bitmapsize s.nblocks :=
  (h.ptr_lt live k).trans_le (le_bitmapsize _)

/-- Freeing a block is a frame. -/
lemma Frame.unmark : Frame s (s.unmark b) :=
  ⟨rfl, rfl, rfl, fun _ => rfl, fun _ => rfl, fun _ => rfl, fun _ => rfl⟩

/-- A direct block is given up. -/
lemma Core.cutDirect (h : Core s N) (mem : sv ∈ s.vnodes) (k : Fin 15) (used : s.ptr (s.vnode sv).ino k.val ≠ 0) :
    Only N (s.vnode sv).ino s
      ((s.unmark (s.ptr (s.vnode sv).ino k.val)).mapVnode sv
        (onInode fun i => { i with direct := Function.update i.direct k 0 })) ∧
      ∀ l, ((s.unmark (s.ptr (s.vnode sv).ino k.val)).mapVnode sv
        (onInode fun i => { i with direct := Function.update i.direct k 0 })).ptr (s.vnode sv).ino l =
          if l = k.val then 0 else s.ptr (s.vnode sv).ino l := by
  have live : s.Live N (s.vnode sv).ino := SfsFs.live_of_mem mem
  generalize hb : s.ptr (s.vnode sv).ino k.val = b at used ⊢
  have table : Table (s.unmark b) := h.table.of_frame .unmark
  have inode : ((s.unmark b).mapVnode sv (onInode fun i => { i with direct := Function.update i.direct k 0 })).inode =
      Function.update s.inode (s.vnode sv).ino
        { (s.vnode sv).i with direct := Function.update (s.vnode sv).i.direct k 0 } := table.inode_mapVnode mem rfl
  have ptr (j l : Nat) : ((s.unmark b).mapVnode sv
      (onInode fun i => { i with direct := Function.update i.direct k 0 })).ptr j l =
      if j = (s.vnode sv).ino ∧ l = k.val then 0 else s.ptr j l := by
    rw [SfsFs.ptr, inode]
    by_cases same : j = (s.vnode sv).ino
    · rw [same, Function.update_self, ptrOf_direct, SfsFs.ptr, h.table.inode_eq mem]
      simp only [true_and]
      rfl
    · rw [Function.update_of_ne same, if_neg (fun e => same e.1)]
      rfl
  refine ⟨h.cut live (· = k.val) ?_ rfl ?_ rfl rfl rfl ?_ ?_ (fun j l _ => ptr j l) (fun _ _ _ _ _ _ => rfl), ?_⟩
  · exact Frame.trans .unmark (.mapVnode rfl rfl rfl rfl)
  · intro x
    show Function.update s.freemap b false x = true ↔ _
    by_cases e : x = b
    · rw [e, Function.update_self]
      refine iff_of_false Bool.false_ne_true ?_
      rintro ⟨-, keeps⟩
      exact keeps k.val rfl (hb.symm ▸ used) hb
    · rw [Function.update_of_ne e]
      refine (and_iff_left ?_).symm
      rintro l rfl - eq
      exact e (eq.symm.trans hb)
  · intro sw _ dirty
    have same := SfsFs.vnode_of_clean dirty
    rw [same] at dirty ⊢
    exact ⟨dirty, rfl, rfl⟩
  · exact fun j _ => table.kept_onInode mem ⟨rfl, rfl, rfl⟩ j
  · intro l
    rw [ptr]
    simp only [true_and]

/-- The loop over the direct blocks from `k` on. -/
lemma Core.wp_truncateDirect (h : Core s N) (mem : sv ∈ s.vnodes) (blocklen n k : Nat) (bound : k + n ≤ 15)
    {E : Nat → SfsFs → Prop} :
    Prog.wp (truncateDirect sv blocklen n k)
      (fun _ s' => Only N (s.vnode sv).ino s s' ∧ ∀ l, s'.ptr (s.vnode sv).ino l =
        if k ≤ l ∧ l < k + n ∧ blocklen ≤ l then 0 else s.ptr (s.vnode sv).ino l) E s := by
  induction n generalizing s k with
  | zero =>
    rw [truncateDirect, Prog.wp_pure_iff]
    refine ⟨.refl h, fun l => ?_⟩
    rw [if_neg (by omega)]
  | succ n ih =>
    have live : s.Live N (s.vnode sv).ino := SfsFs.live_of_mem mem
    have number : (Fin.ofNat 15 k).val = k := Nat.mod_eq_of_lt (by omega)
    have ptr : ((s.vnode sv).i.direct (Fin.ofNat 15 k)).toNat = s.ptr (s.vnode sv).ino k := by
      rw [SfsFs.ptr, ptrOf_of_lt _ _ (by omega), h.table.inode_eq mem]
      congr 2
      exact Fin.ext number
    rw [truncateDirect, Prog.wp_andThen_iff]
    refine Prog.wp_of_run rfl ?_
    dsimp only
    rw [ptr]
    split_ifs with free
    · rw [Prog.wp_andThen_iff]
      refine wp_sfsBfree (h.ptr_inside live) (h.ptr_marked live free.2) ?_
      obtain ⟨only, cut⟩ := h.cutDirect mem (Fin.ofNat 15 k) (by rw [number]; exact free.2)
      rw [number] at only cut
      rw [Prog.wp_andThen_iff]
      refine Prog.wp_of_run rfl ?_
      have mem' := only.frame.vnodes.symm ▸ mem
      refine (ih only.core mem' (k + 1) (by omega)).mono ?_ (fun _ _ e => e)
      rintro _ s' ⟨only', cut'⟩
      rw [only.frame.ino] at only' cut'
      refine ⟨only.trans only', fun l => ?_⟩
      rw [cut', cut]
      split_ifs <;> first | rfl | omega
    · refine (ih h mem (k + 1) (by omega)).mono ?_ (fun _ _ e => e)
      rintro _ s' ⟨only, cut⟩
      refine ⟨only, fun l => ?_⟩
      rw [cut]
      by_cases same : l = k
      · subst same
        rw [if_neg (by omega)]
        split_ifs with past
        · by_contra ne
          exact free ⟨past.2.2, ne⟩
        · rfl
      · split_ifs <;> first | rfl | omega

/-- The free map changes. -/
def SfsFs.setMap (s : SfsFs) (map : Nat → Bool) (dirty : Bool) : SfsFs :=
  { s with freemap := map, freemapdirty := dirty }

/-- Changes to the map are frames. -/
lemma Frame.setMap {map : Nat → Bool} {dirty : Bool} : Frame s (s.setMap map dirty) :=
  ⟨rfl, rfl, rfl, fun _ => rfl, fun _ => rfl, fun _ => rfl, fun _ => rfl⟩

/-- The blocks that the loop over the entries of the indirect block, which are `w`, frees from `j` on. -/
def Freed (blocklen : Nat) (w : Nat → Nat) (j n x : Nat) : Prop :=
  ∃ l, j ≤ l ∧ l < j + n ∧ blocklen < 15 + l ∧ w l = x ∧ x ≠ 0

/-- What the loop over the entries of the indirect block leaves: the buffer, and the free map. -/
structure Trimmed (s : SfsFs) (blocklen : Nat) (w : Nat → Nat) (j n : Nat) (r : (Nat → Nat) × Bool) (s' : SfsFs) : Prop where
  buffer : ∀ l, r.1 l = if j ≤ l ∧ l < j + n ∧ blocklen < 15 + l then 0 else w l
  state : s' = s.setMap s'.freemap s'.freemapdirty
  map : ∀ x, s'.freemap x = true ↔ s.freemap x = true ∧ ¬ Freed blocklen w j n x
  dirty : r.2 = true → s'.freemapdirty = true
  clean : r.2 = false → s' = s ∧ r.1 = w

/-- No entry handled yet. -/
lemma Trimmed.none {blocklen j : Nat} {w : Nat → Nat} {d : Bool} (mapdirty : d = true → s.freemapdirty = true) :
    Trimmed s blocklen w j 0 (w, d) s := by
  refine ⟨?_, rfl, ?_, mapdirty, fun _ => ⟨rfl, rfl⟩⟩
  · intro l
    rw [if_neg (by omega)]
  · intro x
    refine (and_iff_left ?_).symm
    rintro ⟨l, lo, hi, -⟩
    omega

/-- The entry `j` is freed. -/
lemma Trimmed.free {blocklen j n : Nat} {w : Nat → Nat} {r : (Nat → Nat) × Bool} (past : blocklen < 15 + j) (ne : w j ≠ 0)
    (h : Trimmed (s.unmark (w j)) blocklen (Function.update w j 0) (j + 1) n r s') (dirty : r.2 = true) :
    Trimmed s blocklen w j (n + 1) r s' := by
  have other (l : Nat) (lo : j + 1 ≤ l) : Function.update w j 0 l = w l := Function.update_of_ne (by omega) ..
  refine ⟨?_, h.state, ?_, h.dirty, ?_⟩
  · intro l
    rw [h.buffer]
    by_cases e : l = j
    · rw [e, Function.update_self, if_neg (by omega), if_pos (by omega)]
    · rw [Function.update_of_ne e]
      split_ifs <;> first | rfl | omega
  · intro x
    rw [h.map]
    show Function.update s.freemap (w j) false x = true ∧ _ ↔ _
    by_cases e : x = w j
    · rw [e, Function.update_self]
      refine iff_of_false nofun ?_
      rintro ⟨-, keeps⟩
      exact keeps ⟨j, by omega, by omega, past, rfl, ne⟩
    · rw [Function.update_of_ne e]
      refine and_congr_right (fun _ => not_congr ⟨?_, ?_⟩)
      · rintro ⟨l, lo, hi, past, eq, ne⟩
        rw [other l lo] at eq
        exact ⟨l, by omega, by omega, past, eq, ne⟩
      · rintro ⟨l, lo, hi, past, eq, ne⟩
        have later : j + 1 ≤ l := by
          by_contra le
          exact e (by rw [← eq, show l = j by omega])
        refine ⟨l, later, by omega, past, ?_, ne⟩
        rw [other l later, eq]
  · intro no
    rw [dirty] at no
    cases no

/-- The entry `j` stays. -/
lemma Trimmed.keep {blocklen j n : Nat} {w : Nat → Nat} {r : (Nat → Nat) × Bool}
    (stays : ¬ (blocklen < 15 + j ∧ w j ≠ 0)) (h : Trimmed s blocklen w (j + 1) n r s') :
    Trimmed s blocklen w j (n + 1) r s' := by
  refine ⟨?_, h.state, ?_, h.dirty, h.clean⟩
  · intro l
    rw [h.buffer]
    by_cases e : l = j
    · rw [e, if_neg (by omega)]
      split_ifs with past
      · by_contra ne
        exact stays ⟨past.2.2, ne⟩
      · rfl
    · split_ifs <;> first | rfl | omega
  · intro x
    rw [h.map]
    refine and_congr_right (fun _ => not_congr ⟨?_, ?_⟩)
    · rintro ⟨l, lo, hi, rest⟩
      exact ⟨l, by omega, by omega, rest⟩
    · rintro ⟨l, lo, hi, past, eq, ne⟩
      have later : j + 1 ≤ l := by
        by_contra le
        have same : l = j := by omega
        rw [same] at past eq
        exact stays ⟨past, eq ▸ ne⟩
      exact ⟨l, later, by omega, past, eq, ne⟩

/-- The rule for the entries of the indirect block, by induction on those left. -/
lemma wp_truncateIndirect {blocklen n j : Nat} {w : Nat → Nat} {d : Bool} (bound : j + n ≤ 128)
    (inside : ∀ l < 128, w l < bitmapsize s.nblocks)
    (marked : ∀ l, j ≤ l → l < 128 → w l ≠ 0 → s.freemap (w l) = true)
    (inj : ∀ l l', j ≤ l → l < 128 → j ≤ l' → l' < 128 → w l = w l' → w l ≠ 0 → l = l')
    (mapdirty : d = true → s.freemapdirty = true) {E : Nat → SfsFs → Prop} :
    Prog.wp (truncateIndirect blocklen n j w d)
      (fun r s' => Trimmed s blocklen w j n r s' ∧ (d = true → r.2 = true)) E s := by
  induction n generalizing s w j d with
  | zero =>
    rw [truncateIndirect, Prog.wp_pure_iff]
    exact ⟨.none mapdirty, id⟩
  | succ n ih =>
    rw [truncateIndirect]
    split_ifs with free
    · have here := marked j (Nat.le_refl _) (by omega) free.2
      rw [Prog.wp_andThen_iff]
      refine wp_sfsBfree (inside j (by omega)) here ?_
      have other (l : Nat) (lo : j + 1 ≤ l) : Function.update w j 0 l = w l := Function.update_of_ne (by omega) ..
      refine (ih (s := s.unmark (w j)) (w := Function.update w j 0) (j := j + 1) (d := true) (by omega) ?_ ?_ ?_
        (fun _ => rfl)).mono ?_ (fun _ _ e => e)
      · intro l lt
        by_cases e : l = j
        · rw [e, Function.update_self]
          have := inside j (by omega)
          show 0 < bitmapsize s.nblocks
          omega
        · rw [Function.update_of_ne e]
          exact inside l lt
      · intro l lo hi ne
        rw [other l lo] at ne ⊢
        have ne' : w l ≠ w j := by
          intro eq
          have := inj l j (by omega) hi (Nat.le_refl _) (by omega) eq ne
          omega
        show Function.update s.freemap (w j) false (w l) = true
        rw [Function.update_of_ne ne']
        exact marked l (by omega) hi ne
      · intro l l' lo hi lo' hi'
        rw [other l lo, other l' lo']
        exact inj l l' (by omega) hi (by omega) hi'
      · rintro r s' ⟨trimmed, keeps⟩
        exact ⟨trimmed.free free.1 free.2 (keeps rfl), fun _ => keeps rfl⟩
    · refine (ih (j := j + 1) (by omega) inside (fun l lo => marked l (by omega))
        (fun l l' lo hi lo' => inj l l' (by omega) hi (by omega)) mapdirty).mono ?_ (fun _ _ e => e)
      rintro r s' ⟨trimmed, keeps⟩
      exact ⟨trimmed.keep free, keeps⟩

/-- However the free map is, what the loop leaves if it returns. -/
lemma wlp_truncateIndirect {blocklen n j : Nat} {w : Nat → Nat} {d : Bool} (mapdirty : d = true → s.freemapdirty = true)
    {E : Nat → SfsFs → Prop} : Prog.wlp (truncateIndirect blocklen n j w d)
      (fun r s' => Trimmed s blocklen w j n r s' ∧ (d = true → r.2 = true)) E s := by
  induction n generalizing s w j d with
  | zero =>
    rw [truncateIndirect, Prog.wlp_pure_iff]
    exact ⟨.none mapdirty, id⟩
  | succ n ih =>
    rw [truncateIndirect]
    split_ifs with free
    · rw [Prog.wlp_andThen_iff]
      refine wlp_sfsBfree ((ih (fun _ => rfl)).mono ?_ (fun _ _ e => e))
      rintro r s' ⟨trimmed, keeps⟩
      exact ⟨trimmed.free free.1 free.2 (keeps rfl), fun _ => keeps rfl⟩
    · refine (ih mapdirty).mono ?_ (fun _ _ e => e)
      rintro r s' ⟨trimmed, keeps⟩
      exact ⟨trimmed.keep free, keeps⟩

/-- The entries of the indirect block of an inode. -/
lemma SfsFs.ptr_entry {idblock : Nat} (ind : s.ptr i 15 = idblock) (ne : idblock ≠ 0) {l : Nat} (lt : l < 128) :
    s.ptr i (16 + l) = (s.dev.sect idblock).word l := by
  have number : (s.inode i).indirect.toNat = idblock := by
    rw [← ind, SfsFs.ptr, ptrOf_indirect]
  have some : (s.inode i).indirect ≠ 0 := by
    intro e
    rw [e] at number
    exact ne number.symm
  rw [SfsFs.ptr, ptrOf_of_gt _ _ (by omega), if_pos ⟨by omega, some⟩, number, Nat.add_sub_cancel_left]

/-- The indirect block and its entries are given up. -/
lemma Core.cutIndirect (h : Core s N) (mem : sv ∈ s.vnodes) {m : Nat → Bool}
    (freed : ∀ x, m x = true ↔ s.freemap x = true ∧
      ∀ l, 15 ≤ l → s.ptr (s.vnode sv).ino l ≠ 0 → s.ptr (s.vnode sv).ino l ≠ x) :
    Only N (s.vnode sv).ino s ((s.setMap m true).mapVnode sv (onInode fun i => { i with indirect := 0 })) ∧
      ∀ l, ((s.setMap m true).mapVnode sv (onInode fun i => { i with indirect := 0 })).ptr (s.vnode sv).ino l =
        if 15 ≤ l then 0 else s.ptr (s.vnode sv).ino l := by
  have live : s.Live N (s.vnode sv).ino := SfsFs.live_of_mem mem
  have table : Table (s.setMap m true) := h.table.of_frame .setMap
  have inode : ((s.setMap m true).mapVnode sv (onInode fun i => { i with indirect := 0 })).inode =
      Function.update s.inode (s.vnode sv).ino { (s.vnode sv).i with indirect := 0 } := table.inode_mapVnode mem rfl
  have ptr (j l : Nat) : ((s.setMap m true).mapVnode sv (onInode fun i => { i with indirect := 0 })).ptr j l =
      if j = (s.vnode sv).ino ∧ 15 ≤ l then 0 else s.ptr j l := by
    rw [SfsFs.ptr, inode]
    by_cases same : j = (s.vnode sv).ino
    · rw [same, Function.update_self, SfsFs.ptr, h.table.inode_eq mem]
      simp only [true_and]
      obtain lt | rfl | gt := lt_trichotomy l 15
      · rw [ptrOf_of_lt _ _ lt, ptrOf_of_lt _ _ lt, if_neg (by omega)]
      · rw [ptrOf_indirect, if_pos (Nat.le_refl _)]
        rfl
      · rw [ptrOf_of_gt _ _ gt, if_neg (fun e => e.2 rfl), if_pos (by omega)]
    · rw [Function.update_of_ne same, if_neg (fun e => same e.1)]
      rfl
  refine ⟨h.cut live (15 ≤ ·) ?_ rfl freed rfl rfl rfl ?_ ?_ (fun j l _ => ptr j l) (fun _ _ _ _ _ _ => rfl), ?_⟩
  · exact Frame.trans .setMap (.mapVnode rfl rfl rfl rfl)
  · intro sw _ dirty
    have same := SfsFs.vnode_of_clean dirty
    rw [same] at dirty ⊢
    exact ⟨dirty, rfl, rfl⟩
  · exact fun j _ => table.kept_onInode mem ⟨rfl, rfl, rfl⟩ j
  · intro l
    rw [ptr]
    simp only [true_and]

/-- Entries of the indirect block are given up, and it is written back. -/
lemma Core.cutEntries (h : Core s N) (live : s.Live N i) {idblock : Nat} (ind : s.ptr i 15 = idblock) (ne : idblock ≠ 0)
    (cut : Nat → Prop) [DecidablePred cut] {w : Nat → Nat}
    (buffer : ∀ l < 128, w l = if cut (16 + l) then 0 else (s.dev.sect idblock).word l) (only : ∀ l, cut l → 16 ≤ l)
    {m : Nat → Bool}
    (freed : ∀ x, m x = true ↔ s.freemap x = true ∧ ∀ l, cut l → s.ptr i l ≠ 0 → s.ptr i l ≠ x) :
    Only N i s ((s.setMap m true).write idblock (Block.ofWords w)) ∧
      ∀ l, ((s.setMap m true).write idblock (Block.ofWords w)).ptr i l = if cut l then 0 else s.ptr i l := by
  have other (j : Nat) (hj : s.Live N j) : j ≠ idblock := by
    rintro rfl
    exact h.ptr_ne_inode live hj (ind.symm ▸ ne) ind
  have inode (j : Nat) (hj : s.Live N j) : ((s.setMap m true).write idblock (Block.ofWords w)).inode j = s.inode j :=
    SfsFs.inode_write (.inl (other j hj))
  have ptr (j l : Nat) (hj : s.Live N j) : ((s.setMap m true).write idblock (Block.ofWords w)).ptr j l =
      if j = i ∧ cut l then 0 else s.ptr j l := by
    by_cases same : j = i
    · subst same
      simp only [true_and]
      obtain lt | rfl | gt := lt_trichotomy l 15
      · rw [if_neg (fun c => by have := only l c; omega), SfsFs.ptr, inode j hj, ptrOf_of_lt _ _ lt, SfsFs.ptr,
          ptrOf_of_lt _ _ lt]
      · rw [if_neg (fun c => by have := only 15 c; omega), SfsFs.ptr, inode j hj, ptrOf_indirect, SfsFs.ptr,
          ptrOf_indirect]
      · by_cases inside : l < 144
        · have same : ((s.setMap m true).write idblock (Block.ofWords w)).ptr j 15 = s.ptr j 15 := by
            rw [SfsFs.ptr, inode j hj, ptrOf_indirect, SfsFs.ptr, ptrOf_indirect]
          have ind' := same.trans ind
          obtain ⟨k, rfl⟩ : ∃ k, l = 16 + k := ⟨l - 16, by omega⟩
          have lt : k < 128 := by omega
          have read : ((s.setMap m true).write idblock (Block.ofWords w)).dev.sect idblock = Block.ofWords w :=
            Function.update_self ..
          have small : w k < 2 ^ 32 := by
            rw [buffer k lt]
            split_ifs
            · decide
            · exact Block.word_lt ..
          rw [SfsFs.ptr_entry ind' ne lt, read, Block.word_ofWords lt small, buffer k lt, SfsFs.ptr_entry ind ne lt]
        · rw [SfsFs.ptr_of_le (by omega), SfsFs.ptr_of_le (by omega)]
          exact (ite_self 0).symm
    · rw [if_neg (fun e => same e.1)]
      apply SfsFs.ptr_write (.inl (other j hj))
      intro eq
      have eq : s.ptr j 15 = idblock := eq
      have same' := h.ptr_inj live hj (ind.trans eq.symm) (ind.symm ▸ ne)
      exact absurd same'.1.symm same
  refine ⟨h.cut live cut ?_ rfl freed rfl rfl ?_ ?_ ?_ ptr ?_, ?_⟩
  · exact Frame.trans .setMap .write
  · exact Function.update_of_ne ne.symm ..
  · intro sw mem' dirty
    exact ⟨dirty, rfl, Function.update_of_ne (other _ (SfsFs.live_of_mem mem')) ..⟩
  · intro j hj
    rw [inode j hj]
    exact ⟨rfl, rfl, rfl⟩
  · intro j l hj _ data used
    refine Function.update_of_ne ?_ ..
    intro eq
    exact data (h.ptr_inj hj live (eq.trans ind.symm) used).2
  · intro l
    rw [ptr i l live]
    simp only [true_and]

/-- The part of truncation for the indirect block. -/
lemma Core.wp_truncateIdblock (h : Core s N) (mem : sv ∈ s.vnodes) {idblock : Nat} (blocklen : Nat)
    (ind : s.ptr (s.vnode sv).ino 15 = idblock) (ne : idblock ≠ 0) {E : Nat → SfsFs → Prop} :
    Prog.wp (truncateIdblock sv blocklen idblock)
      (fun _ s' => Only N (s.vnode sv).ino s s' ∧
        (∀ l < 15, s'.ptr (s.vnode sv).ino l = s.ptr (s.vnode sv).ino l) ∧
        (blocklen < 15 → ∀ l ≥ 15, s'.ptr (s.vnode sv).ino l = 0)) E s := by
  have live : s.Live N (s.vnode sv).ino := SfsFs.live_of_mem mem
  have entry (l : Nat) (lt : l < 128) := SfsFs.ptr_entry ind ne lt
  have lt : idblock < s.nblocks := by
    rw [← ind]
    exact h.ptr_lt live 15
  rw [truncateIdblock, Prog.wp_andThen_iff]
  refine Prog.wp_of_run (rblock_eq h.geom lt) ?_
  rw [Prog.wp_andThen_iff]
  refine (wp_truncateIndirect (s := s) (show 0 + 128 ≤ 128 from Nat.le_refl _) ?_ ?_ ?_
      (fun no => by cases no)).mono ?_ (fun _ _ e => e)
  · intro l lt
    rw [← entry l lt]
    exact h.ptr_inside live
  · intro l _ lt ne
    rw [← entry l lt] at ne ⊢
    exact h.ptr_marked live ne
  · intro l l' _ lt _ lt' eq ne
    rw [← entry l lt, ← entry l' lt'] at eq
    rw [← entry l lt] at ne
    have := (h.ptr_inj live live eq ne).2
    omega
  rintro r s' ⟨trimmed, -⟩
  have cutEntry (l : Nat) (hl : l < 128) : r.1 l = if blocklen < 15 + l then 0 else s.ptr (s.vnode sv).ino (16 + l) := by
    rw [trimmed.buffer, entry l hl]
    split_ifs <;> first | rfl | omega
  split_ifs with empty dirty
  · -- the whole indirect block is empty now
    have zero (l : Nat) (hl : l < 128) : r.1 l = 0 := by
      have := List.all_eq_true.1 empty l (List.mem_range.2 hl)
      simpa using this
    have notFreed : ¬ Freed blocklen (s.dev.sect idblock).word 0 128 idblock := by
      rintro ⟨l, -, hl, -, eq, -⟩
      rw [← entry l (by omega), ← ind] at eq
      have := (h.ptr_inj live live eq (eq.symm ▸ ind.symm ▸ ne)).2
      omega
    have marked : s'.freemap idblock = true := by
      rw [trimmed.map]
      refine ⟨?_, notFreed⟩
      rw [← ind]
      exact h.ptr_marked live (ind.symm ▸ ne)
    have size : s'.nblocks = s.nblocks := by
      rw [trimmed.state]
      rfl
    rw [Prog.wp_andThen_iff]
    refine wp_sfsBfree (by rw [size]; exact lt.trans_le (le_bitmapsize _)) marked ?_
    obtain ⟨only, cut⟩ := h.cutIndirect mem (m := Function.update s'.freemap idblock false) (by
      intro x
      by_cases e : x = idblock
      · rw [e, Function.update_self]
        refine iff_of_false nofun ?_
        rintro ⟨-, keeps⟩
        exact keeps 15 (Nat.le_refl _) (ind.symm ▸ ne) ind
      · rw [Function.update_of_ne e, trimmed.map]
        refine and_congr_right (fun _ => ?_)
        constructor
        · intro keeps l lo used eq
          obtain rfl | gt : l = 15 ∨ 15 < l := by omega
          · exact e (eq.symm.trans ind)
          · have hl := SfsFs.lt_of_ptr used
            obtain ⟨k, rfl⟩ : ∃ k, l = 16 + k := ⟨l - 16, by omega⟩
            have value := cutEntry k (by omega)
            rw [zero k (by omega)] at value
            refine keeps ⟨k, by omega, by omega, ?_, ?_, eq ▸ used⟩
            · by_contra le
              rw [if_neg le] at value
              exact used value.symm
            · rw [← entry k (by omega)]
              exact eq
        · rintro keeps ⟨l, -, hl, -, eq, nez⟩
          rw [← entry l (by omega)] at eq
          exact keeps (16 + l) (by omega) (eq.symm ▸ nez) eq)
    have state : (s'.unmark idblock).mapVnode sv (onInode fun i => { i with indirect := 0 }) =
        (s.setMap (Function.update s'.freemap idblock false) true).mapVnode sv (onInode fun i => { i with indirect := 0 }) := by
      rw [trimmed.state]
      rfl
    refine Prog.wp_of_run (t := (s'.unmark idblock).mapVnode sv (onInode fun i => { i with indirect := 0 })) rfl ?_
    rw [state]
    refine ⟨only, fun l hl => ?_, fun _ l hl => ?_⟩
    · rw [cut, if_neg (by omega)]
    · rw [cut, if_pos hl]
  · -- the indirect block is dirty
    have size : s'.nblocks = s.nblocks := by
      rw [trimmed.state]
      rfl
    have geom : Geom s' := by
      rw [trimmed.state]
      exact ⟨h.geom.fits, h.geom.small, h.geom.dev⟩
    obtain ⟨only, cut⟩ := h.cutEntries live ind ne (fun l => 16 ≤ l ∧ blocklen + 1 < l) (w := r.1) (by
      intro l hl
      rw [cutEntry l hl, entry l hl]
      split_ifs <;> first | rfl | omega) (fun l c => c.1) (m := s'.freemap) (by
      intro x
      rw [trimmed.map]
      refine and_congr_right (fun _ => ?_)
      constructor
      · rintro keeps l ⟨lo, past⟩ used eq
        have hl := SfsFs.lt_of_ptr used
        obtain ⟨k, rfl⟩ : ∃ k, l = 16 + k := ⟨l - 16, by omega⟩
        refine keeps ⟨k, by omega, by omega, by omega, ?_, eq ▸ used⟩
        rw [← entry k (by omega)]
        exact eq
      · rintro keeps ⟨l, -, hl, past, eq, nez⟩
        rw [← entry l (by omega)] at eq
        exact keeps (16 + l) ⟨by omega, by omega⟩ (eq.symm ▸ nez) eq)
    refine Prog.wp_of_run (wblock_eq geom (by rw [size]; exact lt)) ?_
    have state : s'.write idblock (Block.ofWords r.1) = (s.setMap s'.freemap true).write idblock (Block.ofWords r.1) := by
      rw [trimmed.state, trimmed.dirty dirty]
      rfl
    rw [state]
    refine ⟨only, fun l hl => ?_, fun short l hl => ?_⟩
    · rw [cut, if_neg (by omega)]
    · -- if all entries are past the end, then the buffer is empty
      exfalso
      apply empty
      rw [List.all_eq_true]
      intro k hk
      rw [cutEntry k (List.mem_range.1 hk), if_pos (by omega)]
      rfl
  · obtain ⟨rfl, same⟩ := trimmed.clean (by simpa using dirty)
    refine ⟨.refl h, fun _ _ => rfl, fun short l hl => ?_⟩
    exfalso
    apply empty
    rw [List.all_eq_true]
    intro k hk
    rw [cutEntry k (List.mem_range.1 hk), if_pos (by omega)]
    rfl

/-- The size of a file changes. -/
lemma Core.resize (h : Core s N) (mem : sv ∈ s.vnodes) (size : UInt32) :
    Only N (s.vnode sv).ino s (s.mapVnode sv (onInode fun i => { i with size := size })) ∧
      ∀ l, (s.mapVnode sv (onInode fun i => { i with size := size })).ptr (s.vnode sv).ino l =
        s.ptr (s.vnode sv).ino l := by
  have file := h.table.file_mapVnode (f := onInode fun i => { i with size := size }) mem rfl rfl rfl
  have own : s.inode (s.vnode sv).ino = (s.vnode sv).i := h.table.inode_eq mem
  have ptr (j l : Nat) : (s.mapVnode sv (onInode fun i => { i with size := size })).ptr j l = s.ptr j l :=
    h.table.ptr_mapVnode mem rfl rfl rfl
  refine ⟨⟨h.mapVnode mem rfl rfl id rfl rfl rfl nofun, .mapVnode rfl rfl rfl rfl, ?_, ?_, ?_, ?_⟩, ptr _⟩
  · intro j _ ne
    rw [file, Function.update_of_ne ne]
  · rw [file, Function.update_self]
    exact (congrArg SfsInode.type own).symm
  · rw [file, Function.update_self]
    exact (congrArg SfsInode.linkcount own).symm
  · intro j l _ _ used
    rw [ptr]
    exact used

/-- The rule of `sfs_truncate`. -/
lemma Core.wp_sfsTruncate (h : Core s N) (mem : sv ∈ s.vnodes) (len : Int) {E : Nat → SfsFs → Prop} :
    Prog.wp (sfsTruncate sv len)
      (fun _ s' => Only N (s.vnode sv).ino s s' ∧ (len = 0 → ∀ k, s'.ptr (s.vnode sv).ino k = 0)) E s := by
  rw [sfsTruncate]
  dsimp only
  generalize UInt32.ofNat (len % 2 ^ 32).toNat = size
  generalize hb : (Int.tdiv (len + 512 - 1) 512 % 2 ^ 32).toNat = blocklen
  have short (zero : len = 0) : blocklen = 0 := by
    rw [← hb, zero]
    rfl
  rw [Prog.wp_andThen_iff]
  refine (h.wp_truncateDirect mem blocklen 15 0 (Nat.le_refl _)).mono ?_ (fun _ _ e => e)
  rintro _ s₁ ⟨only, cut⟩
  have mem₁ : sv ∈ s₁.vnodes := only.frame.vnodes.symm ▸ mem
  have ino := only.frame.ino sv
  -- the size is set in any case
  have finish (s₂ : SfsFs) (only₂ : Only N (s.vnode sv).ino s s₂)
      (blank : len = 0 → ∀ k, s₂.ptr (s.vnode sv).ino k = 0) :
      Prog.wp (setInode sv fun i => { i with size := size })
        (fun _ s' => Only N (s.vnode sv).ino s s' ∧ (len = 0 → ∀ k, s'.ptr (s.vnode sv).ino k = 0)) E s₂ := by
    have mem₂ : sv ∈ s₂.vnodes := only₂.frame.vnodes.symm ▸ mem
    obtain ⟨resized, ptr⟩ := only₂.core.resize mem₂ size
    rw [only₂.frame.ino] at resized ptr
    refine Prog.wp_of_run rfl ⟨only₂.trans resized, fun zero k => ?_⟩
    rw [← blank zero k]
    exact ptr k
  have number : (s₁.vnode sv).i.indirect.toNat = s₁.ptr (s.vnode sv).ino 15 := by
    rw [SfsFs.ptr, ptrOf_indirect, ← ino, only.core.table.inode_eq mem₁]
  rw [Prog.wp_andThen_iff]
  refine Prog.wp_of_run rfl ?_
  rw [number, Prog.wp_andThen_iff]
  split_ifs with past
  · have trimmed := only.core.wp_truncateIdblock mem₁ blocklen (by rw [ino]) past.2 (E := E)
    rw [ino] at trimmed
    refine trimmed.mono ?_ (fun _ _ e => e)
    rintro _ s₂ ⟨only₂, kept, none⟩
    refine finish s₂ (only.trans only₂) (fun zero k => ?_)
    have := short zero
    obtain lt | le : k < 15 ∨ 15 ≤ k := by omega
    · rw [kept k lt, cut, if_pos (by omega)]
    · exact none (by omega) k le
  · rw [Prog.wp_pure_iff]
    refine finish s₁ only (fun zero k => ?_)
    have := short zero
    have none : s₁.ptr (s.vnode sv).ino 15 = 0 := by
      by_contra ne
      exact past ⟨by omega, ne⟩
    obtain lt | rfl | gt := lt_trichotomy k 15
    · rw [cut, if_pos (by omega)]
    · exact none
    · have empty : (s₁.inode (s.vnode sv).ino).indirect = 0 := by
        rw [SfsFs.ptr, ptrOf_indirect] at none
        exact UInt32.toNat_inj.1 none
      rw [SfsFs.ptr, ptrOf_of_gt _ _ gt, if_neg (fun c => c.2 empty)]

end

end PDS.Sfs
