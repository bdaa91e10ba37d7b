import PDS.Sfs.Change

/-!
# The block map of a file

What `sfs_bmap` does: the block map of a file grows by blocks of zeros, and the files do not change.
-/

namespace PDS.Sfs
open Kern Word

/-- A block is allocated. -/
def SfsFs.take (s : SfsFs) (b : Nat) : SfsFs := (s.mark b).write b Block.zeros

/-- A change that no file shows. -/
structure Quiet (N : Nat → Prop) (s s' : SfsFs) : Prop where
  core : Core s' N
  frame : Frame s s'
  same : SameFiles N s s'
  keeps : KeepsBlocks N s s'

section

variable {s s' : SfsFs} {N : Nat → Prop} {sv i j k l b : Nat}

/-- A block just taken belongs to nobody yet. -/
lemma Core.plain_mark (h : Core s N) (free : s.freemap b = false) : Plain (s.mark b) N b :=
  have plain := h.plain_free free
  ⟨plain.inode, plain.indirect, plain.volume⟩

/-- Taking a free block changes no inode. -/
lemma Core.inode_take (h : Core s N) (free : s.freemap b = false) (live : s.Live N i) : (s.take b).inode i = s.inode i :=
  (h.plain_mark free).inode_write live

/-- Taking a free block changes no pointer. -/
lemma Core.ptr_take (h : Core s N) (free : s.freemap b = false) (live : s.Live N i) : (s.take b).ptr i k = s.ptr i k :=
  (h.plain_mark free).ptr_write live

/-- Only the block taken is cleared. -/
lemma SfsFs.sect_take (ne : i ≠ b) : (s.take b).dev.sect i = s.dev.sect i :=
  Function.update_of_ne ne ..

/-- The block taken is cleared. -/
lemma SfsFs.sect_take_self : (s.take b).dev.sect b = Block.zeros :=
  Function.update_self ..

/-- Frame of a block taken. -/
lemma Frame.take : Frame s (s.take b) :=
  ⟨rfl, rfl, rfl, fun _ => rfl, fun _ => rfl, fun _ => rfl, fun _ => rfl⟩

/-- The block map of a file grows by a block of zeros. -/
lemma Core.grow (h : Core s N) (free : s.freemap b = false) (lt : b < s.nblocks) (live : s.Live N i) (slot : k < 144)
    (idle : s.ptr i k = 0) (fr : Frame s s') (blocks : s'.dev.blocks = s.dev.blocks)
    (map : s'.freemap = Function.update s.freemap b true) (mapdirty : s'.freemapdirty = true)
    (superdirty : s'.superdirty = s.superdirty) (zero : s'.dev.sect 0 = s.dev.sect 0)
    (clean : ∀ sw ∈ s.vnodes, (s'.vnode sw).dirty = false → (s.vnode sw).dirty = false ∧
      (s'.vnode sw).i = (s.vnode sw).i ∧ s'.dev.sect (s.vnode sw).ino = s.dev.sect (s.vnode sw).ino)
    (kept : ∀ j, s.Live N j → (s'.inode j).type = (s.inode j).type ∧ (s'.inode j).linkcount = (s.inode j).linkcount ∧
      (s'.inode j).size = (s.inode j).size)
    (ptr : ∀ j l, s.Live N j → s'.ptr j l = if j = i ∧ l = k then b else s.ptr j l)
    (sect : ∀ j l, s.Live N j → l ≠ 15 → s.ptr j l ≠ 0 → s'.dev.sect (s.ptr j l) = s.dev.sect (s.ptr j l))
    (fresh : k = 15 ∨ s'.dev.sect b = Block.zeros) : Quiet N s s' := by
  refine ⟨?_, fr, ?_, ?_⟩
  · exact h.of_frame fr blocks mapdirty superdirty zero clean (fun j live => (kept j live).1)
      (h.own_block free lt live slot idle fr.nblocks (fun _ => fr.live_iff) ptr map)
  · intro j hj
    obtain ⟨type, links, size⟩ := kept j hj
    refine SfsFs.file_eq type links size ?_
    intro fb
    dsimp only [SfsFs.file]
    rw [ptr j _ hj]
    by_cases new : j = i ∧ dataSlot fb = k
    · -- the block that was missing read as zeros, as the new one does
      have zeros := fresh.resolve_left (fun e => dataSlot_ne fb (new.2.trans e))
      rw [if_pos new, if_neg (h.free_ne_zero free), zeros, new.1, new.2, if_pos idle]
    · rw [if_neg new]
      by_cases hole : s.ptr j (dataSlot fb) = 0
      · rw [if_pos hole, if_pos hole]
      · rw [if_neg hole, if_neg hole, sect j _ hj (dataSlot_ne fb) hole]
  · intro j l hj ne
    rw [ptr j l hj]
    split_ifs
    · exact h.free_ne_zero free
    · exact ne

/-- The pointers after a direct one is set. -/
lemma ptrOf_direct (sect : Nat → Block) (i : SfsInode) (k : Fin 15) (x : UInt32) (l : Nat) :
    ptrOf sect { i with direct := Function.update i.direct k x } l =
      if l = k.val then x.toNat else ptrOf sect i l := by
  by_cases same : l = k.val
  · rw [if_pos same, same, ptrOf_of_lt _ _ k.isLt]
    dsimp only
    rw [Function.update_self]
  · rw [if_neg same]
    by_cases h : l < 15
    · have ne : (⟨l, h⟩ : Fin 15) ≠ k := fun e => same (congrArg Fin.val e)
      rw [ptrOf_of_lt _ _ h, ptrOf_of_lt _ _ h]
      dsimp only
      rw [Function.update_of_ne ne]
    · rw [ptrOf, ptrOf, dif_neg h, dif_neg h]

/-- The pointers after a cleared indirect block is hung in. -/
lemma ptrOf_newIndirect {sect : Nat → Block} {i : SfsInode} {x : UInt32} (none : i.indirect = 0)
    (zero : sect x.toNat = Block.zeros) (l : Nat) :
    ptrOf sect { i with indirect := x } l = if l = 15 then x.toNat else ptrOf sect i l := by
  obtain lt | rfl | gt := lt_trichotomy l 15
  · rw [ptrOf_of_lt _ _ lt, ptrOf_of_lt _ _ lt, if_neg (by omega)]
  · rw [ptrOf_indirect, if_pos rfl]
  · rw [ptrOf_of_gt _ _ gt, ptrOf_of_gt _ _ gt, if_neg (c := l = 15) (by omega)]
    dsimp only
    rw [zero, Block.word_zeros, none]
    simp

/-- The pointers after an entry of the indirect block is set. -/
lemma ptrOf_entry {g : Nat → Block} {i : SfsInode} {idoff b : Nat} (lt : idoff < 128) (small : b < 2 ^ 32)
    (ne : i.indirect ≠ 0) (l : Nat) :
    ptrOf (Function.update g i.indirect.toNat
        (Block.ofWords (Function.update (g i.indirect.toNat).word idoff b))) i l =
      if l = 16 + idoff then b else ptrOf g i l := by
  obtain h | rfl | gt := lt_trichotomy l 15
  · rw [ptrOf_of_lt _ _ h, ptrOf_of_lt _ _ h, if_neg (by omega)]
  · rw [ptrOf_indirect, ptrOf_indirect, if_neg (by omega)]
  · rw [ptrOf_of_gt _ _ gt, ptrOf_of_gt _ _ gt, Function.update_self]
    by_cases inside : l < 144
    · have word (w : Nat → Nat) (small : w (l - 16) < 2 ^ 32) : (Block.ofWords w).word (l - 16) = w (l - 16) :=
        Block.word_ofWords (by omega) small
      have there : l < 144 ∧ i.indirect ≠ 0 := ⟨inside, ne⟩
      rw [if_pos there, if_pos there]
      by_cases same : l = 16 + idoff
      · have e : l - 16 = idoff := by omega
        rw [word _ (by rw [e, Function.update_self]; exact small), e, Function.update_self, if_pos same]
      · have e : l - 16 ≠ idoff := by omega
        rw [word _ (by rw [Function.update_of_ne e]; exact Block.word_lt ..), Function.update_of_ne e, if_neg same]
    · have outside : ¬ (l < 144 ∧ i.indirect ≠ 0) := fun h => inside h.1
      rw [if_neg outside, if_neg outside, if_neg (by omega)]

/-- A small number survives as a word. -/
lemma toNat_ofNat_of_lt {n : Nat} (h : n < 2 ^ 32) : (UInt32.ofNat n).toNat = n := by
  rw [UInt32.toNat_ofNat', Nat.mod_eq_of_lt h]

/-- The block of another inode in use, or of a file, is not the free block that is allocated. -/
lemma Core.sect_take_ptr (h : Core s N) (free : s.freemap b = false) (live : s.Live N j) :
    (s.take b).dev.sect (s.ptr j l) = s.dev.sect (s.ptr j l) :=
  SfsFs.sect_take (h.free_ne_ptr free live)

/-- The superblock is never taken. -/
lemma Core.sect_take_zero (h : Core s N) (free : s.freemap b = false) : (s.take b).dev.sect 0 = s.dev.sect 0 :=
  SfsFs.sect_take (h.free_ne_zero free).symm

/-- The block of a live inode is never taken. -/
lemma Core.sect_take_inode (h : Core s N) (free : s.freemap b = false) (mem : sv ∈ s.vnodes) :
    (s.take b).dev.sect (s.vnode sv).ino = s.dev.sect (s.vnode sv).ino :=
  SfsFs.sect_take (fun e => h.free_not_live free (e ▸ SfsFs.live_of_mem mem))

/-- A block number fits a word. -/
lemma Core.lt_word (h : Core s N) (lt : b < s.nblocks) : b < 2 ^ 32 := by
  have := h.geom.small
  omega

/-- An inode changes and becomes dirty. -/
def onInode (f : SfsInode → SfsInode) (v : SfsVnode) : SfsVnode := { v with i := f v.i, dirty := true }

/-- A vnode that is clean after an inode changed is another one, and it is as it was. -/
lemma SfsFs.vnode_of_clean {f : SfsInode → SfsInode} {sw : Nat}
    (clean : ((s.mapVnode sv (onInode f)).vnode sw).dirty = false) :
    (s.mapVnode sv (onInode f)).vnode sw = s.vnode sw := by
  by_cases e : sw = sv
  · subst e
    have : (s.mapVnode sw (onInode f)).vnode sw = onInode f (s.vnode sw) := Function.update_self ..
    rw [this] at clean
    cases clean
  · exact Function.update_of_ne e ..

/-- A change that keeps the type, the links and the size of an inode keeps those of all. -/
lemma Table.kept_onInode (h : Table s) (mem : sv ∈ s.vnodes) {f : SfsInode → SfsInode}
    (kept : (f (s.vnode sv).i).type = (s.vnode sv).i.type ∧ (f (s.vnode sv).i).linkcount = (s.vnode sv).i.linkcount ∧
      (f (s.vnode sv).i).size = (s.vnode sv).i.size) (j : Nat) :
    ((s.mapVnode sv (onInode f)).inode j).type = (s.inode j).type ∧
      ((s.mapVnode sv (onInode f)).inode j).linkcount = (s.inode j).linkcount ∧
      ((s.mapVnode sv (onInode f)).inode j).size = (s.inode j).size := by
  rw [h.inode_mapVnode mem rfl]
  by_cases same : j = (s.vnode sv).ino
  · rw [same, Function.update_self, h.inode_eq mem]
    exact kept
  · rw [Function.update_of_ne same]
    exact ⟨rfl, rfl, rfl⟩

/-- A block is allocated and its number is put into an inode. -/
lemma Core.growInode (h : Core s N) (free : s.freemap b = false) (lt : b < s.nblocks) (mem : sv ∈ s.vnodes) (slot : k < 144)
    (idle : s.ptr (s.vnode sv).ino k = 0) {f : SfsInode → SfsInode}
    (kept : (f (s.vnode sv).i).type = (s.vnode sv).i.type ∧ (f (s.vnode sv).i).linkcount = (s.vnode sv).i.linkcount ∧
      (f (s.vnode sv).i).size = (s.vnode sv).i.size)
    (ptr : ∀ l, ptrOf (s.take b).dev.sect (f (s.vnode sv).i) l =
      if l = k then b else ptrOf (s.take b).dev.sect (s.vnode sv).i l) :
    Quiet N s ((s.take b).mapVnode sv (onInode f)) ∧
      ((s.take b).mapVnode sv (onInode f)).ptr (s.vnode sv).ino k = b := by
  have table : Table (s.take b) := h.table.of_frame .take
  have inode : ((s.take b).mapVnode sv (onInode f)).inode =
      Function.update (s.take b).inode (s.vnode sv).ino (f (s.vnode sv).i) := table.inode_mapVnode mem rfl
  have old : (s.take b).inode (s.vnode sv).ino = (s.vnode sv).i := table.inode_eq mem
  have live : s.Live N (s.vnode sv).ino := SfsFs.live_of_mem mem
  have ptr' (j l : Nat) (hj : s.Live N j) : ((s.take b).mapVnode sv (onInode f)).ptr j l =
      if j = (s.vnode sv).ino ∧ l = k then b else s.ptr j l := by
    rw [SfsFs.ptr, inode, ← h.ptr_take free hj, SfsFs.ptr]
    by_cases same : j = (s.vnode sv).ino
    · rw [same, Function.update_self, old]
      simp only [true_and]
      exact ptr l
    · rw [Function.update_of_ne same, if_neg (fun e => same e.1)]
      rfl
  refine ⟨h.grow free lt live slot idle ?_ rfl rfl rfl rfl
    (h.sect_take_zero free) ?_ ?_ ptr' (fun j l live _ _ => h.sect_take_ptr free live) (.inr SfsFs.sect_take_self), ?_⟩
  · exact Frame.trans .take (.mapVnode rfl rfl rfl rfl)
  · intro sw mem' dirty
    have same := SfsFs.vnode_of_clean dirty
    rw [same] at dirty ⊢
    exact ⟨dirty, rfl, h.sect_take_inode free mem'⟩
  · intro j hj
    rw [← h.inode_take free hj]
    exact table.kept_onInode mem kept j
  · rw [ptr' _ _ live, if_pos ⟨rfl, rfl⟩]

/-- The number of a direct block is put into an inode. -/
def assignDirect (k : Fin 15) (b : Nat) (i : SfsInode) : SfsInode :=
  { i with direct := Function.update i.direct k (UInt32.ofNat b) }

/-- The invariant holds once a new block is in a direct slot. -/
lemma Core.growDirect (h : Core s N) (free : s.freemap b = false) (lt : b < s.nblocks) (mem : sv ∈ s.vnodes) (k : Fin 15)
    (idle : s.ptr (s.vnode sv).ino k.val = 0) :
    Quiet N s ((s.take b).mapVnode sv (onInode (assignDirect k b))) ∧
      ((s.take b).mapVnode sv (onInode (assignDirect k b))).ptr (s.vnode sv).ino k.val = b := by
  refine h.growInode free lt mem (by omega) idle ⟨rfl, rfl, rfl⟩ ?_
  intro l
  rw [assignDirect, ptrOf_direct, toNat_ofNat_of_lt (h.lt_word lt)]

/-- The number of the indirect block is put into an inode. -/
def assignIndirect (b : Nat) (i : SfsInode) : SfsInode := { i with indirect := UInt32.ofNat b }

/-- The invariant holds once a new block is the indirect one. -/
lemma Core.growIndirect (h : Core s N) (free : s.freemap b = false) (lt : b < s.nblocks) (mem : sv ∈ s.vnodes)
    (none : (s.vnode sv).i.indirect = 0) :
    Quiet N s ((s.take b).mapVnode sv (onInode (assignIndirect b))) ∧
      ((s.take b).mapVnode sv (onInode (assignIndirect b))).ptr (s.vnode sv).ino 15 = b := by
  have idle : s.ptr (s.vnode sv).ino 15 = 0 := by
    rw [SfsFs.ptr, ptrOf_indirect, h.table.inode_eq mem, none]
    rfl
  have number := toNat_ofNat_of_lt (h.lt_word lt)
  refine h.growInode free lt mem (by decide) idle ⟨rfl, rfl, rfl⟩ ?_
  intro l
  have zero : (s.take b).dev.sect (UInt32.ofNat b).toNat = Block.zeros := by
    rw [number, SfsFs.sect_take_self]
  rw [assignIndirect, ptrOf_newIndirect none zero, number]

/-- A block is allocated and its number is put into the indirect block. -/
lemma Core.growEntry (h : Core s N) (free : s.freemap b = false) (lt : b < s.nblocks) (mem : sv ∈ s.vnodes)
    {c idoff : Nat} (slot : idoff < 128) (ind : s.ptr (s.vnode sv).ino 15 = c) (ne : c ≠ 0)
    (idle : s.ptr (s.vnode sv).ino (16 + idoff) = 0) {data : Block}
    (word : data = Block.ofWords (Function.update (s.dev.sect c).word idoff b)) :
    Quiet N s ((s.take b).write c data) ∧
      ((s.take b).write c data).ptr (s.vnode sv).ino (16 + idoff) = b := by
  have live : s.Live N (s.vnode sv).ino := SfsFs.live_of_mem mem
  have number : (s.vnode sv).i.indirect.toNat = c := by
    rw [← ind, SfsFs.ptr, ptrOf_indirect, h.table.inode_eq mem]
  have some : (s.vnode sv).i.indirect ≠ 0 := by
    intro e
    rw [e] at number
    exact ne number.symm
  have other (j : Nat) (hj : s.Live N j) : j ≠ c := by
    rintro rfl
    exact h.ptr_ne_inode live hj (ind.symm ▸ ne) ind
  have inode (j : Nat) (hj : s.Live N j) : ((s.take b).write c data).inode j = s.inode j := by
    rw [SfsFs.inode_write (.inl (other j hj)), h.inode_take free hj]
  have read : (s.take b).dev.sect c = s.dev.sect c := by
    rw [← ind]
    exact h.sect_take_ptr free live
  have ptr' (j l : Nat) (hj : s.Live N j) : ((s.take b).write c data).ptr j l =
      if j = (s.vnode sv).ino ∧ l = 16 + idoff then b else s.ptr j l := by
    by_cases same : j = (s.vnode sv).ino
    · have eq := ptrOf_entry (g := (s.take b).dev.sect) slot (h.lt_word lt) some l
      have old : ptrOf (s.take b).dev.sect (s.vnode sv).i l = s.ptr (s.vnode sv).ino l := by
        rw [← h.ptr_take free live, SfsFs.ptr, h.inode_take free live, h.table.inode_eq mem]
      rw [old, number, read, ← word] at eq
      rw [same, SfsFs.ptr, inode _ live, h.table.inode_eq mem]
      simp only [true_and]
      exact eq
    · rw [if_neg (fun e => same e.1), ← h.ptr_take free hj]
      apply SfsFs.ptr_write (.inl (other j hj))
      intro eq
      rw [h.ptr_take free hj, ← ind] at eq
      rw [← ind] at ne
      exact absurd (h.ptr_inj hj live eq (eq.symm ▸ ne)).1 same
  refine ⟨h.grow free lt live (by omega) idle ?_ rfl rfl rfl rfl ?_ ?_ ?_ ptr'
    ?_ ?_, ?_⟩
  · exact Frame.trans .take .write
  · rw [← h.sect_take_zero free]
    exact Function.update_of_ne ne.symm ..
  · intro sw mem' dirty
    refine ⟨dirty, rfl, ?_⟩
    rw [← h.sect_take_inode free mem']
    exact Function.update_of_ne (other _ (SfsFs.live_of_mem mem')) ..
  · intro j hj
    rw [inode j hj]
    exact ⟨rfl, rfl, rfl⟩
  · intro j l hj data used
    rw [← h.sect_take_ptr free hj]
    refine Function.update_of_ne ?_ ..
    intro eq
    rw [← ind] at eq
    exact data (h.ptr_inj hj live eq used).2
  · right
    rw [← SfsFs.sect_take_self (s := s) (b := b)]
    refine Function.update_of_ne ?_ ..
    rw [← ind]
    exact (h.free_ne_ptr free live).symm
  · rw [ptr' _ _ live, if_pos ⟨rfl, rfl⟩]

end

section

variable {s s' s'' : SfsFs} {N : Nat → Prop} {sv b : Nat} {data : Block}

/-- Nothing has happened. -/
lemma Quiet.refl (h : Core s N) : Quiet N s s := ⟨h, .refl s, .refl N s, .refl N s⟩

/-- Quiet steps compose. -/
lemma Quiet.trans (h : Quiet N s s') (h' : Quiet N s' s'') : Quiet N s s'' :=
  ⟨h'.core, h.frame.trans h'.frame, h.same.trans h.frame h'.same, h.keeps.trans h.frame h'.keeps⟩

/-- A read of a block of the volume. -/
lemma rblock_run (blocks : s.dev.blocks = s.nblocks) (lt : b < s.nblocks) :
    rblock b s = .ok (.ok (s.dev.sect b), s) := by
  have small : s.nblocks < 2 ^ 32 := Block.word_lt ..
  rw [rblock, sfsRblock_ok _ (by rwa [blocks]) (by rwa [blocks]) rfl]
  rfl

/-- A write of a block of the volume. -/
lemma wblock_run (blocks : s.dev.blocks = s.nblocks) (lt : b < s.nblocks) :
    wblock data b s = .ok (.ok (), s.write b data) := by
  have small : s.nblocks < 2 ^ 32 := Block.word_lt ..
  rw [wblock, sfsWblock_ok _ (by rwa [blocks]) (by rwa [blocks]) rfl]
  rfl

/-- `sfs_rblock` inside the volume reads the block. -/
lemma rblock_eq (g : Geom s) (lt : b < s.nblocks) : rblock b s = .ok (.ok (s.dev.sect b), s) :=
  rblock_run g.dev lt

/-- `sfs_wblock` inside the volume writes the block. -/
lemma wblock_eq (g : Geom s) (lt : b < s.nblocks) : wblock data b s = .ok (.ok (), s.write b data) :=
  wblock_run g.dev lt

/-- Taking a block keeps the geometry. -/
lemma Geom.take (g : Geom s) (b : Nat) : Geom (s.take b) := ⟨g.fits, g.small, g.dev⟩

/-- The allocator finds a free block or none. -/
lemma Core.wp_sfsBalloc (h : Core s N) {Q : Nat → SfsFs → Prop} {E : Nat → SfsFs → Prop}
    (ok : ∀ b, s.freemap b = false → b < s.nblocks → Q b (s.take b)) (full : E enospc s) : Prog.wp sfsBalloc Q E s := by
  rw [sfsBalloc, Prog.wp_andThen_iff, Prog.wp_get_iff]
  cases found : bitmapAlloc (bitmapsize s.nblocks) s.freemap with
  | none => exact full
  | some b =>
    have inside : b < bitmapsize s.nblocks := List.mem_range.1 (List.mem_of_find?_eq_some found)
    have free : s.freemap b = false := by simpa using List.find?_some found
    have lt : b < s.nblocks := by
      by_contra le
      exact h.free_not_volumeBlock free (.inr (.inr ⟨by omega, inside⟩))
    dsimp only
    rw [Prog.wp_andThen_iff, Prog.wp_modify_iff, Prog.wp_andThen_iff]
    refine Prog.wp.require lt ?_
    rw [sfsClearblock, Prog.wp_andThen_iff]
    have geom : Geom (s.mark b) := ⟨h.geom.fits, h.geom.small, h.geom.dev⟩
    exact Prog.wp_of_run (wblock_eq geom lt) (ok b free lt)

/-- A block in use passes the check. -/
lemma wp_checkUsed {block fileblock : Nat} {Q : Nat → SfsFs → Prop} {E : Nat → SfsFs → Prop} (lt : block < s.nblocks)
    (used : block ≠ 0 → s.freemap block = true) (ok : Q block s) : Prog.wp (checkUsed sv block fileblock) Q E s := by
  rw [checkUsed, Prog.wp_andThen_iff]
  refine Prog.wp_of_run rfl ?_
  split_ifs with ne
  · rw [sfsBused, Prog.wp_andThen_iff, Prog.wp_andThen_iff, Prog.wp_get_iff, Prog.wp_andThen_iff]
    refine Prog.wp.require lt ?_
    rw [Prog.wp_pure_iff, Prog.wp_andThen_iff]
    exact Prog.wp.require (used ne) ok
  · exact ok

/-- The block number `k` of a file is `b`; blocks have been allocated only if asked for. -/
structure Mapped (N : Nat → Prop) (s : SfsFs) (sv k : Nat) (doalloc : Bool) (b : Nat) (s' : SfsFs) : Prop where
  quiet : Quiet N s s'
  ptr : s'.ptr (s.vnode sv).ino k = b
  alloc : doalloc = true → b ≠ 0
  read : doalloc = false → s' = s

/-- There is no space for the block number `k` of a file, which is missing. -/
structure NoSpace (N : Nat → Prop) (s : SfsFs) (sv k : Nat) (doalloc : Bool) (e : Nat) (s' : SfsFs) : Prop where
  quiet : Quiet N s s'
  error : e = enospc
  alloc : doalloc = true
  hole : s.ptr (s.vnode sv).ino k = 0

/-- A block of a file that is handed back. -/
lemma Core.wp_checkUsed_ptr (h : Core s N) (mem : sv ∈ s.vnodes) {k fileblock : Nat} {Q : Nat → SfsFs → Prop}
    {E : Nat → SfsFs → Prop} (ok : Q b s) (ptr : s.ptr (s.vnode sv).ino k = b) :
    Prog.wp (checkUsed sv b fileblock) Q E s := by
  subst ptr
  have live : s.Live N (s.vnode sv).ino := SfsFs.live_of_mem mem
  exact wp_checkUsed (h.ptr_lt live k) (h.ptr_marked live) ok

/-- The rule of `sfs_bmap` for direct blocks. -/
lemma Core.wp_sfsBmapDirect (h : Core s N) (mem : sv ∈ s.vnodes) (k : Fin 15) (doalloc : Bool) :
    Prog.wp (sfsBmapDirect sv k doalloc) (Mapped N s sv k.val doalloc) (NoSpace N s sv k.val doalloc) s := by
  have ptr : s.ptr (s.vnode sv).ino k.val = ((s.vnode sv).i.direct k).toNat := by
    rw [SfsFs.ptr, ptrOf_of_lt _ _ k.isLt, h.table.inode_eq mem]
  rw [sfsBmapDirect, Prog.wp_andThen_iff]
  refine Prog.wp_of_run rfl ?_
  dsimp only
  rw [← ptr]
  split_ifs with missing
  · rw [Prog.wp_andThen_iff]
    refine h.wp_sfsBalloc ?_ ⟨.refl h, rfl, missing.2, missing.1⟩
    intro b free lt
    obtain ⟨quiet, new⟩ := h.growDirect free lt mem k missing.1
    rw [Prog.wp_andThen_iff]
    refine Prog.wp_of_run (t := (s.take b).mapVnode sv (onInode (assignDirect k b))) rfl ?_
    refine quiet.core.wp_checkUsed_ptr (k := k.val) (quiet.frame.vnodes ▸ mem) ⟨quiet, new, ?_, ?_⟩ ?_
    · exact fun _ => h.free_ne_zero free
    · intro no
      rw [missing.2] at no
      cases no
    · rw [quiet.frame.ino]
      exact new
  · refine h.wp_checkUsed_ptr mem ⟨.refl h, rfl, ?_, fun _ => rfl⟩ rfl
    intro alloc zero
    exact missing ⟨zero, alloc⟩

/-- The rule of `sfs_bmap` for entries of the indirect block. -/
lemma Core.wp_sfsBmapEntry (h : Core s N) (mem : sv ∈ s.vnodes) {idblock idoff : Nat} (slot : idoff < 128)
    (ind : s.ptr (s.vnode sv).ino 15 = idblock) (ne : idblock ≠ 0) (doalloc : Bool) :
    Prog.wp (sfsBmapEntry sv idblock (s.dev.sect idblock).word idoff doalloc) (Mapped N s sv (16 + idoff) doalloc)
      (NoSpace N s sv (16 + idoff) doalloc) s := by
  have live : s.Live N (s.vnode sv).ino := SfsFs.live_of_mem mem
  have ptr : s.ptr (s.vnode sv).ino (16 + idoff) = (s.dev.sect idblock).word idoff := by
    have number : (s.inode (s.vnode sv).ino).indirect.toNat = idblock := by
      rw [← ind, SfsFs.ptr, ptrOf_indirect]
    have some : (s.inode (s.vnode sv).ino).indirect ≠ 0 := by
      intro e
      rw [e] at number
      exact ne number.symm
    rw [SfsFs.ptr, ptrOf_of_gt _ _ (by omega), if_pos ⟨by omega, some⟩, number, Nat.add_sub_cancel_left]
  rw [sfsBmapEntry]
  rw [← ptr]
  split_ifs with missing
  · rw [Prog.wp_andThen_iff]
    refine h.wp_sfsBalloc ?_ ⟨.refl h, rfl, missing.2, missing.1⟩
    intro b free lt
    obtain ⟨quiet, new⟩ := h.growEntry free lt mem slot ind ne missing.1 rfl
    have inside : idblock < (s.take b).nblocks := by
      rw [← ind]
      exact h.ptr_lt live 15
    rw [Prog.wp_andThen_iff]
    refine Prog.wp_of_run (wblock_eq (h.geom.take b) inside) ?_
    refine quiet.core.wp_checkUsed_ptr (k := 16 + idoff) mem ⟨quiet, new, ?_, ?_⟩ new
    · exact fun _ => h.free_ne_zero free
    · intro no
      rw [missing.2] at no
      cases no
  · refine h.wp_checkUsed_ptr mem ⟨.refl h, rfl, ?_, fun _ => rfl⟩ rfl
    intro alloc zero
    exact missing ⟨zero, alloc⟩

/-- A block that is mapped after the change of `s` to `s'`. -/
lemma Mapped.after {k : Nat} {doalloc : Bool} (q : Quiet N s s') (alloc : doalloc = true)
    (m : Mapped N s' sv k doalloc b s'') : Mapped N s sv k doalloc b s'' where
  quiet := q.trans m.quiet
  ptr := by
    rw [← q.frame.ino]
    exact m.ptr
  alloc := m.alloc
  read no := by
    rw [alloc] at no
    cases no

/-- `sfs_bmap` hands back the disk block of a block of a file, `0` if there is none and none was asked for. It fails
if the file would be too large, or if there is no space. -/
lemma Core.wp_sfsBmap (h : Core s N) (mem : sv ∈ s.vnodes) (fileblock : Nat) (doalloc : Bool) :
    Prog.wp (sfsBmap sv fileblock doalloc)
      (fun b s' => Mapped N s sv (dataSlot fileblock) doalloc b s' ∧ fileblock < 143)
      (fun e s' => NoSpace N s sv (dataSlot fileblock) doalloc e s' ∨ (s' = s ∧ e = efbig ∧ 143 ≤ fileblock)) s := by
  by_cases direct : fileblock < 15
  · rw [sfsBmap, dif_pos direct, dataSlot, if_pos direct]
    refine (h.wp_sfsBmapDirect mem ⟨fileblock, direct⟩ doalloc).mono ?_ ?_
    · exact fun b s' m => ⟨m, by omega⟩
    · exact fun e s' m => .inl m
  rw [sfsBmap, dif_neg direct, dataSlot, if_neg direct]
  dsimp only
  by_cases large : (fileblock - 15) / 128 > 0
  · rw [if_pos large]
    exact .inr ⟨rfl, rfl, by omega⟩
  have idoff : (fileblock - 15) % 128 = fileblock - 15 := Nat.mod_eq_of_lt (by omega)
  have slot : fileblock + 1 = 16 + (fileblock - 15) := by omega
  have ind : s.ptr (s.vnode sv).ino 15 = (s.vnode sv).i.indirect.toNat := by
    rw [SfsFs.ptr, ptrOf_indirect, h.table.inode_eq mem]
  rw [if_neg large, Prog.wp_andThen_iff, idoff, slot]
  refine Prog.wp_of_run rfl ?_
  have zero (none : (s.vnode sv).i.indirect.toNat = 0) : s.ptr (s.vnode sv).ino (16 + (fileblock - 15)) = 0 := by
    have none : (s.inode (s.vnode sv).ino).indirect = 0 := by
      rw [h.table.inode_eq mem]
      exact UInt32.toNat_inj.1 none
    rw [SfsFs.ptr, ptrOf_of_gt _ _ (by omega), if_neg (fun e => e.2 none)]
  split_ifs with hole none
  · -- there is no indirect block, and none is asked for
    refine ⟨⟨.refl h, zero hole.1, ?_, fun _ => rfl⟩, by omega⟩
    intro alloc
    simp [alloc] at hole
  · have alloc : doalloc = true := by simpa [none] using hole
    rw [Prog.wp_andThen_iff]
    refine h.wp_sfsBalloc ?_ (.inl ⟨.refl h, rfl, alloc, zero none⟩)
    intro c free lt
    obtain ⟨quiet, new⟩ := h.growIndirect free lt mem (UInt32.toNat_inj.1 none)
    have zeros : (fun _ : Nat => 0) = (((s.take c).mapVnode sv (onInode (assignIndirect c))).dev.sect c).word := by
      have read : ((s.take c).mapVnode sv (onInode (assignIndirect c))).dev.sect c = Block.zeros := SfsFs.sect_take_self
      funext k
      rw [read, Block.word_zeros]
    rw [Prog.wp_andThen_iff]
    refine Prog.wp_of_run (t := (s.take c).mapVnode sv (onInode (assignIndirect c))) rfl ?_
    rw [zeros]
    refine (quiet.core.wp_sfsBmapEntry (quiet.frame.vnodes ▸ mem) (by omega) (by rw [quiet.frame.ino]; exact new)
      (h.free_ne_zero free) doalloc).mono ?_ ?_
    · exact fun b s' m => ⟨m.after quiet alloc, by omega⟩
    · exact fun e s' m => .inl ⟨quiet.trans m.quiet, m.error, m.alloc, zero none⟩
  · have lt : (s.vnode sv).i.indirect.toNat < s.nblocks := by
      rw [← ind]
      exact h.ptr_lt (SfsFs.live_of_mem mem) 15
    rw [Prog.wp_andThen_iff]
    refine Prog.wp_of_run (rblock_eq h.geom lt) ?_
    refine (h.wp_sfsBmapEntry mem (by omega) ind none doalloc).mono ?_ ?_
    · exact fun b s' m => ⟨m, by omega⟩
    · exact fun e s' m => .inl m

end

end PDS.Sfs
