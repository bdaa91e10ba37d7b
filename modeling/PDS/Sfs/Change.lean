import PDS.Sfs.Inv

/-!
# Changes of a volume

The changes that the functions of the file system make to a volume, and what they keep: a vnode changes, a block
is written, a block is allocated for a file. Each keeps `Core`, and says what happens to the files.
-/

namespace PDS.Sfs
open Kern Word

/-- The table of vnodes is the same, up to the inodes and their dirty flags. -/
structure Frame (s s' : SfsFs) : Prop where
  vnodes : s'.vnodes = s.vnodes
  next : s'.next = s.next
  super : s'.super = s.super
  ino : ∀ sv, (s'.vnode sv).ino = (s.vnode sv).ino
  ops : ∀ sv, (s'.vnode sv).ops = (s.vnode sv).ops
  refcount : ∀ sv, (s'.vnode sv).refcount = (s.vnode sv).refcount
  opencount : ∀ sv, (s'.vnode sv).opencount = (s.vnode sv).opencount

/-- The files of the inodes in use are the same. -/
def SameFiles (N : Nat → Prop) (s s' : SfsFs) : Prop := ∀ i, s.Live N i → s'.file i = s.file i

/-- The inodes in use keep the blocks they have. -/
def KeepsBlocks (N : Nat → Prop) (s s' : SfsFs) : Prop := ∀ i k, s.Live N i → s.ptr i k ≠ 0 → s'.ptr i k ≠ 0

section

variable {s s' s'' : SfsFs} {N : Nat → Prop} {sv i j k b : Nat} {f : SfsVnode → SfsVnode} {data : Block}

/-- Nothing has changed. -/
lemma Frame.refl (s : SfsFs) : Frame s s :=
  ⟨rfl, rfl, rfl, fun _ => rfl, fun _ => rfl, fun _ => rfl, fun _ => rfl⟩

/-- Frames compose. -/
lemma Frame.trans (h : Frame s s') (h' : Frame s' s'') : Frame s s'' where
  vnodes := h'.vnodes.trans h.vnodes
  next := h'.next.trans h.next
  super := h'.super.trans h.super
  ino sv := (h'.ino sv).trans (h.ino sv)
  ops sv := (h'.ops sv).trans (h.ops sv)
  refcount sv := (h'.refcount sv).trans (h.refcount sv)
  opencount sv := (h'.opencount sv).trans (h.opencount sv)

/-- The size of the volume stays. -/
lemma Frame.nblocks (h : Frame s s') : s'.nblocks = s.nblocks := by
  rw [SfsFs.nblocks, SfsFs.nblocks, h.super]

/-- The same inodes are loaded. -/
lemma Frame.loaded_iff (h : Frame s s') : s'.Loaded i ↔ s.Loaded i := by
  simp only [SfsFs.Loaded, h.vnodes, h.ino]

/-- The same inodes are live. -/
lemma Frame.live_iff (h : Frame s s') : s'.Live N i ↔ s.Live N i := by
  rw [SfsFs.Live, SfsFs.Live, h.loaded_iff]

/-- Nothing has changed. -/
lemma SameFiles.refl (N : Nat → Prop) (s : SfsFs) : SameFiles N s s := fun _ _ => rfl

/-- Steps that keep the files compose. -/
lemma SameFiles.trans (h : SameFiles N s s') (fr : Frame s s') (h' : SameFiles N s' s'') : SameFiles N s s'' := by
  intro i live
  rw [h' i (fr.live_iff.2 live), h i live]

/-- Nothing has changed. -/
lemma KeepsBlocks.refl (N : Nat → Prop) (s : SfsFs) : KeepsBlocks N s s := fun _ _ _ ne => ne

/-- Steps that keep the blocks compose. -/
lemma KeepsBlocks.trans (h : KeepsBlocks N s s') (fr : Frame s s') (h' : KeepsBlocks N s' s'') : KeepsBlocks N s s'' :=
  fun i k live ne => h' i k (fr.live_iff.2 live) (h i k live ne)

/-- Equal pointers are kept pointers. -/
lemma KeepsBlocks.of_eq (h : ∀ i k, s.Live N i → s'.ptr i k = s.ptr i k) : KeepsBlocks N s s' := by
  intro i k live ne
  rw [h i k live]
  exact ne

/-- The vnode table stays in order under a frame. -/
lemma Table.of_frame (h : Table s) (fr : Frame s s') : Table s' where
  nodup := fr.vnodes.symm ▸ h.nodup
  below mem := by
    rw [fr.next]
    exact h.below (fr.vnodes ▸ mem)
  inj mem mem' eq := by
    rw [fr.ino, fr.ino] at eq
    exact h.inj (fr.vnodes ▸ mem) (fr.vnodes ▸ mem') eq
  ops mem := by
    rw [fr.ops, fr.ino]
    exact h.ops (fr.vnodes ▸ mem)
  refs mem := by
    rw [fr.refcount]
    exact h.refs (fr.vnodes ▸ mem)

/-- The rest of the invariant, when blocks change their owners. -/
lemma Core.of_frame (h : Core s N) (fr : Frame s s') (blocks : s'.dev.blocks = s.dev.blocks)
    (mapdirty : s'.freemapdirty = true) (superdirty : s'.superdirty = s.superdirty)
    (zero : s'.dev.sect 0 = s.dev.sect 0)
    (clean : ∀ sw ∈ s.vnodes, (s'.vnode sw).dirty = false → (s.vnode sw).dirty = false ∧
      (s'.vnode sw).i = (s.vnode sw).i ∧ s'.dev.sect (s.vnode sw).ino = s.dev.sect (s.vnode sw).ino)
    (type : ∀ j, s.Live N j → (s'.inode j).type = (s.inode j).type) (own : Owned (s'.Owns N) s'.Marked) : Core s' N where
  geom := by
    refine ⟨?_, ?_, ?_⟩ <;> rw [fr.nblocks]
    · exact h.geom.fits
    · exact h.geom.small
    · rw [blocks]
      exact h.geom.dev
  table := h.table.of_frame fr
  disk := by
    refine ⟨?_, ?_, ?_, ?_, ?_⟩
    · intro sw mem dirty
      rw [fr.vnodes] at mem
      obtain ⟨dirty, same, read⟩ := clean sw mem dirty
      rw [fr.ino, read, same]
      exact h.disk.inode mem dirty
    · intro dirty
      rw [mapdirty] at dirty
      cases dirty
    · rw [zero, fr.super]
      exact h.disk.super
    · rw [zero]
      exact h.disk.magic
    · rw [superdirty]
      exact h.disk.superclean
  type := by
    intro j live
    rw [fr.live_iff] at live
    rw [type j live]
    exact h.type live
  own := own

/-- The number of a block of the file, below `143`, has its slot. -/
lemma dataSlot_ne (fb : Nat) : dataSlot fb ≠ 15 := by
  rw [dataSlot]
  split_ifs <;> omega

/-- Two blocks of a file have two slots. -/
lemma dataSlot_inj {fb fb' : Nat} (h : dataSlot fb = dataSlot fb') : fb = fb' := by
  rw [dataSlot, dataSlot] at h
  split_ifs at h <;> omega

/-- The slots of the 143 blocks. -/
lemma dataSlot_lt {fb : Nat} : dataSlot fb < 144 ↔ fb < 143 := by
  rw [dataSlot]
  split_ifs <;> omega

/-- Two states in which an inode has the same file. -/
lemma SfsFs.file_eq (type : (s'.inode i).type = (s.inode i).type) (links : (s'.inode i).linkcount = (s.inode i).linkcount)
    (size : (s'.inode i).size = (s.inode i).size)
    (data : ∀ fb, (s'.file i).data fb = (s.file i).data fb) : s'.file i = s.file i := by
  apply File.ext
  · exact type
  · exact links
  · exact congrArg UInt32.toNat size
  · funext fb
    exact data fb

/-- A change to a vnode's inode is a frame. -/
lemma Frame.mapVnode (ino : (f (s.vnode sv)).ino = (s.vnode sv).ino) (ops : (f (s.vnode sv)).ops = (s.vnode sv).ops)
    (refcount : (f (s.vnode sv)).refcount = (s.vnode sv).refcount)
    (opencount : (f (s.vnode sv)).opencount = (s.vnode sv).opencount) : Frame s (s.mapVnode sv f) := by
  have cases (sw : Nat) : (s.mapVnode sv f).vnode sw = if sw = sv then f (s.vnode sv) else s.vnode sw :=
    Function.update_apply ..
  refine ⟨rfl, rfl, rfl, ?_, ?_, ?_, ?_⟩ <;> intro sw <;> rw [cases] <;> split_ifs with e
  · rw [ino, e]
  · rfl
  · rw [ops, e]
  · rfl
  · rw [refcount, e]
  · rfl
  · rw [opencount, e]
  · rfl

/-- The block numbers of all inodes, when an inode changes that keeps its own. -/
lemma Table.ptr_mapVnode (h : Table s) (mem : sv ∈ s.vnodes) (ino : (f (s.vnode sv)).ino = (s.vnode sv).ino)
    (direct : (f (s.vnode sv)).i.direct = (s.vnode sv).i.direct)
    (indirect : (f (s.vnode sv)).i.indirect = (s.vnode sv).i.indirect) : (s.mapVnode sv f).ptr i k = s.ptr i k := by
  rw [SfsFs.ptr, h.inode_mapVnode mem ino, SfsFs.ptr]
  by_cases e : i = (s.vnode sv).ino
  · rw [e, Function.update_self, h.inode_eq mem, ptrOf, ptrOf, direct, indirect]
    rfl
  · rw [Function.update_of_ne e]
    rfl

/-- A vnode changes, but not the block numbers of its inode. -/
lemma Core.mapVnode (h : Core s N) (mem : sv ∈ s.vnodes) (ino : (f (s.vnode sv)).ino = (s.vnode sv).ino)
    (ops : (f (s.vnode sv)).ops = (s.vnode sv).ops) (refs : 0 < (s.vnode sv).refcount → 0 < (f (s.vnode sv)).refcount)
    (type : (f (s.vnode sv)).i.type = (s.vnode sv).i.type)
    (direct : (f (s.vnode sv)).i.direct = (s.vnode sv).i.direct)
    (indirect : (f (s.vnode sv)).i.indirect = (s.vnode sv).i.indirect)
    (clean : (f (s.vnode sv)).dirty = false →
      SfsInode.ofBlock (s.dev.sect (s.vnode sv).ino) = (f (s.vnode sv)).i) : Core (s.mapVnode sv f) N where
  geom := ⟨h.geom.fits, h.geom.small, h.geom.dev⟩
  table := h.table.mapVnode ino ops refs
  disk := by
    refine ⟨?_, h.disk.map, h.disk.super, h.disk.magic, h.disk.superclean⟩
    intro sw mem' dirty
    rw [SfsFs.ino_mapVnode ino]
    by_cases e : sw = sv
    · subst e
      dsimp only [SfsFs.mapVnode] at dirty ⊢
      rw [Function.update_self] at dirty ⊢
      exact clean dirty
    · dsimp only [SfsFs.mapVnode] at dirty ⊢
      rw [Function.update_of_ne e] at dirty ⊢
      exact h.disk.inode mem' dirty
  type := by
    intro i live
    rw [SfsFs.live_mapVnode ino] at live
    rw [h.table.inode_mapVnode mem ino, ← h.type live]
    by_cases e : i = (s.vnode sv).ino
    · rw [e, Function.update_self, type, h.table.inode_eq mem]
    · rw [Function.update_of_ne e]
  own := h.own_congr rfl (fun _ => SfsFs.live_mapVnode ino) (fun _ _ _ => h.table.ptr_mapVnode mem ino direct indirect)
    rfl

/-- The files, when a vnode changes but not its block numbers. -/
lemma Table.file_mapVnode (h : Table s) (mem : sv ∈ s.vnodes) (ino : (f (s.vnode sv)).ino = (s.vnode sv).ino)
    (direct : (f (s.vnode sv)).i.direct = (s.vnode sv).i.direct)
    (indirect : (f (s.vnode sv)).i.indirect = (s.vnode sv).i.indirect) :
    (s.mapVnode sv f).file = Function.update s.file (s.vnode sv).ino
      ⟨(f (s.vnode sv)).i.type, (f (s.vnode sv)).i.linkcount, (f (s.vnode sv)).i.size.toNat,
        (s.file (s.vnode sv).ino).data⟩ := by
  have data (i : Nat) : ((s.mapVnode sv f).file i).data = (s.file i).data := by
    funext fb
    dsimp only [SfsFs.file]
    rw [h.ptr_mapVnode mem ino direct indirect]
    rfl
  funext i
  by_cases e : i = (s.vnode sv).ino
  · rw [e, Function.update_self]
    apply File.ext
    · dsimp only [SfsFs.file]
      rw [h.inode_mapVnode mem ino, Function.update_self]
    · dsimp only [SfsFs.file]
      rw [h.inode_mapVnode mem ino, Function.update_self]
    · dsimp only [SfsFs.file]
      rw [h.inode_mapVnode mem ino, Function.update_self]
    · exact data _
  · have same : (s.mapVnode sv f).inode i = s.inode i := by
      rw [h.inode_mapVnode mem ino, Function.update_of_ne e]
    rw [Function.update_of_ne e]
    exact SfsFs.file_eq (by rw [same]) (by rw [same]) (by rw [same]) (fun fb => congrFun (data i) fb)

/-- A block write is a frame. -/
lemma Frame.write : Frame s (s.write b data) :=
  ⟨rfl, rfl, rfl, fun _ => rfl, fun _ => rfl, fun _ => rfl, fun _ => rfl⟩

/-- A block that holds no metadata of an inode in use on the disk. -/
structure Plain (s : SfsFs) (N : Nat → Prop) (b : Nat) : Prop where
  inode : s.Live N b → s.Loaded b
  indirect : ∀ i, s.Live N i → s.ptr i 15 ≠ b
  volume : ¬ volumeBlock s.nblocks b

/-- A plain block is not the superblock. -/
lemma Plain.ne_zero (h : Plain s N b) : b ≠ 0 := by
  rintro rfl
  exact h.volume (.inl rfl)

/-- A write to a plain block changes no inode. -/
lemma Plain.inode_write (h : Plain s N b) (live : s.Live N i) : (s.write b data).inode i = s.inode i := by
  apply SfsFs.inode_write
  by_cases e : i = b
  · exact .inr (e ▸ h.inode (e ▸ live))
  · exact .inl e

/-- A write to a plain block changes no pointer. -/
lemma Plain.ptr_write (h : Plain s N b) (live : s.Live N i) : (s.write b data).ptr i k = s.ptr i k := by
  apply SfsFs.ptr_write
  · by_cases e : i = b
    · exact .inr (e ▸ h.inode (e ▸ live))
    · exact .inl e
  · intro eq
    exact absurd eq (h.indirect i live)

/-- The files, when such a block is written. -/
lemma Plain.file_write (h : Plain s N b) (live : s.Live N i) :
    (s.write b data).file i =
      { s.file i with data := fun fb => if s.ptr i (dataSlot fb) = b then data else (s.file i).data fb } := by
  apply File.ext
  · exact congrArg SfsInode.type (h.inode_write live)
  · exact congrArg SfsInode.linkcount (h.inode_write live)
  · exact congrArg (fun i => UInt32.toNat (SfsInode.size i)) (h.inode_write live)
  · funext fb
    dsimp only [SfsFs.file]
    rw [h.ptr_write live]
    by_cases e : s.ptr i (dataSlot fb) = b
    · rw [if_neg (by rw [e]; exact h.ne_zero), if_pos e, e]
      exact Function.update_self ..
    · rw [if_neg e]
      dsimp only [SfsFs.write]
      rw [Function.update_of_ne e]

/-- A block is written; the inode that is stored there, if any, must not be clean. -/
lemma Core.write (h : Core s N) (plain : Plain s N b)
    (clean : ∀ sv ∈ s.vnodes, (s.vnode sv).ino = b → (s.vnode sv).dirty = false →
      SfsInode.ofBlock data = (s.vnode sv).i) : Core (s.write b data) N where
  geom := ⟨h.geom.fits, h.geom.small, h.geom.dev⟩
  table := h.table.of_frame .write
  disk := by
    have zero : (s.write b data).dev.sect 0 = s.dev.sect 0 := Function.update_of_ne plain.ne_zero.symm ..
    refine ⟨?_, ?_, ?_, ?_, h.disk.superclean⟩
    · intro sv mem dirty
      by_cases e : (s.vnode sv).ino = b
      · have read : (s.write b data).dev.sect ((s.write b data).vnode sv).ino = data := by
          dsimp only [SfsFs.write]
          rw [e, Function.update_self]
        rw [read]
        exact clean sv mem e dirty
      · have read : (s.write b data).dev.sect ((s.write b data).vnode sv).ino = s.dev.sect (s.vnode sv).ino :=
          Function.update_of_ne e ..
        rw [read]
        exact h.disk.inode mem dirty
    · intro dirty j lt
      have other : 2 + j ≠ b := by
        rintro rfl
        have lt : j < bitblocks s.nblocks := lt
        exact plain.volume (.inr (.inl ⟨by omega, by omega⟩))
      have read : (s.write b data).dev.sect (2 + j) = s.dev.sect (2 + j) := Function.update_of_ne other ..
      rw [read]
      exact h.disk.map dirty j lt
    · rw [zero]
      exact h.disk.super
    · rw [zero]
      exact h.disk.magic
  type := by
    intro i live
    rw [plain.inode_write live]
    exact h.type live
  own := h.own_congr rfl (fun _ => Iff.rfl) (fun _ _ live => plain.ptr_write live) rfl

/-- A free block. -/
lemma Core.plain_free (h : Core s N) (free : s.freemap b = false) : Plain s N b where
  inode live := absurd live (h.free_not_live free)
  indirect _ live := h.free_ne_ptr free live
  volume := h.free_not_volumeBlock free

/-- A block of a file with data. -/
lemma Core.plain_data (h : Core s N) (live : s.Live N i) (ne : s.ptr i k ≠ 0) (slot : k ≠ 15) : Plain s N (s.ptr i k) where
  inode live' := absurd rfl (h.ptr_ne_inode live live' ne)
  indirect j live' := by
    intro eq
    exact slot (h.ptr_inj live live' eq.symm ne).2
  volume := h.not_volumeBlock_ptr live ne

/-- The block of a loaded inode. -/
lemma Core.plain_inode (h : Core s N) (mem : sv ∈ s.vnodes) : Plain s N (s.vnode sv).ino where
  inode _ := SfsFs.loaded_of_mem mem
  indirect j live := by
    intro eq
    refine h.ptr_ne_inode live (SfsFs.live_of_mem mem) ?_ eq
    rw [eq]
    exact h.inode_ne_zero (SfsFs.live_of_mem (N := N) mem)
  volume := h.not_volumeBlock_inode (SfsFs.live_of_mem mem)

end

end PDS.Sfs
