import PDS.Sfs.Ops

/-!
# Syncing and mounting

`sfs_sync` writes back every loaded inode and the free map, and changes nothing else. A disk that holds a volume
whose inodes and free map are on the disk is mounted as the same volume; the vnodes are gone.
-/

namespace PDS.Sfs
open Kern Word

/-- Vnodes have been written back, and nothing else has changed. -/
structure Flushed (N : Nat → Prop) (s s' : SfsFs) : Prop where
  core : Core s' N
  frame : Frame s s'
  map : s'.freemap = s.freemap
  files : SameFiles N s s'
  ptr : ∀ j l, s.Live N j → s'.ptr j l = s.ptr j l
  clean : ∀ sv, (s.vnode sv).dirty = false → (s'.vnode sv).dirty = false

section

variable {s s' s'' : SfsFs} {N : Nat → Prop} {sv i j b n : Nat}

/-- Nothing has been flushed. -/
lemma Flushed.refl (h : Core s N) : Flushed N s s :=
  ⟨h, .refl s, rfl, .refl N s, fun _ _ _ => rfl, fun _ clean => clean⟩

/-- Flushes compose. -/
lemma Flushed.trans (h : Flushed N s s') (h' : Flushed N s' s'') : Flushed N s s'' where
  core := h'.core
  frame := h.frame.trans h'.frame
  map := h'.map.trans h.map
  files := h.files.trans h.frame h'.files
  ptr j l live := (h'.ptr j l (h.frame.live_iff.2 live)).trans (h.ptr j l live)
  clean sv clean := h'.clean sv (h.clean sv clean)

/-- An inode that is synced is flushed and clean. -/
lemma Synced.flushed (h : Synced N s sv s') : Flushed N s s' ∧ (s'.vnode sv).dirty = false := by
  have own : (s'.vnode sv).dirty = false := by rw [h.vnode, Function.update_self]
  refine ⟨⟨h.core, h.frame, h.map, h.files, h.ptr, ?_⟩, own⟩
  intro sw clean
  by_cases e : sw = sv
  · rw [e]
    exact own
  · rw [h.vnode, Function.update_of_ne e]
    exact clean

/-- The rule for the vnodes, by induction on their list. -/
lemma Core.wp_sfsSyncVnodes (h : Core s N) (vnodes : List Nat) (sub : ∀ sv ∈ vnodes, sv ∈ s.vnodes)
    {E : Nat → SfsFs → Prop} :
    Prog.wp (sfsSyncVnodes vnodes) (fun _ s' => Flushed N s s' ∧ ∀ sv ∈ vnodes, (s'.vnode sv).dirty = false) E s := by
  induction vnodes generalizing s with
  | nil => exact ⟨.refl h, nofun⟩
  | cons sv vnodes ih =>
    rw [sfsSyncVnodes, Prog.wp_andThen_iff, Prog.wp_attempt_iff]
    refine (h.wp_sfsSyncInode (sub sv List.mem_cons_self) (E := fun _ _ => False)).mono ?_ (fun _ _ no => no.elim)
    intro _ s₁ synced
    obtain ⟨flushed, clean⟩ := synced.flushed
    refine (ih flushed.core ?_).mono ?_ (fun _ _ e => e)
    · intro sw mem
      rw [flushed.frame.vnodes]
      exact sub sw (List.mem_cons_of_mem _ mem)
    · rintro _ s₂ ⟨flushed₂, clean₂⟩
      refine ⟨flushed.trans flushed₂, ?_⟩
      intro sw mem
      cases mem with
      | head => exact flushed₂.clean sv clean
      | tail _ mem => exact clean₂ sw mem

/-- The contents of the disk change. -/
def SfsFs.setSect (s : SfsFs) (sect : Nat → Block) : SfsFs := { s with dev := { s.dev with sect := sect } }

/-- The blocks of the free map are written. -/
def SfsFs.putMap (s : SfsFs) (j n : Nat) : SfsFs :=
  s.setSect fun b => if 2 + j ≤ b ∧ b < 2 + j + n then mapBlock s.freemap (b - 2) else s.dev.sect b

/-- The map is written block by block. -/
lemma sfsMapioWrite_eq (g : Geom s) (j : Nat) (inside : j + n ≤ bitblocks s.nblocks) :
    sfsMapioWrite n j s = .ok (.ok (), s.putMap j n) := by
  induction n generalizing s j with
  | zero =>
    have same : s.putMap j 0 = s.setSect s.dev.sect := by
      refine congrArg s.setSect (funext fun b => ?_)
      exact if_neg (by omega)
    rw [same]
    rfl
  | succ n ih =>
    have fits := g.fits
    apply Prog.run_of_wp
    rw [sfsMapioWrite, Prog.wp_andThen_iff, Prog.wp_get_iff, Prog.wp_andThen_iff]
    refine Prog.wp_of_run (wblock_eq g (by omega)) ?_
    have g' : Geom (s.write (2 + j) (mapBlock s.freemap j)) := ⟨g.fits, g.small, g.dev⟩
    have inside' : j + 1 + n ≤ bitblocks (s.write (2 + j) (mapBlock s.freemap j)).nblocks := by
      rw [SfsFs.nblocks_write]
      omega
    refine Prog.wp_of_run (ih g' (j + 1) inside') ⟨rfl, ?_⟩
    refine congrArg s.setSect (funext fun b => ?_)
    dsimp only [SfsFs.write]
    by_cases here : b = 2 + j
    · rw [here, if_neg (by omega), Function.update_self, if_pos (by omega), Nat.add_sub_cancel_left]
    · rw [Function.update_of_ne here]
      split_ifs <;> first | rfl | omega

/-- The free map is on the disk now. -/
def SfsFs.flushMap (s : SfsFs) : SfsFs := { s.putMap 0 (bitblocks s.nblocks) with freemapdirty := false }

/-- Writing the map is a frame. -/
lemma Frame.flushMap : Frame s s.flushMap :=
  ⟨rfl, rfl, rfl, fun _ => rfl, fun _ => rfl, fun _ => rfl, fun _ => rfl⟩

/-- The blocks before the map stay. -/
lemma SfsFs.sect_flushMap_of_lt (lt : b < 2) : s.flushMap.dev.sect b = s.dev.sect b := by
  refine if_neg ?_
  omega

/-- The blocks outside the volume's own stay. -/
lemma SfsFs.sect_flushMap (other : ¬ volumeBlock s.nblocks b) : s.flushMap.dev.sect b = s.dev.sect b := by
  refine if_neg ?_
  rintro ⟨lo, hi⟩
  exact other (.inr (.inl ⟨by omega, by omega⟩))

/-- Writing the map changes no inode. -/
lemma Core.inode_flushMap (h : Core s N) (live : s.Live N j) : s.flushMap.inode j = s.inode j := by
  by_cases loaded : s.Loaded j
  · obtain ⟨sv, mem, rfl⟩ := loaded
    rw [h.table.inode_eq mem]
    exact (h.table.of_frame .flushMap).inode_eq mem
  · have loaded' : ¬ s.flushMap.Loaded j := loaded
    rw [SfsFs.inode_of_not_loaded loaded, SfsFs.inode_of_not_loaded loaded',
      SfsFs.sect_flushMap (h.not_volumeBlock_inode live)]

/-- Writing the map changes no pointer. -/
lemma Core.ptr_flushMap (h : Core s N) (live : s.Live N j) (l : Nat) : s.flushMap.ptr j l = s.ptr j l := by
  rw [SfsFs.ptr, h.inode_flushMap live, SfsFs.ptr]
  apply ptrOf_congr
  intro ne
  have number : (s.inode j).indirect.toNat = s.ptr j 15 := (ptrOf_indirect _ _).symm
  have some : s.ptr j 15 ≠ 0 := by
    intro zero
    rw [zero] at number
    exact ne (UInt32.toNat_inj.1 number)
  rw [number]
  exact SfsFs.sect_flushMap (h.not_volumeBlock_ptr live some)

/-- Writing the map changes no file. -/
lemma Core.file_flushMap (h : Core s N) (live : s.Live N j) : s.flushMap.file j = s.file j := by
  have inode := h.inode_flushMap live
  refine SfsFs.file_eq (by rw [inode]) (by rw [inode]) (by rw [inode]) ?_
  intro fb
  dsimp only [SfsFs.file]
  rw [h.ptr_flushMap live]
  split_ifs with hole
  · rfl
  · exact SfsFs.sect_flushMap (h.not_volumeBlock_ptr live hole)

/-- Writing the map is a flush. -/
lemma Core.flushMap (h : Core s N) : Flushed N s s.flushMap := by
  refine ⟨⟨⟨h.geom.fits, h.geom.small, h.geom.dev⟩, h.table.of_frame .flushMap, ?_, ?_, ?_⟩, .flushMap, rfl,
    fun j live => h.file_flushMap live, fun j l live => h.ptr_flushMap live l, fun _ clean => clean⟩
  · have zero : s.flushMap.dev.sect 0 = s.dev.sect 0 := SfsFs.sect_flushMap_of_lt (by decide)
    refine ⟨?_, ?_, zero ▸ h.disk.super, zero ▸ h.disk.magic, h.disk.superclean⟩
    · intro sv mem clean
      have live : s.Live N (s.vnode sv).ino := SfsFs.live_of_mem mem
      refine Eq.trans (congrArg SfsInode.ofBlock (SfsFs.sect_flushMap (h.not_volumeBlock_inode live))) ?_
      exact h.disk.inode mem clean
    · intro _ j lt
      have lt : j < bitblocks s.nblocks := lt
      refine (if_pos ⟨by omega, by omega⟩).trans ?_
      rw [Nat.add_sub_cancel_left]
      rfl
  · intro j live
    rw [h.inode_flushMap live]
    exact h.type live
  · exact h.own_congr rfl (fun _ => Iff.rfl) (fun j l live => h.ptr_flushMap live l) rfl

/-- The rule for the map in `sfs_sync`. -/
lemma Core.wp_sfsSyncMap (h : Core s N) {E : Nat → SfsFs → Prop} :
    Prog.wp sfsSyncMap (fun _ s' => Flushed N s s' ∧ s'.freemapdirty = false) E s := by
  rw [sfsSyncMap, Prog.wp_andThen_iff, Prog.wp_get_iff]
  split_ifs with dirty
  · rw [Prog.wp_andThen_iff]
    refine Prog.wp_of_run (sfsMapioWrite_eq h.geom 0 (by omega)) ?_
    exact Prog.wp_of_run rfl ⟨h.flushMap, rfl⟩
  · exact ⟨.refl h, by simpa using dirty⟩

/-- Everything is on the disk. -/
structure Clean (s : SfsFs) : Prop where
  vnodes : ∀ sv ∈ s.vnodes, (s.vnode sv).dirty = false
  map : s.freemapdirty = false
  super : s.superdirty = false

/-- The rule of `sfs_sync`. -/
lemma Core.wp_sfsSync (h : Core s N) {E : Nat → SfsFs → Prop} :
    Prog.wp sfsSync (fun _ s' => Flushed N s s' ∧ Clean s') E s := by
  rw [sfsSync, Prog.wp_andThen_iff, Prog.wp_get_iff, Prog.wp_andThen_iff]
  refine (h.wp_sfsSyncVnodes s.vnodes (fun _ mem => mem)).mono ?_ (fun _ _ e => e)
  rintro _ s₁ ⟨flushed, clean⟩
  rw [Prog.wp_andThen_iff]
  refine flushed.core.wp_sfsSyncMap.mono ?_ (fun _ _ e => e)
  rintro _ s₂ ⟨flushed₂, map⟩
  have super := flushed₂.core.disk.superclean
  rw [sfsSyncSuper, Prog.wp_andThen_iff, Prog.wp_get_iff, super]
  refine ⟨flushed.trans flushed₂, ?_, map, super⟩
  intro sv mem
  rw [flushed₂.frame.vnodes, flushed.frame.vnodes] at mem
  exact flushed₂.clean sv (clean sv mem)

/-- The free map changes, but is not dirty. -/
def SfsFs.loadMap (s : SfsFs) (map : Nat → Bool) : SfsFs := { s with freemap := map }

/-- The map is read block by block. -/
lemma sfsMapioRead_eq (g : Geom s) (j : Nat) (inside : j + n ≤ bitblocks s.nblocks) :
    sfsMapioRead n j s = .ok (.ok (), s.loadMap fun i =>
      if j ≤ i / 4096 ∧ i / 4096 < j + n then mapBit (fun k => s.dev.sect (2 + k)) i else s.freemap i) := by
  induction n generalizing s j with
  | zero =>
    have same : (s.loadMap fun i =>
        if j ≤ i / 4096 ∧ i / 4096 < j + 0 then mapBit (fun k => s.dev.sect (2 + k)) i else s.freemap i) =
        s.loadMap s.freemap := by
      refine congrArg s.loadMap (funext fun i => ?_)
      exact if_neg (by omega)
    rw [same]
    rfl
  | succ n ih =>
    have fits := g.fits
    apply Prog.run_of_wp
    rw [sfsMapioRead, Prog.wp_andThen_iff]
    refine Prog.wp_of_run (rblock_eq g (by omega)) ?_
    rw [Prog.wp_andThen_iff, Prog.wp_modify_iff]
    have rest := ih (s := s.loadMap fun i => if i / 4096 = j then mapBit (fun _ => s.dev.sect (2 + j)) i else s.freemap i)
      ⟨g.fits, g.small, g.dev⟩ (j + 1) (show j + 1 + n ≤ bitblocks s.nblocks by omega)
    refine Prog.wp_of_run rest ⟨rfl, ?_⟩
    refine congrArg s.loadMap (funext fun i => ?_)
    dsimp only [SfsFs.loadMap]
    by_cases here : i / 4096 = j
    · rw [if_neg (by omega), if_pos here, if_pos (by omega)]
      apply mapBit_congr
      rw [here]
    · rw [if_neg here]
      split_ifs <;> first | rfl | omega

/-- A disk with a volume that fills it. -/
structure HasVolume (d : Lhd) : Prop where
  magic : (d.sect 0).word 0 = sfsMagic
  nblocks : ((d.sect 0).store 39 [0]).word 1 = d.blocks
  fits : 2 + bitblocks d.blocks ≤ d.blocks
  small : d.blocks ≤ 2 ^ 23

/-- The file system that is mounted from a disk. -/
def mounted (d : Lhd) : SfsFs :=
  { SfsFs.alloc d with
    super := (d.sect 0).store 39 [0]
    freemap := fun i => if i / 4096 < bitblocks d.blocks then mapBit (fun k => d.sect (2 + k)) i else false }

/-- A volume is mounted with no vnode. -/
lemma sfsDomount_eq {d : Lhd} (h : HasVolume d) : sfsDomount d = .ok (.ok (), mounted d) := by
  have fits := h.fits
  have small := h.small
  have read : rblock 0 (SfsFs.alloc d) = .ok (.ok (d.sect 0), SfsFs.alloc d) := by
    rw [rblock, sfsRblock_ok _ (show 0 < (SfsFs.alloc d).dev.blocks by show 0 < d.blocks; omega)
      (show (SfsFs.alloc d).dev.blocks < 2 ^ 32 by show d.blocks < 2 ^ 32; omega) rfl]
    rfl
  rw [sfsDomount]
  apply Prog.run_of_wp
  rw [sfsMount, Prog.wp_andThen_iff]
  refine Prog.wp_of_run read ?_
  rw [if_neg (not_not.2 h.magic), Prog.wp_andThen_iff, Prog.wp_modify_iff, Prog.wp_andThen_iff, Prog.wp_get_iff]
  generalize hs : ({ SfsFs.alloc d with super := (d.sect 0).store 39 [0] } : SfsFs) = s
  have size : s.nblocks = d.blocks := by
    rw [← hs]
    exact h.nblocks
  have geom : Geom s := by
    refine ⟨?_, ?_, ?_⟩
    · rw [size]
      exact h.fits
    · rw [size]
      exact h.small
    · rw [size, ← hs]
      rfl
  refine Prog.wp_of_run (sfsMapioRead_eq geom 0 (by omega)) ⟨rfl, ?_⟩
  rw [size, ← hs]
  have map : (fun i => if 0 ≤ i / 4096 ∧ i / 4096 < 0 + bitblocks d.blocks then mapBit (fun k => d.sect (2 + k)) i
      else false) = (mounted d).freemap := by
    funext i
    dsimp only [mounted]
    split_ifs <;> first | rfl | omega
  exact congrArg ({ SfsFs.alloc d with super := (d.sect 0).store 39 [0] } : SfsFs).loadMap map

/-- A reachable disk holds a volume. -/
lemma Core.hasVolume (h : Core s N) : HasVolume s.dev where
  magic := h.disk.magic
  nblocks := by
    rw [h.disk.super, h.geom.dev]
    rfl
  fits := by
    rw [h.geom.dev]
    exact h.geom.fits
  small := by
    rw [h.geom.dev]
    exact h.geom.small

/-- Nothing is loaded after a mount. -/
lemma not_loaded_mounted {d : Lhd} : ¬ (mounted d).Loaded i := by
  rintro ⟨sv, mem, -⟩
  cases mem

/-- The size after a mount. -/
lemma Core.nblocks_mounted (h : Core s N) : (mounted s.dev).nblocks = s.nblocks := by
  rw [SfsFs.nblocks, SfsFs.nblocks, ← h.disk.super]
  rfl

/-- The inodes after a mount. -/
lemma Core.inode_mounted (h : Core s N) (clean : Clean s) (i : Nat) : (mounted s.dev).inode i = s.inode i := by
  rw [SfsFs.inode_of_not_loaded not_loaded_mounted]
  by_cases loaded : s.Loaded i
  · obtain ⟨sv, mem, rfl⟩ := loaded
    rw [h.table.inode_eq mem]
    exact h.disk.inode mem (clean.vnodes sv mem)
  · rw [SfsFs.inode_of_not_loaded loaded]
    rfl

/-- The pointers after a mount. -/
lemma Core.ptr_mounted (h : Core s N) (clean : Clean s) : (mounted s.dev).ptr = s.ptr :=
  SfsFs.ptr_of_inode (funext (h.inode_mounted clean)) rfl

/-- The files after a mount. -/
lemma Core.file_mounted (h : Core s N) (clean : Clean s) : (mounted s.dev).file = s.file :=
  SfsFs.file_of_inode (funext (h.inode_mounted clean)) rfl

/-- The map after a mount. -/
lemma Core.freemap_mounted (h : Core s N) (clean : Clean s) (inside : b < bitmapsize s.nblocks) :
    (mounted s.dev).freemap b = s.freemap b := by
  have block := div_mapbits_lt inside
  have map := h.disk.map clean.map (b / 4096) block
  refine (if_pos (by rw [h.geom.dev]; exact block)).trans ?_
  rw [← mapBit_mapBlock s.freemap b]
  exact mapBit_congr map

/-- A block of the free map depends on its bits only. -/
lemma mapBlock_congr {bit bit' : Nat → Bool} (same : ∀ i, i / 4096 = j → bit i = bit' i) :
    mapBlock bit j = mapBlock bit' j := by
  funext k
  rw [mapBlock, mapBlock]
  congr 3
  funext i
  have := k.isLt
  have := i.isLt
  exact same _ (by omega)

/-- The bits of the last block are in the map. -/
lemma lt_bitmapsize_of_div (lt : j < bitblocks n) (eq : i / 4096 = j) : i < bitmapsize n := by
  rw [bitmapsize]
  have := Nat.mul_le_mul_right 4096 (Nat.succ_le_of_lt lt)
  omega

/-- A volume that is unmounted with no vnode left is mounted again. -/
lemma Inv.remount (h : Inv s) (clean : Clean s) (none : s.vnodes = []) :
    Inv (mounted s.dev) ∧ (mounted s.dev).dir = s.dir := by
  have core := h.core
  have size := core.nblocks_mounted
  have file := core.file_mounted clean
  have unloaded (i : Nat) : ¬ s.Loaded i := by
    rintro ⟨sv, mem, -⟩
    rw [none] at mem
    cases mem
  have live (i : Nat) : (mounted s.dev).Live s.Named i ↔ s.Live s.Named i := by
    rw [SfsFs.Live, SfsFs.Live, iff_false_intro not_loaded_mounted, iff_false_intro (unloaded i)]
  refine h.of_core ⟨?_, ?_, ?_, ?_, ?_⟩ (by rw [file]) (by rw [core.ptr_mounted clean]; exact fun _ used => used) ?_ ?_
  · refine ⟨?_, ?_, ?_⟩ <;> rw [size]
    · exact core.geom.fits
    · exact core.geom.small
    · exact core.geom.dev
  · refine ⟨List.nodup_nil, ?_, ?_, ?_, ?_⟩
    · exact fun mem => absurd mem List.not_mem_nil
    · exact fun mem => absurd mem List.not_mem_nil
    · exact fun mem => absurd mem List.not_mem_nil
    · exact fun mem => absurd mem List.not_mem_nil
  · refine ⟨(fun mem => absurd mem List.not_mem_nil), ?_, rfl, core.disk.magic, rfl⟩
    intro _ j lt
    rw [size] at lt
    refine (core.disk.map clean.map j lt).trans (mapBlock_congr ?_)
    intro i eq
    exact (core.freemap_mounted clean (lt_bitmapsize_of_div lt eq)).symm
  · intro i hi
    rw [core.inode_mounted clean]
    exact core.type ((live i).1 hi)
  · refine core.own.congr ?_ ?_
    · intro o x
      cases o with
      | volume c => rw [SfsFs.Owns, SfsFs.Owns, size]
      | inode j => rw [SfsFs.Owns, SfsFs.Owns, live]
      | block j l => rw [SfsFs.Owns, SfsFs.Owns, live, core.ptr_mounted clean]
    · intro x
      rw [SfsFs.Marked, SfsFs.Marked, size]
      refine and_congr_right (fun inside => ?_)
      rw [core.freemap_mounted clean inside]
  · intro i hi
    rw [file]
    exact h.links i ((live i).1 hi)
  · intro sv
    exact Nat.zero_le _

/-- A word outside the bytes stored. -/
lemma Block.word_store {bytes : List UInt8} {pos k : Nat} (block : Block) (lt : k < 128)
    (apart : 4 * k + 4 ≤ pos ∨ pos + bytes.length ≤ 4 * k) : (block.store pos bytes).word k = block.word k := by
  have at_eq (n : Nat) (lo : 4 * k ≤ n) (hi : n < 4 * k + 4) : (block.store pos bytes).at n = block.at n := by
    rw [Block.at_store (by omega), if_neg (by omega)]
  rw [Block.word, Block.word, at_eq _ (by omega) (by omega), at_eq _ (by omega) (by omega),
    at_eq _ (by omega) (by omega), at_eq _ (by omega) (by omega)]

/-- The words of the superblock. -/
lemma word_superBlock {volname : List UInt8} {k : Nat} (lt : k < 2) (small : n < 2 ^ 32) :
    (superBlock volname n).word k = if k = 0 then sfsMagic else n := by
  rw [superBlock, Block.word_store _ (by omega) (by omega)]
  obtain rfl | rfl : k = 0 ∨ k = 1 := by omega
  · rw [Block.word_ofWords (by decide) (by rw [if_pos rfl]; decide)]
    rfl
  · rw [Block.word_ofWords (by decide) (by rw [if_neg (by decide), if_pos rfl]; exact small)]
    rfl

/-- What `mksfs` has done. -/
lemma mksfs_eq_some {arg : CStr} {d d' : Lhd} (h : mksfs arg d = some d') :
    ∃ volname : List UInt8, d' = { d with sect := newsect volname d } ∧
      bitblocks d.blocks ≤ 32 ∧ 2 + bitblocks d.blocks ≤ d.blocks := by
  rw [mksfs] at h
  cases name : volumeName arg with
  | none =>
    rw [name] at h
    cases h
  | some volname =>
    rw [name] at h
    dsimp only at h
    split_ifs at h with long large fits
    exact ⟨volname, (Option.some.inj h).symm, by omega, by omega⟩

/-- 32 blocks of map cover 2^17 blocks. -/
lemma blocks_le_of_bitblocks (h : bitblocks n ≤ 32) : n ≤ 2 ^ 17 := by
  rw [bitblocks] at h
  omega

/-- `mksfs` leaves a volume. -/
lemma hasVolume_newsect {volname : List UInt8} {d : Lhd} (few : bitblocks d.blocks ≤ 32)
    (fits : 2 + bitblocks d.blocks ≤ d.blocks) : HasVolume { d with sect := newsect volname d } := by
  have large := blocks_le_of_bitblocks few
  have small : d.blocks < 2 ^ 32 := by omega
  refine ⟨?_, ?_, fits, ?_⟩
  · exact word_superBlock (by decide) small
  · rw [Block.word_store _ (by decide) (by left; decide)]
    exact word_superBlock (by decide) small
  · show d.blocks ≤ 2 ^ 23
    omega

/-- The root of a new volume has no block. -/
lemma ptrOf_rootInode (sect : Nat → Block) (k : Nat) : ptrOf sect rootInode k = 0 := by
  obtain lt | rfl | gt := lt_trichotomy k 15
  · rw [ptrOf_of_lt _ _ lt]
    rfl
  · rw [ptrOf_indirect]
    rfl
  · rw [ptrOf_of_gt _ _ gt, if_neg (fun c => c.2 rfl)]

/-- The free map of a new volume marks the volume's own blocks and the inode of the root directory. -/
lemma owned_newmap (fits : 2 + bitblocks n ≤ n) (size : s.nblocks = n) (live : ∀ i, s.Live N i ↔ i = 1)
    (ptr : ∀ l, s.ptr 1 l = 0) (map : ∀ b < bitmapsize n, s.freemap b = newmap n b) :
    Owned (s.Owns N) s.Marked := by
  have noBlock (i k b : Nat) : ¬ s.Owns N (.block i k) b := by
    rintro ⟨hi, -, eq, ne⟩
    rw [(live i).1 hi, ptr] at eq
    exact ne eq.symm
  have rootFree : ¬ volumeBlock n 1 := by
    rintro (zero | ⟨lo, -⟩ | ⟨past, -⟩) <;> omega
  have inside := le_bitmapsize n
  have marked (b : Nat) : s.Marked b ↔ volumeBlock n b ∨ b = 1 := by
    rw [SfsFs.Marked, size, volumeBlock]
    constructor
    · rintro ⟨lt, set⟩
      rw [map b lt] at set
      simp only [newmap, Bool.or_eq_true, decide_eq_true_eq] at set
      omega
    · intro own
      have lt : b < bitmapsize n := by omega
      refine ⟨lt, ?_⟩
      rw [map b lt]
      simp only [newmap, Bool.or_eq_true, decide_eq_true_eq]
      omega
  refine ⟨?_, ?_, ?_, ?_⟩
  · intro o b own
    rw [marked]
    cases o with
    | volume c => exact .inl (size ▸ own.2)
    | inode i => exact .inr (own.1.symm.trans ((live i).1 own.2))
    | block i k => exact absurd own (noBlock i k b)
  · intro o o' b own own'
    cases o with
    | volume c =>
      cases o' with
      | volume c' => rw [own.1, own'.1]
      | inode i =>
        have one : b = 1 := own'.1.symm.trans ((live i).1 own'.2)
        exact absurd (one ▸ size ▸ own.2) rootFree
      | block i k => exact absurd own' (noBlock i k b)
    | inode i =>
      cases o' with
      | volume c' =>
        have one : b = 1 := own.1.symm.trans ((live i).1 own.2)
        exact absurd (one ▸ size ▸ own'.2) rootFree
      | inode i' => rw [own.1, own'.1]
      | block i k => exact absurd own' (noBlock i k b)
    | block i k => exact absurd own (noBlock i k b)
  · intro o a b own own'
    cases o with
    | volume c => exact own.1.symm.trans own'.1
    | inode i => exact own.1.symm.trans own'.1
    | block i k => exact absurd own (noBlock i k a)
  · intro b hb
    obtain vol | one := (marked b).1 hb
    · exact ⟨.volume b, rfl, size.symm ▸ vol⟩
    · exact ⟨.inode b, rfl, (live b).2 one⟩

/-- The volume that `mksfs` makes. -/
lemma inv_newsect {volname : List UInt8} {d : Lhd} (few : bitblocks d.blocks ≤ 32)
    (fits : 2 + bitblocks d.blocks ≤ d.blocks) :
    Inv (mounted { d with sect := newsect volname d }) ∧
      (∀ b < bitmapsize d.blocks, (mounted { d with sect := newsect volname d }).freemap b = newmap d.blocks b) ∧
      ∀ name, (mounted { d with sect := newsect volname d }).dir name = none := by
  have volume : HasVolume { d with sect := newsect volname d } := hasVolume_newsect few fits
  have magic := volume.magic
  have super := volume.nblocks
  have block (j : Nat) (lt : j < bitblocks d.blocks) : newsect volname d (2 + j) = mapBlock (newmap d.blocks) j := by
    rw [newsect, if_neg (by omega), if_neg (by omega), if_pos (by omega), Nat.add_sub_cancel_left]
  have root : newsect volname d 1 = rootInode.toBlock := rfl
  generalize newsect volname d = sect at *
  generalize hs : mounted { d with sect := sect } = s
  have size : s.nblocks = d.blocks := by
    rw [← hs]
    exact super
  have blocks : s.dev.blocks = d.blocks := by
    rw [← hs]
    rfl
  have unloaded (i : Nat) : ¬ s.Loaded i := by
    rw [← hs]
    exact not_loaded_mounted
  have none : s.vnodes = [] := by
    rw [← hs]
    rfl
  have map (b : Nat) (inside : b < bitmapsize d.blocks) : s.freemap b = newmap d.blocks b := by
    have here := div_mapbits_lt inside
    rw [← hs, ← mapBit_mapBlock (newmap d.blocks) b]
    exact (if_pos here).trans (mapBit_congr (block _ here))
  have inode : s.inode 1 = rootInode := by
    rw [SfsFs.inode_of_not_loaded (unloaded 1), ← SfsInode.ofBlock_toBlock rootInode, ← root, ← hs]
    rfl
  have ptr (l : Nat) : s.ptr 1 l = 0 := by rw [SfsFs.ptr, inode, ptrOf_rootInode]
  have empty : (s.file 1).size = 0 := congrArg (fun i => UInt32.toNat (SfsInode.size i)) inode
  have slots (j : Nat) : (s.file 1).slots j = Option.none := File.slots_of_le (by rw [empty]; omega)
  have dir (name : List UInt8) : s.dir name = Option.none := by
    rw [SfsFs.dir, Slots.map_eq_none]
    intro j v
    rw [slots]
    exact fun no => by cases no
  have live (i : Nat) : s.Live s.Named i ↔ i = 1 := by
    constructor
    · rintro (one | ⟨name, named⟩ | loaded)
      · exact one
      · rw [dir] at named
        cases named
      · exact absurd loaded (unloaded i)
    · exact .inl
  refine ⟨⟨⟨⟨?_, ?_, ?_⟩, ?_, ?_, ?_, ?_⟩, ⟨⟨?_, ?_⟩, ?_, ?_⟩, ?_, ?_⟩, map, dir⟩
  · rw [size]
    exact fits
  · rw [size]
    exact volume.small
  · rw [size, blocks]
  · refine ⟨?_, ?_, ?_, ?_, ?_⟩ <;> rw [none]
    · exact List.nodup_nil
    · exact fun mem => absurd mem List.not_mem_nil
    · exact fun mem => absurd mem List.not_mem_nil
    · exact fun mem => absurd mem List.not_mem_nil
    · exact fun mem => absurd mem List.not_mem_nil
  · refine ⟨?_, ?_, ?_, ?_, ?_⟩
    · rw [none]
      exact fun mem => absurd mem List.not_mem_nil
    · intro _ j lt
      rw [size] at lt
      have read : s.dev.sect (2 + j) = sect (2 + j) := by
        rw [← hs]
        rfl
      rw [read, block j lt]
      apply mapBlock_congr
      intro i eq
      exact (map i (lt_bitmapsize_of_div lt eq)).symm
    · rw [← hs]
      rfl
    · rw [← hs]
      exact magic
    · rw [← hs]
      rfl
  · intro i hi
    rw [(live i).1 hi, inode]
    rfl
  · exact owned_newmap fits size live ptr map
  · rw [empty]
  · rw [empty]
    exact Nat.zero_le _
  · intro p lt
    rw [empty] at lt
    omega
  · intro i j k v w hold
    rw [slots] at hold
    cases hold
  · intro i hi
    have count : Slots.count s.dir i = 0 := by
      have keys : { name | s.dir name = some i } = ∅ := by
        ext name
        simp [dir]
      rw [Slots.count, keys, Set.ncard_empty]
    rw [(live i).1 hi] at count ⊢
    rw [count]
    exact congrArg (fun i => UInt16.toNat (SfsInode.linkcount i)) inode
  · intro sv
    rw [SfsFs.opens, none]
    exact Nat.zero_le _

end

end PDS.Sfs
