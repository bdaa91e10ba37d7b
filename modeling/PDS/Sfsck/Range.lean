import PDS.Sfsck.Walk

/-!
# Block numbers in range

`bitmap_mark` takes the numbers of blocks and inodes as they stand on the disk: in the direct blocks of an inode, in
its indirect block, as the number of that block, and in the entries of a directory. Nothing compares them with the size
of the volume, so a number past the end of the bitmap is an access past its end. The number of an inode and that of an
indirect block are read from the disk first, which ends the program if there is no such sector; the others are not read
before they are marked.
-/

namespace PDS.Sfsck
open Sfs Word

variable {s s' t : Check} {sfi : SfsInode} {ino parentino : Nat} {sfd : SfsDir} {how : Blockusage}
variable {check : Nat → Nat → CheckM Bool}

/-- The bitmap has a bit for the block. -/
def Check.InMap (s : Check) (block : Nat) : Prop := block < 4096 * s.bitblocks

/-- The indirect block can be read, if there is one. -/
def Readable (s : Check) (sfi : SfsInode) : Prop := sfi.indirect ≠ 0 → sector sfi.indirect.toNat < s.disk.blocks

/-- The bitmap has bits for an indirect block and for what it lists, if it can be read. -/
def IndirectFits (s : Check) (ientry : Nat) : Prop :=
  sector ientry < s.disk.blocks → s.InMap ientry ∧
    ∀ k < 128, (s.disk.sect (sector ientry)).word k ≠ 0 → s.InMap ((s.disk.sect (sector ientry)).word k)

/-- The bitmap has bits for the blocks of an inode. -/
structure InodeFits (s : Check) (sfi : SfsInode) : Prop where
  direct : ∀ k, sfi.direct k ≠ 0 → s.InMap (sfi.direct k).toNat
  indirect : sfi.indirect ≠ 0 → IndirectFits s sfi.indirect.toNat

/-- The same disk and the same bitmap, apart from the bits. -/
structure Check.Same (s t : Check) : Prop where
  disk : t.disk = s.disk
  bitblocks : t.bitblocks = s.bitblocks

/-- States are the same through an intermediate one. -/
lemma Check.Same.trans {u : Check} (h : s.Same t) (h' : t.Same u) : s.Same u :=
  ⟨h'.disk.trans h.disk, h'.bitblocks.trans h.bitblocks⟩

/-- Being the same is symmetric. -/
lemma Check.Same.symm (h : s.Same t) : t.Same s := ⟨h.disk.symm, h.bitblocks.symm⟩

/-- The same blocks have bits. -/
lemma Check.Same.inMap (h : s.Same t) {block : Nat} : t.InMap block ↔ s.InMap block := by
  rw [InMap, InMap, h.bitblocks]

/-- The same indirect blocks can be read. -/
lemma Check.Same.readable (h : s.Same t) : Readable t sfi ↔ Readable s sfi := by
  rw [Readable, Readable, h.disk]

/-- The same indirect blocks fit. -/
lemma Check.Same.indirectFits (h : s.Same t) {ientry : Nat} : IndirectFits t ientry ↔ IndirectFits s ientry := by
  rw [IndirectFits, IndirectFits, h.disk]
  simp only [h.inMap]

/-- The same inodes fit. -/
lemma Check.Same.inodeFits (h : s.Same t) (fits : InodeFits t sfi) : InodeFits s sfi :=
  ⟨fun k used => h.inMap.1 (fits.direct k used), fun used => h.indirectFits.1 (fits.indirect used)⟩

/-- Marking a block changes only bits. -/
lemma Check.same_mark (s : Check) (block : Nat) (how : Blockusage) : s.Same (s.mark block how) :=
  ⟨s.disk_mark block how, (s.steps_mark block how).bitblocks⟩

/-- A sector of the disk can be written. -/
lemma when_diskwrite (p : Prop) [Decidable p] (b : Block) {block : Nat} (onDisk : sector block < s.disk.blocks) :
    ∃ t, Prog.when p (diskwrite b block) s = .ok (.ok (), t) ∧ s.Steps t := by
  rw [Prog.when]
  split_ifs
  · refine ⟨s.write (sector block) b, ?_, s.steps_write _ _⟩
    rw [diskwrite, Prog.get_andThen, if_pos onDisk]
    rfl
  · exact ⟨s, rfl, .refl s⟩

/-- `setbadness` returns, with the same disk and bitmap. -/
lemma setbadness_run (code : Nat) (s : Check) : ∃ t, setbadness code s = .ok (.ok (), t) ∧ s.Same t := by
  refine ⟨_, rfl, ?_⟩
  dsimp only
  split_ifs
  · exact ⟨rfl, rfl⟩
  · exact ⟨rfl, rfl⟩

/-- A function that does not mark blocks. -/
lemma Calm.avoids {α : Type} {m : CheckM α} (h : Calm m) (s : Check) : Prog.Avoids .fault m s :=
  Prog.Within.avoids h (fun minor => minor.2 rfl) s

/-- A block without a bit is a fault. -/
lemma bitmapMark_of_not {block : Nat} (out : ¬ s.InMap block) : bitmapMark block how s = .error .fault := by
  rw [bitmapMark, Prog.get_andThen, Prog.andThen_of_halt (Prog.require_of_not (c := block < 4096 * s.bitblocks) out)]

/-- Without a fault, the block has a bit. -/
lemma inMap_of_avoids {block : Nat} (avoids : Prog.Avoids .fault (bitmapMark block how) s) : s.InMap block := by
  by_contra out
  exact avoids (bitmapMark_of_not out)

/-- Whatever comes after a block that is marked. -/
lemma avoids_mark_iff {α : Type} {block : Nat} {f : Unit → CheckM α} :
    Prog.Avoids .fault (bitmapMark block how >>= f) s ↔
      s.InMap block ∧ Prog.Avoids .fault (f ()) (s.mark block how) := by
  by_cases inside : s.InMap block
  · rw [Prog.avoids_of_run (bitmapMark_of_lt inside)]
    exact (and_iff_right inside).symm
  · refine iff_of_false ?_ fun both => inside both.1
    intro avoids
    exact inside (inMap_of_avoids (Prog.avoids_andThen_iff.1 avoids).1)

/-- The loop over the direct blocks marks a block that is there and goes on. -/
lemma checkDirect_cons (nblocks badcount : Nat) (how : Blockusage) {k : Fin 15} (blocks : List (Fin 15))
    (used : sfi.direct k ≠ 0) :
    ∃ how' badcount', checkDirect sfi nblocks how (k :: blocks) badcount =
      bitmapMark (sfi.direct k).toNat how' >>= fun _ => checkDirect sfi nblocks how blocks badcount' := by
  rw [checkDirect, if_neg used]
  split_ifs
  · exact ⟨how, badcount, rfl⟩
  · exact ⟨.tofree, badcount + 1, rfl⟩

/-- By induction on the direct blocks that are left. -/
lemma fits_of_checkDirect {nblocks badcount : Nat} {blocks : List (Fin 15)}
    (avoids : Prog.Avoids .fault (checkDirect sfi nblocks how blocks badcount) s) :
    ∀ k ∈ blocks, sfi.direct k ≠ 0 → s.InMap (sfi.direct k).toNat := by
  induction blocks generalizing s badcount with
  | nil => exact fun _ no => absurd no List.not_mem_nil
  | cons k blocks ih =>
    rw [List.forall_mem_cons]
    by_cases zero : sfi.direct k = 0
    · rw [checkDirect, if_pos zero] at avoids
      exact ⟨fun used => absurd zero used, ih avoids⟩
    · obtain ⟨how', badcount', step⟩ := checkDirect_cons nblocks badcount how blocks zero
      rw [step, avoids_mark_iff] at avoids
      have rest := ih avoids.2
      simp only [(s.same_mark _ _).inMap] at rest
      exact ⟨fun _ => avoids.1, rest⟩

/-- The loop ends if all the blocks have bits. -/
lemma checkDirect_of_fits (nblocks badcount : Nat) (how : Blockusage) {blocks : List (Fin 15)}
    (fits : ∀ k ∈ blocks, sfi.direct k ≠ 0 → s.InMap (sfi.direct k).toNat) :
    ∃ n t, checkDirect sfi nblocks how blocks badcount s = .ok (.ok n, t) ∧ s.Same t := by
  induction blocks generalizing s badcount with
  | nil => exact ⟨badcount, s, rfl, rfl, rfl⟩
  | cons k blocks ih =>
    obtain ⟨first, rest⟩ := List.forall_mem_cons.1 fits
    by_cases zero : sfi.direct k = 0
    · rw [checkDirect, if_pos zero]
      exact ih badcount rest
    · obtain ⟨how', badcount', step⟩ := checkDirect_cons nblocks badcount how blocks zero
      have marked := s.same_mark (sfi.direct k).toNat how'
      simp only [← marked.inMap] at rest
      obtain ⟨n, t, run, same⟩ := ih badcount' rest
      rw [step, Prog.andThen_of_run (bitmapMark_of_lt (first zero))]
      exact ⟨n, t, run, marked.trans same⟩

/-- The loop over the entries of an indirect block marks a block that is there and goes on. -/
lemma checkIndirectEntries_cons (nblocks block badcount : Nat) (how : Blockusage) {entry : Nat} (entries : List Nat)
    (used : entry ≠ 0) :
    ∃ badcount' entry', checkIndirectEntries nblocks how (entry :: entries) block badcount =
      bitmapMark entry how >>= fun _ => checkIndirectEntries nblocks how entries (block + 1) badcount' >>= fun r =>
        pure (entry' :: r.1, r.2) := by
  rw [checkIndirectEntries, if_neg used]
  split_ifs
  · exact ⟨badcount, entry, rfl⟩
  · exact ⟨badcount + 1, 0, rfl⟩

/-- By induction on the entries of the indirect block that are left. -/
lemma fits_of_checkIndirectEntries {nblocks block badcount : Nat} {entries : List Nat}
    (avoids : Prog.Avoids .fault (checkIndirectEntries nblocks how entries block badcount) s) :
    ∀ entry ∈ entries, entry ≠ 0 → s.InMap entry := by
  induction entries generalizing s block badcount with
  | nil => exact fun _ no => absurd no List.not_mem_nil
  | cons entry entries ih =>
    rw [List.forall_mem_cons]
    by_cases zero : entry = 0
    · rw [checkIndirectEntries, if_pos zero, Prog.avoids_andThen_iff] at avoids
      exact ⟨fun used => absurd zero used, ih avoids.1⟩
    · obtain ⟨badcount', entry', step⟩ := checkIndirectEntries_cons nblocks block badcount how entries zero
      rw [step, avoids_mark_iff, Prog.avoids_andThen_iff] at avoids
      have rest := ih avoids.2.1
      simp only [(s.same_mark _ _).inMap] at rest
      exact ⟨fun _ => avoids.1, rest⟩

/-- The loop ends if all the entries have bits. -/
lemma checkIndirectEntries_of_fits (nblocks block badcount : Nat) (how : Blockusage) {entries : List Nat}
    (fits : ∀ entry ∈ entries, entry ≠ 0 → s.InMap entry) :
    ∃ r t, checkIndirectEntries nblocks how entries block badcount s = .ok (.ok r, t) ∧ s.Same t := by
  induction entries generalizing s block badcount with
  | nil => exact ⟨_, s, rfl, rfl, rfl⟩
  | cons entry entries ih =>
    obtain ⟨first, rest⟩ := List.forall_mem_cons.1 fits
    by_cases zero : entry = 0
    · obtain ⟨r, t, run, same⟩ := ih (block + 1) badcount rest
      rw [checkIndirectEntries, if_pos zero, Prog.andThen_of_run run]
      exact ⟨_, t, rfl, same⟩
    · obtain ⟨badcount', entry', step⟩ := checkIndirectEntries_cons nblocks block badcount how entries zero
      have marked := s.same_mark entry how
      simp only [← marked.inMap] at rest
      obtain ⟨r, t, run, same⟩ := ih (block + 1) badcount' rest
      rw [step, Prog.andThen_of_run (bitmapMark_of_lt (first zero)), Prog.andThen_of_run run]
      exact ⟨_, t, rfl, marked.trans same⟩

/-- The entries of an indirect block that can be read. -/
lemma indirectEntries_of_fits {ientry : Nat} (used : ientry ≠ 0) (onDisk : sector ientry < s.disk.blocks)
    (inside : s.InMap ientry) : indirectEntries ientry s =
      .ok (.ok ((List.range 128).map (s.disk.sect (sector ientry)).word), s.mark ientry .iblock) := by
  rw [indirectEntries, if_pos used, Prog.andThen_of_run (diskread_of_lt onDisk),
    Prog.andThen_of_run (bitmapMark_of_lt inside)]
  rfl

/-- The entries of an indirect block are its words. -/
lemma forall_mem_words {b : Block} : (∀ entry ∈ (List.range 128).map b.word, entry ≠ 0 → s.InMap entry) ↔
    ∀ k < 128, b.word k ≠ 0 → s.InMap (b.word k) := by
  simp only [List.forall_mem_map, List.mem_range]

/-- Without a fault, an indirect block fits. -/
lemma fits_of_checkIndirectBlock {ientry nblocks badcount : Nat} (used : ientry ≠ 0)
    (avoids : Prog.Avoids .fault (checkIndirectBlock ientry nblocks badcount how) s) : IndirectFits s ientry := by
  intro onDisk
  rw [checkIndirectBlock, Prog.avoids_andThen_iff] at avoids
  obtain ⟨first, second⟩ := avoids
  have inside : s.InMap ientry := by
    rw [indirectEntries, if_pos used, Prog.avoids_of_run (diskread_of_lt onDisk), avoids_mark_iff] at first
    exact first.1
  refine ⟨inside, ?_⟩
  have rest := second _ _ (indirectEntries_of_fits used onDisk inside)
  have entries := fits_of_checkIndirectEntries (Prog.avoids_andThen_iff.1 rest).1
  simp only [(s.same_mark _ _).inMap] at entries
  exact forall_mem_words.1 entries

/-- An indirect block that can be read is checked to the end. -/
lemma checkIndirectBlock_of_fits {ientry : Nat} (nblocks badcount : Nat) (how : Blockusage) (used : ientry ≠ 0)
    (onDisk : sector ientry < s.disk.blocks) (fits : IndirectFits s ientry) :
    ∃ r t, checkIndirectBlock ientry nblocks badcount how s = .ok (.ok r, t) := by
  obtain ⟨inside, words⟩ := fits onDisk
  have marked := s.same_mark ientry .iblock
  have entries := forall_mem_words.2 words
  simp only [← marked.inMap] at entries
  obtain ⟨r, t, run, same⟩ := checkIndirectEntries_of_fits nblocks 15 badcount how entries
  have same := marked.trans same
  rw [checkIndirectBlock, Prog.andThen_of_run (indirectEntries_of_fits used onDisk inside), Prog.andThen_of_run run]
  dsimp only
  split_ifs
  · rw [Prog.andThen_of_run (bitmapMark_of_lt (same.inMap.2 inside))]
    exact ⟨_, _, rfl⟩
  · have onDisk : sector ientry < t.disk.blocks := by rwa [same.disk]
    obtain ⟨t', write, -⟩ := when_diskwrite (r.2 > 0) (Block.ofWords fun k => r.1.getD k 0) onDisk
    rw [Prog.require, if_pos used, Prog.pure_andThen, Prog.andThen_of_run write]
    exact ⟨_, _, rfl⟩

/-- There is no fault if it does. -/
lemma checkIndirectBlock_avoids {ientry : Nat} (nblocks badcount : Nat) (how : Blockusage)
    (fits : ientry ≠ 0 → IndirectFits s ientry) :
    Prog.Avoids .fault (checkIndirectBlock ientry nblocks badcount how) s := by
  by_cases zero : ientry = 0
  · rw [zero, checkIndirectBlock_zero]
    intro no
    cases no
  · by_cases onDisk : sector ientry < s.disk.blocks
    · obtain ⟨r, t, run⟩ := checkIndirectBlock_of_fits nblocks badcount how zero onDisk (fits zero)
      rw [Prog.Avoids, run]
      intro no
      cases no
    · have fails : indirectEntries ientry s = .ok (.error 1, s) := by
        rw [indirectEntries, if_pos zero]
        show Prog.andThen _ _ s = _
        rw [Prog.andThen, diskread_of_not_lt onDisk]
      rw [checkIndirectBlock]
      exact Prog.avoids_of_error fails

/-- A word that is not zero is not the number zero. -/
lemma toNat_ne_zero {x : UInt32} (ne : x ≠ 0) : x.toNat ≠ 0 := fun zero => ne (UInt32.toNat_inj.1 zero)

/-- The end of `check_inode_blocks` does not mark blocks. -/
lemma fits_of_checkInodeBlocks {isdir : Bool} (avoids : Prog.Avoids .fault (checkInodeBlocks sfi isdir) s) :
    InodeFits s sfi := by
  rw [checkInodeBlocks, Prog.avoids_andThen_iff] at avoids
  obtain ⟨first, second⟩ := avoids
  have direct := fits_of_checkDirect first
  obtain ⟨n, t, run, same⟩ := checkDirect_of_fits (roundup sfi.size.toNat 512 / 512) 0
    (if isdir then Blockusage.dirdata else .data) direct
  have rest := (Prog.avoids_andThen_iff.1 (second n t run)).1
  refine ⟨fun k => direct k (List.mem_finRange k), ?_⟩
  intro used
  exact same.indirectFits.1 (fits_of_checkIndirectBlock (toNat_ne_zero used) rest)

/-- The blocks of an inode are checked to the end if the indirect block can be read. -/
lemma checkInodeBlocks_of_fits (isdir : Bool) (fits : InodeFits s sfi) (readable : Readable s sfi) :
    ∃ r t, checkInodeBlocks sfi isdir s = .ok (.ok r, t) := by
  have direct : ∀ k ∈ List.finRange 15, sfi.direct k ≠ 0 → s.InMap (sfi.direct k).toNat := fun k _ => fits.direct k
  obtain ⟨n, t, run, same⟩ := checkDirect_of_fits (roundup sfi.size.toNat 512 / 512) 0
    (if isdir then Blockusage.dirdata else .data) direct
  have indirect : ∃ r u, checkIndirectBlock sfi.indirect.toNat (roundup sfi.size.toNat 512 / 512) n
      (if isdir then Blockusage.dirdata else .data) t = .ok (.ok r, u) := by
    by_cases zero : sfi.indirect = 0
    · have none : sfi.indirect.toNat = 0 := by
        rw [zero]
        rfl
      rw [none, checkIndirectBlock_zero]
      exact ⟨_, _, rfl⟩
    · refine checkIndirectBlock_of_fits _ _ _ (toNat_ne_zero zero) ?_ (same.indirectFits.2 (fits.indirect zero))
      rw [same.disk]
      exact readable zero
  obtain ⟨r, u, run'⟩ := indirect
  rw [checkInodeBlocks, Prog.andThen_of_run run, Prog.andThen_of_run run']
  dsimp only
  split_ifs
  · exact ⟨_, _, rfl⟩
  · exact ⟨_, _, rfl⟩

/-- Where `check_inode_blocks` returns, the indirect block has been read. -/
lemma readable_of_checkInodeBlocks {isdir : Bool} {r : SfsInode × Bool}
    (run : checkInodeBlocks sfi isdir s = .ok (.ok r, s')) : Readable s sfi := by
  intro used
  obtain ⟨n, t, first, run⟩ := Prog.ok_of_andThen run
  obtain ⟨_, _, second, -⟩ := Prog.ok_of_andThen run
  obtain ⟨_, _, read, -⟩ := Prog.ok_of_andThen second
  rw [indirectEntries, if_pos (toNat_ne_zero used)] at read
  obtain ⟨b, _, read, -⟩ := Prog.ok_of_andThen read
  by_contra out
  have out : ¬ sector sfi.indirect.toNat < t.disk.blocks := by
    rwa [((tame_checkDirect _ _ _ _ _).keeps.of_ok first).blocks]
  rw [diskread_of_not_lt out] at read
  cases read

/-- There is no fault for an inode that fits. -/
lemma checkInodeBlocks_avoids (isdir : Bool) (fits : InodeFits s sfi) :
    Prog.Avoids .fault (checkInodeBlocks sfi isdir) s := by
  have direct : ∀ k ∈ List.finRange 15, sfi.direct k ≠ 0 → s.InMap (sfi.direct k).toNat := fun k _ => fits.direct k
  obtain ⟨n, t, run, same⟩ := checkDirect_of_fits (roundup sfi.size.toNat 512 / 512) 0
    (if isdir then Blockusage.dirdata else .data) direct
  rw [checkInodeBlocks, Prog.avoids_of_run run, Prog.avoids_andThen_iff]
  refine ⟨checkIndirectBlock_avoids _ _ _ ?_, ?_⟩
  · intro used
    have used : sfi.indirect ≠ 0 := by
      rintro zero
      rw [zero] at used
      exact used rfl
    exact same.indirectFits.2 (fits.indirect used)
  · intro r u _
    dsimp only
    split_ifs
    · intro no
      cases no
    · intro no
      cases no

/-- The size is all that changes in the inode of a directory. -/
lemma checkDirSize_run (sfi : SfsInode) (s : Check) : ∃ size changed t,
    checkDirSize sfi s = .ok (.ok ({ sfi with size := size }, changed), t) ∧ s.Same t := by
  rw [checkDirSize]
  split_ifs
  · obtain ⟨t, run, same⟩ := setbadness_run exitRecov s
    rw [Prog.andThen_of_run run]
    exact ⟨_, true, t, rfl, same⟩
  · exact ⟨sfi.size, false, s, rfl, rfl, rfl⟩

/-- The inode at a number. -/
def Check.inodeAt (s : Check) (ino : Nat) : SfsInode := SfsInode.ofBlock (s.disk.sect (sector ino))

/-- The bitmap has bits for a directory that can be read and for its blocks. -/
def DirFits (s : Check) (ino : Nat) : Prop :=
  sector ino < s.disk.blocks → s.InMap ino ∧ InodeFits s (s.inodeAt ino)

/-- No block is marked for the names of a directory. -/
lemma openDir_avoids_iff (none : s.ninodes = 0) : Prog.Avoids .fault (openDir ino parentino) s ↔ DirFits s ino := by
  by_cases onDisk : sector ino < s.disk.blocks
  · have told := rememberDir_of_zero none ino
    have same : s.Same { s with inodes := Function.update s.inodes s.ninodes ⟨ino, 0⟩ } := ⟨rfl, rfl⟩
    rw [openDir, Prog.avoids_of_run (diskread_of_lt onDisk), Prog.avoids_of_run told, if_neg Bool.false_ne_true,
      avoids_mark_iff, same.inMap]
    have same := same.trans (Check.same_mark _ ino .inode)
    obtain ⟨size, changed, t, sized, same'⟩ := checkDirSize_run (s.inodeAt ino) (Check.mark _ ino .inode)
    have same := same.trans same'
    show _ ∧ Prog.Avoids .fault (checkDirSize (s.inodeAt ino) >>= _) _ ↔ _
    rw [Prog.avoids_of_run sized]
    rw [DirFits, forall_prop_of_true onDisk]
    refine and_congr_right fun _ => ?_
    rw [Prog.avoids_andThen_iff]
    constructor
    · rintro ⟨blocks, -⟩
      have fits := same.inodeFits (fits_of_checkInodeBlocks blocks)
      exact ⟨fits.direct, fits.indirect⟩
    · intro fits
      have fits' := same.symm.inodeFits fits
      refine ⟨checkInodeBlocks_avoids true ⟨fits'.direct, fits'.indirect⟩, ?_⟩
      intro r u _
      refine Calm.avoids ?_ u
      exact .bind (notes_readEntries _ _ _).calm fun _ => .bind (notes_checkNames _ _ _ _).calm fun _ => .pure _
  · refine iff_of_true ?_ fun no => absurd no onDisk
    exact Prog.avoids_of_error (diskread_of_not_lt onDisk)

/-- An entry that leads to a file. -/
structure Fileentry (s : Check) (sfd : SfsDir) : Prop where
  named : ¬ (strcmp sfd.name dot = 0 ∨ strcmp sfd.name dotdot = 0 ∨ sfd.ino = 0)
  onDisk : sector sfd.ino < s.disk.blocks
  type : (s.inodeAt sfd.ino).type = typeFile

/-- The bitmap has bits for the blocks of a file, and for its inode if nothing ends the program before that. -/
def FileFits (s : Check) (ino : Nat) : Prop :=
  InodeFits s (s.inodeAt ino) ∧ (Readable s (s.inodeAt ino) → s.InMap ino)

/-- A file that is counted for the first time needs a bit for its inode. -/
lemma observeFilelink_avoids_iff (none : s.ninodes = 0) :
    Prog.Avoids .fault (observeFilelink ino) s ↔ s.InMap ino := by
  have empty : s.findInode ino = Option.none := by
    rw [Check.findInode, none]
    rfl
  rw [observeFilelink, Prog.avoids_of_run (show Prog.get s = .ok (.ok s, s) from rfl), empty]
  dsimp only
  rw [avoids_mark_iff]
  exact and_iff_left ((notes_addmemory ino 1).calm.avoids _)

/-- The rest of what is done for a file marks the inode. -/
lemma observe_avoids_iff {r : SfsInode × Bool} {b : Block} (none : s.ninodes = 0)
    (onDisk : sector sfd.ino < s.disk.blocks) (steps : s.Steps t) : Prog.Avoids Stop.fault (do
      Prog.when r.2 (diskwrite (withInode b r.1) sfd.ino)
      observeFilelink sfd.ino
      pure (sfd, false, 0)) t ↔ s.InMap sfd.ino := by
  have onDisk : sector sfd.ino < t.disk.blocks := by rwa [steps.blocks]
  obtain ⟨u, run, more⟩ := when_diskwrite (r.2 = true) (withInode b r.1) onDisk
  have steps := steps.trans more
  rw [Prog.avoids_of_run run, Prog.avoids_andThen_iff, observeFilelink_avoids_iff (steps.ninodes.trans none),
    Check.InMap, Check.InMap, steps.bitblocks]
  refine and_iff_left ?_
  intro _ _ _ no
  cases no

/-- Following an entry for a file needs bits for the file. -/
lemma followEntry_file_iff (none : s.ninodes = 0) (h : Fileentry s sfd) :
    Prog.Avoids .fault (followEntry check ino sfd) s ↔ FileFits s sfd.ino := by
  rw [followEntry, if_neg h.named, Prog.avoids_of_run (diskread_of_lt h.onDisk)]
  show Prog.Avoids Stop.fault (if (s.inodeAt sfd.ino).type = typeFile then _ else _) s ↔ _
  rw [if_pos h.type, Prog.avoids_andThen_iff]
  have steps {r : SfsInode × Bool} {t : Check} (run : checkInodeBlocks (s.inodeAt sfd.ino) false s = .ok (.ok r, t)) :
      s.Steps t := (tame_checkInodeBlocks _ _).keeps.of_ok run
  constructor
  · rintro ⟨blocks, rest⟩
    have fits := fits_of_checkInodeBlocks blocks
    refine ⟨fits, ?_⟩
    intro readable
    obtain ⟨r, t, run⟩ := checkInodeBlocks_of_fits false fits readable
    exact (observe_avoids_iff none h.onDisk (steps run)).1 (rest r t run)
  · rintro ⟨fits, inside⟩
    refine ⟨checkInodeBlocks_avoids false fits, ?_⟩
    intro r t run
    exact (observe_avoids_iff none h.onDisk (steps run)).2 (inside (readable_of_checkInodeBlocks run))

/-- The blocks that are marked before the walk have bits in the bitmap. -/
lemma checkVolume_avoids (sp : Block) (pos : 0 < s.bitblocks) : Prog.Avoids .fault (checkVolume sp) s := by
  have past : ∀ b ∈ List.range' s.nblocks (4096 * s.bitblocks - s.nblocks), b < 4096 * s.bitblocks := by
    intro b mem
    have := List.mem_range'_1.1 mem
    omega
  obtain ⟨t, run, -, steps⟩ := markAll_of_lt .pastend past
  rw [checkVolume, Prog.avoids_of_run (show Prog.get s = .ok (.ok s, s) from rfl), Prog.avoids_of_run run,
    Prog.avoids_andThen_iff]
  refine ⟨(calm_checkVolname sp).avoids t, ?_⟩
  intro _ u named
  have steps := steps.trans ((calm_checkVolname sp).keeps.of_ok named)
  have same := u.same_mark 0 .superblock
  have first : u.InMap 0 := by
    rw [Check.InMap, steps.bitblocks]
    omega
  have map : ∀ b ∈ List.range' 2 s.bitblocks, b < 4096 * (u.mark 0 .superblock).bitblocks := by
    intro b mem
    have := List.mem_range'_1.1 mem
    rw [same.bitblocks, steps.bitblocks]
    omega
  obtain ⟨v, marked, -⟩ := markAll_of_lt .bitblock map
  refine avoids_mark_iff.2 ⟨first, ?_⟩
  rw [Prog.Avoids, marked]
  intro no
  cases no

/-- The superblock and the bitmap itself are always in the bitmap. -/
lemma checkSb_avoids (s : Check) : Prog.Avoids .fault checkSb s := by
  rw [checkSb, Prog.avoids_andThen_iff]
  refine ⟨(notes_diskread 0).calm.avoids s, ?_⟩
  intro sp t _
  split_ifs
  · intro no
    cases no
  · rw [Prog.avoids_andThen_iff]
    refine ⟨(notes_assert _).calm.avoids t, ?_⟩
    intro _ u _
    rw [Prog.avoids_andThen_iff]
    refine ⟨(notes_assert _).calm.avoids u, ?_⟩
    intro _ v pos
    rw [Prog.avoids_of_run rfl]
    exact checkVolume_avoids sp (Prog.of_require pos)

/-- The walk comes to an entry of a directory, once the entries before it have been followed: the directories whose
calls are under way, the entry and the state. -/
inductive Follows (disk : Lhd) : List Nat → SfsDir → Check → Prop where
  | intro {stack ino parentino s dir s₁ pre sfd post fuel r s₂} (up : Entered disk stack ino parentino s)
      (opened : openDir ino parentino s = .ok (.ok (some dir), s₁))
      (entries : dir.direntries.take dir.ndirentries = pre ++ sfd :: post)
      (before : followEntries (checkDir fuel) ino pre s₁ = .ok (.ok r, s₂)) : Follows disk (ino :: stack) sfd s₂

/-- The bitmap has bits for the directories that the walk goes into and for the files that it comes to, with their
blocks. -/
structure NumbersFit (disk : Lhd) : Prop where
  dirs : ∀ stack ino parentino s, Entered disk stack ino parentino s → DirFits s ino
  files : ∀ stack sfd s, Follows disk stack sfd s → Fileentry s sfd → FileFits s sfd.ino

/-- No call of `bitmap_mark` is past the end of the bitmap. -/
def InBounds (disk : Lhd) : Prop := ∀ fuel, runSfsck fuel disk ≠ .error .fault

variable {disk : Lhd} {stack : List Nat}

/-- The array of inodes is empty throughout. -/
lemma Follows.ninodes (h : Follows disk stack sfd s) : s.ninodes = 0 := by
  obtain ⟨up, opened, entries, before⟩ := h
  have steps := (up.steps.trans ((tame_openDir _ _).keeps.of_ok opened)).trans
    ((gentle_followEntries (gentle_checkDir _) _ _).keeps.of_ok before)
  exact steps.ninodes

/-- An entry leads nowhere, to a file or to a subdirectory. -/
lemma followEntry_avoids (none : s.ninodes = 0) (file : Fileentry s sfd → FileFits s sfd.ino)
    (sub : Subdir s sfd → Prog.Avoids .fault (check sfd.ino ino) s) :
    Prog.Avoids .fault (followEntry check ino sfd) s := by
  by_cases isFile : Fileentry s sfd
  · exact (followEntry_file_iff none isFile).2 (file isFile)
  · rw [followEntry]
    split_ifs with skip
    · intro no
      cases no
    · by_cases onDisk : sector sfd.ino < s.disk.blocks
      · rw [Prog.avoids_of_run (diskread_of_lt onDisk)]
        dsimp only
        split_ifs with file dir
        · exact absurd ⟨skip, onDisk, file⟩ isFile
        · rw [Prog.avoids_andThen_iff]
          refine ⟨sub ⟨skip, onDisk, dir⟩, ?_⟩
          intro crosslinked t _
          refine Calm.avoids ?_ t
          exact .ite (fun _ => .bind (notes_setbadness _).calm fun _ => .pure _) fun _ => .pure _
        · refine Calm.avoids ?_ s
          exact .bind (notes_setbadness _).calm fun _ => .pure _
      · exact Prog.avoids_of_error (diskread_of_not_lt onDisk)

/-- Without a fault for an entry there is none in the call for the subdirectory. -/
lemma check_avoids_of_followEntry (sub : Subdir s sfd) (avoids : Prog.Avoids .fault (followEntry check ino sfd) s) :
    Prog.Avoids .fault (check sfd.ino ino) s := by
  have file : (SfsInode.ofBlock (s.disk.sect (sector sfd.ino))).type ≠ typeFile := by
    rw [sub.type]
    decide
  rw [followEntry, if_neg sub.named, Prog.avoids_of_run (diskread_of_lt sub.onDisk)] at avoids
  dsimp only at avoids
  rw [if_neg file, if_pos sub.type] at avoids
  exact (Prog.avoids_andThen_iff.1 avoids).1

/-- The entries before one have been followed. -/
lemma followEntry_of_followEntries {pre post : List SfsDir} {r : List SfsDir × Bool × Nat}
    (avoids : Prog.Avoids .fault (followEntries check ino (pre ++ sfd :: post)) s)
    (before : followEntries check ino pre s = .ok (.ok r, t)) : Prog.Avoids .fault (followEntry check ino sfd) t := by
  induction pre generalizing s r with
  | nil =>
    cases before
    exact (Prog.avoids_andThen_iff.1 avoids).1
  | cons e pre ih =>
    obtain ⟨a, u, first, before⟩ := Prog.ok_of_andThen before
    obtain ⟨b, v, before, done⟩ := Prog.ok_of_andThen before
    cases done
    have rest := (Prog.avoids_of_run first).1 avoids
    exact ih (Prog.avoids_andThen_iff.1 rest).1 before

/-- A call that is made in a run that stays in the bitmap stays in it. -/
lemma Entered.avoids (bounds : InBounds disk) (h : Entered disk stack ino parentino s) (n : Nat) :
    Prog.Avoids .fault (checkDir n ino parentino) s := by
  induction h generalizing n with
  | @root s run =>
    intro halt
    exact bounds n ((runSfsck_halt_iff (fun minor => minor.2 rfl) (checkSb_avoids _)).2 ⟨s, run, halt⟩)
  | @sub stack ino parentino s dir s₁ pre sfd post fuel r s₂ up opened entries before subdir ih =>
    have all := ih (max fuel n + 1)
    rw [checkDir, checkDirWith, Prog.avoids_of_run opened] at all
    dsimp only at all
    rw [entries] at all
    have before := (followEntries_extends (fun i p => checkDir_extends (le_max_left fuel n) i p) ino pre).of_ok before
    have last := check_avoids_of_followEntry subdir
      (followEntry_of_followEntries (Prog.avoids_andThen_iff.1 all).1 before)
    intro halt
    have shallow : checkDir n sfd.ino ino s₂ ≠ .error .depth := by
      rw [halt]
      intro no
      cases no
    exact last ((checkDir_extends (le_max_right fuel n) sfd.ino ino s₂ shallow).trans halt)

/-- The entries of a directory are followed, each once those before it have been. -/
lemma followEntries_avoids {dir : Dir} {s₁ : Check} {all : List SfsDir} {n : Nat} (fit : NumbersFit disk)
    (up : Entered disk stack ino parentino s) (opened : openDir ino parentino s = .ok (.ok (some dir), s₁))
    (entries : dir.direntries.take dir.ndirentries = all)
    (deeper : ∀ {i t}, Entered disk (ino :: stack) i ino t → Prog.Avoids .fault (checkDir n i ino) t)
    (post : List SfsDir) {pre : List SfsDir} (split : all = pre ++ post) {r : List SfsDir × Bool × Nat}
    (before : followEntries (checkDir n) ino pre s₁ = .ok (.ok r, t)) :
    Prog.Avoids .fault (followEntries (checkDir n) ino post) t := by
  induction post generalizing pre r t with
  | nil =>
    intro no
    cases no
  | cons sfd post ih =>
    have follows : Follows disk (ino :: stack) sfd t := .intro up opened (entries.trans split) before
    rw [followEntries, Prog.avoids_andThen_iff]
    refine ⟨?_, ?_⟩
    · refine followEntry_avoids follows.ninodes (fit.files _ sfd t follows) ?_
      intro sub
      exact deeper (.sub up opened (entries.trans split) before sub)
    · intro a u last
      obtain ⟨r', before'⟩ := followEntries_snoc before last
      have split' : all = (pre ++ [sfd]) ++ post := split.trans (List.append_cons pre sfd post)
      rw [Prog.avoids_andThen_iff]
      refine ⟨ih split' before', ?_⟩
      intro _ _ _ no
      cases no

/-- By induction on the bound of the depth. -/
lemma Entered.avoids_of_fit (fit : NumbersFit disk) (n : Nat) (h : Entered disk stack ino parentino s) :
    Prog.Avoids .fault (checkDir n ino parentino) s := by
  induction n generalizing stack ino parentino s with
  | zero =>
    intro no
    cases no
  | succ n ih =>
    rw [checkDir, checkDirWith, Prog.avoids_andThen_iff]
    refine ⟨(openDir_avoids_iff h.steps.ninodes).2 (fit.dirs _ _ _ _ h), ?_⟩
    intro dir s₁ opened
    cases dir with
    | none =>
      intro no
      cases no
    | some dir =>
      dsimp only
      rw [Prog.avoids_andThen_iff]
      refine ⟨followEntries_avoids fit h opened rfl (fun sub => ih sub) _ rfl
        (show followEntries (checkDir n) ino [] s₁ = .ok (.ok ([], false, 0), s₁) from rfl), ?_⟩
      intro r t _
      refine Calm.avoids ?_ t
      exact .bind (calm_closeDir _ _ _) fun _ => .pure _

/-- The checker stays in the bitmap on the disks on which the numbers that the walk comes to are those of blocks of the
bitmap. -/
theorem sfsck_in_bounds_iff (disk : Lhd) : InBounds disk ↔ NumbersFit disk := by
  constructor
  · intro bounds
    refine ⟨?_, ?_⟩
    · intro stack ino parentino s h
      have avoids := h.avoids bounds 1
      rw [checkDir, checkDirWith, Prog.avoids_andThen_iff] at avoids
      exact (openDir_avoids_iff h.steps.ninodes).1 avoids.1
    · intro stack sfd s h file
      have none := h.ninodes
      cases h with
      | @intro stack ino parentino s₀ dir s₁ pre sfd post fuel r s up opened entries before =>
        have all := up.avoids bounds (fuel + 1)
        rw [checkDir, checkDirWith, Prog.avoids_of_run opened] at all
        dsimp only at all
        rw [entries] at all
        exact (followEntry_file_iff none file).1
          (followEntry_of_followEntries (Prog.avoids_andThen_iff.1 all).1 before)
  · intro fit fuel halt
    obtain ⟨s, run, halt⟩ := (runSfsck_halt_iff (fun minor => minor.2 rfl) (checkSb_avoids _)).1 halt
    exact (Entered.root run).avoids_of_fit fit fuel halt

/-- The bitmap has bits for an inode with one block of the volume. -/
lemma Walking.inodeFits (h : Walking disk s) {size : UInt32} {type links : UInt16} {block : UInt32}
    (inside : block.toNat < 8) : InodeFits s (oneBlock size type links block) := by
  refine ⟨?_, fun used => absurd rfl used⟩
  intro k used
  rw [Check.InMap, h.bitblocks]
  have first : (oneBlock size type links block).direct k = block := by
    by_contra other
    exact used (if_neg fun zero => other (if_pos zero))
  rw [first]
  omega

/-- The inodes on the disk are those at the start. -/
lemma Walking.inodeAt (h : Walking disk s) (lt : ino < 8) {sfi : SfsInode} (inode : disk.sect ino = sfi.toBlock) :
    s.inodeAt ino = sfi := by
  rw [Check.inodeAt, sector_of_lt (by omega), h.disk, inode, SfsInode.ofBlock_toBlock]

/-- The subdirectory and the file of the volume, and their blocks, have bits. -/
theorem sfsck_in_bounds_tree : NumbersFit treeDisk ∧ InBounds treeDisk := by
  have fit : NumbersFit treeDisk := by
    refine ⟨?_, ?_⟩
    · intro stack ino parentino s h _
      obtain ⟨⟨links, block, d, call⟩, walking⟩ := h.tree
      have dir := call.directory
      rw [Check.InMap, walking.bitblocks, walking.inodeAt dir.onDisk dir.inode]
      exact ⟨dir.onDisk.trans (by decide), walking.inodeFits dir.inside⟩
    · rintro stack sfd s ⟨up, opened, entries, before⟩ file
      obtain ⟨⟨links, block, d, call⟩, walking⟩ := up.tree
      obtain ⟨mem, after⟩ := call.comes walking opened entries before
      obtain dots | ⟨rfl, rfl | rfl⟩ := call.known mem
      · exact absurd (dots.imp_right Or.inl) file.named
      · have type := file.type
        rw [after.inodeAt (show (entry 4 [100]).ino < 8 by decide) TreeCall.sub.directory.inode] at type
        exact absurd type (by decide)
      · rw [FileFits, after.inodeAt (show (entry 5 [102]).ino < 8 by decide)
          (show treeDisk.sect 5 = (oneBlock 100 typeFile 1 7).toBlock from rfl)]
        refine ⟨after.inodeFits (by decide), fun _ => ?_⟩
        rw [Check.InMap, after.bitblocks]
        decide
  exact ⟨fit, (sfsck_in_bounds_iff treeDisk).2 fit⟩

/-- The root directory has a block past the end of the volume, and past the end of the directory. -/
def wildInode : SfsInode := oneBlock 0 typeDir 2 5000

/-- The volume with that root directory. -/
def wildDisk : Lhd := smallVolume 4 wildInode fun _ => Block.zeros

/-- The number of a block past the end of the bitmap is marked all the same. -/
theorem sfsck_out_of_bounds : (wildDisk.sect 0).word 0 = sfsMagic ∧ runSfsck 1 wildDisk = .error .fault ∧
    ¬ InBounds wildDisk := by
  have magic : (wildDisk.sect 0).word 0 = sfsMagic := by
    show smallSuper.word 0 = sfsMagic
    decide +kernel
  obtain ⟨s, start, disk, bitblocks, ninodes⟩ : ∃ s, startWalk (Check.start wildDisk) = .ok (.ok (), s) ∧
      s.disk = wildDisk ∧ s.bitblocks = 1 ∧ s.ninodes = 0 := startWalk_small _ _ rfl
  have inode : s.inodeAt 1 = wildInode := by
    rw [Check.inodeAt, disk]
    exact SfsInode.ofBlock_toBlock _
  have halt : checkDir 1 1 1 s = .error .fault := by
    by_contra no
    have avoids : Prog.Avoids .fault (checkDir 1 1 1) s := no
    rw [checkDir, checkDirWith, Prog.avoids_andThen_iff, openDir_avoids_iff ninodes] at avoids
    have onDisk : sector 1 < s.disk.blocks := by
      rw [disk, sector_of_lt (by decide)]
      exact Nat.succ_lt_succ (Nat.succ_pos 6)
    have fits := (avoids.1 onDisk).2
    rw [inode] at fits
    have inside := fits.direct 0 (by decide)
    rw [Check.InMap, bitblocks] at inside
    exact absurd inside (by decide)
  have run : runSfsck 1 wildDisk = .error .fault :=
    (runSfsck_halt_iff (fun minor => minor.2 rfl) (checkSb_avoids _)).2 ⟨s, start, halt⟩
  exact ⟨magic, run, fun bounds => bounds 1 run⟩

end PDS.Sfsck
