import PDS.Sfsck.Check

/-!
# What the checker leaves alone

The functions of the checker do not change the geometry of the volume once `check_sb` has read it, never clear a bit
of `bitmapdata` and never take badness back; a run that writes nothing leaves the disk as it is. They do not count the
inodes they put into the array either: `ninodes` stays what it is. Apart from the calls of `check_dir` they do not stop
for the depth of these calls.
-/

namespace PDS.Sfsck
open Sfs Word

/-- What every function of the checker leaves alone. -/
structure Check.Steps (s s' : Check) : Prop where
  nblocks : s'.nblocks = s.nblocks
  bitblocks : s'.bitblocks = s.bitblocks
  ninodes : s'.ninodes = s.ninodes
  maxinodes : s'.maxinodes = s.maxinodes
  blocks : s'.disk.blocks = s.disk.blocks
  badness : s.badness ≤ s'.badness
  counter : s.uniquecounter < 2 ^ 32 → s'.uniquecounter < 2 ^ 32
  bits : ∀ b, s.bitmapdata b = true → s'.bitmapdata b = true
  writes : s.writes <:+ s'.writes
  disk : s'.writes = s.writes → s'.disk = s.disk

/-- What the functions leave alone that only take note of something. -/
structure Check.Notes (s s' : Check) : Prop where
  same : s' = { s with badness := s'.badness, uniquecounter := s'.uniquecounter, inodes := s'.inodes }
  badness : s.badness ≤ s'.badness
  counter : s.uniquecounter < 2 ^ 32 → s'.uniquecounter < 2 ^ 32

namespace Check

variable {s t u : Check}

/-- Nothing changes when nothing is done. -/
lemma Steps.refl (s : Check) : s.Steps s :=
  ⟨rfl, rfl, rfl, rfl, rfl, le_rfl, id, fun _ h => h, List.suffix_refl _, fun _ => rfl⟩

/-- If nothing has been written in the end, nothing has been in between. -/
lemma Steps.silent (h : s.Steps t) (h' : t.Steps u) (none : u.writes = s.writes) : t.writes = s.writes :=
  (none ▸ h'.writes).eq_of_length_le h.writes.length_le

/-- What two steps leave alone both of them leave alone. -/
lemma Steps.trans (h : s.Steps t) (h' : t.Steps u) : s.Steps u where
  nblocks := h'.nblocks.trans h.nblocks
  bitblocks := h'.bitblocks.trans h.bitblocks
  ninodes := h'.ninodes.trans h.ninodes
  maxinodes := h'.maxinodes.trans h.maxinodes
  blocks := h'.blocks.trans h.blocks
  badness := h.badness.trans h'.badness
  counter lt := h'.counter (h.counter lt)
  bits b set := h'.bits b (h.bits b set)
  writes := h.writes.trans h'.writes
  disk none := by
    have first := h.silent h' none
    rw [h'.disk (none.trans first.symm), h.disk first]

instance : Std.Refl Steps := ⟨Steps.refl⟩

instance : IsTrans Check Steps := ⟨fun _ _ _ => Steps.trans⟩

/-- Taking note leaves the disk alone. -/
lemma Notes.disk (h : s.Notes t) : t.disk = s.disk := by rw [h.same]

/-- Taking note marks no block. -/
lemma Notes.bits (h : s.Notes t) : t.bitmapdata = s.bitmapdata := by rw [h.same]

/-- Taking note is a step. -/
lemma Notes.steps (h : s.Notes t) : s.Steps t := by
  rw [h.same]
  exact ⟨rfl, rfl, rfl, rfl, rfl, h.badness, h.counter, fun _ set => set, List.suffix_refl _, fun _ => rfl⟩

instance : Std.Refl Notes := ⟨fun _ => ⟨rfl, le_rfl, id⟩⟩

instance : IsTrans Check Notes where
  trans s t u h h' := by
    refine ⟨?_, h.badness.trans h'.badness, fun lt => h'.counter (h.counter lt)⟩
    rw [h'.same, h.same]

end Check

/-- Neither the depth of the calls nor an access past the end of the bitmap. -/
def Stop.Minor (h : Stop) : Prop := h ≠ .depth ∧ h ≠ .fault

/-- A failed assertion is a minor stop. -/
lemma minor_assertion (message : String) : Stop.Minor (.assertion message) := by
  refine ⟨?_, ?_⟩
  · intro no
    cases no
  · intro no
    cases no

/-- An overrun is a minor stop. -/
lemma minor_overrun : Stop.Minor .overrun := ⟨by decide, by decide⟩

/-- A function that changes the state as `Check.Steps` says, and does not stop for the depth of the calls. -/
abbrev Tame {α : Type} (m : CheckM α) : Prop := Prog.Within Check.Steps (· ≠ .depth) m

/-- A function that changes the state as `Check.Steps` says, and does not mark blocks. -/
abbrev Calm {α : Type} (m : CheckM α) : Prop := Prog.Within Check.Steps Stop.Minor m

/-- A function that only takes note of something. -/
abbrev Noting {α : Type} (m : CheckM α) : Prop := Prog.Within Check.Notes Stop.Minor m

/-- A function that changes the state as `Check.Steps` says, whatever it stops for. -/
abbrev Gentle {α : Type} (m : CheckM α) : Prop := Prog.Within Check.Steps (fun _ => True) m

/-- A function that does not mark blocks does not stop for the depth. -/
lemma Calm.tame {α : Type} {m : CheckM α} (h : Calm m) : Tame m := h.mono (fun _ _ => id) fun _ minor => minor.1

/-- A function that only takes note does not mark blocks. -/
lemma Noting.calm {α : Type} {m : CheckM α} (h : Noting m) : Calm m :=
  h.mono (fun _ _ => Check.Notes.steps) fun _ minor => minor

/-- A function that only takes note does not stop for the depth. -/
lemma Noting.tame {α : Type} {m : CheckM α} (h : Noting m) : Tame m := h.calm.tame

/-- A function that does not stop for the depth changes the state as allowed. -/
lemma Tame.gentle {α : Type} {m : CheckM α} (h : Tame m) : Gentle m := h.mono (fun _ _ => id) fun _ _ => trivial

/-- A position of `32` bits is that of the block, if it fits. -/
lemma sector_of_lt {block : Nat} (h : block < 2 ^ 23) : sector block = block := by
  rw [sector, wmul_of_lt (by omega), Nat.mul_div_cancel _ (by decide)]

/-- A sector of the disk is read. -/
lemma diskread_of_lt {s : Check} {block : Nat} (h : sector block < s.disk.blocks) :
    diskread block s = .ok (.ok (s.disk.sect (sector block)), s) := by
  rw [diskread, Prog.get_andThen, if_pos h]
  rfl

/-- A sector that the disk does not have ends the program. -/
lemma diskread_of_not_lt {s : Check} {block : Nat} (h : ¬ sector block < s.disk.blocks) :
    diskread block s = .ok (.error 1, s) := by
  rw [diskread, Prog.get_andThen, if_neg h]
  rfl

/-- Frame of `assert`. -/
lemma notes_assert {c : Prop} [Decidable c] (message : String) :
    Noting (Prog.require c (.assertion message) : CheckM Unit) :=
  .require (minor_assertion _)

/-- Frame of `setbadness`. -/
lemma notes_setbadness (code : Nat) : Noting (setbadness code) := by
  apply Prog.Within.modify
  intro s
  split_ifs with h
  · exact ⟨rfl, h.le, id⟩
  · exact refl_of Check.Notes s

/-- Frame of `diskread`. -/
lemma notes_diskread (block : Nat) : Noting (diskread block) :=
  .bind .get fun _ => .ite (fun _ => .pure _) (fun _ => .fail _)

/-- Writing a sector is a step. -/
lemma Check.steps_write (s : Check) (n : Nat) (b : Block) : s.Steps (s.write n b) :=
  ⟨rfl, rfl, rfl, rfl, rfl, le_rfl, id, fun _ h => h, List.suffix_cons _ _, fun e => absurd e (List.cons_ne_self _ _)⟩

/-- Frame of `diskwrite`. -/
lemma calm_diskwrite (b : Block) (block : Nat) : Calm (diskwrite b block) :=
  .bind .get fun _ => .ite (fun _ => .modify fun s => s.steps_write _ _) (fun _ => .fail _)

/-- Marking a block is a step. -/
lemma Check.steps_mark (s : Check) (block : Nat) (how : Blockusage) : s.Steps (s.mark block how) := by
  have used : s.Steps { s with
      tofreedata := Function.update s.tofreedata block false
      badness := if s.bitmapdata block then max s.badness exitUnrecov else s.badness
      bitmapdata := Function.update s.bitmapdata block true } := by
    refine ⟨rfl, rfl, rfl, rfl, rfl, ?_, id, ?_, List.suffix_refl _, fun _ => rfl⟩
    · dsimp only
      split_ifs
      · exact le_max_left _ _
      · exact le_rfl
    · intro b set
      dsimp only
      by_cases e : b = block
      · rw [e, Function.update_self]
      · rwa [Function.update_of_ne e]
  cases how with
  | tofree =>
    rw [Check.mark]
    split_ifs
    · exact Check.Steps.refl s
    · exact ⟨rfl, rfl, rfl, rfl, rfl, le_rfl, id, fun _ h => h, List.suffix_refl _, fun _ => rfl⟩
  | superblock => exact used
  | bitblock => exact used
  | inode => exact used
  | iblock => exact used
  | dirdata => exact used
  | data => exact used
  | pastend => exact used

/-- A block that has a bit is marked. -/
lemma bitmapMark_of_lt {s : Check} {block : Nat} {how : Blockusage} (h : block < 4096 * s.bitblocks) :
    bitmapMark block how s = .ok (.ok (), s.mark block how) := by
  rw [bitmapMark, Prog.get_andThen, Prog.require, if_pos h]
  rfl

/-- Marking a block leaves the disk alone. -/
lemma Check.disk_mark (s : Check) (block : Nat) (how : Blockusage) : (s.mark block how).disk = s.disk := by
  cases how with
  | tofree =>
    rw [Check.mark]
    split_ifs
    · rfl
    · rfl
  | superblock => rfl
  | bitblock => rfl
  | inode => rfl
  | iblock => rfl
  | dirdata => rfl
  | data => rfl
  | pastend => rfl

/-- Frame of `bitmap_mark`. -/
lemma tame_bitmapMark (block : Nat) (how : Blockusage) : Tame (bitmapMark block how) :=
  .bind .get fun _ => .bind (.require nofun) fun _ => .modify fun s => s.steps_mark block how

/-- Frame of a sequence of marks. -/
lemma tame_markAll (how : Blockusage) (blocks : List Nat) : Tame (markAll how blocks) := by
  induction blocks with
  | nil => exact .pure ()
  | cons block blocks ih => exact .bind (tame_bitmapMark block how) fun _ => ih

/-- Blocks that have bits are all marked. -/
lemma markAll_of_lt {s : Check} {blocks : List Nat} (how : Blockusage) (lt : ∀ b ∈ blocks, b < 4096 * s.bitblocks) :
    ∃ s', markAll how blocks s = .ok (.ok (), s') ∧ s'.disk = s.disk ∧ s.Steps s' := by
  induction blocks generalizing s with
  | nil => exact ⟨s, rfl, rfl, .refl s⟩
  | cons b blocks ih =>
    have marked := s.steps_mark b how
    have rest : ∀ c ∈ blocks, c < 4096 * (s.mark b how).bitblocks := by
      intro c mem
      rw [marked.bitblocks]
      exact lt c (List.mem_cons_of_mem _ mem)
    obtain ⟨s', run, disk, steps⟩ := ih rest
    refine ⟨s', ?_, disk.trans (s.disk_mark b how), marked.trans steps⟩
    rw [markAll, Prog.andThen_of_run (bitmapMark_of_lt (lt b List.mem_cons_self))]
    exact run

/-- Frame of the loop over the bytes of a block of the bitmap. -/
lemma calm_checkBytes (bits found tofree : Block) (js : List (Fin 512)) : Calm (checkBytes bits found tofree js) := by
  induction js with
  | nil => exact .pure _
  | cons j js ih =>
    refine .bind (.require (minor_assertion _)) fun _ => .ite (fun _ => ih) fun _ => .ite (fun _ => ?_) (fun _ => ?_)
    · exact .bind ih fun _ => .pure _
    · exact .bind ih fun _ => .pure _

/-- Frame of the loop over the blocks of the bitmap. -/
lemma calm_checkMapblocks (n i : Nat) : Calm (checkMapblocks n i) := by
  induction n generalizing i with
  | zero => exact .pure _
  | succ n ih =>
    refine .bind (notes_diskread _).calm fun bits => .bind .get fun s => .bind (calm_checkBytes _ _ _ _) fun _ => ?_
    exact .bind (.when (calm_diskwrite _ _)) fun _ => .bind (ih _) fun _ => .pure _

/-- Frame of `check_bitmap`. -/
lemma calm_checkBitmap : Calm checkBitmap :=
  .bind .get fun _ => .bind (calm_checkMapblocks _ _) fun _ =>
    .bind (.when (notes_setbadness _).calm) fun _ => .when (notes_setbadness _).calm

/-- Changing the array of inodes is taking note. -/
lemma Check.notes_inodes (s : Check) (inodes : Nat → Inodememory) : s.Notes { s with inodes := inodes } :=
  ⟨rfl, le_rfl, id⟩

/-- Frame of `addmemory`. -/
lemma notes_addmemory (ino linkcount : Nat) : Noting (addmemory ino linkcount) :=
  .bind .get fun _ => .bind (.require (minor_assertion _)) fun _ => .modify fun s => s.notes_inodes _

/-- An inode is put into the array, which has room. -/
lemma addmemory_of_le {s : Check} {ino linkcount : Nat} (h : s.ninodes ≤ s.maxinodes) : addmemory ino linkcount s =
    .ok (.ok (), { s with inodes := Function.update s.inodes s.ninodes ⟨ino, linkcount⟩ }) := by
  rw [addmemory, Prog.get_andThen, Prog.require, if_pos h]
  rfl

/-- While nothing is counted, nothing is recognised. -/
lemma rememberDir_of_zero {s : Check} (h : s.ninodes = 0) (ino : Nat) : rememberDir ino s =
    .ok (.ok false, { s with inodes := Function.update s.inodes s.ninodes ⟨ino, 0⟩ }) := by
  have none : s.findInode ino = none := by
    rw [Check.findInode, h]
    rfl
  have le : s.ninodes ≤ s.maxinodes := by
    rw [h]
    exact Nat.zero_le _
  rw [rememberDir, Prog.get_andThen, none]
  dsimp only
  rw [Prog.andThen_of_run (addmemory_of_le le)]
  rfl

/-- Frame of `remember_dir`. -/
lemma notes_rememberDir (ino : Nat) : Noting (rememberDir ino) := by
  refine .bind .get fun s => ?_
  split
  · exact .bind (.require (minor_assertion _)) fun _ => .pure _
  · exact .bind (notes_addmemory _ _) fun _ => .pure _

/-- Frame of `observe_filelink`. -/
lemma tame_observeFilelink (ino : Nat) : Tame (observeFilelink ino) := by
  refine .bind .get fun s => ?_
  split
  · exact .bind (.require (fun no => by cases no)) fun _ => .modify fun s => (s.notes_inodes _).steps
  · exact .bind (tame_bitmapMark _ _) fun _ => (notes_addmemory _ _).tame

/-- Frame of the loop of `adjust_filelinks`. -/
lemma calm_adjustLoop (places : List Nat) : Calm (adjustLoop places) := by
  induction places with
  | nil => exact .pure ()
  | cons i places ih =>
    refine .bind .get fun s => .ite (fun _ => ih) fun _ => ?_
    refine .bind (notes_diskread _).calm fun b => .bind (.require (minor_assertion _)) fun _ =>
      .bind (.when ?_) fun _ => ih
    exact .bind (notes_setbadness _).calm fun _ => calm_diskwrite _ _

/-- Frame of `adjust_filelinks`. -/
lemma calm_adjustFilelinks : Calm adjustFilelinks := .bind .get fun _ => calm_adjustLoop _

/-- Frame of the names that are made up. -/
lemma notes_fsckName (ino : Nat) (name : List UInt8) : Noting (fsckName ino name) :=
  .bind .get fun _ => .bind (.modify fun _ => ⟨rfl, le_rfl, fun _ => wadd_lt _ _ _⟩) fun _ => .pure _

/-- Frame of the check of the volume name. -/
lemma calm_checkVolname (sp : Block) : Calm (checkVolname sp) :=
  .when (.bind (notes_setbadness _).calm fun _ => calm_diskwrite _ _)

/-- Frame of `check_sb` after the geometry is known. -/
lemma tame_checkVolume (sp : Block) : Tame (checkVolume sp) := by
  exact .bind .get fun s => .bind (tame_markAll _ _) fun _ => .bind (calm_checkVolname _).tame fun _ =>
    .bind (tame_bitmapMark _ _) fun _ => tame_markAll _ _

/-- A superblock that is accepted. -/
structure Accepted (disk : Lhd) : Prop where
  onDisk : 0 < disk.blocks
  magic : (disk.sect 0).word 0 = sfsMagic
  nblocks : 0 < (disk.sect 0).word 1
  bitblocks : 0 < mapblocks ((disk.sect 0).word 1)

/-- The state with the geometry of the volume. -/
def Check.geometry (s : Check) : Check :=
  { s with nblocks := (s.disk.sect 0).word 1, bitblocks := mapblocks ((s.disk.sect 0).word 1) }

/-- `check_sb` goes on with the geometry of a superblock that it accepts. -/
lemma checkSb_of_accepted {s : Check} (h : Accepted s.disk) :
    checkSb s = checkVolume (s.disk.sect 0) s.geometry := by
  have read : diskread 0 s = .ok (.ok (s.disk.sect 0), s) := diskread_of_lt h.onDisk
  have magic : ¬ (s.disk.sect 0).word 0 ≠ sfsMagic := not_not.2 h.magic
  rw [checkSb, Prog.andThen_of_run read, if_neg magic, Prog.require, Prog.require, if_pos h.nblocks,
    if_pos h.bitblocks, Prog.pure_andThen, Prog.pure_andThen, Prog.modify_andThen, Check.geometry]

/-- Any other superblock stops the program. -/
lemma accepted_of_checkSb {s s' : Check} (run : checkSb s = .ok (.ok (), s')) : Accepted s.disk := by
  obtain ⟨sp, s₁, read, run⟩ := Prog.ok_of_andThen run
  by_cases onDisk : 0 < s.disk.blocks
  · have ok : diskread 0 s = .ok (.ok (s.disk.sect 0), s) := diskread_of_lt onDisk
    rw [ok] at read
    cases read
    split_ifs at run with magic
    · cases run
    · obtain ⟨_, s₂, nblocks, run⟩ := Prog.ok_of_andThen run
      obtain ⟨_, s₃, bitblocks, run⟩ := Prog.ok_of_andThen run
      exact ⟨onDisk, not_not.1 magic, Prog.of_require nblocks, Prog.of_require bitblocks⟩
  · have no : diskread 0 s = .ok (.error 1, s) := diskread_of_not_lt onDisk
    rw [no] at read
    cases read

/-- Where `check_sb` returns, the geometry is that of the superblock. -/
lemma steps_of_checkSb {s s' : Check} (run : checkSb s = .ok (.ok (), s')) : s.geometry.Steps s' := by
  rw [checkSb_of_accepted (accepted_of_checkSb run)] at run
  exact (tame_checkVolume _).keeps.of_ok run

/-- The name of a volume that needs no repair. -/
def CleanName (sp : Block) : Prop :=
  (checknullstring (sp.slice 8 32)).2 = false ∧ (checkbadstring (checknullstring (sp.slice 8 32)).1).2 = false

/-- A name that needs no repair is left alone. -/
lemma checkVolname_of_clean {sp : Block} (name : CleanName sp) : checkVolname sp = pure () := by
  have no : ¬ ((checknullstring (sp.slice 8 32)).2 = true ∨
      (checkbadstring (checknullstring (sp.slice 8 32)).1).2 = true) := by
    rw [name.1, name.2]
    decide
  rw [checkVolname]
  exact if_neg no

/-- Nothing is written for a superblock in order. -/
lemma checkSb_of_clean {s : Check} (h : Accepted s.disk) (name : CleanName (s.disk.sect 0)) :
    ∃ s', checkSb s = .ok (.ok (), s') ∧ s'.disk = s.disk ∧ s.geometry.Steps s' := by
  have pos : 0 < s.geometry.bitblocks := h.bitblocks
  have past : ∀ b ∈ List.range' s.geometry.nblocks (4096 * s.geometry.bitblocks - s.geometry.nblocks),
      b < 4096 * s.geometry.bitblocks := by
    intro b mem
    have := List.mem_range'_1.1 mem
    omega
  obtain ⟨s₁, pastend, disk₁, steps₁⟩ := markAll_of_lt .pastend past
  have first : 0 < 4096 * s₁.bitblocks := by
    rw [steps₁.bitblocks]
    omega
  have steps₂ := s₁.steps_mark 0 .superblock
  have map : ∀ b ∈ List.range' 2 s.geometry.bitblocks, b < 4096 * (s₁.mark 0 .superblock).bitblocks := by
    intro b mem
    have := List.mem_range'_1.1 mem
    rw [steps₂.bitblocks, steps₁.bitblocks]
    omega
  obtain ⟨s₃, marked, disk₃, steps₃⟩ := markAll_of_lt .bitblock map
  refine ⟨s₃, ?_, ?_, (steps₁.trans steps₂).trans steps₃⟩
  · rw [checkSb_of_accepted h, checkVolume, Prog.get_andThen, Prog.andThen_of_run pastend, checkVolname_of_clean name,
      Prog.pure_andThen, Prog.andThen_of_run (bitmapMark_of_lt first)]
    exact marked
  · rw [disk₃, s₁.disk_mark, disk₁]
    rfl

/-- Frame of the loop over the direct blocks. -/
lemma tame_checkDirect (sfi : SfsInode) (nblocks : Nat) (how : Blockusage) (blocks : List (Fin 15)) (badcount : Nat) :
    Tame (checkDirect sfi nblocks how blocks badcount) := by
  induction blocks generalizing badcount with
  | nil => exact .pure _
  | cons block blocks ih =>
    refine .ite (fun _ => ih _) fun _ => .ite (fun _ => ?_) (fun _ => ?_)
    · exact .bind (tame_bitmapMark _ _) fun _ => ih _
    · exact .bind (tame_bitmapMark _ _) fun _ => ih _

/-- Frame of the loop over the entries of an indirect block. -/
lemma tame_checkIndirectEntries (nblocks : Nat) (how : Blockusage) (entries : List Nat) (block badcount : Nat) :
    Tame (checkIndirectEntries nblocks how entries block badcount) := by
  induction entries generalizing block badcount with
  | nil => exact .pure _
  | cons entry entries ih =>
    refine .ite (fun _ => ?_) fun _ => .ite (fun _ => ?_) (fun _ => ?_)
    · exact .bind (ih _ _) fun _ => .pure _
    · exact .bind (tame_bitmapMark _ _) fun _ => .bind (ih _ _) fun _ => .pure _
    · exact .bind (tame_bitmapMark _ _) fun _ => .bind (ih _ _) fun _ => .pure _

/-- Frame of reading the entries of an indirect block. -/
lemma tame_indirectEntries (ientry : Nat) : Tame (indirectEntries ientry) := by
  refine .ite (fun _ => ?_) (fun _ => .pure _)
  exact .bind (notes_diskread _).tame fun _ => .bind (tame_bitmapMark _ _) fun _ => .pure _

/-- Frame of `check_indirect_block`. -/
lemma tame_checkIndirectBlock (ientry nblocks badcount : Nat) (how : Blockusage) :
    Tame (checkIndirectBlock ientry nblocks badcount how) := by
  refine .bind (tame_indirectEntries _) fun _ => .bind (tame_checkIndirectEntries _ _ _ _ _) fun _ =>
    .ite (fun _ => .ite (fun _ => ?_) (fun _ => .pure _)) (fun _ => ?_)
  · exact .bind (tame_bitmapMark _ _) fun _ => .pure _
  · exact .bind (.require nofun) fun _ => .bind (.when (calm_diskwrite _ _).tame) fun _ => .pure _

/-- Frame of `check_inode_blocks`. -/
lemma tame_checkInodeBlocks (sfi : SfsInode) (isdir : Bool) : Tame (checkInodeBlocks sfi isdir) := by
  refine .bind (tame_checkDirect _ _ _ _ _) fun _ => .bind (tame_checkIndirectBlock _ _ _ _) fun _ =>
    .ite (fun _ => ?_) (fun _ => .pure _)
  exact .bind (notes_setbadness _).tame fun _ => .pure _

/-- The fields that `check_inode_blocks` leaves alone. -/
structure SameFile (i i' : SfsInode) : Prop where
  size : i'.size = i.size
  type : i'.type = i.type
  linkcount : i'.linkcount = i.linkcount
  direct : i'.direct = i.direct

/-- `check_inode_blocks` leaves all but the blocks of an inode alone. -/
lemma sameFile_of_checkInodeBlocks {s s' : Check} {sfi : SfsInode} {isdir : Bool} {r : SfsInode × Bool}
    (run : checkInodeBlocks sfi isdir s = .ok (.ok r, s')) : SameFile sfi r.1 := by
  obtain ⟨_, _, -, run⟩ := Prog.ok_of_andThen run
  obtain ⟨_, _, -, run⟩ := Prog.ok_of_andThen run
  dsimp only at run
  split_ifs at run
  · obtain ⟨_, _, -, run⟩ := Prog.ok_of_andThen run
    cases run
    exact ⟨rfl, rfl, rfl, rfl⟩
  · cases run
    exact ⟨rfl, rfl, rfl, rfl⟩

/-- Direct blocks that are not there need no check. -/
lemma checkDirect_zeros {sfi : SfsInode} {blocks : List (Fin 15)} (zeros : ∀ k ∈ blocks, sfi.direct k = 0)
    (nblocks badcount : Nat) (how : Blockusage) :
    checkDirect sfi nblocks how blocks badcount = pure badcount := by
  induction blocks with
  | nil => rfl
  | cons k blocks ih =>
    rw [checkDirect, if_pos (zeros k List.mem_cons_self), ih fun k mem => zeros k (List.mem_cons_of_mem _ mem)]

/-- Entries of an indirect block that are not there need no check. -/
lemma checkIndirectEntries_zeros (n nblocks block badcount : Nat) (how : Blockusage) :
    checkIndirectEntries nblocks how (List.replicate n 0) block badcount = pure (List.replicate n 0, badcount) := by
  induction n generalizing block with
  | zero => rfl
  | succ n ih =>
    rw [List.replicate_succ, checkIndirectEntries, if_pos rfl, ih]
    rfl

/-- There is nothing to do without an indirect block. -/
lemma checkIndirectBlock_zero (nblocks badcount : Nat) (how : Blockusage) :
    checkIndirectBlock 0 nblocks badcount how = pure (0, badcount) := by
  have none : indirectEntries 0 = pure (List.replicate 128 0) := rfl
  have zeros : ∀ entry ∈ List.replicate 128 0, entry = 0 := fun entry mem => List.eq_of_mem_replicate mem
  rw [checkIndirectBlock, none, Prog.pure_andThen, checkIndirectEntries_zeros, Prog.pure_andThen]
  dsimp only
  rw [if_pos zeros]
  rfl

/-- Frame of `dobmap`. -/
lemma notes_dobmap (sfi : SfsInode) (fileblock : Nat) : Noting (dobmap sfi fileblock) := by
  rw [dobmap]
  split_ifs
  · exact .pure _
  · exact .pure _
  · exact .bind (notes_diskread _) fun _ => .pure _
  · exact .pure _

/-- Frame of reading a block of a directory. -/
lemma notes_readDirBlock (block : Nat) : Noting (readDirBlock block) :=
  .ite (fun _ => .bind (notes_diskread _) fun _ => .pure _) (fun _ => .pure _)

/-- Frame of `dirread`. -/
lemma notes_dirread (sfi : SfsInode) (n i : Nat) : Noting (dirread sfi n i) := by
  induction n generalizing i with
  | zero => exact .pure _
  | succ n ih =>
    exact .bind (notes_dobmap _ _) fun _ => .bind (notes_readDirBlock _) fun _ => .bind (ih _) fun _ => .pure _

/-- Frame of writing a block of a directory. -/
lemma calm_writeDirBlock (block : Nat) (d : List SfsDir) : Calm (writeDirBlock block d) :=
  .ite (fun _ => calm_diskwrite _ _) (fun _ => .when (notes_setbadness _).calm)

/-- Frame of `dirwrite`. -/
lemma calm_dirwrite (sfi : SfsInode) (n i : Nat) (d : List SfsDir) : Calm (dirwrite sfi n i d) := by
  induction n generalizing i d with
  | zero => exact .pure _
  | succ n ih =>
    exact .bind (notes_dobmap _ _).calm fun _ => .bind (calm_writeDirBlock _ _) fun _ => ih _ _

/-- Frame of naming an entry. -/
lemma notes_nameEntry (sfd : SfsDir) : Noting (nameEntry sfd) := by
  refine .ite (fun _ => ?_) (fun _ => .pure _)
  exact .bind (notes_fsckName _ _) fun _ => .bind (notes_setbadness _) fun _ => .pure _

/-- Frame of `check_dir_entry`. -/
lemma notes_checkDirEntry (sfd : SfsDir) : Noting (checkDirEntry sfd) := by
  refine .ite (fun _ => .ite (fun _ => ?_) (fun _ => .pure _)) (fun _ => ?_)
  · exact .bind (notes_setbadness _) fun _ => .pure _
  · exact .bind (notes_nameEntry _) fun _ => .bind (.when (notes_setbadness _)) fun _ =>
      .bind (.when (notes_setbadness _)) fun _ => .pure _

/-- Frame of the loop over the entries. -/
lemma notes_checkDirEntries (d : List SfsDir) : Noting (checkDirEntries d) := by
  induction d with
  | nil => exact .pure _
  | cons sfd d ih => exact .bind (notes_checkDirEntry sfd) fun _ => .bind ih fun _ => .pure _

/-- Frame of the loop over the neighbours. -/
lemma notes_checkDuplicates (sortvector : List Nat) (d : List SfsDir) : Noting (checkDuplicates sortvector d) := by
  fun_induction checkDuplicates sortvector d with
  | case1 a b sortvector d d1 d2 kept merged renamed =>
    refine .bind (.require (minor_assertion _)) fun _ => .ite (fun _ => kept) fun _ =>
      .ite (fun _ => .ite (fun _ => ?_) (fun _ => ?_)) (fun _ => kept)
    · exact .bind (notes_setbadness _) fun _ => .bind merged fun _ => .pure _
    · exact .bind (notes_fsckName _ _) fun name => .bind (notes_setbadness _) fun _ =>
        .bind (renamed name) fun _ => .pure _
  | case2 => exact .pure _

/-- Frame of setting an inode number right. -/
lemma notes_fixIno (ino : Nat) (sfd : SfsDir) : Noting (fixIno ino sfd) :=
  .ite (fun _ => .bind (notes_setbadness _) fun _ => .pure _) (fun _ => .pure _)

/-- Frame of the loop that looks for `"."` and `".."`. -/
lemma notes_checkDots (ino parentino : Nat) (d : List SfsDir) (seen : Dots) :
    Noting (checkDots ino parentino d seen) := by
  induction d generalizing seen with
  | nil => exact .pure _
  | cons sfd d ih =>
    refine .ite (fun _ => ?_) fun _ => .ite (fun _ => ?_) (fun _ => ?_)
    · exact .bind (notes_fixIno _ _) fun _ => .bind (.require (minor_assertion _)) fun _ =>
        .bind (ih _) fun _ => .pure _
    · exact .bind (notes_fixIno _ _) fun _ => .bind (.require (minor_assertion _)) fun _ =>
        .bind (ih _) fun _ => .pure _
    · exact .bind (ih _) fun _ => .pure _

/-- Frame of adding `"."` or `".."`. -/
lemma notes_addDots (name : List UInt8) (ino maxdirentries : Nat) (seen : Bool) (dir : Dir) :
    Noting (addDots name ino maxdirentries seen dir) := by
  refine .ite (fun _ => .pure _) fun _ => ?_
  split
  · exact .bind (notes_setbadness _) fun _ => .pure _
  · split
    · exact .bind (notes_setbadness _) fun _ => .pure _
    · exact .bind (notes_setbadness _) fun _ => .pure _

/-- Frame of the check of the size of a directory. -/
lemma notes_checkDirSize (sfi : SfsInode) : Noting (checkDirSize sfi) :=
  .ite (fun _ => .bind (notes_setbadness _) fun _ => .pure _) (fun _ => .pure _)

/-- Frame of reading the entries of a directory. -/
lemma notes_readEntries (sfi : SfsInode) (ndirentries maxdirentries : Nat) :
    Noting (readEntries sfi ndirentries maxdirentries) :=
  .bind (.require minor_overrun) fun _ => .bind (notes_dirread _ _ _) fun _ => .pure _

/-- Frame of the part of `check_dir` that checks the entries. -/
lemma notes_checkNames (ino parentino maxdirentries : Nat) (dir : Dir) :
    Noting (checkNames ino parentino maxdirentries dir) :=
  .bind (notes_checkDirEntries _) fun _ => .bind (notes_checkDuplicates _ _) fun _ =>
    .bind (notes_checkDots _ _ _ _) fun _ => .bind (notes_addDots _ _ _ _ _) fun _ => notes_addDots _ _ _ _ _

/-- Frame of the part of `check_dir` before the subdirectories. -/
lemma tame_openDir (ino parentino : Nat) : Tame (openDir ino parentino) := by
  refine .bind (notes_diskread _).tame fun _ => .bind (notes_rememberDir _).tame fun _ =>
    .ite (fun _ => .pure _) fun _ => ?_
  exact .bind (tame_bitmapMark _ _) fun _ => .bind (notes_checkDirSize _).tame fun _ =>
    .bind (tame_checkInodeBlocks _ _) fun _ => .bind (notes_readEntries _ _ _).tame fun _ =>
      .bind (notes_checkNames _ _ _ _).tame fun _ => .pure _

/-- Frame of the end of `check_dir`. -/
lemma calm_closeDir (ino subdircount : Nat) (dir : Dir) : Calm (closeDir ino subdircount dir) :=
  .bind (.when (notes_setbadness _).calm) fun _ => .bind (.when (calm_dirwrite _ _ _ _)) fun _ =>
    .when (calm_diskwrite _ _)

/-- Frame of making the root directory a directory. -/
lemma calm_fixRoot : Calm fixRoot := by
  refine .bind (notes_diskread _).calm fun _ => .when ?_
  exact .bind (notes_setbadness _).calm fun _ => calm_diskwrite _ _

variable {check : Nat → Nat → CheckM Bool}

/-- Frame of following an entry, if the calls for subdirectories have it. -/
lemma gentle_followEntry (h : ∀ i p, Gentle (check i p)) (ino : Nat) (sfd : SfsDir) :
    Gentle (followEntry check ino sfd) := by
  refine .ite (fun _ => .pure _) fun _ => .bind (notes_diskread _).tame.gentle fun b => .ite (fun _ => ?_) fun _ =>
    .ite (fun _ => ?_) fun _ => ?_
  · exact .bind (tame_checkInodeBlocks _ _).gentle fun _ => .bind (.when (calm_diskwrite _ _).tame.gentle) fun _ =>
      .bind (tame_observeFilelink _).gentle fun _ => .pure _
  · exact .bind (h _ _) fun _ =>
      .ite (fun _ => .bind (notes_setbadness _).tame.gentle fun _ => .pure _) fun _ => .pure _
  · exact .bind (notes_setbadness _).tame.gentle fun _ => .pure _

/-- Frame of following the entries. -/
lemma gentle_followEntries (h : ∀ i p, Gentle (check i p)) (ino : Nat) (d : List SfsDir) :
    Gentle (followEntries check ino d) := by
  induction d with
  | nil => exact .pure _
  | cons sfd d ih => exact .bind (gentle_followEntry h ino sfd) fun _ => .bind ih fun _ => .pure _

/-- Frame of `check_dir`, by induction on the bound of the depth. -/
lemma gentle_checkDir (n ino parentino : Nat) : Gentle (checkDir n ino parentino) := by
  induction n generalizing ino parentino with
  | zero => exact .halt trivial
  | succ n ih =>
    refine .bind (tame_openDir _ _).gentle fun dir => ?_
    cases dir with
    | none => exact .pure _
    | some dir =>
      exact .bind (gentle_followEntries ih ino _) fun _ => .bind (calm_closeDir _ _ _).tame.gentle fun _ => .pure _

end PDS.Sfsck
