import PDS.Sfs.Run
import PDS.Sfsck.Names

/-!
# Volumes of the kernel

`mksfs` and the kernel make root directories without `"."` and `".."`, and the link count of a root directory is one
more than the number of its names. The checker wants the two entries, and a link count of `2` plus the number of
subdirectories. So it has something to say about every volume: one of the entries is missing or names another inode,
or both are there, names of the root directory as any other, and the link count is too large.
-/

namespace PDS.Sfsck
open Sfs Word

variable {s s' t : Check} {ino parentino : Nat} {sfd : SfsDir}

/-- The badness never goes down, so that it was `0` if it is. -/
lemma Tame.badness {α : Type} {m : CheckM α} (h : Tame m) {r : Except Nat α} (run : m s = .ok (r, s'))
    (zero : s'.badness = 0) : s.badness = 0 :=
  Nat.le_zero.1 (zero ▸ (h.keeps.of_ok run).badness)

/-- Badness that is set stays. -/
lemma badness_of_setbadness {code : Nat} {u : Unit} (run : setbadness code s = .ok (.ok u, s')) :
    code ≤ s'.badness := by
  cases run
  dsimp only
  split_ifs with h
  · exact le_rfl
  · exact Nat.le_of_not_lt h

/-- A function that goes on after badness has been set finds something. -/
lemma ne_zero_of_setbadness {α : Type} {code : Nat} {f : Unit → CheckM α} {r : α} (pos : 0 < code)
    (hf : ∀ u, Tame (f u)) (run : (setbadness code >>= f) s = .ok (.ok r, s')) : s'.badness ≠ 0 := by
  obtain ⟨u, t, set, run⟩ := Prog.ok_of_andThen run
  have le := (badness_of_setbadness set).trans ((hf u).keeps.of_ok run).badness
  omega

/-- Without an alarm the size stays. -/
lemma checkDirSize_of_zero {sfi : SfsInode} {r : SfsInode × Bool} (run : checkDirSize sfi s = .ok (.ok r, s'))
    (zero : s'.badness = 0) : r.1 = sfi := by
  rw [checkDirSize] at run
  split_ifs at run
  · exact absurd zero (ne_zero_of_setbadness (by decide) (fun _ => .pure _) run)
  · cases run
    rfl

/-- Without an alarm the link count was right. -/
lemma linkcount_of_closeDir {subdircount : Nat} {dir : Dir} {u : Unit}
    (run : closeDir ino subdircount dir s = .ok (.ok u, s')) (zero : s'.badness = 0) :
    dir.sfi.linkcount.toNat = subdircount + 2 := by
  by_contra ne
  obtain ⟨_, s₁, wrong, run⟩ := Prog.ok_of_andThen run
  rw [Prog.when, if_pos (decide_eq_true ne)] at wrong
  have set := badness_of_setbadness wrong
  have later : s₁.Steps s' :=
    (Prog.Within.bind (.when (calm_dirwrite _ _ _ _).tame) fun _ => .when (calm_diskwrite _ _).tame).keeps.of_ok run
  have le := set.trans later.badness
  rw [zero] at le
  exact absurd le (by decide)

/-- A condition under which badness is set does not hold. -/
lemma not_of_when {c : Prop} [Decidable c] {code : Nat} {u : Unit} (pos : 0 < code)
    (run : Prog.when c (setbadness code) s = .ok (.ok u, s')) (zero : s'.badness = 0) : ¬ c := by
  intro hc
  rw [Prog.when, if_pos hc] at run
  have := badness_of_setbadness run
  omega

/-- Without an alarm the entry had a name. -/
lemma nameEntry_of_zero {r : SfsDir × Bool} (run : nameEntry sfd s = .ok (.ok r, s')) (zero : s'.badness = 0) :
    r.1 = sfd := by
  rw [nameEntry] at run
  split_ifs at run
  · obtain ⟨_, _, -, run⟩ := Prog.ok_of_andThen run
    exact absurd zero (ne_zero_of_setbadness (by decide) (fun _ => .pure _) run)
  · cases run
    rfl

/-- Without an alarm the entry stays. -/
lemma checkDirEntry_of_zero {r : SfsDir × Bool} (run : checkDirEntry sfd s = .ok (.ok r, s')) (zero : s'.badness = 0) :
    r.1 = sfd := by
  rw [checkDirEntry] at run
  split_ifs at run
  · exact absurd zero (ne_zero_of_setbadness (by decide) (fun _ => .pure _) run)
  · cases run
    rfl
  · obtain ⟨r₁, s₁, named, run⟩ := Prog.ok_of_andThen run
    obtain ⟨_, s₂, terminated, run⟩ := Prog.ok_of_andThen run
    obtain ⟨_, s₃, legal, run⟩ := Prog.ok_of_andThen run
    obtain ⟨rfl, rfl⟩ := Prog.ok_of_pure run
    have zero₂ := Tame.badness (.when (notes_setbadness _).tame) legal zero
    have zero₁ := Tame.badness (.when (notes_setbadness _).tame) terminated zero₂
    have same := nameEntry_of_zero named zero₁
    have terminated := checknullstring_of_false
      (Bool.eq_false_of_not_eq_true (not_of_when (by decide) terminated zero₂))
    have legal := checkbadstring_of_false (Bool.eq_false_of_not_eq_true (not_of_when (by decide) legal zero))
    dsimp only
    rw [legal, terminated, same]

/-- Without an alarm the entries stay. -/
lemma checkDirEntries_of_zero {d : List SfsDir} {r : List SfsDir × Bool} (run : checkDirEntries d s = .ok (.ok r, s'))
    (zero : s'.badness = 0) : r.1 = d := by
  induction d generalizing s r with
  | nil =>
    cases run
    rfl
  | cons sfd d ih =>
    obtain ⟨r₁, s₁, first, run⟩ := Prog.ok_of_andThen run
    obtain ⟨r₂, s₂, rest, run⟩ := Prog.ok_of_andThen run
    cases run
    dsimp only
    rw [checkDirEntry_of_zero first (((notes_checkDirEntries d).tame).badness rest zero), ih rest]

/-- Without an alarm no name is changed. -/
lemma checkDuplicates_of_zero {v : List Nat} {d : List SfsDir} {r : List SfsDir × Bool}
    (run : checkDuplicates v d s = .ok (.ok r, s')) (zero : s'.badness = 0) : r.1 = d := by
  induction v generalizing s with
  | nil =>
    cases run
    rfl
  | cons a v ih =>
    cases v with
    | nil =>
      cases run
      rfl
    | cons b v =>
      rw [checkDuplicates] at run
      obtain ⟨_, s₁, -, run⟩ := Prog.ok_of_andThen run
      split_ifs at run
      · exact ih run
      · refine absurd zero (ne_zero_of_setbadness (by decide) (fun _ => ?_) run)
        exact .bind (notes_checkDuplicates _ _).tame fun _ => .pure _
      · obtain ⟨_, _, -, run⟩ := Prog.ok_of_andThen run
        refine absurd zero (ne_zero_of_setbadness (by decide) (fun _ => ?_) run)
        exact .bind (notes_checkDuplicates _ _).tame fun _ => .pure _
      · exact ih run

/-- Without an alarm the number was right. -/
lemma fixIno_of_zero {r : SfsDir × Bool} (run : fixIno ino sfd s = .ok (.ok r, s')) (zero : s'.badness = 0) :
    r.1 = sfd ∧ sfd.ino = ino := by
  rw [fixIno] at run
  split_ifs at run with wrong
  · exact absurd zero (ne_zero_of_setbadness (by decide) (fun _ => .pure _) run)
  · cases run
    exact ⟨rfl, not_not.1 wrong⟩

/-- An entry with a name and an inode number. -/
def Has (d : List SfsDir) (name : List UInt8) (ino : Nat) : Prop := ∃ sfd ∈ d, strcmp sfd.name name = 0 ∧ sfd.ino = ino

/-- An entry of the rest is an entry of the list. -/
lemma Has.tail {d : List SfsDir} {name : List UInt8} (h : Has d name ino) : Has (sfd :: d) name ino := by
  obtain ⟨e, mem, eq⟩ := h
  exact ⟨e, List.mem_cons_of_mem _ mem, eq⟩

/-- What has been seen is there. -/
lemma checkDots_of_zero {d : List SfsDir} {seen : Dots} {r : List SfsDir × Dots × Bool}
    (run : checkDots ino parentino d seen s = .ok (.ok r, s')) (zero : s'.badness = 0) :
    r.1 = d ∧ (r.2.1.dotseen = true → seen.dotseen = true ∨ Has d dot ino) ∧
      (r.2.1.dotdotseen = true → seen.dotdotseen = true ∨ Has d dotdot parentino) := by
  induction d generalizing s seen r with
  | nil =>
    cases run
    exact ⟨rfl, .inl, .inl⟩
  | cons sfd d ih =>
    rcases checkDots_cons run with ⟨isDot, r₁, s₁, r₂, fixed, rest, rfl⟩ |
      ⟨-, isDotdot, r₁, s₁, r₂, fixed, rest, rfl⟩ | ⟨-, -, r₂, rest, rfl⟩
    · obtain ⟨same, dots, dotdots⟩ := ih rest
      obtain ⟨keep, right⟩ := fixIno_of_zero fixed ((notes_checkDots _ _ _ _).tame.badness rest zero)
      refine ⟨by rw [keep, same], fun _ => .inr ⟨sfd, List.mem_cons_self, isDot, right⟩, ?_⟩
      exact fun seen => (dotdots seen).imp id Has.tail
    · obtain ⟨same, dots, dotdots⟩ := ih rest
      obtain ⟨keep, right⟩ := fixIno_of_zero fixed ((notes_checkDots _ _ _ _).tame.badness rest zero)
      refine ⟨by rw [keep, same], ?_, fun _ => .inr ⟨sfd, List.mem_cons_self, isDotdot, right⟩⟩
      exact fun seen => (dots seen).imp id Has.tail
    · obtain ⟨same, dots, dotdots⟩ := ih rest
      exact ⟨by rw [same], fun seen => (dots seen).imp id Has.tail, fun seen => (dotdots seen).imp id Has.tail⟩

/-- Without an alarm the entry had been seen. -/
lemma addDots_of_zero {name : List UInt8} {maxdirentries : Nat} {seen : Bool} {dir r : Dir}
    (run : addDots name ino maxdirentries seen dir s = .ok (.ok r, s')) (zero : s'.badness = 0) :
    r = dir ∧ seen = true := by
  rw [addDots] at run
  split_ifs at run with h
  · cases run
    exact ⟨rfl, h⟩
  · cases free : dirTryadd name ino dir.ndirentries dir.direntries with
    | some d =>
      rw [free] at run
      exact absurd zero (ne_zero_of_setbadness (by decide) (fun _ => .pure _) run)
    | none =>
      rw [free] at run
      cases room : dirTryadd name ino maxdirentries dir.direntries with
      | some d =>
        rw [room] at run
        exact absurd zero (ne_zero_of_setbadness (by decide) (fun _ => .pure _) run)
      | none =>
        rw [room] at run
        exact absurd zero (ne_zero_of_setbadness (by decide) (fun _ => .pure _) run)

/-- A directory with nothing wrong about its names has `"."` and `".."`. -/
lemma checkNames_of_zero {maxdirentries : Nat} {dir r : Dir} (run : checkNames ino parentino maxdirentries dir s =
    .ok (.ok r, s')) (zero : s'.badness = 0) :
    r.direntries = dir.direntries ∧ r.ndirentries = dir.ndirentries ∧ r.sfi = dir.sfi ∧
      Has (dir.direntries.take dir.ndirentries) dot ino ∧
      Has (dir.direntries.take dir.ndirentries) dotdot parentino := by
  obtain ⟨r₁, s₁, each, run⟩ := Prog.ok_of_andThen run
  obtain ⟨r₂, s₂, dups, run⟩ := Prog.ok_of_andThen run
  obtain ⟨r₃, s₃, dots, run⟩ := Prog.ok_of_andThen run
  obtain ⟨r₄, s₄, first, second⟩ := Prog.ok_of_andThen run
  have zero₄ := (notes_addDots _ _ _ _ _).tame.badness second zero
  have zero₃ := (notes_addDots _ _ _ _ _).tame.badness first zero₄
  have zero₂ := (notes_checkDots _ _ _ _).tame.badness dots zero₃
  have zero₁ := (notes_checkDuplicates _ _).tame.badness dups zero₂
  have each := checkDirEntries_of_zero each zero₁
  have dups := (checkDuplicates_of_zero dups zero₂).trans each
  obtain ⟨same, hasDot, hasDotdot⟩ := checkDots_of_zero dots zero₃
  obtain ⟨eq₄, dotseen⟩ := addDots_of_zero first zero₄
  obtain ⟨eq, dotdotseen⟩ := addDots_of_zero second zero
  have all : r₃.1 ++ dir.direntries.drop dir.ndirentries = dir.direntries := by
    rw [same, dups, List.take_append_drop]
  rw [dups] at hasDot hasDotdot
  rw [eq, eq₄]
  refine ⟨all, rfl, rfl, ?_, ?_⟩
  · exact (hasDot dotseen).resolve_left Bool.false_ne_true
  · exact (hasDotdot dotdotseen).resolve_left Bool.false_ne_true

/-- Inversion for `diskread`. -/
lemma ok_of_diskread {block : Nat} {b : Block} (small : block < 2 ^ 23) (run : diskread block s = .ok (.ok b, s')) :
    b = s.disk.sect block ∧ s' = s := by
  by_cases onDisk : sector block < s.disk.blocks
  · rw [diskread_of_lt onDisk, sector_of_lt small] at run
    cases run
    exact ⟨rfl, rfl⟩
  · rw [diskread_of_not_lt onDisk] at run
    cases run

/-- Without blocks past the end the indirect block stays. -/
lemma checkIndirectBlock_keeps {ientry nblocks badcount : Nat} {how : Blockusage} {r : Nat × Nat}
    (run : checkIndirectBlock ientry nblocks badcount how s = .ok (.ok r, s')) (none : r.2 = 0) : r.1 = ientry := by
  rw [checkIndirectBlock] at run
  obtain ⟨entries, s₁, -, run⟩ := Prog.ok_of_andThen run
  obtain ⟨r₁, s₂, -, run⟩ := Prog.ok_of_andThen run
  dsimp only at run
  split_ifs at run
  · obtain ⟨_, s₃, -, run⟩ := Prog.ok_of_andThen run
    obtain ⟨rfl, rfl⟩ := Prog.ok_of_pure run
    cases none
  · rw [(Prog.ok_of_pure run).1]
  · obtain ⟨_, s₃, -, run⟩ := Prog.ok_of_andThen run
    obtain ⟨_, s₄, -, run⟩ := Prog.ok_of_andThen run
    rw [(Prog.ok_of_pure run).1]

/-- Without an alarm the inode stays. -/
lemma checkInodeBlocks_of_zero {sfi : SfsInode} {isdir : Bool} {r : SfsInode × Bool}
    (run : checkInodeBlocks sfi isdir s = .ok (.ok r, s')) (zero : s'.badness = 0) : r.1 = sfi := by
  obtain ⟨badcount, s₁, -, run⟩ := Prog.ok_of_andThen run
  obtain ⟨r₁, s₂, indirect, run⟩ := Prog.ok_of_andThen run
  dsimp only at run
  split_ifs at run with bad
  · exact absurd zero (ne_zero_of_setbadness (by decide) (fun _ => .pure _) run)
  · obtain ⟨rfl, rfl⟩ := Prog.ok_of_pure run
    rw [checkIndirectBlock_keeps indirect (by omega), UInt32.ofNat_toNat]

/-- The entries in a block of a file. -/
lemma entriesOf_data (f : File) (fb : Nat) :
    entriesOf (f.data fb) = (List.range 8).map fun j => f.entry (8 * fb + j) := by
  refine List.map_congr_left ?_
  intro j mem
  have lt := List.mem_range.1 mem
  have block : 64 * (8 * fb + j) / 512 = fb := by omega
  have pos : 64 * (8 * fb + j) % 512 = 64 * j := by omega
  rw [File.entry, File.bytes_eq_slice _ (by omega), block, pos]

section

variable {v : SfsFs}

/-- The disk of a file system that is synced holds its inodes. -/
lemma inode_of_clean (h : Inv v) (clean : Clean v) (i : Nat) : SfsInode.ofBlock (v.dev.sect i) = v.inode i := by
  rw [← h.core.inode_mounted clean i, SfsFs.inode_of_not_loaded not_loaded_mounted]
  rfl

/-- The blocks of the root directory are those of the kernel's file. -/
lemma dobmap_root {fb b : Nat} (h : Inv v) (disk : s.disk = v.dev) (lt : fb < 143)
    (run : dobmap (v.inode 1) fb s = .ok (.ok b, s')) : b = v.ptr 1 (dataSlot fb) ∧ s' = s := by
  have small := h.core.geom.small
  rw [dobmap] at run
  split_ifs at run with direct hole
  · obtain ⟨rfl, rfl⟩ := Prog.ok_of_pure run
    refine ⟨?_, rfl⟩
    rw [dataSlot, if_pos direct, SfsFs.ptr, ptrOf_of_lt _ _ direct]
  · obtain ⟨rfl, rfl⟩ := Prog.ok_of_pure run
    refine ⟨?_, rfl⟩
    rw [dataSlot, if_neg direct, SfsFs.ptr, ptrOf_of_gt _ _ (by omega), if_neg (fun c => c.2 hole)]
  · obtain ⟨blk, s₁, read, run⟩ := Prog.ok_of_andThen run
    obtain ⟨rfl, rfl⟩ := Prog.ok_of_pure run
    have number : (v.inode 1).indirect.toNat = v.ptr 1 15 := (ptrOf_indirect _ _).symm
    have inside : (v.inode 1).indirect.toNat < 2 ^ 23 := by
      rw [number]
      exact (h.core.ptr_lt SfsFs.live_root 15).trans_le small
    obtain ⟨rfl, rfl⟩ := ok_of_diskread inside read
    refine ⟨?_, rfl⟩
    rw [dataSlot, if_neg direct, SfsFs.ptr, ptrOf_of_gt _ _ (by omega), if_pos ⟨by omega, hole⟩, disk]
    rfl

/-- The entries that are read are those of the kernel's directory. -/
lemma dirread_root {n i : Nat} {d : List SfsDir} (h : Inv v) (disk : s.disk = v.dev)
    (inside : ∀ k < n, 512 * (i + k) < (v.file 1).size) (run : dirread (v.inode 1) n i s = .ok (.ok d, s')) :
    d = ((List.range (8 * n)).map fun j => (v.file 1).entry (8 * i + j)) ∧ s' = s := by
  induction n generalizing i s d with
  | zero =>
    cases run
    exact ⟨rfl, rfl⟩
  | succ n ih =>
    obtain ⟨b, s₁, mapped, run⟩ := Prog.ok_of_andThen run
    obtain ⟨d₁, s₂, read, run⟩ := Prog.ok_of_andThen run
    obtain ⟨d₂, s₃, rest, run⟩ := Prog.ok_of_andThen run
    obtain ⟨rfl, rfl⟩ := Prog.ok_of_pure run
    have here := inside 0 (Nat.succ_pos n)
    have small := h.root.sized.small
    obtain ⟨rfl, rfl⟩ := dobmap_root h disk (by omega) mapped
    have filled := h.root.filled (512 * i) here
    rw [Nat.mul_div_cancel_left _ (by decide)] at filled
    rw [readDirBlock, if_pos filled] at read
    obtain ⟨blk, s₄, read, done⟩ := Prog.ok_of_andThen read
    obtain ⟨rfl, rfl⟩ := Prog.ok_of_pure done
    have lt := (h.core.ptr_lt SfsFs.live_root (dataSlot i)).trans_le h.core.geom.small
    obtain ⟨rfl, rfl⟩ := ok_of_diskread lt read
    have data : (v.file 1).data i = s₂.disk.sect (v.ptr 1 (dataSlot i)) := by
      rw [disk]
      exact if_neg filled
    obtain ⟨rfl, rfl⟩ := ih disk (fun k lt => by
      have := inside (k + 1) (Nat.succ_lt_succ lt)
      rwa [show i + 1 + k = i + (k + 1) by omega]) rest
    refine ⟨?_, rfl⟩
    have shift : (fun j => (v.file 1).entry (8 * (i + 1) + j)) = (fun j => (v.file 1).entry (8 * i + j)) ∘ (8 + ·) := by
      funext j
      rw [Function.comp_apply, show 8 * (i + 1) + j = 8 * i + (8 + j) by omega]
    rw [← data, entriesOf_data, show 8 * (n + 1) = 8 + 8 * n by omega, List.range_add, List.map_append, List.map_map,
      shift]

/-- The entries of the root directory. -/
def rootEntries (v : SfsFs) : List SfsDir := (List.range ((v.file 1).size / 64)).map (v.file 1).entry

/-- So is the buffer. -/
lemma readEntries_root {n : Nat} {d : List SfsDir} (h : Inv v) (disk : s.disk = v.dev)
    (size : n = (v.file 1).size / 64) (run : readEntries (v.inode 1) n (roundup n 8) s = .ok (.ok d, s')) :
    d.take n = rootEntries v := by
  have few := h.root.sized.slots_lt
  have round : roundup n 8 = (n + 7) / 8 * 8 := by
    rw [roundup, wadd_of_lt (by omega)]
  rw [readEntries] at run
  obtain ⟨_, s₁, bound, run⟩ := Prog.ok_of_andThen run
  obtain ⟨d₁, s₂, read, run⟩ := Prog.ok_of_andThen run
  obtain ⟨rfl, rfl⟩ := Prog.ok_of_pure run
  have same : s₁ = s := by
    rw [Prog.require, if_pos (Prog.of_require bound)] at bound
    cases bound
    rfl
  rw [round, Nat.mul_div_cancel _ (by decide)] at read
  obtain ⟨rfl, -⟩ := dirread_root h (same ▸ disk) (fun k lt => by omega) read
  have long : n ≤ 8 * ((n + 7) / 8) := by omega
  rw [List.take_append_of_le_length (by simp [long]), List.take_take, Nat.min_self, ← List.map_take,
    List.take_range, Nat.min_eq_left long, rootEntries, size]
  refine List.map_congr_left ?_
  intro j _
  rw [Nat.mul_zero, Nat.zero_add]

/-- The part of `check_dir` before the subdirectories, if it finds nothing and writes nothing. -/
lemma openDir_root {r : Option Dir} (h : Inv v) (clean : Clean v) (disk : s.disk = v.dev) (ninodes : s.ninodes = 0)
    (run : openDir 1 1 s = .ok (.ok r, s')) (zero : s'.badness = 0) (silent : s'.writes = s.writes) :
    ∃ dir, r = some dir ∧ dir.direntries.take dir.ndirentries = rootEntries v ∧ dir.sfi = v.inode 1 ∧
      Has (rootEntries v) dot 1 ∧ Has (rootEntries v) dotdot 1 := by
  obtain ⟨b, s₁, read, run⟩ := Prog.ok_of_andThen run
  obtain ⟨rfl, rfl⟩ := ok_of_diskread (by decide) read
  rw [Prog.andThen_of_run (rememberDir_of_zero ninodes 1), if_neg Bool.false_ne_true] at run
  have told := (s₁.notes_inodes (Function.update s₁.inodes s₁.ninodes ⟨1, 0⟩)).steps
  obtain ⟨_, s₂, marked, run⟩ := Prog.ok_of_andThen run
  obtain ⟨r₁, s₃, sized, run⟩ := Prog.ok_of_andThen run
  obtain ⟨r₂, s₄, blocks, run⟩ := Prog.ok_of_andThen run
  obtain ⟨d, s₅, read, run⟩ := Prog.ok_of_andThen run
  obtain ⟨dir, s₆, names, run⟩ := Prog.ok_of_andThen run
  obtain ⟨rfl, rfl⟩ := Prog.ok_of_pure run
  have zero₅ := (notes_checkNames _ _ _ _).tame.badness names zero
  have zero₄ := (notes_readEntries _ _ _).tame.badness read zero₅
  have zero₃ := (tame_checkInodeBlocks _ _).badness blocks zero₄
  -- nothing is written up to the entries
  have before := ((told.trans ((tame_bitmapMark _ _).keeps.of_ok marked)).trans
    ((notes_checkDirSize _).tame.keeps.of_ok sized)).trans ((tame_checkInodeBlocks _ _).keeps.of_ok blocks)
  have after := ((notes_readEntries _ _ _).tame.keeps.of_ok read).trans
    ((notes_checkNames _ _ _ _).tame.keeps.of_ok names)
  have disk₄ : s₄.disk = v.dev := (before.disk (before.silent after silent)).trans disk
  have inode : r₂.1 = v.inode 1 := by
    rw [checkInodeBlocks_of_zero blocks zero₄, checkDirSize_of_zero sized zero₃, disk, inode_of_clean h clean]
  rw [inode] at read names
  have entries := readEntries_root h disk₄ rfl read
  obtain ⟨same, count, sfi, hasDot, hasDotdot⟩ := checkNames_of_zero names zero
  dsimp only at same count sfi hasDot hasDotdot
  rw [show (v.inode 1).size.toNat / 64 = (v.file 1).size / 64 from rfl] at *
  rw [entries] at hasDot hasDotdot
  refine ⟨dir, rfl, ?_, sfi, hasDot, hasDotdot⟩
  rw [same, count, entries]

/-- The names in the root directory. -/
lemma dir_of_rootEntries (h : Inv v) (mem : sfd ∈ rootEntries v) (used : sfd.ino ≠ 0) :
    v.dir sfd.cname = some sfd.ino := by
  obtain ⟨j, lt, rfl⟩ := List.mem_map.1 mem
  refine h.root.distinct.map_eq_some.2 ⟨j, ?_⟩
  rw [File.slots_of_lt (List.mem_range.1 lt), SfsDir.slot, if_pos used]

/-- An entry of the root directory is one that the kernel finds. -/
lemma dir_of_has {name : List UInt8} (h : Inv v) (has : Has (rootEntries v) name 1)
    (short : (cstring name).length ≤ 59) :
    v.dir (cstring name) = some 1 := by
  obtain ⟨sfd, mem, eq, ino⟩ := has
  have named := dir_of_rootEntries h mem (by rw [ino]; decide)
  have same : sfd.cname = cstring name := by
    rw [SfsDir.cname, cstring, ← List.take_takeWhile]
    show (cstring sfd.name).take 59 = _
    rw [strcmp_eq_zero.1 eq, List.take_of_length_le short]
  rwa [same, ino] at named

/-- A root directory with both entries has too many links. -/
lemma three_le_links (h : Inv v) (hasDot : Has (rootEntries v) dot 1) (hasDotdot : Has (rootEntries v) dotdot 1) :
    3 ≤ (v.inode 1).linkcount.toNat := by
  have one : v.dir [46] = some 1 := dir_of_has h hasDot (by decide)
  have two : v.dir [46, 46] = some 1 := dir_of_has h hasDotdot (by decide)
  have sub : ({[46], [46, 46]} : Set (List UInt8)) ⊆ { name | v.dir name = some 1 } := by
    rintro name (rfl | rfl)
    · exact one
    · exact two
  have count : 2 ≤ Slots.count v.dir 1 := by
    have le := Set.ncard_le_ncard sub (h.root.finite 1)
    rwa [Set.ncard_pair (by decide)] at le
  have links := h.links 1 SfsFs.live_root
  rw [if_pos rfl] at links
  show 3 ≤ (v.file 1).links.toNat
  omega

/-- The inodes that the root directory names. -/
lemma type_of_rootEntries (h : Inv v) (mem : sfd ∈ rootEntries v) (used : sfd.ino ≠ 0) :
    sfd.ino < 2 ^ 23 ∧ (v.inode sfd.ino).type = if sfd.ino = 1 then typeDir else typeFile := by
  have live : v.Live v.Named sfd.ino := .inr (.inl ⟨_, dir_of_rootEntries h mem used⟩)
  exact ⟨(h.core.inode_lt live).trans_le h.core.geom.small, h.core.type live⟩

/-- The calls of `check` for the root directory that return have found something or have written something. -/
def Finds (v : SfsFs) (check : Nat → Nat → CheckM Bool) : Prop :=
  ∀ {s r s'}, s.disk = v.dev → s.ninodes = 0 → check 1 1 s = .ok (.ok r, s') → s'.badness = 0 → s'.writes ≠ s.writes

variable {check : Nat → Nat → CheckM Bool}

/-- No entry of the root directory counts as a subdirectory. -/
lemma followEntry_root {r : SfsDir × Bool × Nat} (h : Inv v) (clean : Clean v) (finds : Finds v check)
    (mem : sfd ∈ rootEntries v) (disk : s.disk = v.dev) (ninodes : s.ninodes = 0)
    (run : followEntry check 1 sfd s = .ok (.ok r, s')) (gentle : ∀ i p, Gentle (check i p)) (zero : s'.badness = 0)
    (silent : s'.writes = s.writes) : r.2.2 = 0 := by
  rw [followEntry] at run
  split_ifs at run with skipped
  · rw [(Prog.ok_of_pure run).1]
  · obtain ⟨b, s₁, read, run⟩ := Prog.ok_of_andThen run
    have used : sfd.ino ≠ 0 := fun e => skipped (.inr (.inr e))
    obtain ⟨small, type⟩ := type_of_rootEntries h mem used
    obtain ⟨rfl, rfl⟩ := ok_of_diskread small read
    have inode := inode_of_clean h clean sfd.ino
    rw [← disk] at inode
    dsimp only at run
    rw [inode] at run
    split_ifs at run with file dir
    · obtain ⟨_, _, -, run⟩ := Prog.ok_of_andThen run
      obtain ⟨_, _, -, run⟩ := Prog.ok_of_andThen run
      obtain ⟨_, _, -, run⟩ := Prog.ok_of_andThen run
      rw [(Prog.ok_of_pure run).1]
    · -- only the root directory is a directory
      have root : sfd.ino = 1 := by
        by_contra other
        rw [if_neg other] at type
        exact file type
      rw [root] at run
      obtain ⟨crosslinked, s₂, called, run⟩ := Prog.ok_of_andThen run
      have tame : Tame (if crosslinked then do
          setbadness exitRecov
          pure (removeEntry sfd, true, 0)
        else pure (sfd, false, 1)) :=
        .ite (fun _ => .bind (notes_setbadness _).tame fun _ => .pure _) (fun _ => .pure _)
      have quiet := ((gentle 1 1).keeps.of_ok called).silent (tame.keeps.of_ok run) silent
      exact absurd quiet (finds disk ninodes called (tame.badness run zero))
    · obtain ⟨_, _, -, run⟩ := Prog.ok_of_andThen run
      rw [(Prog.ok_of_pure run).1]

/-- Following the entries of the root directory finds something or writes something. -/
lemma followEntries_root {d : List SfsDir} {r : List SfsDir × Bool × Nat} (h : Inv v) (clean : Clean v)
    (finds : Finds v check) (gentle : ∀ i p, Gentle (check i p)) (sub : ∀ sfd ∈ d, sfd ∈ rootEntries v)
    (disk : s.disk = v.dev) (ninodes : s.ninodes = 0) (run : followEntries check 1 d s = .ok (.ok r, s'))
    (zero : s'.badness = 0) (silent : s'.writes = s.writes) : r.2.2 = 0 := by
  induction d generalizing s r with
  | nil => rw [(Prog.ok_of_pure run).1]
  | cons sfd d ih =>
    obtain ⟨r₁, s₁, first, run⟩ := Prog.ok_of_andThen run
    obtain ⟨r₂, s₂, rest, run⟩ := Prog.ok_of_andThen run
    obtain ⟨rfl, rfl⟩ := Prog.ok_of_pure run
    have steps₁ := (gentle_followEntry gentle 1 sfd).keeps.of_ok first
    have steps₂ := (gentle_followEntries gentle 1 d).keeps.of_ok rest
    have silent₁ := steps₁.silent steps₂ silent
    have zero₁ : s₁.badness = 0 := Nat.le_zero.1 (zero ▸ steps₂.badness)
    have none := followEntry_root h clean finds (sub sfd List.mem_cons_self) disk ninodes first gentle zero₁ silent₁
    have rest := ih (fun e mem => sub e (List.mem_cons_of_mem _ mem)) ((steps₁.disk silent₁).trans disk)
      (steps₁.ninodes.trans ninodes) rest (silent.trans silent₁.symm)
    dsimp only
    rw [none, rest]

/-- The walk over the root directory of a volume of the kernel, by induction on how deep its calls may nest. -/
lemma finds_checkDir (h : Inv v) (clean : Clean v) (n : Nat) : Finds v (checkDir n) := by
  induction n with
  | zero =>
    intro s r s' _ _ run
    cases run
  | succ n ih =>
    intro s r s' disk ninodes run zero silent
    rw [checkDir] at run
    obtain ⟨r₁, s₁, opened, run⟩ := Prog.ok_of_andThen run
    have steps₁ := (tame_openDir 1 1).keeps.of_ok opened
    cases r₁ with
    | none =>
      obtain ⟨-, rfl⟩ := Prog.ok_of_pure run
      obtain ⟨dir, no, -⟩ := openDir_root h clean disk ninodes opened zero silent
      cases no
    | some dir =>
      obtain ⟨r₂, s₂, followed, run⟩ := Prog.ok_of_andThen run
      obtain ⟨_, s₃, closed, run⟩ := Prog.ok_of_andThen run
      obtain ⟨rfl, rfl⟩ := Prog.ok_of_pure run
      have steps₂ := (gentle_followEntries (gentle_checkDir n) 1 _).keeps.of_ok followed
      have steps₃ := (calm_closeDir _ _ _).tame.keeps.of_ok closed
      have silent₂ := (steps₁.trans steps₂).silent steps₃ silent
      have silent₁ := steps₁.silent steps₂ silent₂
      have zero₂ : s₂.badness = 0 := Nat.le_zero.1 (zero ▸ steps₃.badness)
      have zero₁ : s₁.badness = 0 := Nat.le_zero.1 (zero₂ ▸ steps₂.badness)
      obtain ⟨dir', same, entries, sfi, hasDot, hasDotdot⟩ := openDir_root h clean disk ninodes opened zero₁ silent₁
      cases same
      have links := three_le_links h hasDot hasDotdot
      have count := followEntries_root h clean ih (gentle_checkDir n) (fun sfd mem => entries ▸ mem)
        ((steps₁.disk silent₁).trans disk) (steps₁.ninodes.trans ninodes) followed zero₂ (silent₂.trans silent₁.symm)
      have wants := linkcount_of_closeDir closed zero
      rw [sfi, count] at wants
      omega

end

/-- The checker writes no sector and exits with status `0`. -/
def FindsNothing (disk : Lhd) : Prop := ∃ fuel s, runSfsck fuel disk = .ok (.ok 0, s) ∧ s.writes = []

/-- The checker does not find a volume of the kernel in order. -/
lemma not_findsNothing {v : SfsFs} (h : Inv v) (clean : Clean v) : ¬ FindsNothing v.dev := by
  rintro ⟨fuel, s', run, silent⟩
  obtain ⟨_, s₁, sb, run⟩ := Prog.ok_of_andThen run
  obtain ⟨_, s₂, walk, run⟩ := Prog.ok_of_andThen run
  obtain ⟨_, s₃, map, run⟩ := Prog.ok_of_andThen run
  obtain ⟨_, s₄, links, run⟩ := Prog.ok_of_andThen run
  obtain ⟨_, _, got, run⟩ := Prog.ok_of_andThen run
  cases got
  obtain ⟨_, s₅, bounded, run⟩ := Prog.ok_of_andThen run
  obtain ⟨eq, rfl⟩ := Prog.ok_of_pure run
  -- the walk is one that finds nothing and writes nothing
  obtain ⟨_, s₆, root, walk⟩ := Prog.ok_of_andThen walk
  obtain ⟨_, s₇, walk, done⟩ := Prog.ok_of_andThen walk
  obtain ⟨-, rfl⟩ := Prog.ok_of_pure done
  have before := (steps_of_checkSb sb).trans (calm_fixRoot.tame.keeps.of_ok root)
  have during := (gentle_checkDir fuel 1 1).keeps.of_ok walk
  have after := (calm_checkBitmap.tame.keeps.of_ok map).trans
    ((calm_adjustFilelinks.tame.keeps.of_ok links).trans ((notes_assert _).tame.keeps.of_ok bounded))
  have silent : s'.writes = (Check.start v.dev).geometry.writes := silent
  have silent₇ := (before.trans during).silent after silent
  have silent₆ := before.silent during silent₇
  have zero : s₂.badness = 0 := by
    have le := (calm_checkBitmap.tame.keeps.of_ok map).badness.trans
      (calm_adjustFilelinks.tame.keeps.of_ok links).badness
    rw [← eq] at le
    exact Nat.le_zero.1 le
  exact finds_checkDir h clean fuel (before.disk silent₆) before.ninodes walk zero
    (silent₇.trans silent₆.symm)

/-- Whatever has been done on a volume, and has been synced, the checker finds or writes something. -/
theorem sfsck_alarms {P : SfsFs → SfsOp → Prop} {v v' : SfsFs} (reach : Reach P v)
    (synced : sfsSync v = .ok (.ok (), v')) : ¬ FindsNothing v'.dev := by
  obtain ⟨did, -, clean⟩ := (reach.inv.1.wp_sfsSync (E := fun _ _ => False)).of_ok synced
  exact not_findsNothing did.inv clean

/-- There is a volume with a vnode that is synced and gives an alarm. -/
theorem sfsck_alarms_root : ∃ v sv v', Reach (fun _ _ => True) v ∧ sv ∈ v.vnodes ∧ sfsSync v = .ok (.ok (), v') ∧
    ¬ FindsNothing v'.dev := by
  obtain ⟨v, sv, reach, mem, -⟩ := exists_root (P := fun _ _ => True) (fun _ => trivial)
  obtain ⟨r, v', run, ok, err⟩ := Prog.wp_iff.1 (reach.inv.1.wp_sfsSync (E := fun _ _ => False))
  cases r with
  | error e => exact (err e rfl).elim
  | ok => exact ⟨v, sv, v', reach, mem, run, sfsck_alarms reach run⟩

/-- A volume that `mksfs` has just made. -/
theorem sfsck_alarms_fresh : mksfs ⟨[118], by decide⟩ smallDisk = some smallVolume.dev ∧
    ∃ v', sfsSync smallVolume = .ok (.ok (), v') ∧ ¬ FindsNothing v'.dev := by
  refine ⟨mksfs_smallDisk, ?_⟩
  have reach : Reach (fun _ _ => True) smallVolume := reach_smallVolume
  obtain ⟨r, v', run, ok, err⟩ := Prog.wp_iff.1 (reach.inv.1.wp_sfsSync (E := fun _ _ => False))
  cases r with
  | error e => exact (err e rfl).elim
  | ok =>
    obtain ⟨did, -, clean⟩ := ok () rfl
    exact ⟨v', run, not_findsNothing did.inv clean⟩

end PDS.Sfsck
