import PDS.Sfsck.Frame

/-!
# The walk through the directories

`check_dir` calls itself for every subdirectory, and `remember_dir` is there to recognise a directory that has been
seen before. It never does: `addmemory` does not count what it puts into the array, so the array stays empty. On a
disk on which a directory is below itself the calls never end.

`Entered` are the calls of `check_dir` in a run, each with the directories whose calls have not returned yet. A run
in which no call is for one of these directories ends: the directories on the way down from the root are different,
and each has a bit in the bitmap.
-/

namespace PDS.Sfsck
open Sfs Word

/-- What is done before the walk. -/
def startWalk : CheckM Unit := do
  checkSb
  fixRoot

/-- An entry that leads into a subdirectory. -/
structure Subdir (s : Check) (sfd : SfsDir) : Prop where
  named : ¬ (strcmp sfd.name dot = 0 ∨ strcmp sfd.name dotdot = 0 ∨ sfd.ino = 0)
  onDisk : sector sfd.ino < s.disk.blocks
  type : (SfsInode.ofBlock (s.disk.sect (sector sfd.ino))).type = typeDir

/-- The calls of `check_dir` on a disk: the directories whose calls are under way, the arguments and the state. -/
inductive Entered (disk : Lhd) : List Nat → Nat → Nat → Check → Prop where
  | root {s} (run : startWalk (Check.start disk) = .ok (.ok (), s)) : Entered disk [] 1 1 s
  /-- an entry of a directory, once the entries before it have been followed -/
  | sub {stack ino parentino s dir s₁ pre sfd post fuel r s₂} (up : Entered disk stack ino parentino s)
      (opened : openDir ino parentino s = .ok (.ok (some dir), s₁))
      (entries : dir.direntries.take dir.ndirentries = pre ++ sfd :: post)
      (before : followEntries (checkDir fuel) ino pre s₁ = .ok (.ok r, s₂))
      (subdir : Subdir s₂ sfd) : Entered disk (ino :: stack) sfd.ino ino s₂

/-- No call of `check_dir` is for a directory whose call is under way. -/
def NoCycle (disk : Lhd) : Prop := ∀ {stack ino parentino s}, Entered disk stack ino parentino s → ino ∉ stack

variable {check check' : Nat → Nat → CheckM Bool} {ino parentino : Nat} {sfd : SfsDir} {s s' t : Check}

/-- A larger bound for the calls extends what is done for an entry. -/
lemma followEntry_extends (ext : ∀ i p, Prog.Extends .depth (check i p) (check' i p)) (ino : Nat) (sfd : SfsDir) :
    Prog.Extends .depth (followEntry check ino sfd) (followEntry check' ino sfd) := by
  refine .ite (.refl _) (.bind (.refl _) fun b => ?_)
  exact .ite (.refl _) (.ite (.bind (ext _ _) fun _ => .refl _) (.refl _))

/-- So it does for all the entries. -/
lemma followEntries_extends (ext : ∀ i p, Prog.Extends .depth (check i p) (check' i p)) (ino : Nat)
    (d : List SfsDir) : Prog.Extends .depth (followEntries check ino d) (followEntries check' ino d) := by
  induction d with
  | nil => exact .refl _
  | cons sfd d ih => exact .bind (followEntry_extends ext ino sfd) fun _ => .bind ih fun _ => .refl _

/-- And for a call of `check_dir`. -/
lemma checkDirWith_extends (ext : ∀ i p, Prog.Extends .depth (check i p) (check' i p)) (ino parentino : Nat) :
    Prog.Extends .depth (checkDirWith check ino parentino) (checkDirWith check' ino parentino) := by
  refine .bind (.refl _) fun dir => ?_
  cases dir with
  | none => exact .refl _
  | some dir => exact .bind (followEntries_extends ext ino _) fun _ => .refl _

/-- A bound that is larger by one. -/
lemma checkDir_extends_succ (n : Nat) (ino parentino : Nat) :
    Prog.Extends .depth (checkDir n ino parentino) (checkDir (n + 1) ino parentino) := by
  induction n generalizing ino parentino with
  | zero => exact .halt
  | succ n ih => exact checkDirWith_extends ih ino parentino

/-- With a larger bound on the depth the walk does the same, and perhaps goes on. -/
lemma checkDir_extends {n m : Nat} (le : n ≤ m) (ino parentino : Nat) :
    Prog.Extends .depth (checkDir n ino parentino) (checkDir m ino parentino) := by
  induction le with
  | refl => exact .refl _
  | step _ ih => exact ih.trans (checkDir_extends_succ _ _ _)

/-- The inode of a directory that is opened has a bit in the bitmap. -/
lemma lt_of_openDir {dir : Dir} (run : openDir ino parentino s = .ok (.ok (some dir), s')) :
    ino < 4096 * s.bitblocks := by
  obtain ⟨b, s₁, read, run⟩ := Prog.ok_of_andThen run
  obtain ⟨remembered, s₂, told, run⟩ := Prog.ok_of_andThen run
  have same : s₂.bitblocks = s.bitblocks :=
    ((notes_rememberDir _).tame.keeps.of_ok told).bitblocks.trans ((notes_diskread _).tame.keeps.of_ok read).bitblocks
  cases remembered with
  | true => cases run
  | false =>
    obtain ⟨_, s₃, marked, -⟩ := Prog.ok_of_andThen run
    obtain ⟨_, _, got, marked⟩ := Prog.ok_of_andThen marked
    cases got
    obtain ⟨_, _, bound, -⟩ := Prog.ok_of_andThen marked
    exact same ▸ Prog.of_require bound

/-- What is left alone before the walk starts. -/
lemma steps_of_startWalk {disk : Lhd} (run : startWalk (Check.start disk) = .ok (.ok (), s)) :
    (Check.start disk).geometry.Steps s := by
  obtain ⟨_, s₁, sb, root⟩ := Prog.ok_of_andThen run
  exact (steps_of_checkSb sb).trans (calm_fixRoot.tame.keeps.of_ok root)

/-- What the calls leave alone since the start. -/
lemma Entered.steps {disk : Lhd} {stack : List Nat} (h : Entered disk stack ino parentino s) :
    (Check.start disk).geometry.Steps s := by
  induction h with
  | root run => exact steps_of_startWalk run
  | @sub stack ino parentino s dir s₁ pre sfd post fuel r s₂ up opened entries before subdir ih =>
    exact (ih.trans ((tame_openDir ino parentino).keeps.of_ok opened)).trans
      ((gentle_followEntries (gentle_checkDir fuel) ino pre).keeps.of_ok before)

/-- The directories under way have bits in the bitmap, and there are no two of the same number. -/
lemma Entered.stack {disk : Lhd} {stack : List Nat} (acyclic : NoCycle disk)
    (h : Entered disk stack ino parentino s) : stack.Nodup ∧ ∀ i ∈ stack, i < 4096 * s.bitblocks := by
  induction h with
  | root => exact ⟨List.nodup_nil, nofun⟩
  | @sub stack ino parentino s dir s₁ pre sfd post fuel r s₂ up opened entries before subdir ih =>
    obtain ⟨nodup, lt⟩ := ih
    have steps := ((tame_openDir ino parentino).keeps.of_ok opened).trans
      ((gentle_followEntries (gentle_checkDir fuel) ino pre).keeps.of_ok before)
    refine ⟨List.nodup_cons.2 ⟨acyclic up, nodup⟩, ?_⟩
    intro i mem
    rw [steps.bitblocks]
    cases List.mem_cons.1 mem with
    | inl e => exact e ▸ lt_of_openDir opened
    | inr mem => exact lt i mem

/-- So the calls nest no deeper than the bitmap is long. -/
lemma Entered.length_le {disk : Lhd} {stack : List Nat} (acyclic : NoCycle disk)
    (h : Entered disk stack ino parentino s) : stack.length ≤ 4096 * s.bitblocks := by
  obtain ⟨nodup, lt⟩ := h.stack acyclic
  have sub : stack.toFinset ⊆ Finset.range (4096 * s.bitblocks) := by
    intro i mem
    exact Finset.mem_range.2 (lt i (List.mem_toFinset.1 mem))
  have card := Finset.card_le_card sub
  rwa [Finset.card_range, List.toFinset_card_of_nodup nodup] at card

/-- An entry that leads nowhere does not need `check_dir`. -/
lemma followEntry_congr (no : ¬ Subdir s sfd) : followEntry check ino sfd s = followEntry check' ino sfd s := by
  rw [followEntry, followEntry]
  split_ifs with h
  · rfl
  · by_cases onDisk : sector sfd.ino < s.disk.blocks
    · have read := diskread_of_lt onDisk
      have other : (SfsInode.ofBlock (s.disk.sect (sector sfd.ino))).type ≠ typeDir := fun e => no ⟨h, onDisk, e⟩
      rw [Prog.andThen_of_run read, Prog.andThen_of_run read]
      dsimp only
      rw [if_neg other, if_neg other]
    · show Prog.andThen _ _ s = Prog.andThen _ _ s
      rw [Prog.andThen, Prog.andThen, diskread_of_not_lt onDisk]

/-- Following an entry stops for the depth only if the call for the subdirectory does. -/
lemma followEntry_depth (run : followEntry check ino sfd s = .error .depth) :
    Subdir s sfd ∧ check sfd.ino ino s = .error .depth := by
  by_cases sub : Subdir s sfd
  · refine ⟨sub, ?_⟩
    have read := diskread_of_lt sub.onDisk
    have file : (SfsInode.ofBlock (s.disk.sect (sector sfd.ino))).type ≠ typeFile := by
      rw [sub.type]
      decide
    rw [followEntry, if_neg sub.named, Prog.andThen_of_run read] at run
    dsimp only at run
    rw [if_neg file, if_pos sub.type] at run
    cases Prog.halt_of_andThen run with
    | inl run => exact run
    | inr later =>
      obtain ⟨crosslinked, t, -, later⟩ := later
      have tame : Tame (if crosslinked then do
          setbadness exitRecov
          pure (removeEntry sfd, true, 0)
        else pure (sfd, false, 1)) :=
        .ite (fun _ => .bind (notes_setbadness _).tame fun _ => .pure _) (fun _ => .pure _)
      exact absurd rfl (tame.keeps.of_halt later)
  · have run : followEntry (fun _ _ => pure true) ino sfd s = .error .depth := (followEntry_congr sub).symm.trans run
    have tame : Tame (followEntry (fun _ _ => pure true) ino sfd) := by
      refine .ite (fun _ => .pure _) fun _ => .bind (notes_diskread _).tame fun b => .ite (fun _ => ?_) fun _ =>
        .ite (fun _ => ?_) fun _ => ?_
      · exact .bind (tame_checkInodeBlocks _ _) fun _ => .bind (Prog.Within.when (calm_diskwrite _ _).tame) fun _ =>
          .bind (tame_observeFilelink _) fun _ => .pure _
      · exact .bind (.pure _) fun _ =>
          .ite (fun _ => .bind (notes_setbadness _).tame fun _ => .pure _) (fun _ => .pure _)
      · exact .bind (notes_setbadness _).tame fun _ => .pure _
    exact absurd rfl (tame.keeps.of_halt run)

/-- Entries are followed one after the other. -/
lemma followEntries_snoc {pre : List SfsDir} {r : List SfsDir × Bool × Nat} {r' : SfsDir × Bool × Nat}
    (before : followEntries check ino pre s = .ok (.ok r, t))
    (last : followEntry check ino sfd t = .ok (.ok r', s')) :
    ∃ r'', followEntries check ino (pre ++ [sfd]) s = .ok (.ok r'', s') := by
  induction pre generalizing s r with
  | nil =>
    cases before
    refine ⟨(r'.1 :: [], r'.2.1 || false, r'.2.2 + 0), ?_⟩
    rw [List.nil_append, followEntries, Prog.andThen_of_run last]
    rfl
  | cons e pre ih =>
    obtain ⟨a, u, first, before⟩ := Prog.ok_of_andThen before
    obtain ⟨b, v, before, done⟩ := Prog.ok_of_andThen before
    cases done
    obtain ⟨r'', rest⟩ := ih before
    refine ⟨(a.1 :: r''.1, a.2.1 || r''.2.1, a.2.2 + r''.2.2), ?_⟩
    rw [List.cons_append, followEntries, Prog.andThen_of_run first]
    dsimp only
    rw [Prog.andThen_of_run rest]
    rfl

/-- The entries of a directory are followed to the end if the calls for its subdirectories end. -/
lemma followEntries_ends {disk : Lhd} {stack : List Nat} {dir : Dir} {s₁ : Check} {all : List SfsDir}
    (up : Entered disk stack ino parentino s) (opened : openDir ino parentino s = .ok (.ok (some dir), s₁))
    (entries : dir.direntries.take dir.ndirentries = all)
    (ends : ∀ {i t}, Entered disk (ino :: stack) i ino t → ∃ n, checkDir n i ino t ≠ .error .depth)
    (post : List SfsDir) {pre : List SfsDir} (split : all = pre ++ post) {fuel : Nat}
    {r : List SfsDir × Bool × Nat} (before : followEntries (checkDir fuel) ino pre s₁ = .ok (.ok r, t)) :
    ∃ n, followEntries (checkDir n) ino post t ≠ .error .depth := by
  induction post generalizing pre fuel r t with
  | nil => exact ⟨0, nofun⟩
  | cons sfd post ih =>
    -- a bound that is enough for this entry
    have enough : ∃ n, fuel ≤ n ∧ followEntry (checkDir n) ino sfd t ≠ .error .depth := by
      by_cases sub : Subdir t sfd
      · obtain ⟨n, ne⟩ := ends (.sub up opened (entries.trans split) before sub)
        refine ⟨max fuel n, le_max_left _ _, ?_⟩
        intro run
        exact (checkDir_extends (le_max_right fuel n) _ _).ne ne (followEntry_depth run).2
      · exact ⟨fuel, le_rfl, fun run => sub (followEntry_depth run).1⟩
    obtain ⟨n, le, ne⟩ := enough
    cases run : followEntry (checkDir n) ino sfd t with
    | error h =>
      refine ⟨n, ?_⟩
      rw [followEntries, Prog.andThen_of_halt run]
      rw [run] at ne
      exact fun eq => ne (congrArg Except.error (Except.error.inj eq))
    | ok r' =>
      obtain ⟨r', u⟩ := r'
      cases r' with
      | error e =>
        refine ⟨n, ?_⟩
        intro halt
        cases Prog.halt_of_andThen halt with
        | inl halt =>
          rw [run] at halt
          cases halt
        | inr later =>
          obtain ⟨a, v, ok, -⟩ := later
          rw [run] at ok
          cases ok
      | ok a =>
        have before := (followEntries_extends (fun i p => checkDir_extends le i p) ino pre).of_ok before
        obtain ⟨r'', before⟩ := followEntries_snoc before run
        obtain ⟨m, rest⟩ := ih (split.trans (by simp)) before
        refine ⟨max n m, ?_⟩
        have run := (followEntry_extends (fun i p => checkDir_extends (le_max_left n m) i p) ino sfd).of_ok run
        have rest := (followEntries_extends (fun i p => checkDir_extends (le_max_right n m) i p) ino post).ne rest
        rw [followEntries, Prog.andThen_of_run run]
        intro halt
        cases Prog.halt_of_andThen halt with
        | inl halt => exact rest halt
        | inr later =>
          obtain ⟨_, _, -, done⟩ := later
          cases done

/-- A call ends if the calls for its subdirectories do. -/
lemma checkDir_ends {disk : Lhd} {stack : List Nat} (h : Entered disk stack ino parentino s)
    (ends : ∀ {i t}, Entered disk (ino :: stack) i ino t → ∃ n, checkDir n i ino t ≠ .error .depth) :
    ∃ n, checkDir n ino parentino s ≠ .error .depth := by
  cases opened : openDir ino parentino s with
  | error x =>
    refine ⟨1, ?_⟩
    rw [checkDir, checkDirWith, Prog.andThen_of_halt opened]
    intro eq
    exact (tame_openDir _ _).keeps.of_halt opened (Except.error.inj eq)
  | ok r =>
    obtain ⟨r, s₁⟩ := r
    -- the calls for the subdirectories are all that can stop for the depth
    have later {n : Nat} (halt : checkDir (n + 1) ino parentino s = .error .depth) :
        ∃ dir, r = .ok (some dir) ∧
          followEntries (checkDir n) ino (dir.direntries.take dir.ndirentries) s₁ = .error .depth := by
      rw [checkDir] at halt
      cases Prog.halt_of_andThen halt with
      | inl halt => exact absurd rfl ((tame_openDir _ _).keeps.of_halt halt)
      | inr halt =>
        obtain ⟨dir, t, ok, halt⟩ := halt
        rw [opened] at ok
        cases ok
        cases dir with
        | none => cases halt
        | some dir =>
          refine ⟨dir, rfl, ?_⟩
          cases Prog.halt_of_andThen halt with
          | inl halt => exact halt
          | inr closed =>
            obtain ⟨a, t, -, closed⟩ := closed
            cases Prog.halt_of_andThen closed with
            | inl closed => exact absurd rfl ((calm_closeDir _ _ _).tame.keeps.of_halt closed)
            | inr done =>
              obtain ⟨_, _, -, done⟩ := done
              cases done
    by_cases some : ∃ dir, r = .ok (some dir)
    · obtain ⟨dir, rfl⟩ := some
      obtain ⟨n, ne⟩ := followEntries_ends h opened rfl ends (dir.direntries.take dir.ndirentries) rfl
        (show followEntries (checkDir 0) ino [] s₁ = .ok (.ok ([], false, 0), s₁) from rfl)
      refine ⟨n + 1, fun halt => ?_⟩
      obtain ⟨dir', eq, halt⟩ := later halt
      cases eq
      exact ne halt
    · refine ⟨1, fun halt => ?_⟩
      obtain ⟨dir, eq, -⟩ := later halt
      exact some ⟨dir, eq⟩

/-- The calls end, by induction on how much deeper they can nest. -/
lemma Entered.ends {disk : Lhd} (acyclic : NoCycle disk) (room : Nat) {stack : List Nat}
    (h : Entered disk stack ino parentino s) (bound : 4096 * s.bitblocks < stack.length + room) :
    ∃ n, checkDir n ino parentino s ≠ .error .depth := by
  induction room generalizing stack ino parentino s with
  | zero =>
    have := h.length_le acyclic
    omega
  | succ room ih =>
    refine checkDir_ends h ?_
    intro i t sub
    refine ih sub ?_
    rw [sub.steps.bitblocks, ← h.steps.bitblocks, List.length_cons]
    omega

/-- The walk starts on a volume whose superblock and root directory are in order. -/
lemma startWalk_of_clean {disk : Lhd} (h : Accepted disk) (name : CleanName (disk.sect 0)) (root : 1 < disk.blocks)
    (type : (SfsInode.ofBlock (disk.sect 1)).type = typeDir) :
    ∃ s, startWalk (Check.start disk) = .ok (.ok (), s) ∧ s.disk = disk ∧ (Check.start disk).geometry.Steps s := by
  obtain ⟨s, sb, same, steps⟩ := checkSb_of_clean (s := Check.start disk) h name
  have same : s.disk = disk := same
  have read : diskread 1 s = .ok (.ok (disk.sect 1), s) := by
    rw [← same] at root ⊢
    exact diskread_of_lt root
  refine ⟨s, ?_, same, steps⟩
  rw [startWalk, Prog.andThen_of_run sb, fixRoot, Prog.andThen_of_run read, Prog.when, if_neg (not_not.2 type)]
  rfl

/-- The program stops for a reason that the parts around the walk do not have exactly when the walk from the root
does. -/
lemma runSfsck_halt_iff {fuel : Nat} {disk : Lhd} {h : Stop} (major : ¬ h.Minor)
    (sb : checkSb (Check.start disk) ≠ .error h) : runSfsck fuel disk = .error h ↔
      ∃ s, startWalk (Check.start disk) = .ok (.ok (), s) ∧ checkDir fuel 1 1 s = .error h := by
  constructor
  · intro halt
    cases Prog.halt_of_andThen halt with
    | inl halt => exact absurd halt sb
    | inr halt =>
      obtain ⟨_, s₁, sb, halt⟩ := halt
      cases Prog.halt_of_andThen halt with
      | inl halt =>
        cases Prog.halt_of_andThen halt with
        | inl halt => exact absurd (calm_fixRoot.keeps.of_halt halt) major
        | inr halt =>
          obtain ⟨_, s₂, root, halt⟩ := halt
          refine ⟨s₂, ?_, ?_⟩
          · rw [startWalk, Prog.andThen_of_run sb]
            exact root
          · cases Prog.halt_of_andThen halt with
            | inl halt => exact halt
            | inr done =>
              obtain ⟨_, _, -, done⟩ := done
              cases done
      | inr later =>
        obtain ⟨_, s₂, -, later⟩ := later
        refine absurd ((Prog.Within.keeps (R := Check.Steps) (P := Stop.Minor) ?_).of_halt later) major
        exact .bind calm_checkBitmap fun _ => .bind calm_adjustFilelinks fun _ => .bind .get fun _ =>
          .bind (.require (minor_assertion _)) fun _ => .pure _
  · rintro ⟨s, start, halt⟩
    obtain ⟨_, s₁, sb, root⟩ := Prog.ok_of_andThen start
    have walk : checkRootDir fuel s₁ = .error h := by
      rw [checkRootDir, Prog.andThen_of_run root, Prog.andThen_of_halt halt]
    rw [runSfsck, sfsck, Prog.andThen_of_run sb, Prog.andThen_of_halt walk]

/-- A name in a buffer of `60` bytes. -/
def entry (ino : Nat) (name : List UInt8) : SfsDir := ⟨ino, name ++ List.replicate (60 - name.length) 0⟩

/-- An inode with one block. -/
def oneBlock (size : UInt32) (type links : UInt16) (block : UInt32) : SfsInode :=
  ⟨size, type, links, fun k => if k.val = 0 then block else 0, 0⟩

/-- The inode of a directory with the entries `d` in one block. -/
def dirInode (links : UInt16) (block : UInt32) (d : List SfsDir) : SfsInode :=
  oneBlock (UInt32.ofNat (64 * d.length)) typeDir links block

/-- The buffer that `check_dir` reads the entries into. -/
def dirBuffer (d : List SfsDir) : List SfsDir := d ++ List.replicate (8 - d.length) freeEntry

/-- The variables of the call of `check_dir` for that directory. -/
def dirVars (links : UInt16) (block : UInt32) (d : List SfsDir) : Dir :=
  ⟨(dirInode links block d).toBlock, dirInode links block d, dirBuffer d, d.length, false, false⟩

/-- The superblock of a volume with `8` blocks. -/
def smallSuper : Block := Block.ofWords fun k => if k = 0 then sfsMagic else if k = 1 then 8 else 0

/-- A volume with a root directory, on which the blocks below `used` are in use. -/
def smallVolume (used : Nat) (root : SfsInode) (files : Nat → Block) : Lhd where
  blocks := 8
  sect b :=
    if b = 0 then smallSuper
    else if b = 1 then root.toBlock
    else if b = 2 then mapBlock (fun i => i < used || 8 ≤ i) 0
    else files b

/-- The walk over such a volume starts with its disk and one block of bitmap. -/
lemma startWalk_small (used : Nat) {root : SfsInode} (files : Nat → Block) (type : root.type = typeDir) :
    ∃ s, startWalk (Check.start (smallVolume used root files)) = .ok (.ok (), s) ∧
      s.disk = smallVolume used root files ∧ s.bitblocks = 1 ∧ s.ninodes = 0 := by
  have accepted : Accepted (smallVolume used root files) := by
    refine ⟨Nat.succ_pos 7, ?_, ?_, ?_⟩
    · show smallSuper.word 0 = sfsMagic
      decide +kernel
    · show 0 < smallSuper.word 1
      decide +kernel
    · show 0 < mapblocks (smallSuper.word 1)
      decide +kernel
  have name : CleanName smallSuper := by
    rw [CleanName]
    decide +kernel
  have inode : SfsInode.ofBlock ((smallVolume used root files).sect 1) = root := SfsInode.ofBlock_toBlock _
  obtain ⟨s, start, disk, steps⟩ := startWalk_of_clean accepted name (Nat.succ_lt_succ (Nat.succ_pos 6))
    (by rw [inode]; exact type)
  refine ⟨s, start, disk, ?_, steps.ninodes⟩
  rw [steps.bitblocks]
  show mapblocks (smallSuper.word 1) = 1
  decide +kernel

/-- The states of the walk over a volume of `8` blocks to which nothing is written. -/
structure Walking (disk : Lhd) (s : Check) : Prop where
  blocks : disk.blocks = 8
  disk : s.disk = disk
  bitblocks : s.bitblocks = 1
  ninodes : s.ninodes = 0

/-- So it starts in one of these states. -/
lemma Walking.start {used : Nat} {root : SfsInode} {files : Nat → Block} (type : root.type = typeDir)
    (run : startWalk (Check.start (smallVolume used root files)) = .ok (.ok (), s)) :
    Walking (smallVolume used root files) s := by
  obtain ⟨s', run', disk, bitblocks, ninodes⟩ := startWalk_small used files type
  rw [run'] at run
  cases run
  exact ⟨rfl, disk, bitblocks, ninodes⟩

section

variable {disk : Lhd} {links : UInt16} {block : UInt32} {d : List SfsDir}

/-- Marking a block leads to another of these states. -/
lemma Walking.mark (h : Walking disk s) (b : Nat) (how : Blockusage) : Walking disk (s.mark b how) :=
  ⟨h.blocks, (s.disk_mark b how).trans h.disk, (s.steps_mark b how).bitblocks.trans h.bitblocks,
    (s.steps_mark b how).ninodes.trans h.ninodes⟩

/-- `addmemory` puts an inode into the array, which stays empty. -/
lemma Walking.remember (h : Walking disk s) (i : Nat) (m : Inodememory) :
    Walking disk { s with inodes := Function.update s.inodes i m } :=
  ⟨h.blocks, h.disk, h.bitblocks, h.ninodes⟩

/-- All blocks of the volume have bits. -/
lemma Walking.marks (h : Walking disk s) {b : Nat} (lt : b < 8) (how : Blockusage) :
    bitmapMark b how s = .ok (.ok (), s.mark b how) := by
  apply bitmapMark_of_lt
  rw [h.bitblocks]
  omega

/-- All blocks of the volume can be read. -/
lemma Walking.reads (h : Walking disk s) {b : Nat} (lt : b < 8) : diskread b s = .ok (.ok (disk.sect b), s) := by
  have same : sector b = b := sector_of_lt (by omega)
  have onDisk : sector b < s.disk.blocks := by
    rw [h.disk, h.blocks, same]
    exact lt
  rw [diskread_of_lt onDisk, h.disk, same]

/-- The block of a file or directory is marked. -/
lemma Walking.inodeBlocks (h : Walking disk s) {size : UInt32} {type : UInt16} (isdir : Bool) (used : block ≠ 0)
    (lt : block.toNat < 8) (some : 0 < size.toNat) (small : size.toNat ≤ 512) :
    ∃ s', checkInodeBlocks (oneBlock size type links block) isdir s =
      .ok (.ok (oneBlock size type links block, false), s') ∧ Walking disk s' := by
  have one : roundup size.toNat 512 / 512 = 1 := by
    rw [roundup, wadd]
    omega
  have direct (how : Blockusage) : checkDirect (oneBlock size type links block) 1 how (List.finRange 15) 0 s =
      .ok (.ok 0, s.mark block.toNat how) := by
    have rest : ∀ k ∈ (List.finRange 15).tail, (oneBlock size type links block).direct k = 0 := by
      intro k mem
      exact if_neg (by revert k; decide)
    have first : (oneBlock size type links block).direct 0 = block := rfl
    show checkDirect _ 1 how (0 :: (List.finRange 15).tail) 0 s = _
    rw [checkDirect, first, if_neg used, if_pos (show (0 : Fin 15).val < 1 from Nat.one_pos)]
    rw [Prog.andThen_of_run (h.marks lt _), checkDirect_zeros rest]
    rfl
  refine ⟨_, ?_, h.mark block.toNat (if isdir then .dirdata else .data)⟩
  rw [checkInodeBlocks]
  show (checkDirect _ (roundup size.toNat 512 / 512) _ (List.finRange 15) 0 >>= _) s = _
  rw [one, Prog.andThen_of_run (direct _)]
  show (checkIndirectBlock 0 _ 0 _ >>= _) _ = _
  rw [checkIndirectBlock_zero]
  rfl

/-- A directory of a volume of `8` blocks, in which `check_dir` finds nothing to change. -/
structure Directory (disk : Lhd) (ino parentino : Nat) (links : UInt16) (block : UInt32) (d : List SfsDir) : Prop where
  onDisk : ino < 8
  inode : disk.sect ino = (dirInode links block d).toBlock
  used : block ≠ 0
  inside : block.toNat < 8
  some : 0 < d.length
  small : d.length ≤ 8
  entries : entriesOf (disk.sect block.toNat) = dirBuffer d
  names : ∀ s, checkNames ino parentino 8 (dirVars links block d) s = .ok (.ok (dirVars links block d), s)

/-- The entries are the first ones in the buffer. -/
lemma take_dirBuffer (d : List SfsDir) : (dirBuffer d).take d.length = d := by
  rw [dirBuffer, List.take_left]

/-- The size of the directory. -/
lemma Directory.size {ino parentino : Nat} (dir : Directory disk ino parentino links block d) :
    (dirInode links block d).size.toNat = 64 * d.length := by
  have small := dir.small
  show 64 * d.length % 2 ^ 32 = _
  omega

/-- The entries are read into the buffer. -/
lemma Walking.readEntries (h : Walking disk s) {ino parentino : Nat}
    (dir : Directory disk ino parentino links block d) :
    readEntries (dirInode links block d) d.length 8 s = .ok (.ok (dirBuffer d), s) := by
  have used : block.toNat ≠ 0 := fun zero => dir.used (UInt32.toNat_inj.1 zero)
  have read : readDirBlock block.toNat s = .ok (.ok (dirBuffer d), s) := by
    rw [readDirBlock, if_pos used, Prog.andThen_of_run (h.reads dir.inside), dir.entries]
    rfl
  have all : dirread (dirInode links block d) 1 0 s = .ok (.ok (dirBuffer d), s) := by
    show (readDirBlock block.toNat >>= fun e => pure (e ++ [])) s = _
    rw [Prog.andThen_of_run read, List.append_nil]
    rfl
  show (dirread (dirInode links block d) 1 0 >>= fun e =>
    pure (e.take d.length ++ List.replicate (8 - d.length) freeEntry)) s = _
  rw [Prog.andThen_of_run all, take_dirBuffer]
  rfl

/-- Such a directory is read as it is on the disk. -/
lemma Walking.opens (h : Walking disk s) {ino parentino : Nat} (dir : Directory disk ino parentino links block d) :
    ∃ s', openDir ino parentino s = .ok (.ok (some (dirVars links block d)), s') ∧ Walking disk s' := by
  have read : SfsInode.ofBlock (disk.sect ino) = dirInode links block d := by
    rw [dir.inode, SfsInode.ofBlock_toBlock]
  have sized : checkDirSize (dirInode links block d) = pure (dirInode links block d, false) := by
    rw [checkDirSize, if_neg (not_not.2 (by rw [dir.size, Nat.mul_mod_right]))]
  have places : (dirInode links block d).size.toNat / 64 = d.length := by
    rw [dir.size, Nat.mul_div_cancel_left _ (by decide)]
  have room : roundup d.length 8 = 8 := by
    have some := dir.some
    have small := dir.small
    rw [roundup, wadd]
    omega
  have h' := h.remember s.ninodes ⟨ino, 0⟩
  have some : 0 < (dirInode links block d).size.toNat := by
    rw [dir.size]
    exact Nat.mul_pos (Nat.succ_pos 63) dir.some
  have small : (dirInode links block d).size.toNat ≤ 512 := by
    rw [dir.size]
    exact Nat.mul_le_mul_left 64 dir.small
  obtain ⟨s', blocks, walking⟩ : ∃ s', checkInodeBlocks (dirInode links block d) true _ =
      .ok (.ok (dirInode links block d, false), s') ∧ Walking disk s' :=
    (h'.mark ino .inode).inodeBlocks true dir.used dir.inside some small
  refine ⟨s', ?_, walking⟩
  rw [openDir, Prog.andThen_of_run (h.reads dir.onDisk), Prog.andThen_of_run (rememberDir_of_zero h.ninodes ino),
    if_neg (by decide), Prog.andThen_of_run (h'.marks dir.onDisk _), read, sized, Prog.pure_andThen]
  dsimp only
  rw [Prog.andThen_of_run blocks]
  dsimp only
  rw [places, room, Prog.andThen_of_run (walking.readEntries dir), dir.inode]
  show (checkNames ino parentino 8 (dirVars links block d) >>= _) s' = _
  rw [Prog.andThen_of_run (dir.names s')]
  rfl

/-- The end of `check_dir` for a directory in which nothing has been changed. -/
lemma closeDir_same {n : Nat} {dir : Dir} (links : dir.sfi.linkcount.toNat = n + 2) (ichanged : dir.ichanged = false)
    (dchanged : dir.dchanged = false) (s : Check) : closeDir ino n dir s = .ok (.ok (), s) := by
  simp only [closeDir, links, ichanged, dchanged, ne_eq, not_true_eq_false, decide_false, Bool.false_eq_true, or_self,
    Prog.when, if_false]
  rfl

/-- The entries `"."` and `".."` are not followed. -/
lemma followEntries_dots (dots : ∀ sfd ∈ d, strcmp sfd.name dot = 0 ∨ strcmp sfd.name dotdot = 0) (s : Check) :
    followEntries check ino d s = .ok (.ok (d, false, 0), s) := by
  induction d with
  | nil => rfl
  | cons sfd d ih =>
    rw [List.forall_mem_cons] at dots
    have first : followEntry check ino sfd s = .ok (.ok (sfd, false, 0), s) := by
      rw [followEntry, if_pos (dots.1.imp_right Or.inl)]
      rfl
    rw [followEntries, Prog.andThen_of_run first]
    dsimp only
    rw [Prog.andThen_of_run (ih dots.2)]
    rfl

/-- A directory with no other entries is checked, and nothing is written. -/
lemma Walking.checkDir_dots (h : Walking disk s) (dir : Directory disk ino parentino 2 block d)
    (dots : ∀ sfd ∈ d, strcmp sfd.name dot = 0 ∨ strcmp sfd.name dotdot = 0) {fuel : Nat} {r : Bool}
    (run : checkDir fuel ino parentino s = .ok (.ok r, t)) : r = false ∧ Walking disk t := by
  cases fuel with
  | zero => cases run
  | succ fuel =>
    obtain ⟨s', opened, h'⟩ := h.opens dir
    rw [checkDir, checkDirWith, Prog.andThen_of_run opened] at run
    dsimp only at run
    rw [show (dirVars 2 block d).direntries.take (dirVars 2 block d).ndirentries = d from take_dirBuffer d,
      Prog.andThen_of_run (followEntries_dots dots s')] at run
    dsimp only at run
    rw [Prog.andThen_of_run (closeDir_same rfl rfl rfl s')] at run
    cases run
    exact ⟨rfl, h'⟩

/-- A file is counted. -/
lemma Walking.observes (h : Walking disk s) (lt : ino < 8) :
    ∃ s', observeFilelink ino s = .ok (.ok (), s') ∧ Walking disk s' := by
  have none : s.findInode ino = none := by
    rw [Check.findInode, h.ninodes]
    rfl
  have room : (s.mark ino .inode).ninodes ≤ (s.mark ino .inode).maxinodes := by
    rw [(h.mark _ _).ninodes]
    exact Nat.zero_le _
  refine ⟨_, ?_, (h.mark ino .inode).remember (s.mark ino .inode).ninodes ⟨ino, 1⟩⟩
  rw [observeFilelink, Prog.get_andThen, none]
  dsimp only
  rw [Prog.andThen_of_run (h.marks lt _), addmemory_of_le room]

/-- A file with one block is counted, and nothing is written. -/
lemma Walking.followEntry_file (h : Walking disk s) (check : Nat → Nat → CheckM Bool) (ino : Nat) (lt : sfd.ino < 8)
    {size : UInt32} (inode : disk.sect sfd.ino = (oneBlock size typeFile links block).toBlock)
    (named : ¬ (strcmp sfd.name dot = 0 ∨ strcmp sfd.name dotdot = 0 ∨ sfd.ino = 0)) (used : block ≠ 0)
    (inside : block.toNat < 8) (some : 0 < size.toNat) (small : size.toNat ≤ 512) :
    ∃ s', followEntry check ino sfd s = .ok (.ok (sfd, false, 0), s') ∧ Walking disk s' := by
  obtain ⟨u, blocks, h₁⟩ : ∃ u, checkInodeBlocks (oneBlock size typeFile links block) false s =
      .ok (.ok (oneBlock size typeFile links block, false), u) ∧ Walking disk u :=
    h.inodeBlocks false used inside some small
  obtain ⟨v, told, h₂⟩ := h₁.observes lt
  have read : SfsInode.ofBlock (disk.sect sfd.ino) = oneBlock size typeFile links block := by
    rw [inode, SfsInode.ofBlock_toBlock]
  refine ⟨v, ?_, h₂⟩
  rw [followEntry, if_neg named, Prog.andThen_of_run (h.reads lt), read]
  dsimp only
  rw [if_pos (show (oneBlock size typeFile links block).type = typeFile from rfl), Prog.andThen_of_run blocks]
  show (observeFilelink sfd.ino >>= _) u = _
  rw [Prog.andThen_of_run told]
  rfl

end

/-- The entries of a root directory with a subdirectory `"d"` and a file `"f"`. -/
def treeEntries : List SfsDir := [entry 1 dot, entry 1 dotdot, entry 4 [100], entry 5 [102]]

/-- The entries of the subdirectory. -/
def subEntries : List SfsDir := [entry 4 dot, entry 1 dotdot]

/-- The inode of the file, the data of which is in block `7`. -/
def treeFile : SfsInode := oneBlock 100 typeFile 1 7

/-- The volume with these directories. -/
def treeDisk : Lhd :=
  smallVolume 8 (dirInode 3 3 treeEntries) fun b =>
    if b = 3 then blockOf treeEntries
    else if b = 4 then (dirInode 2 6 subEntries).toBlock
    else if b = 5 then treeFile.toBlock
    else if b = 6 then blockOf subEntries
    else Block.zeros

/-- The calls of `check_dir` on this volume: the directories whose calls are under way, the arguments and the entries. -/
inductive TreeCall : List Nat → Nat → Nat → UInt16 → UInt32 → List SfsDir → Prop where
  | root : TreeCall [] 1 1 3 3 treeEntries
  | sub : TreeCall [1] 4 1 2 6 subEntries

section

variable {stack : List Nat} {links : UInt16} {block : UInt32} {d pre : List SfsDir}

/-- The subdirectory has no other entries. -/
lemma dots_subEntries : ∀ sfd ∈ subEntries, strcmp sfd.name dot = 0 ∨ strcmp sfd.name dotdot = 0 := by
  decide

/-- Nothing is to be changed in these directories. -/
lemma TreeCall.directory (h : TreeCall stack ino parentino links block d) :
    Directory treeDisk ino parentino links block d := by
  cases h with
  | root =>
    exact ⟨by decide, rfl, by decide, by decide, by decide, by decide, by decide +kernel, fun _ => rfl⟩
  | sub =>
    exact ⟨by decide, rfl, by decide, by decide, by decide, by decide, by decide +kernel, fun _ => rfl⟩

/-- An entry of one of these directories is `"."` or `".."`, the subdirectory or the file. -/
lemma TreeCall.known (h : TreeCall stack ino parentino links block d) (mem : sfd ∈ d) :
    (strcmp sfd.name dot = 0 ∨ strcmp sfd.name dotdot = 0) ∨ ino = 1 ∧ (sfd = entry 4 [100] ∨ sfd = entry 5 [102]) := by
  cases h with
  | sub => exact .inl (dots_subEntries sfd mem)
  | root =>
    simp only [treeEntries, List.mem_cons, List.not_mem_nil, or_false] at mem
    obtain rfl | rfl | rfl | rfl := mem
    · exact .inl (by decide)
    · exact .inl (by decide)
    · exact .inr ⟨rfl, .inl rfl⟩
    · exact .inr ⟨rfl, .inr rfl⟩

/-- Following an entry writes nothing. -/
lemma TreeCall.follow (h : TreeCall stack ino parentino links block d) (mem : sfd ∈ d) (walking : Walking treeDisk s)
    {fuel : Nat} {r : SfsDir × Bool × Nat} (run : followEntry (checkDir fuel) ino sfd s = .ok (.ok r, t)) :
    Walking treeDisk t := by
  obtain dots | ⟨rfl, rfl | rfl⟩ := h.known mem
  · rw [followEntry, if_pos (dots.imp_right Or.inl)] at run
    cases run
    exact walking
  · have inode : SfsInode.ofBlock (treeDisk.sect 4) = dirInode 2 6 subEntries := SfsInode.ofBlock_toBlock _
    rw [followEntry, if_neg (by decide), Prog.andThen_of_run (walking.reads (show (entry 4 [100]).ino < 8 by decide)),
      show SfsInode.ofBlock (treeDisk.sect (entry 4 [100]).ino) = dirInode 2 6 subEntries from inode] at run
    obtain ⟨crosslinked, u, checked, run⟩ := Prog.ok_of_andThen run
    obtain ⟨rfl, after⟩ := walking.checkDir_dots TreeCall.sub.directory dots_subEntries checked
    cases run
    exact after
  · have inode : treeDisk.sect 5 = (oneBlock 100 typeFile 1 7).toBlock := rfl
    obtain ⟨u, run', after⟩ := walking.followEntry_file (checkDir fuel) 1 (show (entry 5 [102]).ino < 8 by decide) inode
      (by decide) (by decide) (by decide) (by decide) (by decide)
    rw [run'] at run
    cases run
    exact after

/-- Following the entries writes nothing. -/
lemma TreeCall.follows (h : TreeCall stack ino parentino links block d) (mem : ∀ sfd ∈ pre, sfd ∈ d)
    (walking : Walking treeDisk s) {fuel : Nat} {r : List SfsDir × Bool × Nat}
    (run : followEntries (checkDir fuel) ino pre s = .ok (.ok r, t)) : Walking treeDisk t := by
  induction pre generalizing s r with
  | nil =>
    cases run
    exact walking
  | cons sfd pre ih =>
    rw [List.forall_mem_cons] at mem
    obtain ⟨a, u, first, run⟩ := Prog.ok_of_andThen run
    obtain ⟨b, v, rest, done⟩ := Prog.ok_of_andThen run
    cases done
    exact ih mem.2 (h.follow mem.1 walking first) rest

/-- What the walk comes to in a directory of the volume is one of the entries. -/
lemma TreeCall.comes (h : TreeCall stack ino parentino links block d) (walking : Walking treeDisk s) {dir : Dir}
    {s₁ s₂ : Check} {post : List SfsDir} (opened : openDir ino parentino s = .ok (.ok (some dir), s₁))
    (entries : dir.direntries.take dir.ndirentries = pre ++ sfd :: post) {fuel : Nat} {r : List SfsDir × Bool × Nat}
    (before : followEntries (checkDir fuel) ino pre s₁ = .ok (.ok r, s₂)) : sfd ∈ d ∧ Walking treeDisk s₂ := by
  obtain ⟨s', opened', after⟩ := walking.opens h.directory
  rw [opened'] at opened
  cases opened
  have entries : d = pre ++ sfd :: post := (take_dirBuffer d).symm.trans entries
  refine ⟨?_, h.follows ?_ after before⟩
  · rw [entries]
    exact List.mem_append_right _ List.mem_cons_self
  · intro e mem
    rw [entries]
    exact List.mem_append_left _ mem

/-- The calls on the volume are the two, and nothing has been written before them. -/
lemma Entered.tree (h : Entered treeDisk stack ino parentino s) :
    (∃ links block d, TreeCall stack ino parentino links block d) ∧ Walking treeDisk s := by
  induction h with
  | root run => exact ⟨⟨_, _, _, .root⟩, .start rfl run⟩
  | sub up opened entries before subdir ih =>
    obtain ⟨⟨links, block, d, call⟩, walking⟩ := ih
    obtain ⟨mem, after⟩ := call.comes walking opened entries before
    refine ⟨?_, after⟩
    obtain dots | ⟨rfl, rfl | rfl⟩ := call.known mem
    · exact absurd (dots.imp_right Or.inl) subdir.named
    · cases call
      exact ⟨_, _, _, .sub⟩
    · have type := subdir.type
      rw [after.disk] at type
      have inode : SfsInode.ofBlock (treeDisk.sect 5) = treeFile := SfsInode.ofBlock_toBlock _
      exact absurd ((congrArg SfsInode.type inode).symm.trans type) (by decide)

end

/-! ## When the walk ends -/

end PDS.Sfsck
