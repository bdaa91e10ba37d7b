import PDS.Sfs.Bmap

/-!
# A disk with errors

The functions of the file system once more, on a disk whose requests fail in any pattern. `req` says how each
request of a run ends, the requests being counted in the second component of the state: it is carried out, it is
`lost`, that is, reported as a success although nothing has been written, or it fails and leaves the disk as it is.
A write of `sfs_rwblock` whose first attempt ends with a media error is lost, and no write to an `lhd` fails
(`wblock_lhd`); a read fails or returns the sector (`rblock_lhd`). Other devices may fail to write as well.

Functions that do not access the disk are those of `Fs` and `Vnode`; where every request is carried out, the others
are those of `Fs`, `Vnode` and `Mount` too.
-/

namespace PDS.Sfs
open Kern Word

section Disk

variable {d d' : Lhd} {u u' : Uio} {r : Nat}

/-- The operations of a request do not fail; a write for one sector takes the bytes of one sector. -/
lemma lhdIoLoop_noError {t sector len i : Nat} (run : lhdIoLoop (noError t) sector len i d u = .ok (r, d', u')) :
    r = 0 := by
  induction len generalizing i d u with
  | zero =>
    cases run
    rfl
  | succ len ih =>
    rw [lhdIoLoop] at run
    split at run
    · obtain ⟨⟨buf, u₁⟩, -, rest⟩ := bind_ok_iff.1 run
      exact ih rest
    · obtain ⟨⟨buf, u₁⟩, -, rest⟩ := bind_ok_iff.1 run
      exact ih rest

/-- What an operation on one sector does to the disk and to the request. -/
structure Served (d : Lhd) (u : Uio) (d' : Lhd) (u' : Uio) : Prop where
  write : u.rw = .write → u' = u.advance 512 ∧ ∀ b < 2 ^ 32, u.offset = b * 512 →
    d' = { d with sect := Function.update d.sect b (Block.zeros.store 0 (u.data.take 512)) }
  read : u.rw = .read → ∀ b < 2 ^ 32, u.offset = b * 512 → d' = d ∧ u' = u.put ((d.sect b).slice 0 512)

/-- Without media errors the driver serves the request. -/
lemma lhdIo_noError {t : Nat} (run : lhdIo (noError t) d u = .ok (r, d', u')) (ne : r ≠ einval) :
    r = 0 ∧ (u.Fits → u.resid = 512 → Served d u d' u') := by
  rw [lhdIo] at run
  split_ifs at run with odd past
  · cases run
    exact absurd rfl ne
  · cases run
    exact absurd rfl ne
  · refine ⟨lhdIoLoop_noError run, ?_⟩
    intro fits resid
    have len : u.resid / blocksize = 1 := by
      rw [resid]
      decide
    rw [len, lhdIoLoop] at run
    have sector {b : Nat} (small : b < 2 ^ 32) (offset : u.offset = b * 512) :
        wadd 32 (u.offset / blocksize % 2 ^ 32) 0 = b := by
      rw [wadd, offset, blocksize]
      omega
    refine ⟨?_, ?_⟩
    · intro write
      rw [write] at run
      dsimp only at run
      rw [uiomove_write fits write (by rw [resid]; decide)] at run
      cases run
      refine ⟨rfl, fun b small offset => ?_⟩
      rw [← sector small offset]
      rfl
    · intro read b small offset
      have sector := sector small offset
      rw [read] at run
      dsimp only at run
      rw [if_pos (show noError t 0 = true from rfl), sector, uiomove_read fits read (by rw [resid]; decide)] at run
      cases run
      exact ⟨rfl, rfl⟩

/-- Nor does `sfs_rwblock` fail. -/
lemma sfsRwblock_noError (run : sfsRwblock noError d u = .ok (r, d', u')) :
    r = 0 ∧ (u.Fits → u.resid = 512 → Served d u d' u') := by
  rw [sfsRwblock, sfsRwblockLoop] at run
  obtain ⟨⟨r₁, d₁, u₁⟩, io, rest⟩ := bind_ok_iff.1 run
  dsimp only at rest
  split_ifs at rest with invalid failed
  · have zero := (lhdIo_noError io invalid).1
    rw [zero] at failed
    cases failed
  · cases rest
    exact lhdIo_noError io invalid

/-- Its request is well formed. -/
lemma sfsUio_fits (data : List UInt8) (block : Nat) (rw : UioRw) : (sfsUio data block rw).Fits where
  le := Nat.le_of_eq (by simp [sfsUio, uioKinit])
  lt := by
    simp only [sfsUio, uioKinit, blocksize]
    omega

end Disk

section Block

variable {s : SfsFs} {b : Nat} {data : Block}

/-- A read of a block that returns. -/
lemma wlp_rblock {Q : Block → SfsFs → Prop} {E : Nat → SfsFs → Prop}
    (ok : ∀ data dev, (b < 2 ^ 32 → data = s.dev.sect b ∧ dev = s.dev) → Q data { s with dev := dev }) :
    Prog.wlp (rblock b) Q E s := by
  rw [Prog.wlp_iff]
  intro r s' run
  rw [rblock, sfsRblock] at run
  cases io : sfsRwblock noError s.dev (sfsUio [] b .read) with
  | error h =>
    rw [io] at run
    cases run
  | ok p =>
    obtain ⟨result, dev, u⟩ := p
    rw [io] at run
    cases run
    obtain ⟨rfl, served⟩ := sfsRwblock_noError io
    refine ⟨?_, fun e no => by cases no⟩
    intro data eq
    refine ok data dev fun small => ?_
    obtain ⟨rfl, rfl⟩ := (served (sfsUio_fits ..) rfl).read rfl b small rfl
    refine ⟨?_, rfl⟩
    rw [← Block.store_slice Block.zeros (s.dev.sect b)]
    exact (Except.ok.inj eq).symm

/-- A write of a block that returns. -/
lemma wlp_wblock {Q : Unit → SfsFs → Prop} {E : Nat → SfsFs → Prop}
    (ok : ∀ dev, (b < 2 ^ 32 → dev = (s.write b data).dev) → Q () { s with dev := dev }) :
    Prog.wlp (wblock data b) Q E s := by
  rw [Prog.wlp_iff]
  intro r s' run
  rw [wblock, sfsWblock] at run
  cases io : sfsRwblock noError s.dev (sfsUio (data.slice 0 blocksize) b .write) with
  | error h =>
    rw [io] at run
    cases run
  | ok p =>
    obtain ⟨result, dev, u⟩ := p
    rw [io] at run
    cases run
    obtain ⟨rfl, served⟩ := sfsRwblock_noError io
    refine ⟨?_, fun e no => by cases no⟩
    intro _ _
    refine ok dev fun small => ?_
    rw [((served (sfsUio_fits ..) rfl).write rfl).2 b small rfl]
    have whole : Block.zeros.store 0 ((data.slice 0 blocksize).take 512) = data := by
      rw [List.take_of_length_le (by simp [blocksize])]
      exact Block.store_slice _ data
    rw [show (sfsUio (data.slice 0 blocksize) b .write).data = data.slice 0 blocksize from rfl, whole]
    rfl

end Block

/-- How a request to the disk ends. -/
inductive Request where
  | done
  | lost
  | fails (result : Nat) (ne : result ≠ 0)
deriving DecidableEq, Repr

/-- The request is reported as a failure. -/
def Request.Fails : Request → Prop
  | .fails _ _ => True
  | _ => False

/-- A function of the file system on a disk with errors; the second component is the number of requests so far. -/
abbrev FaultM := Prog Halt Nat (SfsFs × Nat)

namespace Faulty

section

variable (req : Nat → Request)

/-- C `sfs_rblock`. -/
def rblock (block : Nat) : FaultM Block := fun s =>
  match Sfs.rblock block s.1 with
  | .error h => .error h
  | .ok (r, s') =>
    match req s.2 with
    | .fails result _ => .ok (.error result, (s.1, s.2 + 1))
    | _ => .ok (r, (s', s.2 + 1))

/-- C `sfs_wblock`. -/
def wblock (data : Block) (block : Nat) : FaultM Unit := fun s =>
  match Sfs.wblock data block s.1 with
  | .error h => .error h
  | .ok (r, s') =>
    match req s.2 with
    | .done => .ok (r, (s', s.2 + 1))
    | .lost => .ok (r, (s.1, s.2 + 1))
    | .fails result _ => .ok (.error result, (s.1, s.2 + 1))

/-- Zero out a disk block (C `sfs_clearblock`). -/
def sfsClearblock (block : Nat) : FaultM Unit := wblock req Block.zeros block

/-- Allocate a block (C `sfs_balloc`). -/
def sfsBalloc : FaultM Nat := do
  let s ← Prog.onFst Prog.get
  match bitmapAlloc (bitmapsize s.nblocks) s.freemap with
  | none => Prog.fail enospc
  | some block => do
    Prog.onFst (Prog.modify fun s =>
      { s with freemap := Function.update s.freemap block true, freemapdirty := true })
    Prog.require (block < s.nblocks) (.panic s!"sfs: balloc: invalid block {block}\n")
    sfsClearblock req block
    pure block

/-- `sfs_bmap` for a direct block. -/
def sfsBmapDirect (sv : Nat) (fileblock : Fin 15) (doalloc : Bool) : FaultM Nat := do
  let v ← Prog.onFst (getVnode sv)
  let block := (v.i.direct fileblock).toNat
  if block = 0 ∧ doalloc then do
    let block ← sfsBalloc req
    Prog.onFst (setInode sv fun i => { i with direct := Function.update i.direct fileblock (UInt32.ofNat block) })
    Prog.onFst (checkUsed sv block fileblock.val)
  else Prog.onFst (checkUsed sv block fileblock.val)

/-- `sfs_bmap` for the entry `idoff` of the indirect block `idblock`, which is in `idbuf`. -/
def sfsBmapEntry (sv idblock : Nat) (idbuf : Nat → Nat) (idoff : Nat) (doalloc : Bool) : FaultM Nat := do
  let block := idbuf idoff
  if block = 0 ∧ doalloc then do
    let block ← sfsBalloc req
    wblock req (Block.ofWords (Function.update idbuf idoff block)) idblock
    Prog.onFst (checkUsed sv block idoff)
  else Prog.onFst (checkUsed sv block idoff)

/-- The disk block of a block of a file, which is allocated if `doalloc` is set (C `sfs_bmap`). -/
def sfsBmap (sv fileblock : Nat) (doalloc : Bool) : FaultM Nat :=
  if h : fileblock < 15 then sfsBmapDirect req sv ⟨fileblock, h⟩ doalloc
  else
    let idnum := (fileblock - 15) / 128
    let idoff := (fileblock - 15) % 128
    if idnum > 0 then Prog.fail efbig
    else do
      let v ← Prog.onFst (getVnode sv)
      let idblock := v.i.indirect.toNat
      if idblock = 0 ∧ !doalloc then pure 0
      else if idblock = 0 then do
        let idblock ← sfsBalloc req
        Prog.onFst (setInode sv fun i => { i with indirect := UInt32.ofNat idblock })
        sfsBmapEntry req sv idblock (fun _ => 0) idoff doalloc
      else do
        let idbuf ← rblock req idblock
        sfsBmapEntry req sv idblock idbuf.word idoff doalloc

/-- The part of `sfs_truncate` for the indirect block `idblock`. -/
def truncateIdblock (sv blocklen idblock : Nat) : FaultM Unit := do
  let buf ← rblock req idblock
  let r ← Prog.onFst (truncateIndirect blocklen 128 0 buf.word false)
  if (List.range 128).all fun j => r.1 j = 0 then Prog.onFst do
    sfsBfree idblock
    setInode sv fun i => { i with indirect := 0 }
  else if r.2 then wblock req (Block.ofWords r.1) idblock
  else pure ()

/-- Sets the length of a file (C `sfs_truncate`). -/
def sfsTruncate (sv : Nat) (len : Int) : FaultM Unit := do
  let blocklen := (Int.tdiv (len + 512 - 1) 512 % 2 ^ 32).toNat
  Prog.onFst (truncateDirect sv blocklen 15 0)
  let v ← Prog.onFst (getVnode sv)
  let idblock := v.i.indirect.toNat
  let _ ← (if blocklen < 15 + 128 - 1 ∧ idblock ≠ 0 then truncateIdblock req sv blocklen idblock else pure ())
  Prog.onFst (setInode sv fun i => { i with size := UInt32.ofNat (len % 2 ^ 32).toNat })

/-- Write an on-disk inode structure back out to disk (C `sfs_sync_inode`). -/
def sfsSyncInode (sv : Nat) : FaultM Unit := do
  let v ← Prog.onFst (getVnode sv)
  if v.dirty then do
    wblock req v.i.toBlock v.ino
    Prog.onFst (setVnode sv fun v => { v with dirty := false })
  else pure ()

/-- Called for `fsync()` (C `sfs_fsync`). -/
def sfsFsync (sv : Nat) : FaultM Unit := sfsSyncInode req sv

/-- The loop of `sfs_mapio` that writes the blocks of the free map from `j` on (C `sfs_mapio`). -/
def sfsMapioWrite : Nat → Nat → FaultM Unit
  | 0, _ => pure ()
  | n + 1, j => do
    let s ← Prog.onFst Prog.get
    wblock req (mapBlock s.freemap j) (2 + j)
    sfsMapioWrite n (j + 1)

/-- The loop of `sfs_sync` over the loaded vnodes; errors of `VOP_FSYNC` are ignored. -/
def sfsSyncVnodes : List Nat → FaultM Unit
  | [] => pure ()
  | sv :: vnodes => do
    let _ ← Prog.attempt (sfsFsync req sv)
    sfsSyncVnodes vnodes

/-- The free map is written if it is dirty. -/
def sfsSyncMap : FaultM Unit := do
  let s ← Prog.onFst Prog.get
  if s.freemapdirty then do
    sfsMapioWrite req (bitblocks s.nblocks) 0
    Prog.onFst (Prog.modify fun s => { s with freemapdirty := false })
  else pure ()

/-- The superblock is written if it is dirty. -/
def sfsSyncSuper : FaultM Unit := do
  let s ← Prog.onFst Prog.get
  if s.superdirty then do
    wblock req s.super 0
    Prog.onFst (Prog.modify fun s => { s with superdirty := false })
  else pure ()

/-- Writes everything that is dirty (C `sfs_sync`). -/
def sfsSync : FaultM Unit := do
  let s ← Prog.onFst Prog.get
  sfsSyncVnodes req s.vnodes
  sfsSyncMap req
  sfsSyncSuper req

end

section Erase

variable {b : Nat} {data : Block}

/-- Every request is carried out. -/
abbrev allDone : Nat → Request := fun _ => .done

/-- Without faults `sfs_rblock` is the plain one. -/
lemma rblock_erases (b : Nat) : Prog.Erases (rblock allDone b) (Sfs.rblock b) := by
  intro s
  rw [rblock]
  cases Sfs.rblock b s.1 <;> rfl

/-- Likewise `sfs_wblock`. -/
lemma wblock_erases (data : Block) (b : Nat) : Prog.Erases (wblock allDone data b) (Sfs.wblock data b) := by
  intro s
  rw [wblock]
  cases Sfs.wblock data b s.1 <;> rfl

/-- Likewise `sfs_balloc`. -/
lemma sfsBalloc_erases : Prog.Erases (sfsBalloc allDone) Sfs.sfsBalloc := by
  refine .bind (.onFst _) fun s => ?_
  cases bitmapAlloc (bitmapsize s.nblocks) s.freemap with
  | none => exact .fail _
  | some block =>
    exact .bind (.onFst _) fun _ => .bind .require fun _ => .bind (wblock_erases _ _) fun _ => .pure _

/-- Likewise the entries of `sfs_bmap`. -/
lemma sfsBmapEntry_erases (sv idblock : Nat) (idbuf : Nat → Nat) (idoff : Nat) (doalloc : Bool) :
    Prog.Erases (sfsBmapEntry allDone sv idblock idbuf idoff doalloc) (Sfs.sfsBmapEntry sv idblock idbuf idoff doalloc) := by
  refine .ite ?_ (.onFst _)
  exact .bind sfsBalloc_erases fun block => .bind (wblock_erases _ _) fun _ => .onFst _

/-- Likewise `sfs_bmap`. -/
lemma sfsBmap_erases (sv fileblock : Nat) (doalloc : Bool) :
    Prog.Erases (sfsBmap allDone sv fileblock doalloc) (Sfs.sfsBmap sv fileblock doalloc) := by
  rw [sfsBmap, Sfs.sfsBmap]
  split_ifs with direct
  · refine .bind (.onFst _) fun v => .ite ?_ (.onFst _)
    exact .bind sfsBalloc_erases fun block => .bind (.onFst _) fun _ => .onFst _
  · refine .ite (.fail _) (.bind (.onFst _) fun v => .ite (.pure _) (.ite ?_ ?_))
    · exact .bind sfsBalloc_erases fun idblock => .bind (.onFst _) fun _ => sfsBmapEntry_erases _ _ _ _ _
    · exact .bind (rblock_erases _) fun idbuf => sfsBmapEntry_erases _ _ _ _ _

/-- Likewise the indirect block in `sfs_truncate`. -/
lemma truncateIdblock_erases (sv blocklen idblock : Nat) :
    Prog.Erases (truncateIdblock allDone sv blocklen idblock) (Sfs.truncateIdblock sv blocklen idblock) :=
  .bind (rblock_erases _) fun _ => .bind (.onFst _) fun _ =>
    .ite (.onFst _) (.ite (wblock_erases _ _) (.pure _))

/-- Likewise `sfs_truncate`. -/
lemma sfsTruncate_erases (sv : Nat) (len : Int) :
    Prog.Erases (sfsTruncate allDone sv len) (Sfs.sfsTruncate sv len) :=
  .bind (.onFst _) fun _ => .bind (.onFst _) fun _ =>
    .bind (.ite (truncateIdblock_erases _ _ _) (.pure _)) fun _ => .onFst _

/-- Likewise `sfs_sync_inode`. -/
lemma sfsSyncInode_erases (sv : Nat) : Prog.Erases (sfsSyncInode allDone sv) (Sfs.sfsSyncInode sv) :=
  .bind (.onFst _) fun _ => .ite (.bind (wblock_erases _ _) fun _ => .onFst _) (.pure _)

/-- Likewise the writing `sfs_mapio`. -/
lemma sfsMapioWrite_erases (n j : Nat) : Prog.Erases (sfsMapioWrite allDone n j) (Sfs.sfsMapioWrite n j) := by
  induction n generalizing j with
  | zero => exact .pure _
  | succ n ih => exact .bind (.onFst _) fun _ => .bind (wblock_erases _ _) fun _ => ih _

/-- Likewise the loop of `sfs_sync` over the vnodes. -/
lemma sfsSyncVnodes_erases (vnodes : List Nat) :
    Prog.Erases (sfsSyncVnodes allDone vnodes) (Sfs.sfsSyncVnodes vnodes) := by
  induction vnodes with
  | nil => exact .pure _
  | cons sv vnodes ih => exact .bind (sfsSyncInode_erases sv).attempt fun _ => ih

/-- The functions of this file are the ones without errors when every request is carried out. -/
lemma sfsSync_erases : Prog.Erases (sfsSync allDone) Sfs.sfsSync := by
  refine .bind (.onFst _) fun s => .bind (sfsSyncVnodes_erases _) fun _ => .bind ?_ fun _ => ?_
  · refine .bind (.onFst _) fun s => .ite ?_ (.pure _)
    exact .bind (sfsMapioWrite_erases _ _) fun _ => .onFst _
  · exact .bind (.onFst _) fun s => .ite (.bind (wblock_erases _ _) fun _ => .onFst _) (.pure _)

end Erase

section Requests

variable {req : Nat → Request} {s : SfsFs} {n b : Nat} {data : Block} {d : Lhd} {u : Uio}

/-- A read of a block that returns. -/
lemma wlp_rblock {Q : Block → SfsFs × Nat → Prop} {E : Nat → SfsFs × Nat → Prop}
    (ok : ∀ data dev, ¬ (req n).Fails → (b < 2 ^ 32 → data = s.dev.sect b ∧ dev = s.dev) →
      Q data ({ s with dev := dev }, n + 1))
    (err : ∀ e ne, req n = .fails e ne → E e (s, n + 1)) : Prog.wlp (rblock req b) Q E (s, n) := by
  rw [Prog.wlp_iff]
  intro r st run
  rw [rblock] at run
  dsimp only at run
  cases inner : Sfs.rblock b s with
  | error h =>
    rw [inner] at run
    cases run
  | ok p =>
    obtain ⟨r₁, s₁⟩ := p
    rw [inner] at run
    have read (works : ¬ (req n).Fails) := Prog.wlp_iff.1
      (Sfs.wlp_rblock (fun data dev => ok data dev works) : Prog.wlp (Sfs.rblock b) (fun data s' => Q data (s', n + 1))
        (fun _ _ => False) s) r₁ s₁ inner
    cases end_ : req n with
    | fails e ne =>
      rw [end_] at run
      cases run
      refine ⟨nofun, ?_⟩
      rintro _ ⟨⟩
      exact err e ne end_
    | done =>
      rw [end_] at run read
      cases run
      obtain ⟨good, bad⟩ := read id
      exact ⟨good, fun e eq => (bad e eq).elim⟩
    | lost =>
      rw [end_] at run read
      cases run
      obtain ⟨good, bad⟩ := read id
      exact ⟨good, fun e eq => (bad e eq).elim⟩

/-- A write of a block that returns. -/
lemma wlp_wblock {Q : Unit → SfsFs × Nat → Prop} {E : Nat → SfsFs × Nat → Prop}
    (ok : ∀ dev, req n = .done → (b < 2 ^ 32 → dev = (s.write b data).dev) → Q () ({ s with dev := dev }, n + 1))
    (lost : req n = .lost → Q () (s, n + 1)) (err : ∀ e ne, req n = .fails e ne → E e (s, n + 1)) :
    Prog.wlp (wblock req data b) Q E (s, n) := by
  rw [Prog.wlp_iff]
  intro r st run
  rw [wblock] at run
  dsimp only at run
  cases inner : Sfs.wblock data b s with
  | error h =>
    rw [inner] at run
    cases run
  | ok p =>
    obtain ⟨r₁, s₁⟩ := p
    rw [inner] at run
    cases end_ : req n with
    | fails e ne =>
      rw [end_] at run
      cases run
      refine ⟨nofun, ?_⟩
      rintro _ ⟨⟩
      exact err e ne end_
    | done =>
      have base : Prog.wlp (Sfs.wblock data b) (fun a s' => Q a (s', n + 1)) (fun _ _ => False) s :=
        Sfs.wlp_wblock fun dev => ok dev end_
      obtain ⟨good, bad⟩ := Prog.wlp_iff.1 base r₁ s₁ inner
      rw [end_] at run
      cases run
      exact ⟨good, fun e eq => (bad e eq).elim⟩
    | lost =>
      have base : Prog.wlp (Sfs.wblock data b) (fun _ _ => True) (fun _ _ => False) s :=
        Sfs.wlp_wblock fun _ _ => trivial
      obtain ⟨-, bad⟩ := Prog.wlp_iff.1 base r₁ s₁ inner
      rw [end_] at run
      cases run
      exact ⟨fun _ _ => lost end_, fun e eq => (bad e eq).elim⟩

variable (blocks : s.dev.blocks = s.nblocks) (lt : b < s.nblocks)
include blocks lt

/-- A write of a block of the volume. -/
lemma wp_wblock {Q : Unit → SfsFs × Nat → Prop} {E : Nat → SfsFs × Nat → Prop}
    (done : req n = .done → Q () (s.write b data, n + 1)) (lost : req n = .lost → Q () (s, n + 1))
    (err : ∀ e ne, req n = .fails e ne → E e (s, n + 1)) : Prog.wp (wblock req data b) Q E (s, n) := by
  rw [Prog.wp, wblock]
  dsimp only
  rw [wblock_run blocks lt]
  cases end_ : req n with
  | fails e ne => exact err e ne end_
  | done => exact done end_
  | lost => exact lost end_

omit blocks

/-- However the operations of an `lhd` end, a write to it is carried out or lost. -/
lemma wblock_lhd (outcome : Nat → Nat → Bool) (blocks : s.dev.blocks = s.nblocks) :
    ∃ r : Request, (r = .done ∨ r = .lost) ∧ ∀ n, wblock (fun _ => r) data b (s, n) =
      (sfsWblock outcome s.dev data b).map fun p =>
        (if p.1 = 0 then .ok () else .error p.1, ({ s with dev := p.2 }, n + 1)) := by
  have small : s.nblocks < 2 ^ 32 := Block.word_lt ..
  rw [← blocks] at lt small
  by_cases ok : outcome 0 0 = true
  · refine ⟨.done, .inl rfl, fun n => ?_⟩
    rw [wblock]
    dsimp only
    rw [wblock_run blocks (blocks ▸ lt), sfsWblock_ok data lt small ok]
    rfl
  · refine ⟨.lost, .inr rfl, fun n => ?_⟩
    rw [wblock]
    dsimp only
    rw [wblock_run blocks (blocks ▸ lt), sfsWblock_lost data lt small (by simpa using ok)]
    rfl

/-- However the operations of an `lhd` end, a read from it is carried out or fails with `EIO`. -/
lemma rblock_lhd (outcome : Nat → Nat → Bool) (blocks : s.dev.blocks = s.nblocks) :
    ∃ r : Request, (r = .done ∨ r = .fails eio (by decide)) ∧ ∀ n, rblock (fun _ => r) b (s, n) =
      (sfsRblock outcome s.dev Block.zeros b).map fun p =>
        (if p.1 = 0 then .ok p.2.2 else .error p.1, ({ s with dev := p.2.1 }, n + 1)) := by
  have small : s.nblocks < 2 ^ 32 := Block.word_lt ..
  have run := rblock_run blocks lt
  rw [← blocks] at lt small
  have ends := (atBlock_sfsUio [] .read lt small).sfsRwblockLoop_ends rfl outcome 11 0
  have whole : Block.zeros.store 0 ((s.dev.sect b).slice 0 512) = s.dev.sect b := Block.store_slice _ _
  obtain good | bad := ends
  · refine ⟨.done, .inl rfl, fun n => ?_⟩
    rw [rblock]
    dsimp only
    rw [run, sfsRblock, sfsRwblock, good, ok_bind]
    dsimp only [sfsUio, uioKinit, Uio.put, blocksize]
    rw [List.nil_append, whole]
    rfl
  · refine ⟨.fails eio (by decide), .inr rfl, fun n => ?_⟩
    rw [rblock]
    dsimp only
    rw [run, sfsRblock, sfsRwblock, bad, ok_bind]
    rfl

end Requests

end Faulty

end PDS.Sfs
