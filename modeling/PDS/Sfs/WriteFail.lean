import PDS.Sfs.Contents
import PDS.Sfs.Faults

/-!
# Writes that fail

How `sfs_io` ends when a block cannot be mapped, whatever the volume looks like: nothing is assumed of the free map,
of the table of vnodes or of the size of the disk. All its exits go through one update of the size, which looks at
the offset alone (`sfs_write_size_iff`), and the number of a file block is cut to 32 bits before it is compared with
the maximum (`sfs_write_efbig_iff`).
-/

namespace PDS.Sfs
open Kern Word

/-- All blocks are marked as in use. -/
def SfsFs.Full (s : SfsFs) : Prop := ∀ b < bitmapsize s.nblocks, s.freemap b = true

/-- A block of a file is missing, and there is no space for it and for the indirect block, if that is missing as
well. -/
def NoRoom (s : SfsFs) (sv fileblock : Nat) : Prop :=
  if h : fileblock < 15 then ((s.vnode sv).i.direct ⟨fileblock, h⟩).toNat = 0 ∧ s.Full
  else if (s.vnode sv).i.indirect.toNat = 0 then
    ∀ b < bitmapsize s.nblocks, s.freemap b = false → (s.mark b).Full
  else (s.dev.sect (s.vnode sv).i.indirect.toNat).word ((fileblock - 15) % 128) = 0 ∧ s.Full

/-- The file is as long as it was. -/
def SameSize (sv : Nat) (s s' : SfsFs) : Prop := (s'.vnode sv).i.size = (s.vnode sv).i.size

section Map

variable {s s' : SfsFs} {sv b fb : Nat} {data : Block} {α : Type}

/-- The size stays over two steps. -/
lemma SameSize.trans {s₁ s₂ s₃ : SfsFs} (h : SameSize sv s₁ s₂) (h' : SameSize sv s₂ s₃) : SameSize sv s₁ s₃ :=
  Eq.trans h' h

/-- A change of other fields keeps the size. -/
lemma SameSize.setInode (f : SfsInode → SfsInode) (size : (f (s.vnode sv).i).size = (s.vnode sv).i.size) :
    SameSize sv s (s.mapVnode sv (onInode f)) := by
  rw [SameSize, SfsFs.mapVnode]
  dsimp only
  rw [Function.update_self]
  exact size

/-- The allocator takes a free block, or there is none. -/
lemma wlp_sfsBalloc {Q : Nat → SfsFs → Prop} {E : Nat → SfsFs → Prop}
    (ok : ∀ b dev, b < bitmapsize s.nblocks → s.freemap b = false → Q b { s.mark b with dev := dev })
    (full : s.Full → E enospc s) : Prog.wlp sfsBalloc Q E s := by
  rw [sfsBalloc, Prog.wlp_andThen_iff, Prog.wlp_get_iff]
  cases found : bitmapAlloc (bitmapsize s.nblocks) s.freemap with
  | none =>
    refine full ?_
    intro b lt
    simpa using List.find?_eq_none.1 found b (List.mem_range.2 lt)
  | some b =>
    have inside : b < bitmapsize s.nblocks := List.mem_range.1 (List.mem_of_find?_eq_some found)
    have free : s.freemap b = false := by simpa using List.find?_some found
    dsimp only
    rw [Prog.wlp_andThen_iff, Prog.wlp_modify_iff, Prog.wlp_andThen_iff]
    refine Prog.wlp.require fun _ => ?_
    rw [sfsClearblock, Prog.wlp_andThen_iff]
    exact wlp_wblock fun dev _ => ok b dev inside free

/-- The rule for the check of a block. -/
lemma wlp_checkUsed {Q : Nat → SfsFs → Prop} {E : Nat → SfsFs → Prop} (ok : Q b s) :
    Prog.wlp (checkUsed sv b fb) Q E s := by
  rw [checkUsed, Prog.wlp_andThen_iff]
  refine Prog.wlp_of_run rfl ?_
  split_ifs with ne
  · rw [sfsBused, Prog.wlp_andThen_iff, Prog.wlp_andThen_iff, Prog.wlp_get_iff, Prog.wlp_andThen_iff]
    refine Prog.wlp.require fun _ => ?_
    rw [Prog.wlp_pure_iff, Prog.wlp_andThen_iff]
    exact Prog.wlp.require fun _ => ok
  · exact ok

/-- The rule of `sfs_bmap` for direct blocks, with its reason to fail. -/
lemma wlp_sfsBmapDirect (k : Fin 15) :
    Prog.wlp (sfsBmapDirect sv k true) (fun _ s' => SameSize sv s s' ∧ ¬ NoRoom s sv k.val)
      (fun e s' => SameSize sv s s' ∧ e = enospc ∧ NoRoom s sv k.val) s := by
  have room : NoRoom s sv k.val ↔ ((s.vnode sv).i.direct k).toNat = 0 ∧ s.Full := by
    rw [NoRoom, dif_pos k.isLt]
  rw [sfsBmapDirect, Prog.wlp_andThen_iff, room]
  refine Prog.wlp_of_run rfl ?_
  dsimp only
  split_ifs with missing
  · rw [Prog.wlp_andThen_iff]
    refine wlp_sfsBalloc ?_ fun full => ⟨rfl, rfl, missing.1, full⟩
    intro b dev lt free
    rw [Prog.wlp_andThen_iff]
    refine Prog.wlp_of_run (t := SfsFs.mapVnode _ sv (onInode (assignDirect k b))) rfl (wlp_checkUsed ⟨?_, ?_⟩)
    · exact SameSize.setInode (s := { s.mark b with dev := dev }) _ rfl
    · rintro ⟨-, full⟩
      rw [full b lt] at free
      cases free
  · exact wlp_checkUsed ⟨rfl, fun no => missing ⟨no.1, rfl⟩⟩

/-- The same for entries of the indirect block. -/
lemma wlp_sfsBmapEntry {idblock idoff : Nat} {idbuf : Nat → Nat} :
    Prog.wlp (sfsBmapEntry sv idblock idbuf idoff true)
      (fun _ s' => SameSize sv s s' ∧ ¬ (idbuf idoff = 0 ∧ s.Full))
      (fun e s' => SameSize sv s s' ∧ e = enospc ∧ idbuf idoff = 0 ∧ s.Full) s := by
  rw [sfsBmapEntry]
  split_ifs with missing
  · rw [Prog.wlp_andThen_iff]
    refine wlp_sfsBalloc ?_ fun full => ⟨rfl, rfl, missing.1, full⟩
    intro b dev lt free
    rw [Prog.wlp_andThen_iff]
    refine wlp_wblock fun dev _ => wlp_checkUsed ⟨rfl, ?_⟩
    rintro ⟨-, full⟩
    rw [full b lt] at free
    cases free
  · exact wlp_checkUsed ⟨rfl, fun no => missing ⟨no.1, rfl⟩⟩

/-- A block of a file is mapped for a write unless the file would be too large, which changes nothing, or there is no
space. -/
lemma wlp_sfsBmap :
    Prog.wlp (sfsBmap sv fb true) (fun _ s' => SameSize sv s s' ∧ fb < 143 ∧ ¬ NoRoom s sv fb)
      (fun e s' => SameSize sv s s' ∧ (e = enospc ∧ fb < 143 ∧ NoRoom s sv fb ∨ e = efbig ∧ 143 ≤ fb ∧ s' = s)) s := by
  by_cases direct : fb < 15
  · rw [sfsBmap, dif_pos direct]
    refine (wlp_sfsBmapDirect ⟨fb, direct⟩).mono ?_ ?_
    · exact fun b s' h => ⟨h.1, by omega, h.2⟩
    · exact fun e s' h => ⟨h.1, .inl ⟨h.2.1, by omega, h.2.2⟩⟩
  rw [sfsBmap, dif_neg direct]
  dsimp only
  by_cases large : (fb - 15) / 128 > 0
  · rw [if_pos large]
    exact ⟨rfl, .inr ⟨rfl, by omega, rfl⟩⟩
  have inside : fb < 143 := by omega
  rw [if_neg large, Prog.wlp_andThen_iff, NoRoom, dif_neg direct]
  refine Prog.wlp_of_run rfl ?_
  rw [if_neg (fun no => by cases no.2)]
  by_cases none : (s.vnode sv).i.indirect.toNat = 0
  · rw [if_pos none, if_pos none, Prog.wlp_andThen_iff]
    refine wlp_sfsBalloc ?_ ?_
    · intro c dev lt free
      rw [Prog.wlp_andThen_iff]
      refine Prog.wlp_of_run (t := SfsFs.mapVnode _ sv (onInode (assignIndirect c))) rfl ?_
      have kept : SameSize sv s (SfsFs.mapVnode { s.mark c with dev := dev } sv (onInode (assignIndirect c))) :=
        SameSize.setInode (s := { s.mark c with dev := dev }) _ rfl
      refine wlp_sfsBmapEntry.mono ?_ ?_
      · rintro b s' ⟨same, room⟩
        exact ⟨kept.trans same, inside, fun no => room ⟨rfl, no c lt free⟩⟩
      · rintro e s' ⟨same, rfl, -, full⟩
        refine ⟨kept.trans same, .inl ⟨rfl, inside, ?_⟩⟩
        intro b lt' free'
        -- the first free block is the only one
        have only : b = c := by
          by_contra ne
          have marked : (s.mark c).freemap b = true := full b lt'
          rw [SfsFs.mark] at marked
          dsimp only at marked
          rw [Function.update_of_ne ne, free'] at marked
          cases marked
        exact only ▸ full
    · intro full
      refine ⟨rfl, .inl ⟨rfl, inside, ?_⟩⟩
      intro b lt free
      rw [full b lt] at free
      cases free
  · rw [if_neg none, if_neg none, Prog.wlp_andThen_iff]
    refine wlp_rblock fun data dev read => ?_
    obtain ⟨rfl, rfl⟩ := read (UInt32.toNat_lt _)
    refine wlp_sfsBmapEntry.mono ?_ ?_
    · exact fun b s' h => ⟨h.1, inside, h.2⟩
    · exact fun e s' h => ⟨h.1, .inl ⟨h.2.1, inside, h.2.2⟩⟩

end Map

/-- The number of the block of a file that a request starts in. -/
def Uio.fileblock (u : Uio) : Nat := u.offset / 512 % 2 ^ 32

/-- The first block of a write request cannot be mapped, so that it ends with the error `e`. -/
def Stuck (s : SfsFs) (sv : Nat) (u : Uio) (e : Nat) (s' : SfsFs) : Prop :=
  e = enospc ∧ u.fileblock < 143 ∧ NoRoom s sv u.fileblock ∨ e = efbig ∧ 143 ≤ u.fileblock ∧ s' = s

/-- `m` bytes of a write request have been taken, all of them to blocks that could be mapped. -/
structure Advanced (s : SfsFs) (sv : Nat) (u : Uio) (m : Nat) (st : SfsFs × Uio) : Prop where
  le : m ≤ u.resid
  size : SameSize sv s st.1
  rest : st.2 = u.advance m
  inside : 0 < m → u.pos + m ≤ 143 * 512
  first : 0 < m → ¬ NoRoom s sv u.fileblock

/-- A write request has failed, at its first block if no byte has been taken. -/
def Refused (s : SfsFs) (sv : Nat) (u : Uio) (e : Nat) (st : SfsFs × Uio) : Prop :=
  ∃ m, Advanced s sv u m st ∧ (m = 0 → Stuck s sv u e st.1)

section Progress

variable {s s' : SfsFs} {sv b m n e skipstart len : Nat} {u : Uio} {st st' : SfsFs × Uio}

/-- Nothing written yet. -/
lemma Advanced.none (size : SameSize sv s s') : Advanced s sv u 0 (s', u) where
  le := Nat.zero_le _
  size := size
  rest := (Uio.advance_zero u).symm
  inside pos := absurd pos (lt_irrefl 0)
  first pos := absurd pos (lt_irrefl 0)

/-- The request that is left. -/
lemma Advanced.next (h : Advanced s sv u m st) (fits : u.Fits) (write : u.rw = .write) :
    st.2.Fits ∧ st.2.rw = .write ∧ st.2.offset = u.offset + m ∧ st.2.resid = u.resid - m := by
  rw [h.rest]
  exact ⟨fits.advance h.le, write, rfl, rfl⟩

/-- The rest of a request is served. -/
lemma Advanced.trans (h : Advanced s sv u m st) (pos : 0 < m) (h' : Advanced st.1 sv st.2 n st') :
    Advanced s sv u (m + n) st' where
  le := by
    have le := h'.le
    rw [h.rest] at le
    dsimp only [Uio.advance] at le
    have := h.le
    omega
  size := h.size.trans h'.size
  rest := by
    rw [h'.rest, h.rest, Uio.advance_advance]
  inside _ := by
    have start : st.2.pos = u.pos + m := by
      rw [← pos_add h.inside, h.rest]
      rfl
    by_cases more : 0 < n
    · have := h'.inside more
      omega
    · have := h.inside pos
      omega
  first _ := h.first pos

/-- The rest of a request fails. -/
lemma Refused.after (h : Advanced s sv u m st) (pos : 0 < m) (err : Refused st.1 sv st.2 e st') : Refused s sv u e st' := by
  obtain ⟨n, h', -⟩ := err
  exact ⟨m + n, h.trans pos h', fun zero => by omega⟩

/-- The failure of `sfs_bmap` for the first block. -/
lemma Refused.start (h : SameSize sv s s' ∧ (e = enospc ∧ u.fileblock < 143 ∧ NoRoom s sv u.fileblock ∨
    e = efbig ∧ 143 ≤ u.fileblock ∧ s' = s)) : Refused s sv u e (s', u) :=
  ⟨0, .none h.1, fun _ => h.2⟩

/-- I/O to a part of a block. -/
lemma wlp_sfsPartialio (fits : u.Fits) (write : u.rw = .write) (skip : skipstart = u.offset % 512)
    (inside : skipstart + len ≤ 512) (le : len ≤ u.resid) :
    Prog.wlp (sfsPartialio sv skipstart len) (fun _ => Advanced s sv u len) (Refused s sv u) (s, u) := by
  rw [sfsPartialio, Prog.wlp_andThen_iff]
  refine Prog.wlp_of_run rfl ?_
  rw [Prog.wlp_andThen_iff]
  refine Prog.wlp.require fun _ => ?_
  rw [Prog.wlp_andThen_iff, Prog.wlp_onFst_iff, decide_eq_true write]
  refine wlp_sfsBmap.mono ?_ (fun e s' err => .start err)
  rintro b s₁ ⟨size, small, room⟩
  have small : u.pos / 512 < 143 := u.pos_div ▸ small
  have same := u.pos_mod
  have done (dev : Lhd) : Advanced s sv u len ({ s₁ with dev := dev }, u.advance len) :=
    ⟨le, size, rfl, fun _ => by omega, fun _ => room⟩
  rw [Prog.wlp_andThen_iff, Prog.wlp_onFst_iff, partialioBuf]
  have rest (data : Block) (dev : Lhd) : Prog.wlp (do
      let iobuf ← moveIo data skipstart len
      if u.rw = .write then Prog.onFst (wblock iobuf b) else pure ())
      (fun _ => Advanced s sv u len) (Refused s sv u) ({ s₁ with dev := dev }, u) := by
    have moved : moveIo data skipstart len ({ s₁ with dev := dev }, u) =
        .ok (.ok (data.store skipstart (u.data.take len)), ({ s₁ with dev := dev }, u.advance len)) := by
      rw [moveIo, uiomove_write fits write le]
    rw [Prog.wlp_andThen_iff]
    refine Prog.wlp_of_run moved ?_
    rw [if_pos write, Prog.wlp_onFst_iff]
    exact wlp_wblock fun dev _ => done dev
  by_cases zero : b = 0
  · rw [if_pos zero, Prog.wlp_andThen_iff]
    exact Prog.wlp.require fun _ => rest Block.zeros s₁.dev
  · rw [if_neg zero]
    exact wlp_rblock fun data dev _ => rest data dev

/-- A request to the disk that returns. -/
lemma wlp_rwblock {Q : Unit → SfsFs × Uio → Prop} {E : Nat → SfsFs × Uio → Prop} (fits : u.Fits) (resid : u.resid = 512)
    (ok : ∀ dev v, Served s.dev u dev v → Q () ({ s with dev := dev }, v)) : Prog.wlp rwblock Q E (s, u) := by
  rw [Prog.wlp_iff]
  intro r st run
  rw [rwblock] at run
  cases io : sfsRwblock noError s.dev u with
  | error h =>
    rw [io] at run
    cases run
  | ok p =>
    obtain ⟨result, dev, v⟩ := p
    rw [io] at run
    cases run
    obtain ⟨rfl, served⟩ := sfsRwblock_noError io
    exact ⟨fun _ _ => ok dev v (served fits resid), fun e no => by cases no⟩

/-- I/O of a whole block. -/
lemma wlp_sfsBlockio (fits : u.Fits) (write : u.rw = .write) (aligned : u.offset % 512 = 0) (le : 512 ≤ u.resid) :
    Prog.wlp (sfsBlockio sv) (fun _ => Advanced s sv u 512) (Refused s sv u) (s, u) := by
  rw [sfsBlockio, Prog.wlp_andThen_iff]
  refine Prog.wlp_of_run rfl ?_
  rw [Prog.wlp_andThen_iff, Prog.wlp_onFst_iff, decide_eq_true write]
  refine wlp_sfsBmap.mono ?_ (fun e s' err => .start err)
  rintro b s₁ ⟨size, small, room⟩
  have small : u.pos / 512 < 143 := u.pos_div ▸ small
  have same := u.pos_mod
  by_cases zero : b = 0
  · rw [if_pos zero, Prog.wlp_andThen_iff]
    refine Prog.wlp.require fun read => ?_
    rw [write] at read
    cases read
  rw [if_neg zero, sfsBlockioAt, Prog.wlp_andThen_iff]
  refine Prog.wlp_of_run rfl ?_
  rw [Prog.wlp_andThen_iff]
  refine Prog.wlp.require fun _ => ?_
  rw [Prog.wlp_andThen_iff, setUio, Prog.wlp_modify_iff, Prog.wlp_andThen_iff, Prog.wlp_attempt_iff]
  refine wlp_rwblock ⟨le.trans fits.le, by norm_num⟩ rfl fun dev v served => ?_
  rw [Prog.wlp_andThen_iff, setUio, Prog.wlp_modify_iff]
  refine ⟨le, size, ?_, fun _ => by omega, fun _ => room⟩
  rw [(served.write write).1]
  simp only [Uio.advance, Uio.mk.injEq, true_and, and_true]
  omega

/-- The rule for the whole blocks, by induction on their number. -/
lemma wlp_sfsIoBlocks (fits : u.Fits) (write : u.rw = .write) (aligned : u.offset % 512 = 0) (n : Nat)
    (le : n * 512 ≤ u.resid) :
    Prog.wlp (sfsIoBlocks sv n) (fun _ st => Advanced s sv u (n * 512) st ∧ (n = 0 → st = (s, u))) (Refused s sv u)
      (s, u) := by
  induction n generalizing s u with
  | zero =>
    rw [sfsIoBlocks, Prog.wlp_pure_iff, Nat.zero_mul]
    exact ⟨.none rfl, fun _ => rfl⟩
  | succ n ih =>
    rw [sfsIoBlocks, Prog.wlp_andThen_iff]
    refine (wlp_sfsBlockio fits write aligned (by omega)).mono ?_ (fun _ _ err => err)
    intro _ st adv
    obtain ⟨fits', write', offset, resid⟩ := adv.next fits write
    have aligned' : st.2.offset % 512 = 0 := by omega
    have le' : n * 512 ≤ st.2.resid := by
      rw [resid]
      rw [Nat.succ_mul] at le
      exact Nat.le_sub_of_add_le le
    refine (ih fits' write' aligned' le').mono ?_ ?_
    · rintro _ st' ⟨adv', -⟩
      have all := adv.trans (by decide) adv'
      rw [show 512 + n * 512 = (n + 1) * 512 by omega] at all
      exact ⟨all, fun zero => absurd zero (Nat.succ_ne_zero n)⟩
    · intro e st' err
      exact .after adv (by decide) err

/-- The rule for the partial block at the start. -/
lemma wlp_sfsIoLead (fits : u.Fits) (write : u.rw = .write) :
    Prog.wlp (sfsIoLead sv)
      (fun _ st => ∃ m, Advanced s sv u m st ∧ (m = 0 → st = (s, u) ∨ u.resid = 0) ∧
        (m = u.resid ∨ (u.offset + m) % 512 = 0)) (Refused s sv u) (s, u) := by
  rw [sfsIoLead, Prog.wlp_andThen_iff]
  refine Prog.wlp_of_run rfl ?_
  dsimp only
  split_ifs with partly
  · refine (wlp_sfsPartialio fits write rfl (by omega) (Nat.min_le_right ..)).mono ?_ (fun _ _ err => err)
    intro _ st adv
    exact ⟨_, adv, by omega, by omega⟩
  · exact ⟨0, .none rfl, fun _ => .inl rfl, .inr (by omega)⟩

/-- The rule for what follows it. -/
lemma wlp_sfsIoRest (fits : u.Fits) (write : u.rw = .write) (aligned : u.resid = 0 ∨ u.offset % 512 = 0) :
    Prog.wlp (sfsIoRest sv) (fun _ => Advanced s sv u u.resid) (fun e st => Refused s sv u e st ∧ 0 < u.resid)
      (s, u) := by
  rw [sfsIoRest, Prog.wlp_andThen_iff]
  refine Prog.wlp_of_run rfl ?_
  dsimp only
  split_ifs with done
  · rw [Prog.wlp_pure_iff, done]
    exact .none rfl
  have aligned := aligned.resolve_left done
  rw [Prog.wlp_andThen_iff]
  refine Prog.wlp.require fun _ => ?_
  rw [Prog.wlp_andThen_iff]
  refine (wlp_sfsIoBlocks fits write aligned (u.resid / 512) (by omega)).mono ?_ (fun e st err => ⟨err, by omega⟩)
  rintro _ st ⟨adv, none⟩
  obtain ⟨fits', write', offset, resid⟩ := adv.next fits write
  rw [Prog.wlp_andThen_iff]
  refine Prog.wlp_of_run (a := st.2) rfl ?_
  rw [Prog.wlp_andThen_iff]
  refine Prog.wlp.require fun _ => ?_
  split_ifs with more
  · refine (wlp_sfsPartialio (s := st.1) fits' write' (by omega) (by omega) (le_refl _)).mono ?_ ?_
    · intro _ st' adv'
      by_cases zero : u.resid / 512 = 0
      · obtain rfl := none zero
        exact adv'
      · have all := adv.trans (by omega) adv'
        rw [resid, Nat.add_sub_cancel' adv.le] at all
        exact all
    · intro e st' err
      refine ⟨?_, by omega⟩
      by_cases zero : u.resid / 512 = 0
      · obtain rfl := none zero
        exact err
      · exact .after adv (by omega) err
  · have all : u.resid / 512 * 512 = u.resid := by omega
    rw [all] at adv
    exact adv

/-- The rule for all of `sfs_io` but the new size. -/
lemma wlp_sfsIoBody (fits : u.Fits) (write : u.rw = .write) :
    Prog.wlp (sfsIoBody sv) (fun _ => Advanced s sv u u.resid) (Refused s sv u) (s, u) := by
  rw [sfsIoBody, Prog.wlp_andThen_iff]
  refine (wlp_sfsIoLead fits write).mono ?_ (fun _ _ err => err)
  rintro _ st ⟨m, adv, none, aligned⟩
  obtain ⟨fits', write', offset, resid⟩ := adv.next fits write
  have le := adv.le
  refine (wlp_sfsIoRest (s := st.1) fits' write' (by omega)).mono ?_ ?_
  · intro _ st' adv'
    by_cases pos : 0 < m
    · have all := adv.trans pos adv'
      rw [resid, Nat.add_sub_cancel' adv.le] at all
      exact all
    · obtain rfl | nothing := none (by omega)
      · exact adv'
      · have zero : m = 0 := by omega
        have whole : st'.2 = u.advance u.resid := by
          rw [adv'.rest, adv.rest, Uio.advance_advance, zero, Nat.zero_add]
          congr 1
        exact ⟨le_refl _, adv.size.trans adv'.size, whole, fun pos => by omega, fun pos => by omega⟩
  · rintro e st' ⟨err, more⟩
    by_cases pos : 0 < m
    · exact .after adv pos err
    · obtain rfl := (none (by omega)).resolve_right (by omega)
      exact err

end Progress

/-- The state after "adjust file length" with the offset `stop`. -/
def SfsFs.growTo (s : SfsFs) (sv stop : Nat) : SfsFs :=
  if stop > (s.vnode sv).i.size.toNat then s.mapVnode sv (onInode fun i => { i with size := UInt32.ofNat stop }) else s

/-- A write has made the file longer exactly up to the last byte that it has taken. -/
def SizeHonest (sv : Nat) (st st' : SfsFs × Uio) : Prop :=
  (st'.1.vnode sv).i.size.toNat =
    if st'.2.resid < st.2.resid then max (st.1.vnode sv).i.size.toNat (st.2.offset + (st.2.resid - st'.2.resid))
    else (st.1.vnode sv).i.size.toNat

/-- The first block of a request can be mapped. -/
def StartsWell (s : SfsFs) (sv : Nat) (u : Uio) : Prop := u.fileblock < 143 ∧ ¬ NoRoom s sv u.fileblock

section Size

variable {s : SfsFs} {sv stop e : Nat} {u : Uio} {st : SfsFs × Uio}

/-- The new size, set whatever came before. -/
lemma sfsIoGrow_run : sfsIoGrow sv stop s = .ok (.ok (), s.growTo sv stop) := by
  apply Prog.run_of_wp
  rw [sfsIoGrow, Prog.wp_andThen_iff]
  refine Prog.wp_of_run rfl ?_
  rw [SfsFs.growTo]
  split_ifs with longer
  · exact ⟨rfl, rfl⟩
  · exact ⟨rfl, rfl⟩

/-- The size in the inode. -/
lemma SfsFs.size_growTo : ((s.growTo sv stop).vnode sv).i.size.toNat =
    if stop > (s.vnode sv).i.size.toNat then stop % 2 ^ 32 else (s.vnode sv).i.size.toNat := by
  rw [SfsFs.growTo]
  split_ifs with longer
  · rw [SfsFs.mapVnode]
    dsimp only
    rw [Function.update_self]
    exact UInt32.toNat_ofNat'
  · rfl

/-- A write request that fails: `m` bytes have been taken, then the size has been updated. -/
lemma wlp_sfsIo_write (fits : u.Fits) (write : u.rw = .write) :
    Prog.wlp (sfsIo sv) (fun _ _ => True) (fun e st => ∃ s₁ m, Advanced s sv u m (s₁, st.2) ∧
      (m = 0 → Stuck s sv u e s₁) ∧ st.1 = s₁.growTo sv (u.offset + m)) (s, u) := by
  rw [sfsIo, Prog.wlp_andThen_iff]
  refine Prog.wlp_of_run rfl ?_
  rw [Prog.wlp_andThen_iff, Prog.wlp_onFst_iff]
  refine Prog.wlp_of_run rfl ?_
  rw [if_pos write, sfsIoCut, Prog.wlp_andThen_iff, setUio, Prog.wlp_modify_iff, Prog.wlp_andThen_iff,
    Prog.wlp_attempt_iff]
  -- the way out is the same for all results
  have out {m : Nat} {st : SfsFs × Uio} {r : Except Nat Unit} (adv : Advanced s sv u m st) :
      Prog.wlp (sfsIoOut sv 0 r) (fun _ _ => True) (fun e st' => r = .error e ∧
        st' = (st.1.growTo sv (u.offset + m), st.2)) st := by
    obtain ⟨fits', write', offset, -⟩ := adv.next fits write
    have resid : wadd 32 st.2.resid 0 = st.2.resid := wadd_of_lt fits'.lt
    rw [sfsIoOut, Prog.wlp_andThen_iff]
    refine Prog.wlp_of_run (a := st.2) rfl ?_
    rw [if_pos write', Prog.wlp_andThen_iff, Prog.wlp_onFst_iff]
    refine Prog.wlp_of_run sfsIoGrow_run ?_
    rw [Prog.wlp_andThen_iff, setUio, Prog.wlp_modify_iff]
    dsimp only
    rw [resid, ← offset]
    cases r with
    | ok => trivial
    | error e => exact ⟨rfl, rfl⟩
  refine (wlp_sfsIoBody fits write).mono ?_ ?_
  · intro _ st adv
    exact (out adv).mono (fun _ _ _ => trivial) (fun e st' h => by cases h.1)
  · rintro e st ⟨m, adv, stuck⟩
    refine (out adv).mono (fun _ _ _ => trivial) ?_
    rintro e' st' ⟨same, rfl⟩
    cases same
    exact ⟨st.1, m, adv, stuck, rfl⟩

/-- A request through the vnode of a regular file. -/
lemma sfsIo_of_vopIo {r : Except Nat Unit} (file : (s.vnode sv).ops = .file)
    (run : vopIo sv u.rw (s, u) = .ok (r, st)) : sfsIo sv (s, u) = .ok (r, st) := by
  rw [vopIo.eq_def, Prog.andThen_of_run (t := (s, u)) rfl, Prog.andThen_of_run rfl, file] at run
  dsimp only at run
  rw [Prog.andThen_of_run (t := (s, u)) (by rw [sfsAssert, Prog.require, if_pos rfl]; rfl)] at run
  exact run

/-- The size after a write that fails with `ENOSPC` or `EFBIG` is right if the write starts inside the file. If it
starts past the end of the file, the size is right if the first block can be mapped and the offset has not been
cut down to 41 bits; where the first block cannot be mapped it is wrong, up to a coincidence of the low 32 bits. -/
theorem sfs_write_size_iff (fits : u.Fits) (write : u.rw = .write) (file : (s.vnode sv).ops = .file)
    (run : vopIo sv u.rw (s, u) = .ok (.error e, st)) :
    SizeHonest sv (s, u) st ↔ u.offset ≤ (s.vnode sv).i.size.toNat ∨ (StartsWell s sv u ∧ u.offset < 2 ^ 41) ∨
      (¬ StartsWell s sv u ∧ u.offset % 2 ^ 32 = (s.vnode sv).i.size.toNat) := by
  obtain ⟨s₁, m, adv, stuck, grown⟩ := (wlp_sfsIo_write fits write).of_error (sfsIo_of_vopIo file run)
  have size : (s₁.vnode sv).i.size = (s.vnode sv).i.size := adv.size
  have rest : st.2.resid = u.resid - m := by
    have rest : st.2 = u.advance m := adv.rest
    rw [rest]
    rfl
  have le := adv.le
  have small : (s.vnode sv).i.size.toNat < 2 ^ 32 := UInt32.toNat_lt _
  rw [SizeHonest, grown, SfsFs.size_growTo, size]
  dsimp only
  rw [rest]
  generalize (s.vnode sv).i.size.toNat = size at small
  by_cases none : m = 0
  · have bad : ¬ StartsWell s sv u := by
      rintro ⟨lt, room⟩
      obtain ⟨-, -, no⟩ | ⟨-, large, -⟩ := stuck none
      · exact room no
      · omega
    rw [if_neg (c := u.resid - m < u.resid) (by omega), none]
    simp only [bad, false_and, not_false_eq_true, true_and, false_or]
    split_ifs <;> omega
  · have inside := adv.inside (by omega)
    have block := u.pos_div
    have good : StartsWell s sv u := by
      refine ⟨?_, adv.first (by omega)⟩
      rw [Uio.fileblock]
      omega
    rw [if_pos (c := u.resid - m < u.resid) (by omega)]
    simp only [good, true_and, not_true_eq_false, false_and, or_false]
    rw [Uio.pos] at inside
    split_ifs <;> omega

end Size

/-- A write returns `EFBIG` and leaves the blocks of the file as they are. -/
def TooLarge (s : SfsFs) (sv : Nat) (u : Uio) : Prop :=
  ∃ st, vopIo sv u.rw (s, u) = .ok (.error efbig, st) ∧
    (st.1.file (s.vnode sv).ino).data = (s.file (s.vnode sv).ino).data

section Large

variable {s : SfsFs} {N : Nat → Prop} {sv offset len : Nat} {u : Uio}

/-- Growing a file changes no data. -/
lemma Table.data_growTo (h : Table s) (mem : sv ∈ s.vnodes) (stop i : Nat) :
    ((s.growTo sv stop).file i).data = (s.file i).data := by
  rw [SfsFs.growTo]
  split_ifs
  · rw [h.file_mapVnode mem rfl rfl rfl]
    by_cases e : i = (s.vnode sv).ino
    · rw [e, Function.update_self]
    · rw [Function.update_of_ne e]
  · rfl

/-- A byte and its successor differ. -/
lemma UInt8.add_one_ne (x : UInt8) : x + 1 ≠ x := by
  intro same
  have nat := congrArg UInt8.toNat same
  rw [UInt8.toNat_add, UInt8.toNat_one] at nat
  have := x.toNat_lt
  omega

/-- A write whose first block has a number that is too large. -/
lemma Core.write_large (h : Core s N) (mem : sv ∈ s.vnodes) (file : (s.vnode sv).ops = .file) (ok : u.Ok)
    (write : u.rw = .write) (some : 0 < u.resid) (large : 143 ≤ u.fileblock) :
    ∃ st, vopIo sv u.rw (s, u) = .ok (.error efbig, st) ∧ st.2 = u ∧ st.1 = s.growTo sv u.offset := by
  have block : 143 ≤ u.pos / 512 := u.pos_div ▸ large
  have io := h.wp_vopIo mem (h.table.ne_root mem file) (h.wp_sfsIo_write mem ok write)
  obtain ⟨r, st, run, done, -⟩ := Prog.wp_iff.1 io
  cases r with
  | ok =>
    have := (done () rfl).inside some
    omega
  | error e =>
    obtain ⟨s₁, m, adv, stuck, grown⟩ := (wlp_sfsIo_write ok.fits write).of_error (sfsIo_of_vopIo file run)
    have none : m = 0 := by
      by_contra ne
      have := adv.inside (by omega)
      omega
    obtain ⟨-, small, -⟩ | ⟨rfl, -, rfl⟩ := stuck none
    · omega
    · refine ⟨st, run, ?_, ?_⟩
      · rw [adv.rest, none, Uio.advance_zero]
      · rw [grown, none, Nat.add_zero]

/-- A write of other bytes whose first block has a number that is not too large. -/
lemma Core.not_tooLarge (h : Core s N) (mem : sv ∈ s.vnodes) (file : (s.vnode sv).ops = .file) (ok : u.Ok)
    (write : u.rw = .write) (small : u.fileblock < 143) {x : UInt8} (first : u.data.head? = some x)
    (other : x ≠ (s.file (s.vnode sv).ino).byte u.pos) : ¬ TooLarge s sv u := by
  have block : u.pos / 512 < 143 := u.pos_div ▸ small
  have live : s.Live N (s.vnode sv).ino := SfsFs.live_of_mem mem
  rintro ⟨st, run, same⟩
  obtain ⟨m, wrote, -, -, why⟩ :=
    (h.wp_vopIo mem (h.table.ne_root mem file) (h.wp_sfsIo_write mem ok write)).of_error run
  have large : 143 * 512 ≤ (u.offset + m) % 2 ^ 41 := by
    obtain ⟨no, -⟩ | ⟨-, large⟩ := why
    · cases no
    · exact large
  have pos : 0 < m := by
    by_contra none
    rw [show m = 0 by omega, Nat.add_zero] at large
    have large : 143 * 512 ≤ u.pos := large
    omega
  -- the byte at the position of the write is the first one that has been written
  apply other
  have read : (st.1.file (s.vnode sv).ino).byte u.pos = x := by
    have length := ok.data write
    have le := wrote.le
    rw [wrote.writes.file_self live, File.grow]
    have stored : ((s.file (s.vnode sv).ino).store u.pos (u.data.take m)).byte u.pos = x := by
      rw [File.byte_store, if_pos (by rw [List.length_take]; omega), Nat.sub_self]
      cases data : u.data with
      | nil =>
        rw [data] at first
        cases first
      | cons y l =>
        rw [data] at first
        cases first
        obtain ⟨k, rfl⟩ := Nat.exists_eq_succ_of_ne_zero pos.ne'
        rfl
    split_ifs
    · exact stored
    · exact stored
  rw [← read, File.byte, File.byte, same]

/-- Every write of `len` bytes at `offset` is rejected and leaves the file alone exactly if the number of the first
block, cut to 32 bits, is too large. -/
theorem sfs_write_efbig_iff (h : Core s N) (mem : sv ∈ s.vnodes) (file : (s.vnode sv).ops = .file) (pos : 0 < len)
    (lt : len < 2 ^ 32) :
    (∀ u : Uio, u.Ok → u.rw = .write → u.offset = offset → u.resid = len → TooLarge s sv u) ↔
      143 ≤ offset / 512 % 2 ^ 32 := by
  constructor
  · intro all
    by_contra small
    let x := (s.file (s.vnode sv).ino).byte (offset % 2 ^ 41) + 1
    let u := uioKinit (List.replicate len x) len offset .write
    have ok : u.Ok := ⟨⟨by simp [u, uioKinit], lt⟩, fun _ => by simp [u, uioKinit]⟩
    have first : u.data.head? = some x := by
      obtain ⟨n, rfl⟩ := Nat.exists_eq_succ_of_ne_zero pos.ne'
      rfl
    exact h.not_tooLarge mem file ok rfl (Nat.lt_of_not_le small) first (UInt8.add_one_ne _) (all u ok rfl rfl rfl)
  · rintro large u ok write rfl rfl
    obtain ⟨st, run, -, grown⟩ := h.write_large mem file ok write pos large
    refine ⟨st, run, ?_⟩
    rw [grown, h.table.data_growTo mem]

end Large

/-- An empty file, to which a block has been given already. -/
lemma exists_small_file : ∃ s N sv, Core s N ∧ sv ∈ s.vnodes ∧ (s.vnode sv).ops = .file ∧
    (s.vnode sv).i.size.toNat = 0 ∧ (s.file (s.vnode sv).ino).byte 0 = 0 ∧
    s.ptr (s.vnode sv).ino (dataSlot 0) ≠ 0 := by
  obtain ⟨s, N, sv, core, mem, regular, empty, used⟩ := exists_empty_file
  refine ⟨s, N, sv, core, mem, ?_, ?_, empty.zeros 0, used⟩
  · exact core.table.ops_file mem (core.ne_root (SfsFs.live_of_mem mem) regular)
  · rw [← core.table.inode_eq mem]
    exact empty.size

/-- Two free blocks are enough for the first block past the direct ones. -/
lemma OnlyNew.room {s : SfsFs} {N : Nat → Prop} {sv fb : Nat} (new : OnlyNew s N sv) (free : s.freemap 5 = false)
    (large : 15 ≤ fb) : ¬ NoRoom s sv fb := by
  have indirect : (s.vnode sv).i.indirect.toNat = 0 := by
    have slot := new.blank 15
    rw [SfsFs.ptr, ptrOf_indirect, new.core.table.inode_eq new.mem] at slot
    exact slot
  have inside (b : Nat) (lt : b < 8) : b < bitmapsize s.nblocks := by
    refine lt_of_lt_of_le ?_ (le_bitmapsize _)
    rw [new.nblocks]
    exact lt
  rw [NoRoom, dif_neg (by omega), if_pos indirect]
  intro full
  have marked : (s.mark 4).freemap 5 = true := full 4 (inside 4 (by omega)) new.free 5 (inside 5 (by omega))
  rw [SfsFs.mark] at marked
  dsimp only at marked
  rw [Function.update_of_ne (by decide), free] at marked
  cases marked

/-- A write of the last block of a new file and of one more stores the first of the two and then fails; the size is
the end of what has been stored. A write at the offset `2 ^ 32` fails at its first block; the size is set to the
offset, of which 32 bits are kept. -/
theorem sfs_write_size_partial :
    (∃ s N sv e st, Core s N ∧ sv ∈ s.vnodes ∧ (s.vnode sv).i.size.toNat = 0 ∧
      vopIo sv .write (s, uioKinit (List.replicate 1024 7) 1024 (142 * 512) .write) = .ok (.error e, st) ∧
      st.2.resid = 512 ∧ (st.1.vnode sv).i.size.toNat = 143 * 512) ∧
    ∃ s N sv st, Core s N ∧ sv ∈ s.vnodes ∧
      vopIo sv .write (s, uioKinit [7] 1 (2 ^ 32) .write) = .ok (.error efbig, st) ∧
      SizeHonest sv (s, uioKinit [7] 1 (2 ^ 32) .write) st := by
  constructor
  · obtain ⟨s, N, sv, new, free⟩ := exists_new_file_free
    have core := new.core
    have mem := new.mem
    have regular : (s.vnode sv).ino ≠ 1 :=
      core.ne_root (SfsFs.live_of_mem mem) (congrArg File.type new.file)
    have file := core.table.ops_file mem regular
    have zero : (s.vnode sv).i.size.toNat = 0 := by
      rw [← core.table.inode_eq mem]
      exact congrArg File.size new.file
    have ok : (uioKinit (List.replicate 1024 7) 1024 (142 * 512) .write).Ok := by
      have small : (List.replicate 1024 (7 : UInt8)).length < 2 ^ 32 := by
        rw [List.length_replicate]
        omega
      have ok : (uioKinit (List.replicate 1024 7) (List.replicate 1024 (7 : UInt8)).length (142 * 512) .write).Ok :=
        uioKinit_write_ok small
      rw [List.length_replicate] at ok
      exact ok
    obtain ⟨r, st, run, done, err⟩ := Prog.wp_iff.1 (core.wp_vopIo mem regular (core.wp_sfsIo_write mem ok rfl))
    generalize hu : uioKinit (List.replicate 1024 7) 1024 (142 * 512) .write = u at *
    have resid : u.resid = 1024 := by rw [← hu]; rfl
    have offset : u.offset = 142 * 512 := by rw [← hu]; rfl
    have write : u.rw = .write := by rw [← hu]; rfl
    have pos : u.pos = 142 * 512 := by rw [Uio.pos, offset]; omega
    have block : u.fileblock = 142 := by rw [Uio.fileblock, offset]; omega
    cases r with
    | ok =>
      have inside := (done () rfl).inside (by omega)
      omega
    | error e =>
      obtain ⟨m, wrote, short, aligned, -⟩ := err e rfl
      have rest : st.2.resid = 1024 - m := by
        rw [wrote.rest, ← resid]
        rfl
      -- the first of the two blocks can be mapped
      have some : m ≠ 0 := by
        intro none
        obtain ⟨s₁, m', adv, stuck, -⟩ := (wlp_sfsIo_write ok.fits write).of_error (sfsIo_of_vopIo file run)
        have same : m' = 0 := by
          have rest' : st.2.resid = u.resid - m' := congrArg Uio.resid adv.rest
          have le := adv.le
          omega
        obtain ⟨-, -, no⟩ | ⟨-, large, -⟩ := stuck same
        · exact new.room free (by omega) no
        · omega
      have half : m = 512 := by omega
      have honest := (sfs_write_size_iff ok.fits write file run).2 (.inr (.inl ⟨⟨?_, ?_⟩, ?_⟩))
      · rw [write] at run
        refine ⟨s, N, sv, e, st, core, mem, zero, run, by omega, ?_⟩
        rw [SizeHonest, rest, zero, resid, offset, half] at honest
        exact honest
      · omega
      · exact new.room free (by omega)
      · omega
  · obtain ⟨s, N, sv, core, mem, file, empty, -⟩ := exists_small_file
    have ok : (uioKinit [7] 1 (2 ^ 32) .write).Ok := uioKinit_write_ok (by decide)
    have large : 143 ≤ (uioKinit [7] 1 (2 ^ 32) .write).fileblock := by decide
    obtain ⟨st, run, -⟩ := core.write_large mem file ok rfl (by decide) large
    refine ⟨s, N, sv, st, core, mem, run, (sfs_write_size_iff ok.fits rfl file run).2 (.inr (.inr ⟨?_, ?_⟩))⟩
    · exact fun well => absurd well.1 (by omega)
    · rw [empty]
      decide

/-- A write past the maximum size of a file fails, and makes an empty file `143 * 512` bytes long. -/
theorem sfs_write_grows_on_error : ∃ s N sv st, Core s N ∧ sv ∈ s.vnodes ∧
    vopIo sv .write (s, uioKinit [7] 1 (143 * 512) .write) = .ok (.error efbig, st) ∧
    st.2.resid = 1 ∧ (s.vnode sv).i.size.toNat = 0 ∧ (st.1.vnode sv).i.size.toNat = 143 * 512 ∧
    ¬ SizeHonest sv (s, uioKinit [7] 1 (143 * 512) .write) st := by
  obtain ⟨s, N, sv, core, mem, file, empty, -⟩ := exists_small_file
  have ok : (uioKinit [7] 1 (143 * 512) .write).Ok := uioKinit_write_ok (by decide)
  have large : 143 ≤ (uioKinit [7] 1 (143 * 512) .write).fileblock := by decide
  obtain ⟨st, run, rest, grown⟩ := core.write_large mem file ok rfl (by decide) large
  have size : (st.1.vnode sv).i.size.toNat = 143 * 512 := by
    rw [grown, SfsFs.size_growTo, empty]
    rfl
  refine ⟨s, N, sv, st, core, mem, run, ?_, empty, size, ?_⟩
  · rw [rest]
    rfl
  · rw [SizeHonest, size, rest, if_neg (lt_irrefl _)]
    dsimp only
    rw [empty]
    decide

/-- A write of one byte past the last block. -/
theorem sfs_write_efbig_first : ∃ s N sv, Core s N ∧ sv ∈ s.vnodes ∧
    ∀ u : Uio, u.Ok → u.rw = .write → u.offset = 143 * 512 → u.resid = 1 → TooLarge s sv u := by
  obtain ⟨s, N, sv, core, mem, file, -⟩ := exists_small_file
  exact ⟨s, N, sv, core, mem, (sfs_write_efbig_iff core mem file (by decide) (by decide)).2 (by decide)⟩

/-- A write of one byte to a block that is there does not fail. -/
lemma Core.write_byte {s : SfsFs} {N : Nat → Prop} {sv : Nat} {u : Uio} {x : UInt8} (h : Core s N) (mem : sv ∈ s.vnodes)
    (file : (s.vnode sv).ops = .file) (ok : u.Ok) (write : u.rw = .write) (resid : u.resid = 1) (data : u.data = [x])
    (small : u.pos < 143 * 512) (used : s.ptr (s.vnode sv).ino (dataSlot (u.pos / 512)) ≠ 0) :
    ∃ st, vopIo sv u.rw (s, u) = .ok (.ok (), st) ∧ (st.1.file (s.vnode sv).ino).byte u.pos = x := by
  have io := h.wp_vopIo mem (h.table.ne_root mem file) (h.wp_sfsIo_write mem ok write)
  obtain ⟨r, st, run, done, err⟩ := Prog.wp_iff.1 io
  cases r with
  | error e =>
    obtain ⟨m, -, short, -, why⟩ := err e rfl
    have none : m = 0 := by omega
    subst none
    obtain ⟨-, -, hole⟩ | ⟨-, large⟩ := why
    · exact absurd hole used
    · have large : 143 * 512 ≤ u.pos := large
      omega
  | ok =>
    refine ⟨st, run, ?_⟩
    rw [(done () rfl).writes.file_self (SfsFs.live_of_mem mem), File.grow, resid, data]
    have stored : ((s.file (s.vnode sv).ino).store u.pos [x]).byte u.pos = x := by
      rw [File.byte_store, if_pos ⟨le_refl _, Nat.lt_succ_self _⟩, Nat.sub_self]
      rfl
    split_ifs
    · exact stored
    · exact stored

/-- A write at the offset `2 ^ 41` of a file is a write at its start. -/
theorem sfs_write_wraps : ∃ s N sv st, Core s N ∧ sv ∈ s.vnodes ∧
    vopIo sv .write (s, uioKinit [7] 1 (2 ^ 41) .write) = .ok (.ok (), st) ∧
    (s.file (s.vnode sv).ino).byte 0 = 0 ∧ (st.1.file (s.vnode sv).ino).byte 0 = 7 := by
  obtain ⟨s, N, sv, core, mem, file, -, zero, used⟩ := exists_small_file
  have ok : (uioKinit [7] 1 (2 ^ 41) .write).Ok := uioKinit_write_ok (by decide)
  have pos : (uioKinit [7] 1 (2 ^ 41) .write).pos = 0 := by decide
  obtain ⟨st, run, byte⟩ := core.write_byte mem file ok rfl rfl rfl (by rw [pos]; decide) (by rw [pos]; exact used)
  rw [pos] at byte
  exact ⟨s, N, sv, st, core, mem, run, zero, byte⟩

end PDS.Sfs
