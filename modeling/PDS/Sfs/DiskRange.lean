import PDS.Sfs.Fs

/-!
# Where a request goes

`lhd_io` once more, with any result code of the device and with the sectors that are written to its sector
register (`lhdIoT`); without errors other than media errors, and without the sectors, it is `lhdIo`. Sector
number, number of sectors and their sum have 32 bits, so that a request past the end of the disk can look as if
it were inside (`lhd_io_exact_iff`).

The offset of a block on the disk has 64 bits in `SFSUIO` and 32 bits in `sfs_blockio`
(`sfs_blockio_offset_iff`).
-/

namespace PDS.Sfs
open Kern Word

/-- The loop of `lhd_io` from sector `sector + i` on; `code i` is what the device reports for operation `i`, as an
`errno` value. -/
def lhdIoLoopT (code : Nat → Nat) (sector : Nat) : Nat → Nat → Lhd → Uio → Except Halt (Nat × Lhd × Uio × List Nat)
  | 0, _, d, u => .ok (0, d, u, [])
  | len + 1, i, d, u =>
    match u.rw with
    | .write => do
      let (buf, u) ← uiomove Block.zeros 0 blocksize u
      if code i = 0 then do
        let (result, d, u, sectors) ←
          lhdIoLoopT code sector len (i + 1) { d with sect := Function.update d.sect (wadd 32 sector i) buf } u
        .ok (result, d, u, wadd 32 sector i :: sectors)
      else .ok (code i, d, u, [wadd 32 sector i])
    | .read =>
      if code i = 0 then do
        let (_, u) ← uiomove (d.sect (wadd 32 sector i)) 0 blocksize u
        let (result, d, u, sectors) ← lhdIoLoopT code sector len (i + 1) d u
        .ok (result, d, u, wadd 32 sector i :: sectors)
      else .ok (code i, d, u, [wadd 32 sector i])

/-- I/O function for both reads and writes, with the sectors that the device is asked for (C `lhd_io`). -/
def lhdIoT (code : Nat → Nat) (d : Lhd) (u : Uio) : Except Halt (Nat × Lhd × Uio × List Nat) :=
  let sector := u.offset / blocksize % 2 ^ 32
  let len := u.resid / blocksize % 2 ^ 32
  if u.offset % blocksize ≠ 0 ∨ u.resid % blocksize ≠ 0 then .ok (einval, d, u, [])
  else if wadd 32 sector len > d.blocks then .ok (einval, d, u, [])
  else lhdIoLoopT code sector len 0 d u

variable {code : Nat → Nat} {d d' : Lhd} {u u' : Uio} {r : Nat} {sectors : List Nat}

/-- The loop without its trace is the loop of the driver. -/
lemma lhdIoLoopT_erase (outcome : Nat → Bool) (sector len i : Nat) (d : Lhd) (u : Uio) :
    (lhdIoLoopT (fun i => if outcome i then 0 else eio) sector len i d u).map (fun r => (r.1, r.2.1, r.2.2.1)) =
      lhdIoLoop outcome sector len i d u := by
  induction len generalizing i d u with
  | zero => rfl
  | succ len ih =>
    have nz : eio ≠ 0 := by decide
    rw [lhdIoLoopT, lhdIoLoop]
    cases u.rw with
    | write =>
      dsimp only
      cases uiomove Block.zeros 0 blocksize u with
      | error h => rfl
      | ok p =>
        cases out : outcome i with
        | false =>
          simp only [ok_bind, Bool.false_eq_true, if_false, if_neg nz]
          rfl
        | true =>
          simp only [ok_bind, if_true]
          rw [← ih]
          cases lhdIoLoopT (fun i => if outcome i then 0 else eio) sector len (i + 1)
            { d with sect := Function.update d.sect (wadd 32 sector i) p.1 } p.2 <;> rfl
    | read =>
      dsimp only
      cases out : outcome i with
      | false =>
        simp only [Bool.false_eq_true, if_false, if_neg nz]
        rfl
      | true =>
        simp only [if_true]
        cases uiomove (d.sect (wadd 32 sector i)) 0 blocksize u with
        | error h => rfl
        | ok p =>
          simp only [ok_bind]
          rw [← ih]
          cases lhdIoLoopT (fun i => if outcome i then 0 else eio) sector len (i + 1) d p.2 <;> rfl

/-- With media errors only, and without the sectors, this is `lhdIo`. -/
lemma lhdIoT_erase (outcome : Nat → Bool) (d : Lhd) (u : Uio) (resid : u.resid < 2 ^ 32) :
    (lhdIoT (fun i => if outcome i then 0 else eio) d u).map (fun r => (r.1, r.2.1, r.2.2.1)) =
      lhdIo outcome d u := by
  have len : u.resid / blocksize % 2 ^ 32 = u.resid / blocksize := by
    simp only [blocksize]
    omega
  rw [lhdIoT, lhdIo, len]
  split_ifs
  · rfl
  · rfl
  · exact lhdIoLoopT_erase ..

/-- The loop asks for its sectors in order, all of them if there is no error. -/
lemma lhdIoLoopT_sectors {sector len i : Nat} (run : lhdIoLoopT code sector len i d u = .ok (r, d', u', sectors)) :
    ∃ n ≤ len, sectors = (List.range' i n).map (wadd 32 sector) ∧ (r = 0 → n = len) ∧ (0 < len → 0 < n) := by
  have stop (len : Nat) (nz : code i ≠ 0) : ∃ n ≤ len + 1,
      [wadd 32 sector i] = (List.range' i n).map (wadd 32 sector) ∧ (code i = 0 → n = len + 1) ∧
        (0 < len + 1 → 0 < n) :=
    ⟨1, by omega, rfl, fun z => absurd z nz, fun _ => Nat.one_pos⟩
  induction len generalizing i d u r d' u' sectors with
  | zero =>
    cases run
    exact ⟨0, le_refl 0, rfl, fun _ => rfl, id⟩
  | succ len ih =>
    have more {d u r d' u' l} (run : lhdIoLoopT code sector len (i + 1) d u = .ok (r, d', u', l)) :
        ∃ n ≤ len + 1, wadd 32 sector i :: l = (List.range' i n).map (wadd 32 sector) ∧ (r = 0 → n = len + 1) ∧
          (0 < len + 1 → 0 < n) := by
      obtain ⟨n, le, rfl, all, -⟩ := ih run (fun len nz =>
        ⟨1, by omega, rfl, fun z => absurd z nz, fun _ => Nat.one_pos⟩)
      exact ⟨n + 1, by omega, rfl, fun z => by rw [all z], fun _ => Nat.succ_pos n⟩
    rw [lhdIoLoopT] at run
    split at run
    · obtain ⟨⟨buf, u₁⟩, -, run⟩ := bind_ok_iff.1 run
      dsimp only at run
      split_ifs at run with z
      · obtain ⟨⟨r₁, d₁, u₂, l⟩, rest, run⟩ := bind_ok_iff.1 run
        cases run
        exact more rest
      · cases run
        exact stop len z
    · split_ifs at run with z
      · obtain ⟨⟨_, u₁⟩, -, run⟩ := bind_ok_iff.1 run
        obtain ⟨⟨r₁, d₁, u₂, l⟩, rest, run⟩ := bind_ok_iff.1 run
        cases run
        exact more rest
      · cases run
        exact stop len z

/-- The request is rejected without touching the device, or made at the sectors that it names, all of which are on
the disk; and it is rejected if one of them is not. -/
structure LhdExact (d : Lhd) (u : Uio) (r : Nat) (d' : Lhd) (sectors : List Nat) : Prop where
  exact : (r = einval ∧ d' = d ∧ sectors = []) ∨
    (512 ∣ u.offset ∧ 512 ∣ u.resid ∧
      (∃ n ≤ u.resid / 512, sectors = (List.range n).map (u.offset / 512 + ·) ∧ (r = 0 → n = u.resid / 512)) ∧
      ∀ i < u.resid / 512, u.offset / 512 + i < d.blocks)
  rejects : (∃ i < u.resid / 512, d.blocks ≤ u.offset / 512 + i) → r = einval

/-- `lhd_io` is exact unless the request goes past the end of the disk and its end, modulo `2 ^ 32` sectors, does
not. -/
theorem lhd_io_exact_iff (blocks : d.blocks < 2 ^ 32) (resid : u.resid < 2 ^ 32)
    (run : lhdIoT code d u = .ok (r, d', u', sectors)) :
    LhdExact d u r d' sectors ↔
      (512 ∣ u.offset → 512 ∣ u.resid → 0 < u.resid →
        u.offset / 512 + u.resid / 512 ≤ d.blocks ∨ d.blocks < (u.offset / 512 + u.resid / 512) % 2 ^ 32) := by
  have len : u.resid / 512 % 2 ^ 32 = u.resid / 512 := by omega
  have sum : wadd 32 (u.offset / 512 % 2 ^ 32) (u.resid / 512) = (u.offset / 512 + u.resid / 512) % 2 ^ 32 := by
    rw [wadd, Nat.mod_add_mod]
  simp only [lhdIoT, blocksize, len, sum] at run
  split_ifs at run with odd past
  · cases run
    refine iff_of_true ⟨.inl ⟨rfl, rfl, rfl⟩, fun _ => rfl⟩ ?_
    intro dvd dvd'
    exact (odd.elim (· (Nat.mod_eq_zero_of_dvd dvd)) (· (Nat.mod_eq_zero_of_dvd dvd'))).elim
  · cases run
    exact iff_of_true ⟨.inl ⟨rfl, rfl, rfl⟩, fun _ => rfl⟩ fun _ _ _ => .inr past
  · rw [not_or, not_not, not_not] at odd
    have dvd := Nat.dvd_of_mod_eq_zero odd.1
    have dvd' := Nat.dvd_of_mod_eq_zero odd.2
    obtain ⟨n, le, rfl, all, some⟩ := lhdIoLoopT_sectors run
    constructor
    · rintro ⟨h, -⟩ - - pos
      left
      obtain ⟨-, -, none⟩ | ⟨-, -, -, inside⟩ := h
      · -- at least one sector has been asked for
        have asked := congrArg List.length none
        rw [List.length_map, List.length_range'] at asked
        have := some (by omega)
        simp only [List.length_nil] at asked
        omega
      · have last := inside (u.resid / 512 - 1) (by omega)
        omega
    · intro cond
      have inside : ∀ i < u.resid / 512, u.offset / 512 + i < d.blocks := by
        intro i lt
        have := (cond dvd dvd' (by omega)).resolve_right past
        omega
      refine ⟨.inr ⟨dvd, dvd', ⟨n, le, ?_, all⟩, inside⟩, ?_⟩
      · rw [List.range_eq_range']
        refine List.map_congr_left fun i hi => ?_
        have lt := (List.mem_range'_1.1 hi).2
        have := inside i (by omega)
        rw [wadd]
        omega
      · rintro ⟨i, lt, ge⟩
        exact absurd (inside i lt) (by omega)

/-- A request for the first two sectors of a disk of eight is made at these two. -/
theorem lhd_io_exact_two : ∃ d' u' sectors,
    lhdIoT (fun _ => 0) ⟨8, fun _ => Block.zeros⟩ (uioKinit [] 1024 0 .read) = .ok (0, d', u', sectors) ∧
    LhdExact ⟨8, fun _ => Block.zeros⟩ (uioKinit [] 1024 0 .read) 0 d' sectors := by
  have run : ∃ d' u' sectors, lhdIoT (fun _ => 0) ⟨8, fun _ => Block.zeros⟩ (uioKinit [] 1024 0 .read)
      = .ok (0, d', u', sectors) := ⟨_, _, _, rfl⟩
  obtain ⟨d', u', sectors, run⟩ := run
  exact ⟨d', u', sectors, run, (lhd_io_exact_iff (by decide) (by decide) run).2 (by decide)⟩

/-- On a disk of eight sectors, a request for the sector `2 ^ 32` is made at sector `0`. -/
theorem lhd_io_wraps : ∃ d' u',
    lhdIoT (fun _ => 0) ⟨8, fun _ => Block.zeros⟩ (uioKinit [] 512 (2 ^ 32 * 512) .read) = .ok (0, d', u', [0]) ∧
    ¬ LhdExact ⟨8, fun _ => Block.zeros⟩ (uioKinit [] 512 (2 ^ 32 * 512) .read) 0 d' [0] := by
  refine ⟨_, _, rfl, ?_⟩
  intro exact
  have rejected := exact.rejects ⟨0, by decide, by decide⟩
  exact absurd rejected (by decide)

/-- The request of `sfs_blockio` to the disk, made at `diskoff`. -/
def blockioRequest (diskoff : Nat) : IoM Unit := do
  let u ← getUio
  sfsAssert (u.resid ≥ 512) "uio->uio_resid >= SFS_BLOCKSIZE"
  setUio fun u => { u with offset := diskoff, resid := 512 }
  let result ← Prog.attempt rwblock
  setUio fun v => { v with offset := v.offset - diskoff + u.offset, resid := v.resid + u.resid - 512 }
  Prog.give result

/-- The offset on the disk at which `sfs_blockio` makes its request (`diskoff`). -/
def blockioOffset (diskblock : Nat) : Nat := wmul 32 diskblock 512

/-- Whole blocks and parts of blocks are at the same place exactly for the first `2 ^ 23` blocks. -/
theorem sfs_blockio_offset_iff {s : SfsFs} {block : Nat} (lt : block < s.nblocks) :
    sfsBlockioAt block = blockioRequest (blockioOffset block) ∧
    ((blockioOffset block = 512 * block ∧ ∀ data rw, blockioOffset block = (sfsUio data block rw).offset) ↔
      block < 2 ^ 23) := by
  have small : s.nblocks < 2 ^ 32 := Block.word_lt ..
  refine ⟨rfl, ?_⟩
  simp only [blockioOffset, wmul, sfsUio, uioKinit, blocksize]
  constructor
  · rintro ⟨same, -⟩
    omega
  · intro lt
    exact ⟨by omega, fun _ _ => by omega⟩

/-- The second block of a volume of two. -/
theorem sfs_blockio_offset_one : blockioOffset 1 = 512 := by
  let s : SfsFs := ⟨⟨2, fun _ => Block.zeros⟩, Block.ofWords fun k => if k = 1 then 2 else 0, false, [], fun _ => true,
    false, fun _ => ⟨.file, 1, 0, SfsInode.ofBlock Block.zeros, 0, false⟩, 0⟩
  have lt : 1 < s.nblocks := by decide
  exact ((sfs_blockio_offset_iff lt).2.2 (by decide)).1

/-- Block `2 ^ 23` of a volume that is large enough: `sfs_blockio` goes to the superblock. -/
theorem sfs_blockio_offset_wraps : ∃ s : SfsFs, 2 ^ 23 < s.nblocks ∧ blockioOffset (2 ^ 23) = 0 ∧
    (sfsUio [] (2 ^ 23) .read).offset = 2 ^ 32 := by
  refine ⟨⟨⟨2 ^ 24, fun _ => Block.zeros⟩, Block.ofWords fun k => if k = 1 then 2 ^ 24 else 0, false, [], fun _ => true,
    false, fun _ => ⟨.file, 1, 0, SfsInode.ofBlock Block.zeros, 0, false⟩, 0⟩, ?_, by decide, by decide⟩
  decide

end PDS.Sfs
