import PDS.Sfs.Uio

/-!
# Block I/O on the disk

Port of `lhd_io` in `kern/dev/lamebus/lhd.c` and of `kern/fs/sfs/sfs_io.c`. The disk is the driver's device: a
number of sectors and their contents. Each operation that the driver starts succeeds or ends with a media error,
and `outcome` says which; an operation that fails leaves the sector as it is. The locks of the driver and of the
VFS layer are left out, as one request is served at a time.
-/

namespace PDS.Sfs
open Kern Word

/-- Input/output error (C `EIO`). -/
def eio : Nat := 32

/-- The disk behind an `lhd` device. -/
structure Lhd where
  /-- `d_blocks` -/
  blocks : Nat
  sect : Nat → Block

/-- The loop of `lhd_io` over the sectors from `sector + i` on. -/
def lhdIoLoop (outcome : Nat → Bool) (sector : Nat) : Nat → Nat → Lhd → Uio → Except Halt (Nat × Lhd × Uio)
  | 0, _, d, u => .ok (0, d, u)
  | len + 1, i, d, u =>
    match u.rw with
    | .write => do
      -- "transfer the data to the on-card buffer"
      let (buf, u) ← uiomove Block.zeros 0 blocksize u
      if outcome i then
        lhdIoLoop outcome sector len (i + 1) { d with sect := Function.update d.sect (wadd 32 sector i) buf } u
      else .ok (eio, d, u)
    | .read =>
      if outcome i then do
        let (_, u) ← uiomove (d.sect (wadd 32 sector i)) 0 blocksize u
        lhdIoLoop outcome sector len (i + 1) d u
      else .ok (eio, d, u)

/-- I/O function for both reads and writes (C `lhd_io`). -/
def lhdIo (outcome : Nat → Bool) (d : Lhd) (u : Uio) : Except Halt (Nat × Lhd × Uio) :=
  let sector := u.offset / blocksize % 2 ^ 32
  let len := u.resid / blocksize
  if u.offset % blocksize ≠ 0 ∨ u.resid % blocksize ≠ 0 then .ok (einval, d, u)
  else if wadd 32 sector len > d.blocks then .ok (einval, d, u)
  else lhdIoLoop outcome sector len 0 d u

/-- The attempts of `sfs_rwblock`, of which `left` are left after `tries`. -/
def sfsRwblockLoop (outcome : Nat → Nat → Bool) : Nat → Nat → Lhd → Uio → Except Halt (Nat × Lhd × Uio)
  | 0, _, d, u => .ok (eio, d, u)
  | left + 1, tries, d, u => do
    let (result, d, u) ← lhdIo (outcome tries) d u
    if result = einval then .error (.panic "sfs: d_io returned EINVAL\n")
    else if result = eio then sfsRwblockLoop outcome left (tries + 1) d u
    else .ok (result, d, u)

/-- A request to the disk, with ten retries (C `sfs_rwblock`). -/
def sfsRwblock (outcome : Nat → Nat → Bool) (d : Lhd) (u : Uio) : Except Halt (Nat × Lhd × Uio) :=
  sfsRwblockLoop outcome 11 0 d u

/-- A request for one block; for a write, `data` is the buffer (C `SFSUIO`). -/
def sfsUio (data : List UInt8) (block : Nat) (rw : UioRw) : Uio := uioKinit data blocksize (block * blocksize) rw

/-- Reads a block into the buffer `data` (C `sfs_rblock`). -/
def sfsRblock (outcome : Nat → Nat → Bool) (d : Lhd) (data : Block) (block : Nat) :
    Except Halt (Nat × Lhd × Block) := do
  let (result, d, u) ← sfsRwblock outcome d (sfsUio [] block .read)
  .ok (result, d, data.store 0 u.data)

/-- Writes the buffer `data` to a block (C `sfs_wblock`). -/
def sfsWblock (outcome : Nat → Nat → Bool) (d : Lhd) (data : Block) (block : Nat) : Except Halt (Nat × Lhd) := do
  let (result, d, _) ← sfsRwblock outcome d (sfsUio (data.slice 0 blocksize) block .write)
  .ok (result, d)

variable {d : Lhd} {u : Uio} {block : Nat}

/-- A request for the sector `block`. -/
structure AtBlock (d : Lhd) (block : Nat) (u : Uio) : Prop where
  fits : blocksize ≤ u.iov.sum
  offset : u.offset = block * blocksize
  resid : u.resid = blocksize
  lt : block < d.blocks
  small : d.blocks < 2 ^ 32

/-- A request for a block is well formed. -/
lemma AtBlock.Fits (h : AtBlock d block u) : u.Fits where
  le := h.resid.symm ▸ h.fits
  lt := by
    rw [h.resid]
    decide

/-- The requests that `sfs_rwblock` builds. -/
lemma atBlock_sfsUio (data : List UInt8) (rw : UioRw) (lt : block < d.blocks) (small : d.blocks < 2 ^ 32) :
    AtBlock d block (sfsUio data block rw) where
  fits := Nat.le_of_eq (by simp [sfsUio, uioKinit])
  offset := rfl
  resid := rfl
  lt := lt
  small := small

/-- The driver accepts a request for one sector. -/
lemma AtBlock.lhdIo_eq (h : AtBlock d block u) (outcome : Nat → Bool) :
    lhdIo outcome d u = lhdIoLoop outcome block 1 0 d u := by
  have lt := h.lt
  have small := h.small
  have sector : u.offset / blocksize % 2 ^ 32 = block := by
    rw [h.offset, Nat.mul_div_cancel _ (by decide), Nat.mod_eq_of_lt (by omega)]
  have len : u.resid / blocksize = 1 := by
    rw [h.resid]
    decide
  have aligned : ¬ (u.offset % blocksize ≠ 0 ∨ u.resid % blocksize ≠ 0) := by
    rw [h.offset, h.resid, Nat.mul_mod_left, Nat.mod_self]
    simp
  have inside : ¬ wadd 32 block 1 > d.blocks := by
    rw [wadd_of_lt (by omega)]
    omega
  rw [lhdIo, if_neg aligned, sector, len, if_neg inside]

/-- A block number is a word. -/
lemma AtBlock.wadd_zero (h : AtBlock d block u) : wadd 32 block 0 = block := by
  have lt := h.lt
  have small := h.small
  exact wadd_of_lt (by omega)

/-- Reading one sector: a media error leaves the request as it is. -/
lemma AtBlock.lhdIo_read (h : AtBlock d block u) (rw : u.rw = .read) (outcome : Nat → Bool) :
    lhdIo outcome d u =
      if outcome 0 then .ok (0, d, u.put ((d.sect block).slice 0 blocksize)) else .ok (eio, d, u) := by
  rw [h.lhdIo_eq, lhdIoLoop, rw]
  dsimp only
  rw [h.wadd_zero, uiomove_read h.Fits rw h.resid.ge]
  rfl

/-- Writing one sector: the bytes are taken from the request, also when a media error keeps them from the
disk. -/
lemma AtBlock.lhdIo_write (h : AtBlock d block u) (rw : u.rw = .write) (outcome : Nat → Bool) :
    lhdIo outcome d u =
      if outcome 0 then
        .ok (0, { d with sect := Function.update d.sect block (Block.zeros.store 0 (u.data.take blocksize)) },
          u.advance blocksize)
      else .ok (eio, d, u.advance blocksize) := by
  rw [h.lhdIo_eq, lhdIoLoop, rw]
  dsimp only
  rw [h.wadd_zero, uiomove_write h.Fits rw h.resid.ge]
  rfl

/-- A request that is used up succeeds without an operation. -/
lemma lhdIo_done (outcome : Nat → Bool) (aligned : u.offset % blocksize = 0) (resid : u.resid = 0)
    (inside : u.offset / blocksize ≤ d.blocks) (small : d.blocks < 2 ^ 32) : lhdIo outcome d u = .ok (0, d, u) := by
  have fits : ¬ wadd 32 (u.offset / blocksize % 2 ^ 32) 0 > d.blocks := by
    rw [Nat.mod_eq_of_lt (by omega), wadd_of_lt (by omega)]
    omega
  rw [lhdIo, resid, if_neg (by simp [aligned]), Nat.zero_div, if_neg fits, lhdIoLoop]

/-- An attempt that succeeds is the last. -/
lemma sfsRwblockLoop_of_ok {outcome : Nat → Nat → Bool} {left tries : Nat} {d d' : Lhd} {u u' : Uio}
    (h : lhdIo (outcome tries) d u = .ok (0, d', u')) :
    sfsRwblockLoop outcome (left + 1) tries d u = .ok (0, d', u') := by
  rw [sfsRwblockLoop, h]
  rfl

/-- A media error leads to another attempt with what is left of the request. -/
lemma sfsRwblockLoop_of_eio {outcome : Nat → Nat → Bool} {left tries : Nat} {d d' : Lhd} {u u' : Uio}
    (h : lhdIo (outcome tries) d u = .ok (eio, d', u')) :
    sfsRwblockLoop outcome (left + 1) tries d u = sfsRwblockLoop outcome left (tries + 1) d' u' := by
  rw [sfsRwblockLoop, h]
  rfl

/-- Reading a block without a media error. -/
lemma AtBlock.sfsRwblock_read (h : AtBlock d block u) (rw : u.rw = .read) {outcome : Nat → Nat → Bool}
    (ok : outcome 0 0 = true) :
    sfsRwblock outcome d u = .ok (0, d, u.put ((d.sect block).slice 0 blocksize)) := by
  apply sfsRwblockLoop_of_ok
  rw [h.lhdIo_read rw, if_pos ok]

/-- Writing a block without a media error. -/
lemma AtBlock.sfsRwblock_write (h : AtBlock d block u) (rw : u.rw = .write) {outcome : Nat → Nat → Bool}
    (ok : outcome 0 0 = true) :
    sfsRwblock outcome d u =
      .ok (0, { d with sect := Function.update d.sect block (Block.zeros.store 0 (u.data.take blocksize)) },
        u.advance blocksize) := by
  apply sfsRwblockLoop_of_ok
  rw [h.lhdIo_write rw, if_pos ok]

/-- A write whose first attempt fails is reported as a success by the second, which has nothing left to do. -/
lemma AtBlock.sfsRwblock_write_eio (h : AtBlock d block u) (rw : u.rw = .write) {outcome : Nat → Nat → Bool}
    (fails : outcome 0 0 = false) : sfsRwblock outcome d u = .ok (0, d, u.advance blocksize) := by
  have lt := h.lt
  have offset : (u.advance blocksize).offset = (block + 1) * blocksize := by
    rw [Uio.advance, h.offset, Nat.succ_mul]
  rw [sfsRwblock, sfsRwblockLoop_of_eio (h.lhdIo_write rw _ |>.trans (if_neg (by simp [fails])))]
  apply sfsRwblockLoop_of_ok
  apply lhdIo_done
  · rw [offset, Nat.mul_mod_left]
  · rw [Uio.advance, h.resid, Nat.sub_self]
  · rw [offset, Nat.mul_div_cancel _ (by decide)]
    omega
  · exact h.small

/-- A read that is reported as a success has delivered the sector, after however many attempts. -/
lemma AtBlock.sfsRwblockLoop_read (h : AtBlock d block u) (rw : u.rw = .read) {outcome : Nat → Nat → Bool}
    {left tries : Nat} {d' : Lhd} {u' : Uio} (run : sfsRwblockLoop outcome left tries d u = .ok (0, d', u')) :
    u' = u.put ((d.sect block).slice 0 blocksize) := by
  induction left generalizing tries with
  | zero =>
    rw [sfsRwblockLoop] at run
    cases run
  | succ left ih =>
    by_cases ok : outcome tries 0 = true
    · rw [sfsRwblockLoop_of_ok ((h.lhdIo_read rw _).trans (if_pos ok))] at run
      cases run
      rfl
    · rw [sfsRwblockLoop_of_eio ((h.lhdIo_read rw _).trans (if_neg ok))] at run
      exact ih run

/-- However many attempts there are, a read ends with the sector or with a media error. -/
lemma AtBlock.sfsRwblockLoop_ends (h : AtBlock d block u) (rw : u.rw = .read) (outcome : Nat → Nat → Bool)
    (left tries : Nat) :
    sfsRwblockLoop outcome left tries d u = .ok (0, d, u.put ((d.sect block).slice 0 blocksize)) ∨
      sfsRwblockLoop outcome left tries d u = .ok (eio, d, u) := by
  induction left generalizing tries with
  | zero => exact .inr rfl
  | succ left ih =>
    by_cases ok : outcome tries 0 = true
    · exact .inl (sfsRwblockLoop_of_ok ((h.lhdIo_read rw _).trans (if_pos ok)))
    · rw [sfsRwblockLoop_of_eio ((h.lhdIo_read rw _).trans (if_neg ok))]
      exact ih (tries + 1)

/-- A write that returns `0` has put the buffer on the disk. -/
def WriteHonest (outcome : Nat → Nat → Bool) (d : Lhd) (data : Block) (block : Nat) : Prop :=
  ∀ d', sfsWblock outcome d data block = .ok (0, d') → d'.sect block = data

/-- A read that returns `0` has put the sector into the buffer. -/
def ReadHonest (outcome : Nat → Nat → Bool) (d : Lhd) (data : Block) (block : Nat) : Prop :=
  ∀ d' data', sfsRblock outcome d data block = .ok (0, d', data') → data' = d.sect block

/-- A write that succeeds at once. -/
lemma sfsWblock_ok {outcome : Nat → Nat → Bool} (data : Block) (lt : block < d.blocks) (small : d.blocks < 2 ^ 32)
    (ok : outcome 0 0 = true) :
    sfsWblock outcome d data block = .ok (0, { d with sect := Function.update d.sect block data }) := by
  have whole : Block.zeros.store 0 ((data.slice 0 blocksize).take blocksize) = data := by
    rw [List.take_of_length_le (by simp)]
    exact Block.store_slice _ data
  rw [sfsWblock, (atBlock_sfsUio _ .write lt small).sfsRwblock_write rfl ok, ok_bind]
  dsimp only [sfsUio, uioKinit]
  rw [whole]

/-- A write whose first attempt fails leaves the disk as it is, and returns `0`. -/
lemma sfsWblock_lost {outcome : Nat → Nat → Bool} (data : Block) (lt : block < d.blocks) (small : d.blocks < 2 ^ 32)
    (fails : outcome 0 0 = false) : sfsWblock outcome d data block = .ok (0, d) := by
  rw [sfsWblock, (atBlock_sfsUio _ .write lt small).sfsRwblock_write_eio rfl fails]
  rfl

/-- A read that succeeds at once. -/
lemma sfsRblock_ok {outcome : Nat → Nat → Bool} (data : Block) (lt : block < d.blocks) (small : d.blocks < 2 ^ 32)
    (ok : outcome 0 0 = true) : sfsRblock outcome d data block = .ok (0, d, d.sect block) := by
  rw [sfsRblock, (atBlock_sfsUio [] .read lt small).sfsRwblock_read rfl ok, ok_bind]
  dsimp only [sfsUio, uioKinit, Uio.put]
  rw [List.nil_append]
  exact congrArg (fun b => Except.ok (0, d, b)) (Block.store_slice data _)

/-- Reads are honest whatever the disk does. -/
lemma readHonest (outcome : Nat → Nat → Bool) (data : Block) (lt : block < d.blocks) (small : d.blocks < 2 ^ 32) :
    ReadHonest outcome d data block := by
  intro d' data' run
  obtain ⟨⟨result, d₁, u₁⟩, rwblock, rest⟩ := bind_ok_iff.1 run
  cases rest
  rw [(atBlock_sfsUio [] .read lt small).sfsRwblockLoop_read rfl rwblock]
  exact Block.store_slice data _

/-- A write is honest if its first attempt succeeds, or if there is nothing to change. -/
lemma writeHonest_iff (outcome : Nat → Nat → Bool) (data : Block) (lt : block < d.blocks)
    (small : d.blocks < 2 ^ 32) :
    WriteHonest outcome d data block ↔ outcome 0 0 = true ∨ d.sect block = data := by
  by_cases ok : outcome 0 0 = true
  · refine iff_of_true ?_ (.inl ok)
    intro d' run
    rw [sfsWblock_ok data lt small ok] at run
    cases run
    exact Function.update_self ..
  · have run := sfsWblock_lost data lt small (by simpa using ok)
    constructor
    · intro honest
      exact .inr (honest d run)
    · rintro (h | same) d' run'
      · exact absurd h ok
      · rw [run] at run'
        cases run'
        exact same

/-- Block I/O on a sector of the disk is never wrongly reported as a success, unless the first attempt to write
fails while the sector holds other bytes. -/
theorem sfsRwblock_honest_iff (outcome : Nat → Nat → Bool) (data : Block) (lt : block < d.blocks)
    (small : d.blocks < 2 ^ 32) :
    (WriteHonest outcome d data block ∧ ReadHonest outcome d data block) ↔
      (outcome 0 0 = true ∨ d.sect block = data) := by
  rw [writeHonest_iff outcome data lt small]
  exact and_iff_left (readHonest outcome data lt small)

/-- A block of zeros written over other contents. -/
theorem sfsRwblock_honest_zeros :
    WriteHonest (fun _ _ => true) ⟨1, fun _ => fun _ => 1⟩ Block.zeros 0 ∧
      ReadHonest (fun _ _ => true) ⟨1, fun _ => fun _ => 1⟩ Block.zeros 0 :=
  (sfsRwblock_honest_iff _ _ (by decide) (by decide)).2 (.inl rfl)

/-- The first operation fails and all others would succeed; the sector keeps its old bytes, and `sfs_wblock`
returns `0`. -/
theorem sfsWblock_lost_write :
    ∃ d', sfsWblock (fun tries _ => tries != 0) ⟨1, fun _ => fun _ => 1⟩ Block.zeros 0 = .ok (0, d') ∧
      d'.sect 0 ≠ Block.zeros := by
  refine ⟨⟨1, fun _ => fun _ => 1⟩, rfl, ?_⟩
  intro same
  exact absurd (congrFun same 0) (by decide)

end PDS.Sfs
