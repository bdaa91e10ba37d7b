import PDS.Sfs.Run

/-!
# The contents of a file

A sequence of reads and writes on a regular file that starts without contents. The file behaves as an array of bytes:
a read delivers what was last written at each position, and zeros where nothing was written, up to the end of the
longest write.
-/

namespace PDS.Sfs
open Kern Word

/-- What the writes, each an offset and the bytes, leave at a position. -/
def lastWritten (writes : List (Nat × List UInt8)) : Nat → UInt8 :=
  writes.foldl (fun byte w pos => if w.1 ≤ pos ∧ pos < w.1 + w.2.length then w.2.getD (pos - w.1) 0 else byte pos)
    fun _ => 0

/-- The end of the write that goes farthest. -/
def lastEnd (writes : List (Nat × List UInt8)) : Nat := writes.foldl (fun stop w => max stop (w.1 + w.2.length)) 0

/-- Calls of `VOP_READ` and `VOP_WRITE` of positive length on the vnode `sv`, with one buffer in the kernel, within the
largest size of a file. All writes succeed; they are listed in their order. -/
inductive FileRun (sv : Nat) (s : SfsFs) : List (Nat × List UInt8) → SfsFs → Prop
  | start : FileRun sv s [] s
  | read {writes : List (Nat × List UInt8)} {s₁ s₂ : SfsFs} {o n : Nat} {r : Except Nat Unit} {u : Uio} :
      FileRun sv s writes s₁ → 0 < n → o + n ≤ 143 * 512 →
      vopIo sv .read (s₁, uioKinit [] n o .read) = .ok (r, (s₂, u)) → FileRun sv s writes s₂
  | write {writes : List (Nat × List UInt8)} {s₁ s₂ : SfsFs} {o : Nat} {bytes : List UInt8} {u : Uio} :
      FileRun sv s writes s₁ → 0 < bytes.length → o + bytes.length ≤ 143 * 512 →
      vopIo sv .write (s₁, uioKinit bytes bytes.length o .write) = .ok (.ok (), (s₂, u)) →
      FileRun sv s (writes ++ [(o, bytes)]) s₂

/-- A file without contents. -/
structure File.Empty (f : File) : Prop where
  size : f.size = 0
  zeros : ∀ pos, f.byte pos = 0

/-- A file of size zero to which no block belongs is empty: what is read where there is no block is zeros. -/
lemma File.Empty.of_blank {s : SfsFs} {i : Nat} (size : (s.file i).size = 0) (blank : ∀ k, s.ptr i k = 0) :
    (s.file i).Empty := by
  refine ⟨size, fun pos => ?_⟩
  rw [File.byte, SfsFs.file]
  dsimp only
  rw [if_pos (blank _)]
  rfl

section

variable {s s' : SfsFs} {N : Nat → Prop} {sv o n : Nat} {writes : List (Nat × List UInt8)} {bytes : List UInt8}

/-- The last byte written, with one write more. -/
lemma lastWritten_append (writes : List (Nat × List UInt8)) (o : Nat) (bytes : List UInt8) (pos : Nat) :
    lastWritten (writes ++ [(o, bytes)]) pos =
      if o ≤ pos ∧ pos < o + bytes.length then bytes.getD (pos - o) 0 else lastWritten writes pos := by
  rw [lastWritten, List.foldl_append]
  rfl

/-- The end of the writes, with one more. -/
lemma lastEnd_append (writes : List (Nat × List UInt8)) (o : Nat) (bytes : List UInt8) :
    lastEnd (writes ++ [(o, bytes)]) = max (lastEnd writes) (o + bytes.length) := by
  rw [lastEnd, List.foldl_append]
  rfl

/-- The file is the array that the writes leave. -/
structure Holds (N : Nat → Prop) (sv : Nat) (writes : List (Nat × List UInt8)) (s s' : SfsFs) : Prop where
  core : Core s' N
  frame : Frame s s'
  byte : ∀ pos, (s'.file (s.vnode sv).ino).byte pos = lastWritten writes pos
  size : (s'.file (s.vnode sv).ino).size = lastEnd writes
  small : lastEnd writes ≤ 143 * 512

/-- A read within the largest size of a file. -/
lemma Holds.wp_read (h : Holds N sv writes s s') (mem : sv ∈ s.vnodes) (file : (s.vnode sv).ino ≠ 1)
    (some : 0 < n) (small : o + n ≤ 143 * 512) {E : Nat → SfsFs × Uio → Prop} :
    Prog.wp (vopIo sv .read)
      (fun _ st => st = (s', (uioKinit [] n o .read).put
        ((List.range' o (min n (lastEnd writes - o))).map (lastWritten writes)))) E (s', uioKinit [] n o .read) := by
  have mem' : sv ∈ s'.vnodes := h.frame.vnodes.symm ▸ mem
  have ino := h.frame.ino sv
  have ok : (uioKinit [] n o .read).Ok := by
    refine ⟨⟨?_, ?_⟩, nofun⟩
    · simp [uioKinit]
    · show n < 2 ^ 32
      omega
  have limit := h.small
  refine h.core.wp_vopIo (u := uioKinit [] n o .read) mem' (by rw [ino]; exact file) ?_
  refine (h.core.wp_sfsIo_read mem' ok rfl rfl).mono ?_ ?_
  · rintro _ st ⟨eq, -⟩
    rw [eq, ino, h.size, File.bytes]
    have same : (s'.file (s.vnode sv).ino).byte = lastWritten writes := funext h.byte
    rw [same]
    rfl
  · rintro e st ⟨m, short, -, -, large⟩
    rw [ino, h.size] at short
    have short : m < min n (lastEnd writes - o) ∨ n = 0 := short
    have large : 143 * 512 ≤ o + m := large
    omega

/-- What a write request changes. -/
lemma Holds.wrote (h : Holds N sv writes s s') (mem : sv ∈ s.vnodes) (small : o + bytes.length ≤ 143 * 512)
    {st : SfsFs × Uio}
    (wrote : Wrote N s' (s.vnode sv).ino (uioKinit bytes bytes.length o .write) bytes.length st) :
    Holds N sv (writes ++ [(o, bytes)]) s st.1 := by
  have pos : (uioKinit bytes bytes.length o .write).pos = o := by
    rw [Uio.pos]
    exact Nat.mod_eq_of_lt (show o < 2 ^ 41 by omega)
  have live : s'.Live N (s.vnode sv).ino := h.frame.live_iff.2 (SfsFs.live_of_mem mem)
  have file := wrote.writes.file_self live
  rw [pos, show (uioKinit bytes bytes.length o .write).data = bytes from rfl, List.take_length,
    show (uioKinit bytes bytes.length o .write).offset = o from rfl] at file
  have limit := h.small
  refine ⟨wrote.writes.core, h.frame.trans wrote.writes.frame, ?_, ?_, ?_⟩
  · intro p
    rw [file, File.byte_grow, File.byte_store, lastWritten_append, h.byte]
  · rw [file, File.grow, File.size_store, h.size, lastEnd_append]
    split_ifs with longer
    · show (o + bytes.length) % 2 ^ 32 = _
      omega
    · rw [File.size_store, h.size]
      omega
  · rw [lastEnd_append]
    omega

/-- The file is the array that the writes leave, in every state of a sequence of calls. -/
lemma FileRun.holds (h : Core s N) (mem : sv ∈ s.vnodes) (file : (s.vnode sv).ino ≠ 1)
    (empty : (s.file (s.vnode sv).ino).Empty) (run : FileRun sv s writes s') : Holds N sv writes s s' := by
  induction run with
  | start => exact ⟨h, .refl s, empty.zeros, empty.size, Nat.zero_le _⟩
  | read _ some small call ih =>
    have same := (ih.wp_read mem file some small (E := fun _ _ => False)).of_return call (fun _ eq => eq)
      (fun _ no => no.elim)
    rw [(Prod.mk.inj same).1]
    exact ih
  | @write writes s₁ s₂ o bytes u _ some small call ih =>
    have mem₁ : sv ∈ s₁.vnodes := ih.frame.vnodes.symm ▸ mem
    have ino := ih.frame.ino sv
    have ok : (uioKinit bytes bytes.length o .write).Ok := uioKinit_write_ok (by omega)
    have io := ih.core.wp_vopIo (u := uioKinit bytes bytes.length o .write) mem₁ (by rw [ino]; exact file)
      (ih.core.wp_sfsIo_write mem₁ ok rfl)
    have wrote := io.of_ok call
    rw [ino] at wrote
    exact ih.wrote mem small wrote

/-- A regular file behaves as an array of bytes: after any sequence of reads and writes that starts with an empty file,
its size is the end of the write that goes farthest, and a read delivers what was last written, and zeros where nothing
was written. -/
theorem sfs_file_contents (h : Core s N) (mem : sv ∈ s.vnodes) (regular : (s.file (s.vnode sv).ino).type = typeFile)
    (empty : (s.file (s.vnode sv).ino).Empty) (run : FileRun sv s writes s') :
    (s'.file (s.vnode sv).ino).size = lastEnd writes ∧
      ∀ o n, 0 < n → o + n ≤ 143 * 512 → ∃ u, vopIo sv .read (s', uioKinit [] n o .read) = .ok (.ok (), (s', u)) ∧
        u.data = (List.range' o (min n (lastEnd writes - o))).map (lastWritten writes) ∧
        u.resid = n - min n (lastEnd writes - o) ∧ u.offset = o + min n (lastEnd writes - o) := by
  have file := h.ne_root (SfsFs.live_of_mem mem) regular
  have holds := FileRun.holds h mem file empty run
  refine ⟨holds.size, fun o n some small => ?_⟩
  generalize hb : (List.range' o (min n (lastEnd writes - o))).map (lastWritten writes) = bytes
  have length : bytes.length = min n (lastEnd writes - o) := by
    rw [← hb]
    simp
  have call : vopIo sv .read (s', uioKinit [] n o .read) =
      .ok (.ok (), (s', (uioKinit [] n o .read).put bytes)) := by
    apply Prog.run_of_wp
    refine (holds.wp_read mem file some small).mono ?_ (fun _ _ no => no)
    intro _ st eq
    rw [hb] at eq
    exact ⟨rfl, eq⟩
  refine ⟨_, call, rfl, ?_, ?_⟩
  · rw [← length]
    rfl
  · rw [← length]
    rfl

end

/-- A file of a volume of eight blocks is the only one that is loaded; it is new, and a block is free. -/
structure OnlyNew (s : SfsFs) (N : Nat → Prop) (sv : Nat) : Prop where
  core : Core s N
  vnodes : s.vnodes = [sv]
  dirty : (s.vnode sv).dirty = true
  file : s.file (s.vnode sv).ino = File.new
  blank : ∀ k, s.ptr (s.vnode sv).ino k = 0
  cleared : s.dev.sect (s.vnode sv).ino = Block.zeros
  free : s.freemap 4 = false
  nblocks : s.nblocks = 8

/-- The new file's vnode is in the table. -/
lemma OnlyNew.mem {s : SfsFs} {N : Nat → Prop} {sv : Nat} (h : OnlyNew s N sv) : sv ∈ s.vnodes := by
  rw [h.vnodes]
  exact List.mem_singleton_self sv

/-- The new file has no contents. -/
lemma OnlyNew.empty {s : SfsFs} {N : Nat → Prop} {sv : Nat} (h : OnlyNew s N sv) : (s.file (s.vnode sv).ino).Empty :=
  .of_blank (by rw [h.file]; rfl) h.blank

/-- A new volume with a new file, and a second block that is free. -/
lemma exists_new_file_free : ∃ s N sv, OnlyNew s N sv ∧ s.freemap 5 = false := by
  obtain ⟨inv, map, -⟩ := @inv_newsect [118] smallDisk (by decide) (by decide)
  have size : (mounted { smallDisk with sect := newsect [118] smallDisk }).nblocks = 8 := inv.core.geom.dev.symm
  have none : (mounted { smallDisk with sect := newsect [118] smallDisk }).vnodes = [] := rfl
  generalize mounted { smallDisk with sect := newsect [118] smallDisk } = s at inv map size none
  have free (b : Nat) (lo : 3 ≤ b) (hi : b < 8) : s.freemap b = false := by
    have inside := le_bitmapsize smallDisk.blocks
    rw [map b (lt_of_lt_of_le hi inside)]
    interval_cases b <;> decide
  have makes := inv.core.makes (free 3 (by omega) (by omega)) (by omega)
  have free' : ((s.take 3).addVnode ⟨.file, 1, 0, SfsInode.new, 3, true⟩).freemap 4 = false := free 4 (by omega) (by omega)
  refine ⟨_, s.Named, s.next, ⟨makes.core, ?_, ?_, ?_, ?_, ?_, free', size⟩, free 5 (by omega) (by omega)⟩
  · show s.vnodes ++ [s.next] = [s.next]
    rw [none, List.nil_append]
  · show (Function.update s.vnode s.next _ s.next).dirty = true
    rw [Function.update_self]
  · rw [makes.ino, makes.file]
  · rw [makes.ino]
    exact makes.blank
  · rw [makes.ino]
    show Function.update s.dev.sect 3 Block.zeros 3 = Block.zeros
    rw [Function.update_self]

/-- A new volume with a new file. -/
lemma exists_new_file : ∃ s N sv, OnlyNew s N sv :=
  let ⟨s, N, sv, new, _⟩ := exists_new_file_free
  ⟨s, N, sv, new⟩

/-- A new volume with a new file, to which a block has been given already. -/
lemma exists_empty_file : ∃ s N sv, Core s N ∧ sv ∈ s.vnodes ∧ (s.file (s.vnode sv).ino).type = typeFile ∧
    (s.file (s.vnode sv).ino).Empty ∧ s.ptr (s.vnode sv).ino (dataSlot 0) ≠ 0 := by
  obtain ⟨s, N, sv, new⟩ := exists_new_file
  have mem := new.mem
  obtain ⟨quiet, ptr⟩ := new.core.growDirect new.free (by rw [new.nblocks]; decide) mem 0 (new.blank _)
  generalize (s.take 4).mapVnode sv (onInode (assignDirect 0 4)) = s₁ at quiet ptr
  have file : s₁.file (s₁.vnode sv).ino = s.file (s.vnode sv).ino := by
    rw [quiet.frame.ino, quiet.same _ (SfsFs.live_of_mem mem)]
  refine ⟨s₁, N, sv, quiet.core, quiet.frame.vnodes.symm ▸ mem, ?_, ?_, ?_⟩
  · rw [file, new.file]
    rfl
  · rw [file]
    exact new.empty
  · rw [quiet.frame.ino]
    have slot : dataSlot 0 = (0 : Fin 15).val := rfl
    rw [slot, ptr]
    decide

/-- Three bytes written and read back. -/
theorem sfs_file_contents_abc : ∃ s N sv s' u, Core s N ∧ FileRun sv s [(0, [97, 98, 99])] s' ∧
    vopIo sv .read (s', uioKinit [] 5 0 .read) = .ok (.ok (), (s', u)) ∧ u.data = [97, 98, 99] ∧ u.resid = 2 := by
  obtain ⟨s, N, sv, core, mem, regular, empty, used⟩ := exists_empty_file
  have file := core.ne_root (SfsFs.live_of_mem mem) regular
  have ok : (uioKinit [97, 98, 99] 3 0 .write).Ok := uioKinit_write_ok (by decide)
  -- the block is there, so the write does not fail
  have io := core.wp_vopIo mem file (core.wp_sfsIo_write mem ok rfl)
  obtain ⟨r, ⟨s', v⟩, call, -, err⟩ := Prog.wp_iff.1 io
  cases r with
  | error e =>
    obtain ⟨m, -, short, aligned, why⟩ := err e rfl
    exfalso
    dsimp only [uioKinit] at short aligned why
    have zero : m = 0 := by omega
    subst zero
    obtain ⟨-, -, hole⟩ | ⟨-, large⟩ := why
    · exact used hole
    · omega
  | ok =>
    have run : FileRun sv s [(0, [97, 98, 99])] s' := .write .start (by decide) (by decide) call
    obtain ⟨u, read, data, resid, -⟩ := (sfs_file_contents core mem regular empty run).2 0 5 (by decide) (by decide)
    exact ⟨s, N, sv, s', u, core, run, read, data, resid⟩

end PDS.Sfs
