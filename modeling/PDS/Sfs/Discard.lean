import PDS.Sfs.TruncateExact

/-!
# What truncation leaves behind

`sfs_truncate` frees whole blocks. The rest of the last block keeps its bytes, and so does the block after it where
the indirect block holds it, so that they come back when the file is made longer (`sfs_truncate_discards_iff`).

The device makes no errors.
-/

namespace PDS.Sfs
open Kern Word

/-- An operation that makes a file longer. -/
inductive Extension where
  | truncate (len : Nat)
  | write (u : Uio)

namespace Extension

/-- The call on the vnode `sv`. -/
def op (sv : Nat) : Extension → SfsOp
  | .truncate len => .truncate sv len
  | .write u => .write sv u

/-- It starts or ends past the end of a file of `len` bytes. -/
def Beyond (len : Nat) : Extension → Prop
  | .truncate len' => len < len'
  | .write u => len < u.offset

/-- The size of the file after it, which has `32` bits. -/
def size : Extension → Nat
  | .truncate len' => len' % 2 ^ 32
  | .write u => (u.offset + u.resid) % 2 ^ 32

/-- The position is in the range that is to be written. -/
def Covers (p : Nat) : Extension → Prop
  | .truncate _ => False
  | .write u => u.offset ≤ p ∧ p < u.offset + u.resid

/-- The byte that it puts at a position: a write cuts its offset to `41` bits, and a truncation removes the blocks
past the end of the file. -/
def puts (p : Nat) : Extension → Option UInt8
  | .truncate len' => if CutOff (blocksFor len' % 2 ^ 32) (p / 512) then some 0 else none
  | .write u => if u.pos ≤ p ∧ p < u.pos + u.resid then some (u.data.getD (p - u.pos) 0) else none

/-- A position of a file that had `len` bytes is inside the file now, and has not been written. -/
def Exposes (x : Extension) (len p : Nat) : Prop := len ≤ p ∧ p < x.size ∧ ¬ x.Covers p

end Extension

/-- The byte at a position reads as zero. -/
def ReadsZero (s : SfsFs) (sv p : Nat) : Prop :=
  ∃ s' u, vopIo sv .read (s, uioKinit [] 1 p .read) = .ok (.ok (), (s', u)) ∧ u.data = [0]

/-- Nothing has been written to the file with the inode number `i` from the position `len` on. -/
structure Untouched (i len : Nat) (s s' : SfsFs) : Prop where
  size : (s'.file i).size = (s.file i).size
  byte : ∀ p, len ≤ p → (s'.file i).byte p = (s.file i).byte p

/-- The positions that are exposed can be read; the bytes that a truncation to `len` spares there are zero; and so is
what else is put there. -/
structure LeavesNothing (f : File) (len : Nat) (x : Extension) : Prop where
  inside : ∀ p, x.Exposes len p → p < 143 * 512
  spared : ∀ p, x.Exposes len p → x.puts p = none → ¬ CutOff (blocksFor len) (p / 512) → f.byte p = 0
  stray : ∀ p b, x.Exposes len p → x.puts p = some b → b = 0

section

variable {s s' : SfsFs} {N : Nat → Prop} {sv i len p : Nat} {u : Uio}

/-- The size of the file is that of its inode. -/
lemma Core.size_eq (h : Core s N) (mem : sv ∈ s.vnodes) : (s.file (s.vnode sv).ino).size = (s.vnode sv).i.size.toNat := by
  rw [← h.table.inode_eq mem]
  rfl

/-- A byte inside a file reads as zero if it is, and can be read at all. -/
lemma Core.readsZero_iff (h : Core s N) (mem : sv ∈ s.vnodes) (file : (s.vnode sv).ops = .file)
    (inside : p < (s.file (s.vnode sv).ino).size) :
    ReadsZero s sv p ↔ p < 143 * 512 ∧ (s.file (s.vnode sv).ino).byte p = 0 := by
  have ok : (uioKinit [] 1 p .read).Ok := ⟨⟨by simp [uioKinit], Nat.one_lt_two_pow (by decide)⟩, nofun⟩
  have io := h.wp_vopIo (u := uioKinit [] 1 p .read) mem (h.table.ne_root mem file)
    (h.wp_sfsIo_read mem ok rfl rfl)
  have one : min (uioKinit [] 1 p .read).resid ((s.file (s.vnode sv).ino).size - (uioKinit [] 1 p .read).offset) = 1 := by
    dsimp only [uioKinit]
    omega
  rw [one] at io
  obtain ⟨r, ⟨s₁, u⟩, run, ok, err⟩ := Prog.wp_iff.1 io
  change vopIo sv .read _ = _ at run
  rw [ReadsZero, run]
  cases r with
  | error e =>
    obtain ⟨m, short, -, -, large⟩ := err e rfl
    dsimp only [uioKinit] at short large
    constructor
    · rintro ⟨s', u', eq, -⟩
      cases eq
    · rintro ⟨small, -⟩
      omega
  | ok =>
    obtain ⟨eq, small⟩ := ok () rfl
    have small : p + 1 ≤ 143 * 512 := small Nat.one_pos
    cases eq
    have data : ((uioKinit [] 1 p .read).put ((s.file (s.vnode sv).ino).bytes p 1)).data =
        [(s.file (s.vnode sv).ino).byte p] := rfl
    constructor
    · rintro ⟨s', u', eq, zero⟩
      cases eq
      refine ⟨small, ?_⟩
      exact List.singleton_inj.1 (data.symm.trans zero)
    · rintro ⟨-, zero⟩
      refine ⟨_, _, rfl, ?_⟩
      rw [← zero]
      exact data

/-- What a truncation does to a file. -/
structure Shortened (N : Nat → Prop) (s : SfsFs) (i len : Nat) (s' : SfsFs) : Prop where
  core : Core s' N
  frame : Frame s s'
  size : (s'.file i).size = len % 2 ^ 32
  byte : ∀ p, (s'.file i).byte p = if CutOff (blocksFor len % 2 ^ 32) (p / 512) then 0 else (s.file i).byte p

/-- `sfs_truncate` keeps the invariant. -/
lemma Core.core_sfsTruncate {len : Int} (h : Core s N) (mem : sv ∈ s.vnodes)
    (run : sfsTruncate sv len s = .ok (.ok (), s')) : Core s' N :=
  ((h.wp_sfsTruncate mem len (E := fun _ _ => False)).of_ok run).1.core

/-- What a truncation leaves of a file. -/
lemma Core.shortened (h : Core s N) (mem : sv ∈ s.vnodes) (file : (s.vnode sv).ops = .file)
    (run : vopTruncate sv len s = .ok (.ok (), s')) : Shortened N s (s.vnode sv).ino len s' := by
  have live : s.Live N (s.vnode sv).ino := SfsFs.live_of_mem mem
  have run : sfsTruncate sv len s = .ok (.ok (), s') := by
    rw [vopTruncate, Prog.andThen_of_run (t := s) rfl, file] at run
    exact run
  obtain ⟨n, faulty⟩ := (Faulty.sfsTruncate_erases sv len).exists_run run 0
  obtain ⟨frame, cuts, size⟩ := cuts_of_sfsTruncate h.table mem faulty
  have core := h.core_sfsTruncate mem run
  have mem' : sv ∈ s'.vnodes := frame.vnodes.symm ▸ mem
  refine ⟨core, frame, ?_, fun p => ?_⟩
  · have whole := core.size_eq mem'
    rw [frame.ino, size, UInt32.toNat_ofNat'] at whole
    exact whole
  · have data (fb : Nat) : (s'.file (s.vnode sv).ino).data fb =
        if CutOff (blocksFor len % 2 ^ 32) fb then Block.zeros else (s.file (s.vnode sv).ino).data fb := by
      dsimp only [SfsFs.file]
      by_cases small : fb < 143
      · rw [cuts.ptr fb small (.inr (.inl fun no => by cases no))]
        split_ifs with cut hole hole
        · rfl
        · exact absurd rfl hole
        · rfl
        · apply cuts.sect
          intro eq
          exact dataSlot_ne fb (h.ptr_inj live live eq hole).2
      · rw [SfsFs.ptr_of_le (dataSlot_large (Nat.not_lt.1 small)), SfsFs.ptr_of_le (dataSlot_large (Nat.not_lt.1 small))]
        exact (ite_self _).symm
    rw [File.byte, data, File.byte]
    split_ifs
    · rfl
    · rfl

/-- What an extension does to a file. -/
structure Extended (N : Nat → Prop) (s : SfsFs) (i : Nat) (x : Extension) (s' : SfsFs) : Prop where
  core : Core s' N
  frame : Frame s s'
  size : (s'.file i).size = x.size
  byte : ∀ p, (s'.file i).byte p = (x.puts p).getD ((s.file i).byte p)

/-- A truncation to a greater length extends the file. -/
lemma Shortened.extended (h : Shortened N s i len s') : Extended N s i (.truncate len) s' := by
  refine ⟨h.core, h.frame, h.size, fun p => ?_⟩
  rw [h.byte, Extension.puts]
  split_ifs
  · rfl
  · rfl

/-- A write beyond the end extends the file. -/
lemma Wrote.extended {st : SfsFs × Uio} (h : Wrote N s i u u.resid st) (live : s.Live N i) (ok : u.Ok)
    (write : u.rw = .write) (beyond : (s.file i).size < u.offset) : Extended N s i (.write u) st.1 := by
  have file := h.writes.file_self live
  have grown : (s.file i).size < u.offset + u.resid := by omega
  refine ⟨h.writes.core, h.writes.frame, ?_, fun p => ?_⟩
  · rw [file, File.grow, File.size_store, if_pos grown]
    rfl
  · have length : (u.data.take u.resid).length = u.resid := by
      rw [List.length_take]
      exact Nat.min_eq_left (ok.data write)
    rw [file, File.byte_grow, File.byte_store, length, Extension.puts]
    split_ifs with inside
    · rw [Option.getD_some, List.getD_eq_getElem?_getD, List.getD_eq_getElem?_getD, List.getElem?_take_of_lt (by omega)]
    · rfl

/-- Either way the file is extended. -/
lemma Core.extended {x : Extension} {r : Option Nat} (h : Core s N) (valid : (x.op sv).Valid s)
    (file : (s.vnode sv).ops = .file) (beyond : x.Beyond (s.file (s.vnode sv).ino).size)
    (run : (x.op sv).exec s = .ok (.ok r, s')) : Extended N s (s.vnode sv).ino x s' := by
  cases x with
  | truncate len =>
    have mem : sv ∈ s.vnodes := valid
    obtain ⟨_, t, call, rest⟩ := Prog.ok_of_andThen run
    cases rest
    exact (h.shortened mem file call).extended
  | write u =>
    obtain ⟨mem, ok, write⟩ : sv ∈ s.vnodes ∧ u.Ok ∧ u.rw = .write := valid
    obtain ⟨v, t, call, rest⟩ := Prog.ok_of_andThen run
    cases rest
    have io := h.wp_vopIo mem (h.table.ne_root mem file) (h.wp_sfsIo_write mem ok write)
    rw [write] at io
    have spec : Prog.wp (withUio u (vopIo sv .write)) (fun _ t => Extended N s (s.vnode sv).ino (.write u) t)
        (fun _ _ => True) s := by
      refine wp_withUio (io.mono ?_ (fun _ _ _ => trivial))
      intro _ st wrote
      exact wrote.extended (SfsFs.live_of_mem mem) ok write beyond
    exact spec.of_ok call

end

/-- Truncation discards data exactly when the bytes that it spares, and the extension exposes, are zero already; all
that is exposed can be read; and the extension itself puts nothing but zeros there. -/
theorem sfs_truncate_discards_iff {s s₁ s₂ s₃ : SfsFs} {N N₂ : Nat → Prop} {sv sw len : Nat} {x : Extension}
    {r₁ r₃ : Option Nat} (h : Core s N) (mem : sv ∈ s.vnodes) (file : (s.vnode sv).ops = .file)
    (shorter : len < (s.vnode sv).i.size.toNat) (cut : (SfsOp.truncate sv len).exec s = .ok (.ok r₁, s₁))
    (untouched : Untouched (s.vnode sv).ino len s₁ s₂) (h₂ : Core s₂ N₂) (same : (s₂.vnode sw).ino = (s.vnode sv).ino)
    (valid : (x.op sw).Valid s₂) (beyond : x.Beyond len) (ext : (x.op sw).exec s₂ = .ok (.ok r₃, s₃)) :
    (∀ p, len ≤ p → p < (s₃.vnode sw).i.size.toNat → ¬ x.Covers p → ReadsZero s₃ sw p) ↔
      LeavesNothing (s.file (s.vnode sv).ino) len x := by
  have short : len < 2 ^ 32 := shorter.trans (UInt32.toNat_lt _)
  have blocks : blocksFor len % 2 ^ 32 = blocksFor len := by
    rw [blocksFor]
    omega
  obtain ⟨_, t, call, rest⟩ := Prog.ok_of_andThen cut
  cases rest
  have shortened := h.shortened mem file call
  have mem₂ : sw ∈ s₂.vnodes := by
    cases x with
    | truncate => exact valid
    | write => exact valid.1
  have file₂ : (s₂.vnode sw).ops = .file := by
    rw [h₂.table.ops mem₂, same, ← h.table.ops mem, file]
  have size₂ : (s₂.file (s₂.vnode sw).ino).size = len := by
    rw [same, untouched.size, shortened.size]
    exact Nat.mod_eq_of_lt short
  have extended := h₂.extended valid file₂ (size₂.symm ▸ beyond) ext
  have mem₃ : sw ∈ s₃.vnodes := extended.frame.vnodes.symm ▸ mem₂
  have file₃ : (s₃.vnode sw).ops = .file := (extended.frame.ops sw).trans file₂
  have ino₃ := extended.frame.ino sw
  have size₃ : (s₃.vnode sw).i.size.toNat = x.size := by
    rw [← extended.core.size_eq mem₃, ino₃, extended.size]
  have reads {p : Nat} (lo : len ≤ p) (hi : p < x.size) : ReadsZero s₃ sw p ↔ p < 143 * 512 ∧
      (x.puts p).getD (if CutOff (blocksFor len) (p / 512) then 0 else (s.file (s.vnode sv).ino).byte p) = 0 := by
    have inside : p < (s₃.file (s₃.vnode sw).ino).size := by
      rw [extended.core.size_eq mem₃, size₃]
      exact hi
    rw [extended.core.readsZero_iff mem₃ file₃ inside, ino₃, extended.byte, same, untouched.byte p lo, shortened.byte, blocks]
  rw [size₃]
  constructor
  · intro zeros
    have zero {p : Nat} (exposed : x.Exposes len p) :=
        (reads exposed.1 exposed.2.1).1 (zeros p exposed.1 exposed.2.1 exposed.2.2)
    refine ⟨fun p exposed => (zero exposed).1, ?_, ?_⟩
    · intro p exposed keeps spared
      have value := (zero exposed).2
      rwa [keeps, Option.getD_none, if_neg spared] at value
    · intro p b exposed puts
      have value := (zero exposed).2
      rwa [puts, Option.getD_some] at value
  · intro nothing p lo hi uncovered
    have exposed : x.Exposes len p := ⟨lo, hi, uncovered⟩
    refine (reads lo hi).2 ⟨nothing.inside p exposed, ?_⟩
    cases puts : x.puts p with
    | some b => exact nothing.stray p b exposed puts
    | none =>
      rw [Option.getD_none]
      split_ifs with cut
      · rfl
      · exact nothing.spared p exposed puts cut

/-- A file of two bytes, the second one `7`. -/
structure TwoBytes (s : SfsFs) (N : Nat → Prop) (sv : Nat) : Prop where
  core : Core s N
  mem : sv ∈ s.vnodes
  file : (s.vnode sv).ops = .file
  size : (s.vnode sv).i.size.toNat = 2
  byte : (s.file (s.vnode sv).ino).byte 1 = 7

/-- A file of two bytes can be reached. -/
lemma exists_twoBytes : ∃ s N sv, TwoBytes s N sv := by
  obtain ⟨s, N, sv, core, mem, file, empty, -, used⟩ := exists_small_file
  have ok : (uioKinit [6, 7] 2 0 .write).Ok := uioKinit_write_ok (by decide)
  have io := core.wp_vopIo mem (core.table.ne_root mem file) (core.wp_sfsIo_write mem ok rfl)
  obtain ⟨r, st, run, done, err⟩ := Prog.wp_iff.1 io
  cases r with
  | error e =>
    exfalso
    obtain ⟨m, -, short, aligned, why⟩ := err e rfl
    dsimp only [uioKinit] at short aligned why
    have none : m = 0 := by omega
    subst none
    obtain ⟨-, -, hole⟩ | ⟨-, large⟩ := why
    · exact used hole
    · omega
  | ok =>
    have wrote := done () rfl
    have writes := wrote.writes
    have live : s.Live N (s.vnode sv).ino := SfsFs.live_of_mem mem
    have whole := writes.file_self live
    have mem' : sv ∈ st.1.vnodes := writes.frame.vnodes.symm ▸ mem
    have old : (s.file (s.vnode sv).ino).size = 0 := by rw [core.size_eq mem, empty]
    refine ⟨st.1, N, sv, writes.core, mem', by rw [writes.frame.ops, file], ?_, ?_⟩
    · rw [← writes.core.size_eq mem', writes.frame.ino, whole, File.grow, File.size_store, old]
      rfl
    · rw [writes.frame.ino, whole, File.byte_grow, File.byte_store]
      rfl

/-- A truncation of a regular file runs. -/
lemma Core.vopTruncate_run {s : SfsFs} {N : Nat → Prop} {sv : Nat} (h : Core s N) (mem : sv ∈ s.vnodes)
    (file : (s.vnode sv).ops = .file) (len : Int) : ∃ s', vopTruncate sv len s = .ok (.ok (), s') := by
  rw [vopTruncate, Prog.andThen_of_run (t := s) rfl, file]
  obtain ⟨r, s', run, -, err⟩ := Prog.wp_iff.1 (h.wp_sfsTruncate mem len (E := fun _ _ => False))
  cases r with
  | error e => exact (err e rfl).elim
  | ok => exact ⟨s', run⟩

/-- A truncation through the vnode of a regular file. -/
lemma Core.truncate_exec {s : SfsFs} {N : Nat → Prop} {sv : Nat} (h : Core s N) (mem : sv ∈ s.vnodes)
    (file : (s.vnode sv).ops = .file) (len : Nat) :
    ∃ s', (SfsOp.truncate sv len).exec s = .ok (.ok none, s') ∧ Shortened N s (s.vnode sv).ino len s' := by
  obtain ⟨s', run⟩ := h.vopTruncate_run mem file len
  refine ⟨s', ?_, h.shortened mem file run⟩
  rw [SfsOp.exec, Prog.andThen_of_run run]
  rfl

/-- A file is cut down to nothing; the bytes read as zeros when it gets its length back. -/
theorem sfs_truncate_discards_all : ∃ s N sv s₁ s₂, TwoBytes s N sv ∧ (SfsOp.truncate sv 0).exec s = .ok (.ok none, s₁) ∧
    (SfsOp.truncate sv 2).exec s₁ = .ok (.ok none, s₂) ∧ ReadsZero s₂ sv 0 ∧ ReadsZero s₂ sv 1 := by
  obtain ⟨s, N, sv, two⟩ := exists_twoBytes
  obtain ⟨s₁, run₁, short₁⟩ := two.core.truncate_exec two.mem two.file 0
  have mem₁ : sv ∈ s₁.vnodes := short₁.frame.vnodes.symm ▸ two.mem
  have file₁ : (s₁.vnode sv).ops = .file := (short₁.frame.ops sv).trans two.file
  obtain ⟨s₂, run₂, short₂⟩ := short₁.core.truncate_exec mem₁ file₁ 2
  have size₂ : (s₂.vnode sv).i.size.toNat = 2 := by
    rw [← short₂.core.size_eq (short₂.frame.vnodes.symm ▸ mem₁), short₂.frame.ino, short₂.size]
    rfl
  have all := (sfs_truncate_discards_iff (x := .truncate 2) two.core two.mem two.file (by rw [two.size]; decide) run₁
    ⟨rfl, fun _ _ => rfl⟩ short₁.core (short₁.frame.ino sv) mem₁ (show 0 < 2 by decide) run₂).2 ⟨?_, ?_, ?_⟩
  · rw [size₂] at all
    exact ⟨s, N, sv, s₁, s₂, two, run₁, run₂, all 0 (by decide) (by decide) nofun, all 1 (by decide) (by decide) nofun⟩
  · rintro p ⟨-, lt, -⟩
    exact lt_trans lt (by decide)
  · rintro p ⟨-, lt, -⟩ - spared
    have lt : p < 2 := lt
    exact absurd ⟨Nat.zero_le _, fun large => by omega⟩ spared
  · rintro p b ⟨-, lt, -⟩ puts
    have lt : p < 2 := lt
    rw [Extension.puts, if_neg] at puts
    · cases puts
    · have stays : ∀ p < 2, ¬ CutOff (blocksFor 2 % 2 ^ 32) (p / 512) := by decide
      exact stays p lt

/-- A file of two bytes is cut down to one byte; when it gets its length back, the second byte is there again. -/
theorem sfs_truncate_exposes : ∃ s N sv s₁ s₂, TwoBytes s N sv ∧ (SfsOp.truncate sv 1).exec s = .ok (.ok none, s₁) ∧
    (SfsOp.truncate sv 2).exec s₁ = .ok (.ok none, s₂) ∧ (s₂.vnode sv).i.size.toNat = 2 ∧ ¬ ReadsZero s₂ sv 1 := by
  obtain ⟨s, N, sv, two⟩ := exists_twoBytes
  obtain ⟨s₁, run₁, short₁⟩ := two.core.truncate_exec two.mem two.file 1
  have mem₁ : sv ∈ s₁.vnodes := short₁.frame.vnodes.symm ▸ two.mem
  have file₁ : (s₁.vnode sv).ops = .file := (short₁.frame.ops sv).trans two.file
  obtain ⟨s₂, run₂, short₂⟩ := short₁.core.truncate_exec mem₁ file₁ 2
  have mem₂ : sv ∈ s₂.vnodes := short₂.frame.vnodes.symm ▸ mem₁
  have file₂ : (s₂.vnode sv).ops = .file := (short₂.frame.ops sv).trans file₁
  have size₂ : (s₂.vnode sv).i.size.toNat = 2 := by
    rw [← short₂.core.size_eq mem₂, short₂.frame.ino, short₂.size]
    rfl
  have byte₂ : (s₂.file (s₂.vnode sv).ino).byte 1 = 7 := by
    rw [short₂.frame.ino, short₂.byte, short₁.frame.ino, short₁.byte, two.byte]
    rfl
  refine ⟨s, N, sv, s₁, s₂, two, run₁, run₂, size₂, ?_⟩
  rw [short₂.core.readsZero_iff mem₂ file₂ (by rw [short₂.core.size_eq mem₂, size₂]; decide), byte₂]
  exact fun zero => absurd zero.2 (by decide)

end PDS.Sfs
