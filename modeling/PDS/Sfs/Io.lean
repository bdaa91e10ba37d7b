import PDS.Sfs.Bmap

/-!
# I/O on the contents of a file

A file is an array of bytes: `File.bytes` reads from it and `File.store` writes to it. `sfs_io` cuts a request into
a leading partial block, whole blocks and a trailing partial block; `Moved` says how far a request has come, and
the pieces are put together by `Moved.trans`.

The number of a file block has `32` bits, so a position is one modulo `2 ^ 41`.
-/

namespace PDS.Sfs
open Kern Word

/-- The byte at a position. -/
def File.byte (f : File) (pos : Nat) : UInt8 := (f.data (pos / 512)).at pos

/-- The bytes from `pos` on. -/
def File.bytes (f : File) (pos n : Nat) : List UInt8 := (List.range' pos n).map f.byte

/-- Bytes are stored from `pos` on. -/
def File.store (f : File) (pos : Nat) (bytes : List UInt8) : File :=
  { f with data := fun fb k =>
      if pos ≤ fb * 512 + k.val ∧ fb * 512 + k.val < pos + bytes.length then bytes.getD (fb * 512 + k.val - pos) 0
      else f.data fb k }

section Flat

variable {f : File} {pos m n : Nat} {bytes bytes' : List UInt8}

/-- Bytes of a block are counted modulo its size. -/
lemma Block.at_mod (b : Block) (k : Nat) : b.at (k % 512) = b.at k := by
  rw [Block.at, Block.at]
  congr 1
  exact Fin.ext (Nat.mod_mod ..)

/-- A byte of a file is a byte of its block. -/
lemma File.byte_eq {fb k : Nat} (f : File) (lt : k < 512) : f.byte (fb * 512 + k) = (f.data fb).at k := by
  rw [File.byte, show (fb * 512 + k) / 512 = fb by omega, ← Block.at_mod, show (fb * 512 + k) % 512 = k by omega]

/-- As many bytes as asked for. -/
@[simp] lemma File.length_bytes (f : File) (pos n : Nat) : (f.bytes pos n).length = n := by
  simp [File.bytes]

/-- Two ranges that meet. -/
lemma File.bytes_append (f : File) (pos m n : Nat) : f.bytes pos m ++ f.bytes (pos + m) n = f.bytes pos (m + n) := by
  rw [File.bytes, File.bytes, File.bytes, ← List.map_append, List.range'_append_1]

/-- The empty range. -/
lemma File.bytes_zero (f : File) (pos : Nat) : f.bytes pos 0 = [] := rfl

/-- The bytes in one block. -/
lemma File.bytes_eq_slice (f : File) (inside : pos % 512 + n ≤ 512) :
    f.bytes pos n = (f.data (pos / 512)).slice (pos % 512) n := by
  rw [File.bytes, Block.slice]
  apply List.ext_getElem
  · simp
  · intro k h _
    have lt : k < n := by simpa using h
    rw [List.getElem_map, List.getElem_map, List.getElem_range', List.getElem_range', one_mul]
    have split : pos + k = pos / 512 * 512 + (pos % 512 + k) := by omega
    rw [split, File.byte_eq f (by omega)]

/-- Storing nothing changes nothing. -/
lemma File.store_nil (f : File) (pos : Nat) : f.store pos [] = f := by
  rw [File.store]
  apply File.ext
  · rfl
  · rfl
  · rfl
  · funext fb k
    exact if_neg (by simp)

/-- Two stores that meet are one. -/
lemma File.store_append (f : File) (pos : Nat) (bytes bytes' : List UInt8) :
    (f.store pos bytes).store (pos + bytes.length) bytes' = f.store pos (bytes ++ bytes') := by
  apply File.ext
  · rfl
  · rfl
  · rfl
  · funext fb k
    simp only [File.store, List.length_append]
    generalize fb * 512 + k.val = p
    by_cases h₁ : pos + bytes.length ≤ p ∧ p < pos + bytes.length + bytes'.length
    · rw [if_pos h₁, if_pos (by omega), List.getD_append_right _ _ _ _ (by omega)]
      congr 1
      omega
    · rw [if_neg h₁]
      by_cases h₂ : pos ≤ p ∧ p < pos + bytes.length
      · rw [if_pos h₂, if_pos (by omega), List.getD_append _ _ _ _ (by omega)]
      · rw [if_neg h₂, if_neg (by omega)]

/-- Storing in one block. -/
lemma File.store_eq_update (f : File) (inside : pos % 512 + bytes.length ≤ 512) :
    f.store pos bytes =
      { f with data := Function.update f.data (pos / 512) ((f.data (pos / 512)).store (pos % 512) bytes) } := by
  apply File.ext
  · rfl
  · rfl
  · rfl
  · funext fb k
    have lt := k.isLt
    dsimp only [File.store]
    by_cases same : fb = pos / 512
    · subst same
      rw [Function.update_self, Block.store]
      by_cases h : pos % 512 ≤ k.val ∧ k.val < pos % 512 + bytes.length
      · rw [if_pos h, if_pos (by omega)]
        congr 1
        omega
      · rw [if_neg h, if_neg (by omega)]
    · rw [Function.update_of_ne same, if_neg (by omega)]

/-- What is read after bytes have been stored. -/
lemma File.byte_store (f : File) (pos p : Nat) (bytes : List UInt8) :
    (f.store pos bytes).byte p = if pos ≤ p ∧ p < pos + bytes.length then bytes.getD (p - pos) 0 else f.byte p := by
  have split : p = p / 512 * 512 + p % 512 := by omega
  have lt : p % 512 < 512 := Nat.mod_lt _ (by decide)
  rw [split, File.byte_eq _ lt, File.byte_eq _ lt, ← split, Block.at_of_lt lt, Block.at_of_lt lt]
  dsimp only [File.store]
  rw [← split]

/-- A store does not change the size. -/
@[simp] lemma File.size_store : (f.store pos bytes).size = f.size := rfl

end Flat

/-- The file with the inode number `i` changes to `f`, and nothing else does. -/
structure Writes (N : Nat → Prop) (s : SfsFs) (i : Nat) (f : File) (s' : SfsFs) : Prop where
  core : Core s' N
  frame : Frame s s'
  files : ∀ j, s.Live N j → s'.file j = Function.update s.file i f j
  keeps : KeepsBlocks N s s'

/-- The position in a file. -/
def Uio.pos (u : Uio) : Nat := u.offset % 2 ^ 41

/-- The buffers of a request hold as much as it asks for. -/
structure Uio.Ok (u : Uio) : Prop where
  fits : u.Fits
  data : u.rw = .write → u.resid ≤ u.data.length

/-- `m` bytes of the request `u` have been moved. -/
structure Moved (N : Nat → Prop) (s : SfsFs) (i : Nat) (u : Uio) (m : Nat) (st : SfsFs × Uio) : Prop where
  le : m ≤ u.resid
  inside : 0 < m → u.pos + m ≤ 143 * 512
  read : u.rw = .read → st = (s, u.put ((s.file i).bytes u.pos m))
  write : u.rw = .write →
    Writes N s i ((s.file i).store u.pos (u.data.take m)) st.1 ∧ st.2 = u.advance m ∧
      ∀ p, u.pos ≤ p → p < u.pos + m → st.1.ptr i (dataSlot (p / 512)) ≠ 0

/-- Why I/O on a file fails at a position: there is no space for a missing block, or the file would be too large. -/
def WhyFails (s : SfsFs) (i : Nat) (rw : UioRw) (pos e : Nat) : Prop :=
  e = enospc ∧ rw = .write ∧ s.ptr i (dataSlot (pos / 512)) = 0 ∨ e = efbig ∧ 143 * 512 ≤ pos

/-- A request has failed at the start of a block. -/
structure IoError (N : Nat → Prop) (s : SfsFs) (i : Nat) (u : Uio) (e : Nat) (st : SfsFs × Uio) : Prop where
  moved : ∃ m, Moved N s i u m st ∧ (m < u.resid ∨ u.resid = 0) ∧ (m = 0 ∨ (u.offset + m) % 512 = 0) ∧
    WhyFails s i u.rw ((u.offset + m) % 2 ^ 41) e

section Progress

variable {s s' s'' : SfsFs} {N : Nat → Prop} {sv i m n e : Nat} {u u' : Uio} {f f' : File} {st : SfsFs × Uio}

/-- What is no read is a write. -/
lemma UioRw.eq_write {rw : UioRw} (h : rw ≠ .read) : rw = .write := by
  cases rw with
  | read => exact absurd rfl h
  | write => rfl

/-- Nothing has been written. -/
lemma Writes.refl (h : Core s N) : Writes N s i (s.file i) s where
  core := h
  frame := .refl s
  files j _ := by rw [Function.update_eq_self]
  keeps := .refl N s

/-- A quiet step writes nothing. -/
lemma Writes.of_quiet (h : Quiet N s s') : Writes N s i (s.file i) s' where
  core := h.core
  frame := h.frame
  files j live := by rw [Function.update_eq_self, h.same j live]
  keeps := h.keeps

/-- Writes compose. -/
lemma Writes.trans (h : Writes N s i f s') (h' : Writes N s' i f' s'') : Writes N s i f' s'' where
  core := h'.core
  frame := h.frame.trans h'.frame
  files j live := by
    rw [h'.files j (h.frame.live_iff.2 live)]
    by_cases e : j = i
    · rw [e, Function.update_self, Function.update_self]
    · rw [Function.update_of_ne e, Function.update_of_ne e, h.files j live, Function.update_of_ne e]
  keeps := h.keeps.trans h.frame h'.keeps

/-- The file after the write. -/
lemma Writes.file_self (h : Writes N s i f s') (live : s.Live N i) : s'.file i = f := by
  rw [h.files i live, Function.update_self]

/-- A request stays well formed as bytes are read into it. -/
lemma Uio.Ok.put (ok : u.Ok) (rw : u.rw = .read) {bytes : List UInt8} (le : bytes.length ≤ u.resid) :
    (u.put bytes).Ok where
  fits := ok.fits.put le
  data write := by
    rw [show (u.put bytes).rw = u.rw from rfl, rw] at write
    cases write

/-- A request stays well formed as it advances. -/
lemma Uio.Ok.advance (ok : u.Ok) (le : m ≤ u.resid) : (u.advance m).Ok where
  fits := ok.fits.advance le
  data write := by
    have := ok.data write
    simp only [Uio.advance, List.length_drop]
    omega

/-- Nothing has been moved. -/
lemma Moved.zero (q : Quiet N s s') (same : u.rw = .read → s' = s) : Moved N s i u 0 (s', u) where
  le := Nat.zero_le _
  inside pos := absurd pos (by omega)
  read rw := by
    rw [same rw, File.bytes_zero, Uio.put_nil]
  write _ := by
    rw [List.take_zero, File.store_nil, Uio.advance_zero]
    exact ⟨.of_quiet q, rfl, fun p le lt => by omega⟩

/-- The request that is left. -/
lemma Moved.rest (h : Core s N) (ok : u.Ok) (mv : Moved N s i u m st) :
    Core st.1 N ∧ Frame s st.1 ∧ st.2.Ok ∧ st.2.rw = u.rw ∧ st.2.offset = u.offset + m ∧ st.2.resid = u.resid - m := by
  by_cases rw : u.rw = .read
  · rw [mv.read rw]
    refine ⟨h, .refl s, ok.put rw (by simpa using mv.le), rfl, ?_, ?_⟩ <;> simp [Uio.put]
  · obtain ⟨writes, rest, -⟩ := mv.write (UioRw.eq_write rw)
    rw [rest]
    exact ⟨writes.core, writes.frame, ok.advance mv.le, rfl, rfl, rfl⟩

/-- The position advances without wrapping. -/
lemma pos_add (inside : 0 < m → u.pos + m ≤ 143 * 512) : (u.offset + m) % 2 ^ 41 = u.pos + m := by
  by_cases zero : m = 0
  · rw [zero]
    rfl
  · have := inside (by omega)
    rw [Uio.pos] at *
    omega

/-- The rest of a request is served. -/
lemma Moved.trans (live : s.Live N i) (ok : u.Ok) (mv : Moved N s i u m st) {st' : SfsFs × Uio}
    (mv' : Moved N st.1 i st.2 n st') : Moved N s i u (m + n) st' := by
  have start := pos_add mv.inside
  by_cases rw : u.rw = .read
  · have eq := mv.read rw
    rw [eq] at mv'
    have offset : (u.put ((s.file i).bytes u.pos m)).pos = u.pos + m := by
      rw [← start, Uio.pos, Uio.put, File.length_bytes]
    have le : n ≤ u.resid - m := by simpa [Uio.put] using mv'.le
    refine ⟨?_, ?_, ?_, ?_⟩
    · have := mv.le
      omega
    · intro pos
      by_cases zero : n = 0
      · rw [zero]
        exact mv.inside (by omega)
      · have := mv'.inside (by omega)
        dsimp only at this
        rw [offset] at this
        omega
    · intro _
      rw [mv'.read rw]
      dsimp only
      rw [offset, Uio.put_put, File.bytes_append]
    · intro write
      rw [rw] at write
      cases write
  · have write := UioRw.eq_write rw
    obtain ⟨writes, rest, filled⟩ := mv.write write
    have offset : st.2.pos = u.pos + m := by
      rw [← start, rest]
      rfl
    have le : n ≤ u.resid - m := by
      have := mv'.le
      rw [rest] at this
      exact this
    have enough := ok.data write
    have length : (u.data.take m).length = m := by
      rw [List.length_take]
      have := mv.le
      omega
    obtain ⟨writes', rest', filled'⟩ := mv'.write (by rw [rest]; exact write)
    refine ⟨?_, ?_, fun read => absurd read rw, fun _ => ⟨?_, ?_, ?_⟩⟩
    · have := mv.le
      omega
    · intro pos
      by_cases zero : n = 0
      · rw [zero]
        exact mv.inside (by omega)
      · have := mv'.inside (by omega)
        rw [offset] at this
        omega
    · have whole := writes.trans writes'
      have data : st.2.data = u.data.drop m := by
        rw [rest]
        rfl
      have appended := File.store_append (s.file i) u.pos (u.data.take m) ((u.data.drop m).take n)
      rw [length, ← List.take_add] at appended
      rw [writes.file_self live, offset, data, appended] at whole
      exact whole
    · rw [rest', rest, Uio.advance_advance]
    · intro p lo hi
      by_cases first : p < u.pos + m
      · exact writes'.keeps i _ (writes.frame.live_iff.2 live) (filled p lo first)
      · exact filled' p (by omega) (by omega)

/-- The blocks of a file, when a part of a request has been served. -/
lemma Moved.keeps (mv : Moved N s i u m st) : KeepsBlocks N s st.1 := by
  by_cases rw : u.rw = .read
  · rw [mv.read rw]
    exact .refl N s
  · exact (mv.write (UioRw.eq_write rw)).1.keeps

/-- The rest of a request fails. -/
lemma IoError.after (live : s.Live N i) (ok : u.Ok) (h : Core s N) (mv : Moved N s i u m st) {st' : SfsFs × Uio}
    (more : m < u.resid) (aligned : m = 0 ∨ (u.offset + m) % 512 = 0) (err : IoError N st.1 i st.2 e st') :
    IoError N s i u e st' := by
  obtain ⟨n, mv', left, start, why⟩ := err.moved
  obtain ⟨-, -, -, rw, offset, resid⟩ := mv.rest h ok
  rw [rw, offset, Nat.add_assoc] at why
  refine ⟨m + n, mv.trans live ok mv', ?_, ?_, ?_⟩
  · rw [resid] at left
    omega
  · rw [offset] at start
    omega
  · obtain ⟨space, write, hole⟩ | large := why
    · refine .inl ⟨space, write, ?_⟩
      by_contra ne
      exact mv.keeps i _ live ne hole
    · exact .inr large

end Progress

section Block

variable {s s' : SfsFs} {N : Nat → Prop} {sv i b fb len skipstart : Nat} {u : Uio} {data : Block}

/-- A block of a file is written. -/
lemma Core.writeData {x : Block} (h : Core s N) (live : s.Live N i) (ptr : s.ptr i (dataSlot fb) = b) (ne : b ≠ 0) :
    Writes N s i { s.file i with data := Function.update (s.file i).data fb x } (s.write b x) := by
  subst ptr
  have plain := h.plain_data live ne (dataSlot_ne fb)
  refine ⟨h.write plain ?_, .write, ?_, .of_eq (fun _ _ live => plain.ptr_write live)⟩
  · intro sv mem ino
    exact absurd ino.symm (h.ptr_ne_inode live (SfsFs.live_of_mem mem) ne)
  · intro j hj
    rw [plain.file_write hj]
    by_cases same : j = i
    · rw [same, Function.update_self]
      apply File.ext
      · rfl
      · rfl
      · rfl
      · funext fb'
        dsimp only
        by_cases e : fb' = fb
        · rw [e, if_pos rfl, Function.update_self]
        · rw [Function.update_of_ne e, if_neg]
          intro eq
          exact e (dataSlot_inj (h.ptr_inj live live eq.symm ne).2.symm)
    · rw [Function.update_of_ne same]
      apply File.ext
      · rfl
      · rfl
      · rfl
      · funext fb'
        refine if_neg (fun eq => ?_)
        exact same (h.ptr_inj live hj eq.symm ne).1.symm

/-- What a block of a file holds. -/
lemma SfsFs.data_eq (ptr : s.ptr i (dataSlot fb) = b) :
    (s.file i).data fb = if b = 0 then Block.zeros else s.dev.sect b := by
  rw [← ptr]
  rfl

/-- The block number in 32 bits is that of the position. -/
lemma Uio.pos_div (u : Uio) : u.offset / 512 % 2 ^ 32 = u.pos / 512 := by
  rw [Uio.pos]
  omega

/-- The offset in the block is that of the position. -/
lemma Uio.pos_mod (u : Uio) : u.offset % 512 = u.pos % 512 := by
  rw [Uio.pos]
  omega

/-- The failure of `sfs_bmap` is the failure of a request that has not moved anything. -/
lemma Core.bmap_error (h : Core s N) {e : Nat}
    (err : NoSpace N s sv (dataSlot (u.pos / 512)) (decide (u.rw = .write)) e s' ∨
      (s' = s ∧ e = efbig ∧ 143 ≤ u.pos / 512)) :
    Moved N s (s.vnode sv).ino u 0 (s', u) ∧ WhyFails s (s.vnode sv).ino u.rw u.pos e := by
  obtain no | ⟨rfl, eq, large⟩ := err
  · have write : u.rw = .write := by simpa using no.alloc
    refine ⟨.zero no.quiet ?_, .inl ⟨no.error, write, no.hole⟩⟩
    intro read
    rw [read] at write
    cases write
  · exact ⟨.zero (.refl h) (fun _ => rfl), .inr ⟨eq, by omega⟩⟩

/-- The contents of a block in the buffer. -/
lemma Core.wp_partialioBuf (h : Core s N) (live : s.Live N i) (ptr : s.ptr i (dataSlot fb) = b)
    (alloc : u.rw = .write → b ≠ 0) {Q : Block → SfsFs → Prop} {E : Nat → SfsFs → Prop}
    (ok : Q ((s.file i).data fb) s) : Prog.wp (partialioBuf u.rw b) Q E s := by
  rw [SfsFs.data_eq ptr] at ok
  rw [partialioBuf]
  split_ifs with zero
  · rw [if_pos zero] at ok
    rw [Prog.wp_andThen_iff]
    refine Prog.wp.require ?_ ok
    cases rw : u.rw with
    | read => rfl
    | write => exact absurd zero (alloc rw)
  · rw [if_neg zero] at ok
    refine Prog.wp_of_run (rblock_eq h.geom ?_) ok
    rw [← ptr]
    exact h.ptr_lt live _

/-- I/O to a part of a block. -/
lemma Core.wp_sfsPartialio (h : Core s N) (mem : sv ∈ s.vnodes) (ok : u.Ok) (skip : skipstart = u.offset % 512)
    (inside : skipstart + len ≤ 512) (le : len ≤ u.resid) :
    Prog.wp (sfsPartialio sv skipstart len) (fun _ => Moved N s (s.vnode sv).ino u len)
      (fun e st => Moved N s (s.vnode sv).ino u 0 st ∧ WhyFails s (s.vnode sv).ino u.rw u.pos e) (s, u) := by
  rw [sfsPartialio, Prog.wp_andThen_iff]
  refine Prog.wp_of_run rfl ?_
  rw [Prog.wp_andThen_iff]
  refine Prog.wp.require inside ?_
  rw [Prog.wp_andThen_iff, Prog.wp_onFst_iff, Uio.pos_div]
  refine (h.wp_sfsBmap mem _ _).mono ?_ (fun e s' err => h.bmap_error err)
  rintro b s₁ ⟨(mapped : Mapped N s sv (dataSlot (u.pos / 512)) _ b s₁), (large : u.pos / 512 < 143)⟩
  have live : s.Live N (s.vnode sv).ino := SfsFs.live_of_mem mem
  have live₁ : s₁.Live N (s.vnode sv).ino := mapped.quiet.frame.live_iff.2 live
  have same := mapped.quiet.same _ live
  have core := mapped.quiet.core
  have alloc : u.rw = .write → b ≠ 0 := fun write => mapped.alloc (by simpa using write)
  rw [Prog.wp_andThen_iff, Prog.wp_onFst_iff]
  refine core.wp_partialioBuf live₁ mapped.ptr alloc ?_
  rw [same, Prog.wp_andThen_iff]
  have skip' : skipstart = u.pos % 512 := skip.trans u.pos_mod
  subst skip'
  have bound : 0 < len → u.pos + len ≤ 143 * 512 := by omega
  by_cases rw : u.rw = .read
  · have eq : s₁ = s := mapped.read (by simp [rw])
    have moved : moveIo ((s.file (s.vnode sv).ino).data (u.pos / 512)) (u.pos % 512) len (s₁, u) =
        .ok (.ok ((s.file (s.vnode sv).ino).data (u.pos / 512)),
          (s₁, u.put (((s.file (s.vnode sv).ino).data (u.pos / 512)).slice (u.pos % 512) len))) := by
      rw [moveIo, uiomove_read ok.fits rw le]
    refine Prog.wp_of_run moved ?_
    dsimp only
    rw [if_neg (by simp [rw]), Prog.wp_pure_iff, ← File.bytes_eq_slice _ inside, eq]
    refine ⟨le, bound, fun _ => rfl, ?_⟩
    intro write
    rw [rw] at write
    cases write
  · have write := UioRw.eq_write rw
    have enough := ok.data write
    have length : (u.data.take len).length = len := by
      rw [List.length_take]
      omega
    have moved : moveIo ((s.file (s.vnode sv).ino).data (u.pos / 512)) (u.pos % 512) len (s₁, u) =
        .ok (.ok (((s.file (s.vnode sv).ino).data (u.pos / 512)).store (u.pos % 512) (u.data.take len)),
          (s₁, u.advance len)) := by
      rw [moveIo, uiomove_write ok.fits write le]
    refine Prog.wp_of_run moved ?_
    dsimp only
    rw [if_pos write, Prog.wp_onFst_iff]
    have lt : b < s₁.nblocks := by
      rw [← mapped.ptr]
      exact core.ptr_lt live₁ _
    refine Prog.wp_of_run (wblock_eq core.geom lt) ?_
    refine ⟨le, bound, fun read => absurd read rw, fun _ => ⟨?_, rfl, ?_⟩⟩
    · have writes := core.writeData
        (x := ((s.file (s.vnode sv).ino).data (u.pos / 512)).store (u.pos % 512) (u.data.take len))
        live₁ mapped.ptr (alloc write)
      rw [same, ← File.store_eq_update _ (by rw [length]; exact inside)] at writes
      exact (Writes.of_quiet mapped.quiet).trans writes
    · intro p lo hi
      have block : p / 512 = u.pos / 512 := by omega
      have plain := core.plain_data live₁ (mapped.ptr.symm ▸ alloc write) (dataSlot_ne _)
      rw [mapped.ptr] at plain
      rw [block, plain.ptr_write live₁, mapped.ptr]
      exact alloc write

/-- The request for one block that `sfs_blockio` makes of a request. -/
lemma atBlock_of_blockio (g : Geom s) (lt : b < s.nblocks) (fits : u.Fits) (le : 512 ≤ u.resid) :
    AtBlock s.dev b { u with offset := wmul 32 b 512, resid := 512 } where
  fits := le.trans fits.le
  offset := by
    have small := g.small
    exact wmul_of_lt (by omega)
  resid := rfl
  lt := by rwa [g.dev]
  small := by
    have small := g.small
    rw [g.dev]
    omega

/-- The transfer of one block, with the offset and the residue swapped out. -/
lemma sfsBlockioAt_run (le : 512 ≤ u.resid) {dev : Lhd} {v : Uio}
    (run : sfsRwblock noError s.dev { u with offset := wmul 32 b 512, resid := 512 } = .ok (0, dev, v)) :
    sfsBlockioAt b (s, u) = .ok (.ok (), ({ s with dev := dev },
      { v with offset := v.offset - wmul 32 b 512 + u.offset, resid := v.resid + u.resid - 512 })) := by
  have transfer : Prog.attempt rwblock (s, { u with offset := wmul 32 b 512, resid := 512 }) =
      .ok (.ok (.ok ()), ({ s with dev := dev }, v)) := by
    rw [Prog.attempt, rwblock, run]
    rfl
  apply Prog.run_of_wp
  rw [sfsBlockioAt, Prog.wp_andThen_iff]
  refine Prog.wp_of_run rfl ?_
  rw [Prog.wp_andThen_iff]
  refine Prog.wp.require le ?_
  rw [Prog.wp_andThen_iff, setUio, Prog.wp_modify_iff, Prog.wp_andThen_iff]
  refine Prog.wp_of_run transfer ?_
  rw [Prog.wp_andThen_iff, setUio, Prog.wp_modify_iff]
  exact ⟨rfl, rfl⟩

/-- A whole block is read. -/
lemma sfsBlockioAt_read (g : Geom s) (lt : b < s.nblocks) (fits : u.Fits) (le : 512 ≤ u.resid) (rw : u.rw = .read) :
    sfsBlockioAt b (s, u) = .ok (.ok (), (s, u.put ((s.dev.sect b).slice 0 512))) := by
  rw [sfsBlockioAt_run le ((atBlock_of_blockio g lt fits le).sfsRwblock_read rw rfl)]
  simp only [Uio.put, Block.length_slice, blocksize, Except.ok.injEq, Prod.mk.injEq, Uio.mk.injEq, true_and, and_true]
  omega

/-- A whole block is written. -/
lemma sfsBlockioAt_write (g : Geom s) (lt : b < s.nblocks) (fits : u.Fits) (le : 512 ≤ u.resid) (rw : u.rw = .write) :
    sfsBlockioAt b (s, u) = .ok (.ok (), (s.write b (Block.zeros.store 0 (u.data.take 512)), u.advance 512)) := by
  rw [sfsBlockioAt_run le ((atBlock_of_blockio g lt fits le).sfsRwblock_write rw rfl)]
  simp only [Uio.advance, SfsFs.write, blocksize, Except.ok.injEq, Prod.mk.injEq, Uio.mk.injEq, true_and, and_true]
  omega

/-- I/O of a whole block. -/
lemma Core.wp_sfsBlockio (h : Core s N) (mem : sv ∈ s.vnodes) (ok : u.Ok) (aligned : u.offset % 512 = 0)
    (le : 512 ≤ u.resid) :
    Prog.wp (sfsBlockio sv) (fun _ => Moved N s (s.vnode sv).ino u 512)
      (fun e st => Moved N s (s.vnode sv).ino u 0 st ∧ WhyFails s (s.vnode sv).ino u.rw u.pos e) (s, u) := by
  rw [sfsBlockio, Prog.wp_andThen_iff]
  refine Prog.wp_of_run rfl ?_
  rw [Prog.wp_andThen_iff, Prog.wp_onFst_iff, Uio.pos_div]
  refine (h.wp_sfsBmap mem _ _).mono ?_ (fun e s' err => h.bmap_error err)
  rintro b s₁ ⟨(mapped : Mapped N s sv (dataSlot (u.pos / 512)) _ b s₁), (large : u.pos / 512 < 143)⟩
  have live : s.Live N (s.vnode sv).ino := SfsFs.live_of_mem mem
  have live₁ : s₁.Live N (s.vnode sv).ino := mapped.quiet.frame.live_iff.2 live
  have same := mapped.quiet.same _ live
  have core := mapped.quiet.core
  have aligned' : u.pos % 512 = 0 := by rw [← u.pos_mod, aligned]
  have bound : 0 < 512 → u.pos + 512 ≤ 143 * 512 := by omega
  have block : (s.file (s.vnode sv).ino).data (u.pos / 512) = if b = 0 then Block.zeros else s₁.dev.sect b := by
    rw [← same]
    exact SfsFs.data_eq mapped.ptr
  have bytes : (s.file (s.vnode sv).ino).bytes u.pos 512 =
      ((s.file (s.vnode sv).ino).data (u.pos / 512)).slice (u.pos % 512) 512 := File.bytes_eq_slice _ (by omega)
  rw [aligned', block] at bytes
  have lt : b < s₁.nblocks := by
    rw [← mapped.ptr]
    exact core.ptr_lt live₁ _
  by_cases rw : u.rw = .read
  · have eq : s₁ = s := mapped.read (by simp [rw])
    have notWrite : u.rw ≠ .write := by simp [rw]
    dsimp only
    split_ifs with zero
    · rw [if_pos zero, Block.slice_zeros] at bytes
      rw [Prog.wp_andThen_iff]
      refine Prog.wp.require rw ?_
      have run : movezerosIo 512 (s₁, u) = .ok (.ok (), (s₁, u.put (List.replicate 512 0))) := by
        rw [movezerosIo, uiomovezeros_eq ok.fits rw le]
      refine Prog.wp_of_run run ⟨le, bound, fun _ => ?_, fun write => absurd write notWrite⟩
      rw [eq, bytes]
    · rw [if_neg zero] at bytes
      refine Prog.wp_of_run (sfsBlockioAt_read core.geom lt ok.fits le rw)
        ⟨le, bound, fun _ => ?_, fun write => absurd write notWrite⟩
      rw [bytes, eq]
  · have write := UioRw.eq_write rw
    have enough := ok.data write
    have ne : b ≠ 0 := mapped.alloc (by simpa using write)
    have length : (u.data.take 512).length = 512 := by
      rw [List.length_take]
      omega
    dsimp only
    rw [if_neg ne]
    refine Prog.wp_of_run (sfsBlockioAt_write core.geom lt ok.fits le write)
      ⟨le, bound, fun read => absurd read rw, fun _ => ⟨?_, rfl, ?_⟩⟩
    · -- a whole block is stored, so it does not matter what it is stored into
      have whole : Block.zeros.store 0 (u.data.take 512) =
          ((s.file (s.vnode sv).ino).data (u.pos / 512)).store (u.pos % 512) (u.data.take 512) := by
        funext k
        rw [aligned', Block.store, Block.store, length, if_pos (by omega), if_pos (by omega)]
      have writes := core.writeData (x := Block.zeros.store 0 (u.data.take 512)) live₁ mapped.ptr ne
      rw [same, whole, ← File.store_eq_update _ (by rw [length]; omega)] at writes
      rw [whole]
      exact (Writes.of_quiet mapped.quiet).trans writes
    · intro p lo hi
      have block : p / 512 = u.pos / 512 := by omega
      have plain := core.plain_data live₁ (mapped.ptr.symm ▸ ne) (dataSlot_ne _)
      rw [mapped.ptr] at plain
      rw [block, plain.ptr_write live₁, mapped.ptr]
      exact ne

end Block

section Request

variable {s s' : SfsFs} {N : Nat → Prop} {sv i e m : Nat} {u : Uio} {st : SfsFs × Uio}

/-- A request that fails at its start. -/
lemma IoError.start (mv : Moved N s i u 0 st) (why : WhyFails s i u.rw u.pos e) : IoError N s i u e st :=
  ⟨0, mv, by omega, .inl rfl, why⟩

/-- The rule for the whole blocks, by induction on their number. -/
lemma Core.wp_sfsIoBlocks (h : Core s N) (mem : sv ∈ s.vnodes) (ok : u.Ok) (aligned : u.offset % 512 = 0) (n : Nat)
    (le : n * 512 ≤ u.resid) :
    Prog.wp (sfsIoBlocks sv n) (fun _ => Moved N s (s.vnode sv).ino u (n * 512))
      (fun e st => IoError N s (s.vnode sv).ino u e st ∧ 0 < n) (s, u) := by
  induction n generalizing s u with
  | zero =>
    rw [sfsIoBlocks, Prog.wp_pure_iff, Nat.zero_mul]
    exact .zero (.refl h) (fun _ => rfl)
  | succ n ih =>
    have live : s.Live N (s.vnode sv).ino := SfsFs.live_of_mem mem
    rw [sfsIoBlocks, Prog.wp_andThen_iff]
    refine (h.wp_sfsBlockio mem ok aligned (by omega)).mono ?_ ?_
    · intro _ st mv
      obtain ⟨core, frame, ok', -, offset, resid⟩ := mv.rest h ok
      have mem' : sv ∈ st.1.vnodes := frame.vnodes ▸ mem
      have aligned' : st.2.offset % 512 = 0 := by omega
      have le' : n * 512 ≤ st.2.resid := by
        rw [resid]
        rw [Nat.succ_mul] at le
        exact Nat.le_sub_of_add_le le
      refine (ih core mem' ok' aligned' le').mono ?_ ?_
      · intro _ st' mv'
        rw [frame.ino] at mv'
        have all := mv.trans live ok mv'
        rw [show 512 + n * 512 = (n + 1) * 512 by omega] at all
        exact all
      · rintro e st' ⟨err, pos⟩
        rw [frame.ino] at err
        exact ⟨err.after live ok h mv (by omega) (.inr (by omega)), by omega⟩
    · rintro e st ⟨mv, why⟩
      exact ⟨.start mv why, by omega⟩

/-- The rule for the partial block at the start. -/
lemma Core.wp_sfsIoLead (h : Core s N) (mem : sv ∈ s.vnodes) (ok : u.Ok) :
    Prog.wp (sfsIoLead sv)
      (fun _ st => ∃ m, Moved N s (s.vnode sv).ino u m st ∧ (m = u.resid ∨ (u.offset + m) % 512 = 0))
      (IoError N s (s.vnode sv).ino u) (s, u) := by
  rw [sfsIoLead, Prog.wp_andThen_iff]
  refine Prog.wp_of_run rfl ?_
  dsimp only
  split_ifs with partly
  · refine (h.wp_sfsPartialio mem ok rfl (by omega) (Nat.min_le_right ..)).mono ?_ ?_
    · intro _ st mv
      exact ⟨_, mv, by omega⟩
    · rintro e st ⟨mv, why⟩
      exact .start mv why
  · exact ⟨0, .zero (.refl h) (fun _ => rfl), .inr (by omega)⟩

/-- The rule for what follows it. -/
lemma Core.wp_sfsIoRest (h : Core s N) (mem : sv ∈ s.vnodes) (ok : u.Ok)
    (aligned : u.resid = 0 ∨ u.offset % 512 = 0) :
    Prog.wp (sfsIoRest sv) (fun _ => Moved N s (s.vnode sv).ino u u.resid)
      (fun e st => IoError N s (s.vnode sv).ino u e st ∧ 0 < u.resid) (s, u) := by
  have live : s.Live N (s.vnode sv).ino := SfsFs.live_of_mem mem
  rw [sfsIoRest, Prog.wp_andThen_iff]
  refine Prog.wp_of_run rfl ?_
  dsimp only
  split_ifs with done
  · rw [Prog.wp_pure_iff, done]
    exact .zero (.refl h) (fun _ => rfl)
  have aligned := aligned.resolve_left done
  rw [Prog.wp_andThen_iff]
  refine Prog.wp.require aligned ?_
  rw [Prog.wp_andThen_iff]
  refine (h.wp_sfsIoBlocks mem ok aligned (u.resid / 512) (by omega)).mono ?_ (fun e st err => ⟨err.1, by omega⟩)
  intro _ st mv
  obtain ⟨core, frame, ok', -, offset, resid⟩ := mv.rest h ok
  rw [Prog.wp_andThen_iff]
  refine Prog.wp_of_run (a := st.2) rfl ?_
  rw [Prog.wp_andThen_iff]
  refine Prog.wp.require (by omega) ?_
  split_ifs with more
  · refine (core.wp_sfsPartialio (frame.vnodes ▸ mem) ok' (by omega) (by omega) (Nat.le_refl _)).mono ?_ ?_
    · intro _ st' mv'
      rw [frame.ino] at mv'
      have all := mv.trans live ok mv'
      rw [resid, Nat.add_sub_cancel' mv.le] at all
      exact all
    · rintro e st' ⟨mv', why⟩
      rw [frame.ino] at mv' why
      have err := IoError.start mv' why
      exact ⟨err.after live ok h mv (by omega) (.inr (by omega)), by omega⟩
  · have all : u.resid / 512 * 512 = u.resid := by omega
    rw [all] at mv
    exact mv

/-- A request is served as a whole, or it fails after some bytes. -/
lemma Core.wp_sfsIoBody (h : Core s N) (mem : sv ∈ s.vnodes) (ok : u.Ok) :
    Prog.wp (sfsIoBody sv) (fun _ => Moved N s (s.vnode sv).ino u u.resid) (IoError N s (s.vnode sv).ino u) (s, u) := by
  have live : s.Live N (s.vnode sv).ino := SfsFs.live_of_mem mem
  rw [sfsIoBody, Prog.wp_andThen_iff]
  refine (h.wp_sfsIoLead mem ok).mono ?_ (fun _ _ err => err)
  rintro _ st ⟨m, mv, aligned⟩
  obtain ⟨core, frame, ok', -, offset, resid⟩ := mv.rest h ok
  refine (core.wp_sfsIoRest (frame.vnodes ▸ mem) ok' (by omega)).mono ?_ ?_
  · intro _ st' mv'
    rw [frame.ino] at mv'
    have all := mv.trans live ok mv'
    rw [resid, Nat.add_sub_cancel' mv.le] at all
    exact all
  · rintro e st' ⟨err, more⟩
    rw [frame.ino] at err
    exact err.after live ok h mv (by omega) (by omega)

/-! ## `sfs_io` -/

/-- A file that is written up to the offset `stop` becomes longer; its size has `32` bits. -/
def File.grow (f : File) (stop : Nat) : File := if stop > f.size then { f with size := stop % 2 ^ 32 } else f

/-- `m` bytes of a request have been written, and the size of the file is up to date. -/
structure Wrote (N : Nat → Prop) (s : SfsFs) (i : Nat) (u : Uio) (m : Nat) (st : SfsFs × Uio) : Prop where
  le : m ≤ u.resid
  inside : 0 < m → u.pos + m ≤ 143 * 512
  writes : Writes N s i (((s.file i).store u.pos (u.data.take m)).grow (u.offset + m)) st.1
  rest : st.2 = u.advance m
  filled : ∀ p, u.pos ≤ p → p < u.pos + m → st.1.ptr i (dataSlot (p / 512)) ≠ 0

/-- The rule for the new size. -/
lemma Core.wp_sfsIoGrow (h : Core s N) (mem : sv ∈ s.vnodes) (offset : Nat) {E : Nat → SfsFs → Prop} :
    Prog.wp (sfsIoGrow sv offset) (fun _ => Writes N s (s.vnode sv).ino ((s.file (s.vnode sv).ino).grow offset)) E s := by
  have size : (s.file (s.vnode sv).ino).size = (s.vnode sv).i.size.toNat := by
    rw [← h.table.inode_eq mem]
    rfl
  rw [sfsIoGrow, Prog.wp_andThen_iff]
  refine Prog.wp_of_run rfl ?_
  rw [File.grow, size]
  split_ifs with longer
  · have mapped := h.table.file_mapVnode (f := onInode fun i => { i with size := UInt32.ofNat offset }) mem rfl rfl rfl
    refine Prog.wp_of_run (t := s.mapVnode sv (onInode fun i => { i with size := UInt32.ofNat offset })) rfl
      ⟨h.mapVnode mem rfl rfl id rfl rfl rfl nofun, .mapVnode rfl rfl rfl rfl, ?_,
        .of_eq (fun _ _ _ => h.table.ptr_mapVnode mem rfl rfl rfl)⟩
    intro j _
    rw [mapped]
    congr 1
    apply File.ext
    · exact (congrArg SfsInode.type (h.table.inode_eq mem)).symm
    · exact (congrArg SfsInode.linkcount (h.table.inode_eq mem)).symm
    · exact UInt32.toNat_ofNat'
    · rfl
  · rw [Prog.wp_pure_iff]
    exact .refl h

/-- The end of a write request of which `m` bytes have been moved. -/
lemma Moved.wp_sfsIoOut (mv : Moved N s (s.vnode sv).ino u m st) (mem : sv ∈ s.vnodes) (ok : u.Ok) (rw : u.rw = .write)
    {result : Except Nat Unit} {Q : Unit → SfsFs × Uio → Prop} {E : Nat → SfsFs × Uio → Prop}
    (post : ∀ st, Wrote N s (s.vnode sv).ino u m st → Prog.wp (Prog.give result : IoM Unit) Q E st) :
    Prog.wp (sfsIoOut sv 0 result) Q E st := by
  obtain ⟨writes, rest, filled⟩ := mv.write rw
  have rw' : st.2.rw = .write := by
    rw [rest]
    exact rw
  have mem' : sv ∈ st.1.vnodes := writes.frame.vnodes ▸ mem
  rw [sfsIoOut, Prog.wp_andThen_iff]
  refine Prog.wp_of_run (a := st.2) rfl ?_
  rw [if_pos rw', Prog.wp_andThen_iff, Prog.wp_onFst_iff]
  refine (writes.core.wp_sfsIoGrow mem' st.2.offset (E := fun _ _ => False)).mono ?_ (fun _ _ no => no.elim)
  intro _ s₂ grown
  rw [Prog.wp_andThen_iff, setUio, Prog.wp_modify_iff]
  have resid : wadd 32 st.2.resid 0 = st.2.resid := by
    apply wadd_of_lt
    rw [rest]
    exact lt_of_le_of_lt (Nat.sub_le ..) ok.fits.lt
  have live : s.Live N (s.vnode sv).ino := SfsFs.live_of_mem mem
  rw [writes.frame.ino] at grown
  apply post
  refine ⟨mv.le, mv.inside, ?_, ?_, ?_⟩
  · rw [writes.file_self live, rest] at grown
    exact writes.trans grown
  · dsimp only
    rw [resid]
    exact rest
  · intro p lo hi
    exact grown.keeps _ _ (writes.frame.live_iff.2 live) (filled p lo hi)

/-- A write request. -/
lemma Core.wp_sfsIo_write (h : Core s N) (mem : sv ∈ s.vnodes) (ok : u.Ok) (rw : u.rw = .write) :
    Prog.wp (sfsIo sv) (fun _ => Wrote N s (s.vnode sv).ino u u.resid)
      (fun e st => ∃ m, Wrote N s (s.vnode sv).ino u m st ∧ (m < u.resid ∨ u.resid = 0) ∧
        (m = 0 ∨ (u.offset + m) % 512 = 0) ∧ WhyFails s (s.vnode sv).ino .write ((u.offset + m) % 2 ^ 41) e) (s, u) := by
  rw [sfsIo, Prog.wp_andThen_iff]
  refine Prog.wp_of_run rfl ?_
  rw [Prog.wp_andThen_iff, Prog.wp_onFst_iff]
  refine Prog.wp_of_run rfl ?_
  rw [if_pos rw, sfsIoCut, Prog.wp_andThen_iff, setUio, Prog.wp_modify_iff, Prog.wp_andThen_iff, Prog.wp_attempt_iff]
  refine (h.wp_sfsIoBody mem ok).mono ?_ ?_
  · intro _ st mv
    exact mv.wp_sfsIoOut mem ok rw (fun _ w => w)
  · intro e st err
    obtain ⟨m, mv, left, start, why⟩ := err.moved
    rw [rw] at why
    exact mv.wp_sfsIoOut mem ok rw (fun _ w => ⟨m, w, left, start, why⟩)

/-- A read request that ends before the end of the file, up to `extraresid`. -/
lemma Core.wp_sfsIoCut_read (h : Core s N) (mem : sv ∈ s.vnodes) (ok : u.Ok) (rw : u.rw = .read) {extraresid : Nat}
    (small : extraresid ≤ u.resid) (pos : u.pos = u.offset) :
    Prog.wp (sfsIoCut sv extraresid)
      (fun _ st => st = (s, u.put ((s.file (s.vnode sv).ino).bytes u.offset (u.resid - extraresid))) ∧
        (0 < u.resid - extraresid → u.offset + (u.resid - extraresid) ≤ 143 * 512))
      (fun e st => ∃ m, (m < u.resid - extraresid ∨ u.resid = extraresid) ∧
        st = (s, u.put ((s.file (s.vnode sv).ino).bytes u.offset m)) ∧ e = efbig ∧
        143 * 512 ≤ u.offset + m) (s, u) := by
  have ok' : ({ u with resid := u.resid - extraresid } : Uio).Ok := by
    refine ⟨⟨?_, ?_⟩, ?_⟩
    · exact (Nat.sub_le ..).trans ok.fits.le
    · exact lt_of_le_of_lt (Nat.sub_le ..) ok.fits.lt
    · intro write
      exact absurd (rw.symm.trans write) nofun
  have lt := ok.fits.lt
  -- what is left to do when `m` bytes have been moved
  have finish {m : Nat} {st : SfsFs × Uio} {result : Except Nat Unit}
      (mv : Moved N s (s.vnode sv).ino { u with resid := u.resid - extraresid } m st)
      {Q : Unit → SfsFs × Uio → Prop} {E : Nat → SfsFs × Uio → Prop}
      (post : Prog.wp (Prog.give result : IoM Unit) Q E
        (s, u.put ((s.file (s.vnode sv).ino).bytes u.offset m))) : Prog.wp (sfsIoOut sv extraresid result) Q E st := by
    have le : m ≤ u.resid - extraresid := mv.le
    have eq : st = (s, ({ u with resid := u.resid - extraresid } : Uio).put
        ((s.file (s.vnode sv).ino).bytes u.offset m)) := by
      rw [mv.read rw]
      exact congrArg (fun p => (s, ({ u with resid := u.resid - extraresid } : Uio).put
        ((s.file (s.vnode sv).ino).bytes p m))) pos
    rw [eq, sfsIoOut, Prog.wp_andThen_iff]
    refine Prog.wp_of_run rfl ?_
    have notWrite : (({ u with resid := u.resid - extraresid } : Uio).put
        ((s.file (s.vnode sv).ino).bytes u.offset m)).rw ≠ .write := by
      intro write
      exact absurd (rw.symm.trans write) nofun
    rw [if_neg notWrite, Prog.wp_andThen_iff, Prog.wp_onFst_iff, Prog.wp_pure_iff, Prog.wp_andThen_iff, setUio,
      Prog.wp_modify_iff]
    have resid : wadd 32 (u.resid - extraresid - m) extraresid = u.resid - m := by
      rw [wadd_of_lt (by omega)]
      omega
    simp only [Uio.put, File.length_bytes, resid] at post ⊢
    exact post
  rw [sfsIoCut, Prog.wp_andThen_iff, setUio, Prog.wp_modify_iff, Prog.wp_andThen_iff, Prog.wp_attempt_iff]
  refine (h.wp_sfsIoBody mem ok').mono ?_ ?_
  · intro _ st mv
    refine finish mv ⟨rfl, fun some => ?_⟩
    rw [← pos]
    exact mv.inside some
  · intro e st err
    obtain ⟨m, mv, left, -, why⟩ := err.moved
    refine finish mv ?_
    have start := pos_add mv.inside
    obtain ⟨-, write, -⟩ | ⟨eq, large⟩ := why
    · exact absurd (rw.symm.trans write) nofun
    · refine ⟨m, ?_, rfl, eq, ?_⟩
      · dsimp only at left
        omega
      · rw [start] at large
        have pos : ({ u with resid := u.resid - extraresid } : Uio).pos = u.offset := pos
        rw [pos] at large
        exact large

/-- A read request. -/
lemma Core.wp_sfsIo_read (h : Core s N) (mem : sv ∈ s.vnodes) (ok : u.Ok) (rw : u.rw = .read) {f : File}
    (file : s.file (s.vnode sv).ino = f) :
    Prog.wp (sfsIo sv) (fun _ st => st = (s, u.put (f.bytes u.offset (min u.resid (f.size - u.offset)))) ∧
        (0 < min u.resid (f.size - u.offset) → u.offset + min u.resid (f.size - u.offset) ≤ 143 * 512))
      (fun e st => ∃ m, (m < min u.resid (f.size - u.offset) ∨ u.resid = 0) ∧
        st = (s, u.put (f.bytes u.offset m)) ∧ e = efbig ∧ 143 * 512 ≤ u.offset + m) (s, u) := by
  subst file
  have size : (s.vnode sv).i.size.toNat = (s.file (s.vnode sv).ino).size := by
    rw [← h.table.inode_eq mem]
    rfl
  have small : (s.file (s.vnode sv).ino).size < 2 ^ 32 := by
    rw [← size]
    exact UInt32.toNat_lt _
  rw [sfsIo, Prog.wp_andThen_iff]
  refine Prog.wp_of_run rfl ?_
  rw [Prog.wp_andThen_iff, Prog.wp_onFst_iff]
  refine Prog.wp_of_run rfl ?_
  dsimp only
  rw [size, if_neg (by simp [rw])]
  split_ifs with done longer
  · rw [Prog.wp_pure_iff, Nat.sub_eq_zero_of_le done, Nat.min_zero, File.bytes_zero, Uio.put_nil]
    exact ⟨rfl, fun no => absurd no (lt_irrefl 0)⟩
  · have lt := ok.fits.lt
    have extra : (u.offset + u.resid - (s.file (s.vnode sv).ino).size) % 2 ^ 32 =
        u.offset + u.resid - (s.file (s.vnode sv).ino).size := Nat.mod_eq_of_lt (by omega)
    rw [Prog.wp_andThen_iff, extra]
    refine Prog.wp.require (by omega) ?_
    have pos : u.pos = u.offset := Nat.mod_eq_of_lt (by omega)
    refine (h.wp_sfsIoCut_read mem ok rw (by omega) pos).mono ?_ ?_
    · rintro _ st ⟨rfl, inside⟩
      refine ⟨?_, by omega⟩
      congr 3
      omega
    · rintro e st ⟨m, left, eq, why⟩
      exact ⟨m, by omega, eq, why⟩
  · have pos : u.pos = u.offset := Nat.mod_eq_of_lt (by omega)
    refine (h.wp_sfsIoCut_read mem ok rw (Nat.zero_le _) pos).mono ?_ ?_
    · rintro _ st ⟨rfl, inside⟩
      refine ⟨?_, by omega⟩
      congr 3
      omega
    · rintro e st ⟨m, left, eq, why⟩
      exact ⟨m, by omega, eq, why⟩

/-- A request to a regular file through its vnode. -/
lemma Core.wp_vopIo (h : Core s N) (mem : sv ∈ s.vnodes) (file : (s.vnode sv).ino ≠ 1)
    {Q : Unit → SfsFs × Uio → Prop} {E : Nat → SfsFs × Uio → Prop} (io : Prog.wp (sfsIo sv) Q E (s, u)) :
    Prog.wp (vopIo sv u.rw) Q E (s, u) := by
  have ops := h.table.ops_file mem file
  rw [vopIo.eq_def, Prog.wp_andThen_iff, Prog.wp_onFst_iff]
  refine Prog.wp_of_run rfl ?_
  rw [Prog.wp_andThen_iff]
  refine Prog.wp_of_run rfl ?_
  rw [ops, Prog.wp_andThen_iff]
  exact Prog.wp.require rfl io

end Request

end PDS.Sfs
