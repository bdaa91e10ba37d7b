import PDS.Kern.UserMemInv

/-!
# Correctness of the loader

`vopRead_pieces` is the rule for reads: whatever holds of the pieces moved so far and survives one more
call of `uiomove` holds of all the bytes that the read delivers. With it, reading a structure leaves the
machine alone and returns bytes of the file (`readStruct_ok`), and loading a segment is storing bytes of
the file at its address (`loadSegment_ok`).

In the second pass over the program headers, the segments are stored one after the other. They are
disjoint, so each keeps its bytes; the rest of every segment keeps the zeros of `as_prepare_load`.
-/

namespace PDS.Kern
open Word Extent

/-- A transfer to a single `iovec` after `n` bytes. -/
def Uio.advance (u : Uio) (base len n : Nat) : Uio :=
  { u with
    iov := [⟨wadd 32 base n, len - n⟩]
    resid := wsub 32 u.resid n
    offset := u.offset + n }

section
variable {m m' : Mach} {ptr : List UInt8} {u u' : Uio} {base len : Nat}

/-- `uiomove` on a single `iovec` that has room for all the bytes. -/
lemma uiomove_single (iov : u.iov = [⟨base, len⟩]) (ne : ptr ≠ []) (le : ptr.length ≤ u.resid)
    (room : u.resid ≤ len) :
    uiomove m ptr u = (do
      let r ← u.put m ⟨base, len⟩ ptr
      if r.2.2 ≠ 0 then .ok r else .ok (r.1, r.2.1.advance base len ptr.length, 0)) := by
  have pos : 0 < ptr.length := List.length_pos_iff.2 ne
  have size : min len ptr.length = ptr.length := min_eq_right (by omega)
  obtain ⟨fuel, hf⟩ : ∃ fuel, ptr.length + u.iov.length + 1 = fuel + 1 + 1 := ⟨ptr.length, by rw [iov]; rfl⟩
  have stop : ¬ (ptr = [] ∨ u.resid = 0) := by
    rintro (h | h)
    · exact ne h
    · omega
  rw [uiomove, hf, uiomoveLoop, if_neg stop, iov]
  simp only [size, pos.ne', if_false, List.take_length, List.drop_length, uiomoveLoop, true_or, if_true]
  rfl

/-- Bytes are moved to a kernel address. -/
lemma uiomove_kernel (iov : u.iov = [⟨base, len⟩]) (seg : u.segflg = .sysspace) (ne : ptr ≠ [])
    (le : ptr.length ≤ u.resid) (room : u.resid ≤ len) (e : uiomove m ptr u = .ok (m', u', 0)) :
    m' = m ∧ u' = { u with kbuf := u.kbuf ++ ptr }.advance base len ptr.length := by
  rw [uiomove_single iov ne le room, Uio.put, seg] at e
  cases e
  rw [← seg]
  exact ⟨rfl, rfl⟩

/-- Bytes are stored to a user address. -/
lemma uiomove_user (iov : u.iov = [⟨base, len⟩]) (seg : u.segflg ≠ .sysspace) (ne : ptr ≠ [])
    (le : ptr.length ≤ u.resid) (room : u.resid ≤ len) (e : uiomove m ptr u = .ok (m', u', 0)) :
    m.storeBytes base ptr = .ok (m', true) ∧ base < userspaceTop ∧
      u' = u.advance base len ptr.length := by
  have put : u.put m ⟨base, len⟩ ptr = (do
      let r ← copyout m ptr base
      .ok (r.1, u, r.2)) := by
    rw [Uio.put]
    split
    next h => exact absurd h seg
    all_goals rfl
  rw [uiomove_single iov ne le room, put] at e
  simp only [bind_ok_iff] at e
  obtain ⟨_, ⟨⟨m₁, result⟩, ec, ⟨⟩⟩, e⟩ := e
  dsimp only at e
  split at e
  next nz =>
    cases e
    exact absurd rfl nz
  next z =>
    cases not_not.1 z
    cases e
    obtain ⟨st, low⟩ := copyout_ok ec
    exact ⟨st, low, rfl⟩

end

/-- No bytes of a file. -/
@[simp] lemma Vnode.bytes_zero (vn : Vnode) (offset : Nat) : vn.bytes offset 0 = [] := rfl

/-- The bytes of two parts of a file. -/
lemma Vnode.bytes_add (vn : Vnode) (offset n k : Nat) :
    vn.bytes offset (n + k) = vn.bytes offset n ++ vn.bytes (offset + n) k := by
  rw [Vnode.bytes, List.take_add, List.drop_drop]
  rfl

/-- No more bytes than have been asked for. -/
lemma Vnode.bytes_length_le (vn : Vnode) (offset n : Nat) : (vn.bytes offset n).length ≤ n := by
  rw [Vnode.bytes, List.length_take]
  exact Nat.min_le_left _ _

/-- As many bytes as there are. -/
lemma Vnode.bytes_length_of_min (vn : Vnode) (offset n : Nat) :
    vn.bytes offset (vn.bytes offset n).length = vn.bytes offset n := by
  rw [Vnode.bytes, Vnode.bytes, List.length_take, List.take_eq_take_min, Nat.min_assoc, Nat.min_self,
    ← List.take_eq_take_min]

/-- One byte of a file. -/
lemma Vnode.bytes_getElem? {vn : Vnode} {offset n k : Nat} (h : k < n) :
    (vn.bytes offset n)[k]? = vn.data[offset + k]? := by
  rw [Vnode.bytes, List.getElem?_take_of_lt h, List.getElem?_drop]

/-- The rule for reads: `I done m u` says what holds after the bytes `done` have been moved. -/
lemma vopReadLoop_pieces {vn : Vnode} {I : List UInt8 → Mach → Uio → Prop}
    (step : ∀ done bytes m u m' u', I done m u → bytes ≠ [] → bytes.length ≤ u.resid →
      uiomove m bytes u = .ok (m', u', 0) →
      I (done ++ bytes) m' u' ∧ u'.offset = u.offset + bytes.length ∧ u'.resid + bytes.length = u.resid)
    {fuel : Nat} {d : List UInt8} {m m' : Mach} {u u' : Uio} (start : I d m u)
    (e : vopReadLoop vn fuel m u = .ok (m', u', 0)) :
    ∃ n, I (d ++ vn.bytes u.offset n) m' u' ∧ (vn.bytes u.offset n).length = n ∧
      u'.resid + n = u.resid := by
  have stop : ∀ {d : List UInt8} {m : Mach} {u : Uio}, I d m u → I (d ++ vn.bytes u.offset 0) m u := by
    intro d m u start
    rwa [Vnode.bytes_zero, List.append_nil]
  induction fuel generalizing m u d with
  | zero => cases e
  | succ fuel ih =>
    rw [vopReadLoop] at e
    split at e
    next =>
      cases e
      exact ⟨0, stop start, rfl, rfl⟩
    next =>
      split at e
      next =>
        cases e
        exact ⟨0, stop start, rfl, rfl⟩
      next n _ =>
        split at e
        next =>
          cases e
          exact ⟨0, stop start, rfl, rfl⟩
        next ne =>
          obtain ⟨⟨m₁, u₁, result⟩, em, e⟩ := bind_ok_iff.1 e
          dsimp only at e
          split at e
          next nz =>
            cases e
            exact absurd rfl nz
          next z =>
            cases not_not.1 z
            have le : (vn.bytes u.offset (min n u.resid)).length ≤ u.resid :=
              (vn.bytes_length_le _ _).trans (Nat.min_le_right _ _)
            obtain ⟨start₁, off, res⟩ := step _ _ _ _ _ _ start ne le em
            obtain ⟨k, fin, len, res'⟩ := ih start₁ e
            refine ⟨(vn.bytes u.offset (min n u.resid)).length + k, ?_, ?_, by omega⟩
            · rw [Vnode.bytes_add, Vnode.bytes_length_of_min, ← List.append_assoc, ← off]
              exact fin
            · rw [Vnode.bytes_add, Vnode.bytes_length_of_min, List.length_append, ← off, len]

/-- A structure that is read is a piece of the file. -/
lemma readStruct_ok {vn : Vnode} {m m' : Mach} {size offset : Nat} {bytes : List UInt8} (lt : size < 2 ^ 32)
    (e : readStruct vn m size offset = .ok (m', .ok bytes)) :
    m' = m ∧ bytes = vn.bytes offset size ∧ bytes.length = size := by
  obtain ⟨⟨m₁, u₁, result⟩, er, e⟩ := bind_ok_iff.1 e
  dsimp only at e
  split at e
  next => cases e
  next z =>
    cases not_not.1 z
    split at e
    next => cases e
    next done =>
      cases e
      have read := vopReadLoop_pieces (d := []) (I := fun done m₁ u₁ => m₁ = m ∧ u₁.kbuf = done ∧
        u₁.segflg = .sysspace ∧ u₁.resid < 2 ^ 32 ∧ ∃ base len, u₁.iov = [⟨base, len⟩] ∧ u₁.resid ≤ len)
        ?_ ⟨rfl, rfl, rfl, lt, 0, size, rfl, le_refl _⟩ er
      · obtain ⟨n, ⟨rfl, kbuf, -⟩, len, res⟩ := read
        have full : n = size := by
          rw [← show u₁.resid + n = size from res, not_not.1 done, Nat.zero_add]
        subst full
        rw [kbuf]
        exact ⟨rfl, rfl, len⟩
      · rintro done bytes _ u _ u' ⟨rfl, rfl, seg, lt, base, len, iov, room⟩ ne le em
        obtain ⟨rfl, rfl⟩ := uiomove_kernel iov seg ne le room em
        have res : wsub 32 u.resid bytes.length = u.resid - bytes.length := wsub_of_le le lt
        refine ⟨⟨rfl, rfl, seg, ?_, _, _, rfl, ?_⟩, rfl, ?_⟩
        all_goals
          simp only [Uio.advance, res]
          omega

/-- An error is not zero. -/
lemma readStruct_error {vn : Vnode} {m m' : Mach} {size offset result : Nat}
    (e : readStruct vn m size offset = .ok (m', .error result)) : result ≠ 0 := by
  obtain ⟨⟨m₁, u₁, r⟩, -, e⟩ := bind_ok_iff.1 e
  dsimp only at e
  split at e
  next nz =>
    cases e
    exact nz
  next =>
    split at e
    next =>
      cases e
      decide
    next => cases e

/-- A segment that is loaded is stored at its address, which is a user address if there is anything to
store. -/
lemma loadSegment_ok {vn : Vnode} {m m' : Mach} {offset vaddr memsize filesize : Nat} {isExecutable : Bool}
    (lt : memsize < 2 ^ 32) (hv : vaddr < 2 ^ 32)
    (e : loadSegment vn m offset vaddr memsize filesize isExecutable = .ok (m', 0)) :
    m.storeBytes vaddr (vn.bytes offset (min filesize memsize)) = .ok (m', true) ∧
      (vn.bytes offset (min filesize memsize)).length = min filesize memsize ∧
      (0 < min filesize memsize → vaddr < userspaceTop) := by
  have size : (if filesize > memsize then memsize else filesize) = min filesize memsize := by
    rw [Nat.min_def]
    split_ifs <;> omega
  simp only [loadSegment, size] at e
  obtain ⟨⟨m₁, u₁, result⟩, er, e⟩ := bind_ok_iff.1 e
  dsimp only at e
  split at e
  next nz =>
    cases e
    exact absurd rfl nz
  next z =>
    cases not_not.1 z
    split at e
    next => cases e
    next done =>
      cases e
      have le := Nat.min_le_right filesize memsize
      have start : wadd 32 vaddr 0 = vaddr := wadd_of_lt hv
      have read := vopReadLoop_pieces (d := []) (I := fun done m₁ u₁ =>
        m.storeBytes vaddr done = .ok (m₁, true) ∧ (done ≠ [] → vaddr < userspaceTop) ∧
        u₁.segflg ≠ .sysspace ∧ u₁.resid < 2 ^ 32 ∧
        ∃ len, u₁.iov = [⟨wadd 32 vaddr done.length, len⟩] ∧ u₁.resid ≤ len)
        ?_ ⟨rfl, fun h => absurd rfl h, ?_, lt_of_le_of_lt le lt, memsize,
          by rw [List.length_nil, start], le⟩ er
      · obtain ⟨n, ⟨st, low, -⟩, len, res⟩ := read
        have full : n = min filesize memsize := by
          rw [← show u₁.resid + n = min filesize memsize from res, not_not.1 done, Nat.zero_add]
        subst full
        refine ⟨st, len, fun pos => low ?_⟩
        exact List.ne_nil_of_length_pos (len.symm ▸ pos)
      · rintro done bytes m₂ u m₃ u' ⟨st, low, seg, lt, len, iov, room⟩ ne le em
        obtain ⟨st', low', rfl⟩ := uiomove_user iov seg ne le room em
        have res : wsub 32 u.resid bytes.length = u.resid - bytes.length := wsub_of_le le lt
        refine ⟨⟨?_, fun _ => ?_, seg, ?_, len - bytes.length, ?_, ?_⟩, rfl, ?_⟩
        · rw [Mach.storeBytes_append hv st]
          exact st'
        · -- the first piece is the one that `copyout` checks at `vaddr`
          cases done with
          | nil => rwa [List.length_nil, start] at low'
          | cons => exact low (List.cons_ne_nil _ _)
        · simp only [Uio.advance, res]
          omega
        · rw [Uio.advance, wadd_wadd, List.length_append]
        all_goals
          simp only [Uio.advance, res]
          omega
      · cases isExecutable <;> simp

/-- The program header `i` of a file. -/
def Vnode.phdr (vn : Vnode) (eh : Ehdr) (i : Nat) : Phdr := .ofBytes (vn.bytes (eh.phdrOffset i) phdrSize)

/-- The program headers `i, ..., i + n - 1` of a file. -/
def Vnode.phdrs (vn : Vnode) (eh : Ehdr) (n i : Nat) : List Phdr := (List.range' i n).map (vn.phdr eh)

/-- The first program header and the others. -/
lemma Vnode.phdrs_succ (vn : Vnode) (eh : Ehdr) (n i : Nat) :
    vn.phdrs eh (n + 1) i = vn.phdr eh i :: vn.phdrs eh n (i + 1) := rfl

/-- One iteration of a pass that succeeds. -/
lemma forPhdrs_succ {vn : Vnode} {eh : Ehdr} {body : Mach → Phdr → Except Halt (Mach × Nat)} {n i : Nat}
    {m m' : Mach} (e : forPhdrs vn eh body (n + 1) i m = .ok (m', 0)) :
    ((vn.phdr eh i).kind = .skip ∧ forPhdrs vn eh body n (i + 1) m = .ok (m', 0)) ∨
    ((vn.phdr eh i).kind = .load ∧ ∃ m₁, body m (vn.phdr eh i) = .ok (m₁, 0) ∧
      forPhdrs vn eh body n (i + 1) m₁ = .ok (m', 0)) := by
  rw [forPhdrs] at e
  obtain ⟨⟨m₁, read⟩, er, e⟩ := bind_ok_iff.1 e
  cases read with
  | error result =>
    cases e
    exact absurd rfl (readStruct_error er)
  | ok bytes =>
    obtain ⟨rfl, rfl, -⟩ := readStruct_ok (by decide) er
    dsimp only at e
    rw [← Vnode.phdr] at e
    cases kind : (vn.phdr eh i).kind with
    | skip =>
      simp only [kind] at e
      exact .inl ⟨rfl, e⟩
    | unknown =>
      simp only [kind] at e
      cases e
    | load =>
      simp only [kind, bind_ok_iff] at e
      obtain ⟨⟨m₂, result⟩, eb, e⟩ := e
      dsimp only at e
      split at e
      next nz =>
        cases e
        exact absurd rfl nz
      next z =>
        cases not_not.1 z
        exact .inr ⟨rfl, m₂, eb, e⟩

/-- The first pass defines regions for the program headers of the file, and does nothing else. -/
lemma forPhdrs_define {vn : Vnode} {eh : Ehdr} {n i : Nat} {m m' : Mach} {as : AddrSpace}
    (has : m.as = some as) (e : forPhdrs vn eh defineSegment n i m = .ok (m', 0)) :
    ∃ as', m' = { m with as := some as' } ∧ defineRegions as (vn.phdrs eh n i) = (as', 0) := by
  induction n generalizing i m as with
  | zero =>
    cases e
    exact ⟨as, by rw [← has], rfl⟩
  | succ n ih =>
    obtain ⟨kind, e⟩ | ⟨kind, m₁, eb, e⟩ := forPhdrs_succ e
    · obtain ⟨as', hm, ed⟩ := ih has e
      refine ⟨as', hm, ?_⟩
      rw [Vnode.phdrs_succ, defineRegions, kind]
      exact ed
    · rw [defineSegment, has] at eb
      obtain ⟨as₁, r, hd⟩ : ∃ as₁ r, asDefineRegion as (vn.phdr eh i).vaddr.toNat (vn.phdr eh i).memsz.toNat
          = (as₁, r) := ⟨_, _, rfl⟩
      simp only [hd] at eb
      cases eb
      obtain ⟨as', hm, ed⟩ := ih rfl e
      refine ⟨as', hm, ?_⟩
      rw [Vnode.phdrs_succ, defineRegions, kind]
      simp only [hd, ne_eq, not_true, if_false]
      exact ed

/-- The user addresses that a segment takes up. -/
def Phdr.range (ph : Phdr) : Block := ⟨ph.vaddr.toNat, ph.memsz.toNat⟩

/-- The number of bytes of a segment that come from the file. -/
def Phdr.fromFile (ph : Phdr) : Nat := min ph.filesz.toNat ph.memsz.toNat

/-- Two segments have no address in common. -/
def Phdr.Disjoint (ph ph' : Phdr) : Prop := ∀ x, ¬ (ph.range.Has x ∧ ph'.range.Has x)

instance : Std.Symm Phdr.Disjoint := ⟨fun _ _ h x hx => h x hx.symm⟩

/-- The part of a segment that comes from the file. -/
def Phdr.Filled (ph : Phdr) (x : Nat) : Prop := ph.vaddr.toNat ≤ x ∧ x < ph.vaddr.toNat + ph.fromFile

/-- Bytes from the file are in the range of the segment. -/
lemma Phdr.Filled.has {ph : Phdr} {x : Nat} (h : ph.Filled x) : ph.range.Has x := by
  have := Nat.min_le_right ph.filesz.toNat ph.memsz.toNat
  simp only [Phdr.Filled, Phdr.fromFile] at h
  simp only [Phdr.range, Block.Has, Block.stop]
  omega

/-- The second pass stores the bytes of the file that belong to the segments, and no others. -/
lemma forPhdrs_read {vn : Vnode} {eh : Ehdr} {n i : Nat} {m m' : Mach} {as : AddrSpace} (us : m.User as)
    (bk : as.Backed) (inside : ∀ ph ∈ loads (vn.phdrs eh n i), ph.range.stop ≤ userspaceTop)
    (disj : (loads (vn.phdrs eh n i)).Pairwise Phdr.Disjoint)
    (e : forPhdrs vn eh (readSegment vn) n i m = .ok (m', 0)) :
    (∀ ph ∈ loads (vn.phdrs eh n i), ∀ k < ph.fromFile, ∃ b, vn.data[ph.offset.toNat + k]? = some b ∧
      as.Byte m'.phys.mem (ph.vaddr.toNat + k) b) ∧
    (∀ va b, va < 2 ^ 32 → (∀ ph ∈ loads (vn.phdrs eh n i), ¬ ph.Filled va) →
      as.Byte m.phys.mem va b → as.Byte m'.phys.mem va b) ∧ m'.as = some as := by
  induction n generalizing i m with
  | zero =>
    cases e
    exact ⟨by simp [Vnode.phdrs, loads], fun _ _ _ _ h => h, us.space⟩
  | succ n ih =>
    rw [Vnode.phdrs_succ] at inside disj ⊢
    obtain ⟨kind, e⟩ | ⟨kind, m₁, eb, e⟩ := forPhdrs_succ e
    · rw [loads_skip kind] at inside disj ⊢
      exact ih us inside disj e
    · rw [loads_load kind] at inside disj ⊢
      generalize vn.phdr eh i = ph at *
      rw [List.pairwise_cons] at disj
      have top := inside ph (by simp)
      obtain ⟨st, len, -⟩ := loadSegment_ok ph.memsz.toNat_lt ph.vaddr.toNat_lt eb
      have low : ph.vaddr.toNat + (vn.bytes ph.offset.toNat ph.fromFile).length ≤ kseg0 := by
        have := Nat.min_le_right ph.filesz.toNat ph.memsz.toNat
        simp only [Phdr.range, Block.stop, userspaceTop] at top
        rw [Phdr.fromFile, len]
        omega
      obtain ⟨us₁, stored, keep₁⟩ := Mach.storeBytes_spec us bk low st
      obtain ⟨rest_loaded, keep, space⟩ := ih us₁ (fun p hp => inside p (by simp [hp])) disj.2 e
      have len : (vn.bytes ph.offset.toNat ph.fromFile).length = ph.fromFile := len
      refine ⟨?_, ?_, space⟩
      · intro p hp k hk
        cases List.mem_cons.1 hp with
        | inr hp => exact rest_loaded p hp k hk
        | inl hp =>
          subst hp
          have hk' : k < (vn.bytes p.offset.toNat p.fromFile).length := by rw [len]; exact hk
          refine ⟨(vn.bytes p.offset.toNat p.fromFile)[k], ?_, ?_⟩
          · rw [← Vnode.bytes_getElem? hk, List.getElem?_eq_getElem hk']
          · have filled : p.Filled (p.vaddr.toNat + k) := ⟨by omega, by omega⟩
            refine keep _ _ ?_ ?_ (stored k hk')
            · simp only [kseg0] at low
              omega
            · exact fun q hq h => disj.1 q hq _ ⟨filled.has, h.has⟩
      · intro va b lt out h
        refine keep va b lt (fun p hp => out p (by simp [hp])) (keep₁ va b lt ?_ h)
        have := out ph (by simp)
        simp only [Phdr.Filled] at this
        change va < _ ∨ _ + (vn.bytes ph.offset.toNat ph.fromFile).length ≤ va
        omega

/-- Only the segments that are loaded get regions. -/
lemma defineRegions_loads {as as' : AddrSpace} {phs : List Phdr} (e : defineRegions as phs = (as', 0)) :
    defineRegions as (loads phs) = (as', 0) := by
  induction phs generalizing as with
  | nil => exact e
  | cons ph phs ih =>
    cases kind : ph.kind with
    | skip =>
      rw [defineRegions, kind] at e
      rw [loads_skip kind]
      exact ih e
    | unknown =>
      rw [defineRegions, kind] at e
      cases e
    | load =>
      obtain ⟨as₁, step, e⟩ := defineRegions_load kind e
      rw [loads_load kind, defineRegions, kind]
      simp only [step, ne_eq, not_true, if_false]
      exact ih e

/-- The region that `as_define_region` makes of a segment. -/
structure AddrSpace.RegionOf (as : AddrSpace) (r : Region) (ph : Phdr) : Prop where
  vbase : as.vbase r = ph.vaddr.toNat &&& pageFrame
  npages : as.npages r = segmentPages ph.vaddr.toNat ph.memsz.toNat

/-- A segment that does not start in page `0` has another page. -/
lemma page_ne_zero {ph : Phdr} (h : pageSize ≤ ph.vaddr.toNat) : ph.vaddr.toNat &&& pageFrame ≠ 0 := by
  rw [and_pageFrame ph.vaddr.toNat_lt]
  simp only [pageSize] at h ⊢
  omega

/-- A program whose segments are outside page `0` and that gets physical memory has two segments, one for
each region. -/
lemma defineRegions_two {as₀ as : AddrSpace} {phs : List Phdr} (create : asCreate true = some as₀)
    (above : ∀ ph ∈ loads phs, pageSize ≤ ph.vaddr.toNat) (e : defineRegions as₀ phs = (as, 0))
    (n₁ : as.npages1 ≠ 0) (n₂ : as.npages2 ≠ 0) :
    ∃ p q, loads phs = [p, q] ∧ as.RegionOf .one p ∧ as.RegionOf .two q ∧
      as.vbase1 ≠ 0 ∧ as.vbase2 ≠ 0 := by
  have kinds : ∀ ph ∈ loads phs, ph.kind = .load := by
    intro ph h
    simpa using (List.mem_filter.1 h).2
  have e := defineRegions_loads e
  generalize loads phs = l at *
  cases create
  cases l with
  | nil =>
    cases e
    exact absurd rfl n₁
  | cons p l =>
    obtain ⟨as₁, step₁, e⟩ := defineRegions_load (kinds p (by simp)) e
    have nz₁ := page_ne_zero (above p (by simp))
    obtain ⟨-, rfl⟩ | ⟨h, -⟩ := asDefineRegion_ok step₁
    swap
    · exact absurd rfl h
    cases l with
    | nil =>
      cases e
      exact absurd rfl n₂
    | cons q l =>
      obtain ⟨as₂, step₂, e⟩ := defineRegions_load (kinds q (by simp)) e
      have nz₂ := page_ne_zero (above q (by simp))
      obtain ⟨h, -⟩ | ⟨-, -, rfl⟩ := asDefineRegion_ok step₂
      · exact absurd h nz₁
      cases l with
      | nil =>
        cases e
        exact ⟨p, q, rfl, ⟨rfl, rfl⟩, ⟨rfl, rfl⟩, nz₁, nz₂⟩
      | cons c l =>
        obtain ⟨as₃, step₃, -⟩ := defineRegions_load (kinds c (by simp)) e
        obtain ⟨h, -⟩ | ⟨-, h, -⟩ := asDefineRegion_ok step₃
        · exact absurd h nz₁
        · exact absurd h nz₂

/-- The pages of a segment below `USERSPACETOP` cover it, and end there as well. -/
lemma segmentPages_covers {vaddr sz : Nat} (top : vaddr + sz ≤ userspaceTop) :
    vaddr + sz ≤ (vaddr &&& pageFrame) + segmentPages vaddr sz * pageSize ∧
      (vaddr &&& pageFrame) + segmentPages vaddr sz * pageSize ≤ userspaceTop := by
  simp only [userspaceTop, kseg0] at top ⊢
  rw [segmentPages_eq, and_pageFrame (by omega)]
  simp only [pageSize]
  omega

/-- A page of region 1 or 2 is found, in region 1 if it is in both. -/
lemma AddrSpace.lookup_isSome {as : AddrSpace} {r : Region} {fa : Nat} (hr : r ≠ .stack)
    (le : as.vbase r ≤ fa) (lt : fa < as.vbase r + as.npages r * pageSize)
    (top : as.vbase r + as.npages r * pageSize < 2 ^ 32) : ∃ pa, as.lookup fa = some pa := by
  have mul : wmul 32 (as.npages r) pageSize = as.npages r * pageSize := wmul_of_lt (by omega)
  have vtop : wadd 32 (as.vbase r) (wmul 32 (as.npages r) pageSize)
      = as.vbase r + as.npages r * pageSize := by rw [mul, wadd_of_lt top]
  rw [← vtop] at lt
  rw [AddrSpace.lookup]
  cases r with
  | one => exact ⟨_, if_pos ⟨le, lt⟩⟩
  | two =>
    split
    next => exact ⟨_, rfl⟩
    next => exact ⟨_, if_pos ⟨le, lt⟩⟩
  | stack => exact absurd rfl hr

/-- The addresses of a segment are mapped. -/
lemma AddrSpace.RegionOf.translates {as : AddrSpace} {r : Region} {ph : Phdr} (hr : r ≠ .stack)
    (of : as.RegionOf r ph) (su : as.SetUp) (top : ph.range.stop ≤ userspaceTop) {x : Nat}
    (has : ph.range.Has x) : ∃ pa, as.Translates x pa := by
  have top : ph.vaddr.toNat + ph.memsz.toNat ≤ userspaceTop := top
  obtain ⟨cover, stop⟩ := segmentPages_covers top
  rw [← of.vbase, ← of.npages] at cover stop
  obtain ⟨le, lt⟩ := has
  simp only [Phdr.range, Block.stop] at le lt
  have small : userspaceTop < 2 ^ 32 := by decide
  have page : (x &&& pageFrame) + x % pageSize = x := and_pageFrame_add (by omega)
  have base : as.vbase r ≤ x &&& pageFrame := by
    rw [of.vbase, and_pageFrame (by omega), and_pageFrame (by omega)]
    exact Nat.mul_le_mul_right _ (Nat.div_le_div_right le)
  obtain ⟨pa, look⟩ := as.lookup_isSome hr base (by omega) (by omega)
  have al := su.lookup_aligned (and_pageFrame_lt x) (pageSize_dvd_and_pageFrame x) look
  exact ⟨pa, AddrSpace.translates_iff.2 ⟨su, look, al⟩⟩

/-- What `as_prepare_load` has cleared reads as zero. -/
lemma AddrSpace.Backed.byte_zero {as : AddrSpace} (bk : as.Backed) {mem : Pmem}
    (zero : ∀ r p, (as.block r).Has p → mem p = 0) {x pa : Nat} (t : as.Translates x pa) :
    as.Byte mem x 0 := by
  refine ⟨pa, t, ?_⟩
  obtain ⟨r, off, -, -, rfl, le⟩ := t.frame (fun r _ => bk.top r)
  have lt := Nat.mod_lt x (show 0 < pageSize by decide)
  refine zero r _ ⟨?_, ?_⟩
  · simp only [AddrSpace.block]
    omega
  · simp only [AddrSpace.block, Block.stop]
    omega

/-- The executable header of a file. -/
def Vnode.ehdr (vn : Vnode) : Ehdr := .ofBytes (vn.bytes 0 ehdrSize)

/-- The segments of a file that are to be loaded. -/
def Vnode.segments (vn : Vnode) : List Phdr := loads (vn.phdrs vn.ehdr vn.ehdr.phnum.toNat 0)

/-- The steps of a load that succeeds. -/
lemma loadElf_ok {vn : Vnode} {m m' : Mach} {entry : Option Nat}
    (e : loadElf vn m = .ok (m', entry, 0)) :
    ∃ m₁ m₂, forPhdrs vn vn.ehdr defineSegment vn.ehdr.phnum.toNat 0 m = .ok (m₁, 0) ∧
      prepareLoad m₁ = .ok (m₂, 0) ∧
      forPhdrs vn vn.ehdr (readSegment vn) vn.ehdr.phnum.toNat 0 m₂ = .ok (m', 0) := by
  rw [loadElf] at e
  obtain ⟨⟨m₀, read⟩, er, e⟩ := bind_ok_iff.1 e
  cases read with
  | error result =>
    cases e
    exact absurd rfl (readStruct_error er)
  | ok bytes =>
    obtain ⟨rfl, rfl, -⟩ := readStruct_ok (by decide) er
    change (if ¬ vn.ehdr.valid then _ else _) = _ at e
    split at e
    next => cases e
    next =>
      obtain ⟨⟨m₁, r₁⟩, e₁, e⟩ := bind_ok_iff.1 e
      dsimp only at e
      split at e
      next nz =>
        cases e
        exact absurd rfl nz
      next z₁ =>
        obtain ⟨⟨m₂, r₂⟩, e₂, e⟩ := bind_ok_iff.1 e
        dsimp only at e
        split at e
        next nz =>
          cases e
          exact absurd rfl nz
        next z₂ =>
          obtain ⟨⟨m₃, r₃⟩, e₃, e⟩ := bind_ok_iff.1 e
          dsimp only at e
          split at e
          next nz =>
            cases e
            exact absurd rfl nz
          next z₃ =>
            cases e
            cases not_not.1 z₁
            cases not_not.1 z₂
            cases not_not.1 z₃
            exact ⟨m₁, m₂, e₁, e₂, e₃⟩

/-- After a load that succeeds, the bytes found through the translation of `vm_fault` are those of the
file, as far as a segment comes from the file, and zero for the rest of the segment. -/
theorem load_elf_image {vn : Vnode} {m m' : Mach} {entry : Option Nat} (reach : m.phys.vm.Reachable)
    (create : m.as = asCreate true) (activate : m.tlb = asActivate)
    (inside : ∀ ph ∈ vn.segments, pageSize ≤ ph.range.start ∧ ph.range.stop ≤ userspaceTop)
    (disjoint : vn.segments.Pairwise Phdr.Disjoint) (load : loadElf vn m = .ok (m', entry, 0)) :
    ∃ as, m'.as = some as ∧ ∀ ph ∈ vn.segments, ∀ k < ph.memsz.toNat,
      ∃ b, as.Byte m'.phys.mem (ph.vaddr.toNat + k) b ∧
        (k < min ph.filesz.toNat ph.memsz.toNat → vn.data[ph.offset.toNat + k]? = some b) ∧
        (min ph.filesz.toNat ph.memsz.toNat ≤ k → b = 0) := by
  obtain ⟨m₁, m₂, e₁, e₂, e₃⟩ := loadElf_ok load
  -- the first pass and `as_prepare_load`
  obtain ⟨as₁, rfl, regions⟩ := forPhdrs_define create e₁
  obtain ⟨⟨ph₂, as₂, result⟩, prep, e₂⟩ := bind_ok_iff.1 e₂
  cases e₂
  obtain ⟨bk, vbase, npages, zero⟩ := asPrepareLoad_ok reach.booted prep
  have n₁ : as₁.npages1 ≠ 0 := by
    have h := bk.npages .one
    rwa [npages] at h
  have n₂ : as₁.npages2 ≠ 0 := by
    have h := bk.npages .two
    rwa [npages] at h
  obtain ⟨p, q, two, rp, rq, nz₁, nz₂⟩ :=
    defineRegions_two rfl (fun ph h => (inside ph h).1) regions n₁ n₂
  have al : ∀ r, as₂.vbase r &&& pageFrame = as₂.vbase r := by
    rw [vbase]
    exact (defineRegions_last (asCreate_defined rfl) regions).1.aligned
  have su : as₂.SetUp := by
    rw [bk.setUp_iff al]
    have h₁ : as₂.vbase1 = as₁.vbase1 := congrFun vbase .one
    have h₂ : as₂.vbase2 = as₁.vbase2 := congrFun vbase .two
    rw [h₁, h₂]
    exact ⟨nz₁, nz₂⟩
  have mapped : ∀ ph ∈ vn.segments, ∀ x, ph.range.Has x → ∃ pa, as₂.Translates x pa := by
    intro ph h x has
    have top := (inside ph h).2
    rw [Vnode.segments, two] at h
    have rp : as₂.RegionOf .one p := ⟨by rw [vbase, rp.vbase], by rw [npages, rp.npages]⟩
    have rq : as₂.RegionOf .two q := ⟨by rw [vbase, rq.vbase], by rw [npages, rq.npages]⟩
    rcases List.mem_cons.1 h with rfl | h
    · exact rp.translates (by decide) su top has
    · cases List.mem_singleton.1 h
      exact rq.translates (by decide) su top has
  -- the second pass
  have us : Mach.User { m with phys := ph₂, as := some as₂ } as₂ := by
    refine ⟨rfl, ?_⟩
    rw [activate]
    exact asActivate_consistent as₂
  obtain ⟨loaded, kept, space⟩ := forPhdrs_read us bk (fun ph h => (inside ph h).2) disjoint e₃
  refine ⟨as₂, space, ?_⟩
  intro ph h k hk
  by_cases file : k < ph.fromFile
  · obtain ⟨b, hb, byte⟩ := loaded ph h k file
    exact ⟨b, byte, fun _ => hb, fun le => absurd file (Nat.not_lt.2 le)⟩
  · have has : ph.range.Has (ph.vaddr.toNat + k) := by
      simp only [Block.Has, Block.stop, Phdr.range]
      omega
    obtain ⟨pa, t⟩ := mapped ph h _ has
    refine ⟨0, kept _ 0 ?_ ?_ (bk.byte_zero zero t), fun lt => absurd lt file, fun _ => rfl⟩
    · have top := (inside ph h).2
      have small : userspaceTop < 2 ^ 32 := by decide
      exact lt_of_lt_of_le has.2 (top.trans small.le)
    · -- the address is in no other segment, and behind what this one has from the file
      intro ph' h' filled
      by_cases eq : ph' = ph
      · subst eq
        exact file (Nat.lt_of_add_lt_add_left filled.2)
      · exact disjoint.forall h' h eq _ ⟨filled.has, has⟩

/-- An executable whose two segments are in one page. -/
def sharedPage : Vnode where
  data :=
    -- executable header
    [0x7f, 0x45, 0x4c, 0x46, 1, 2, 1, 0, 0, 0, 0, 0, 0, 0, 0, 0, 0, 2, 0, 8, 0, 0, 0, 1,
      0, 0x40, 0, 0, 0, 0, 0, 0x34, 0, 0, 0, 0, 0, 0, 0, 0, 0, 0x34, 0, 0x20, 0, 2, 0, 0, 0, 0, 0, 0] ++
    -- 4 of 8 bytes at 0x400000
    [0, 0, 0, 1, 0, 0, 0, 0x74, 0, 0x40, 0, 0, 0, 0, 0, 0, 0, 0, 0, 4, 0, 0, 0, 8, 0, 0, 0, 5, 0, 0, 0, 0] ++
    -- 2 of 3 bytes at 0x400800
    [0, 0, 0, 1, 0, 0, 0, 0x78, 0, 0x40, 8, 0, 0, 0, 0, 0, 0, 0, 0, 2, 0, 0, 0, 3, 0, 0, 0, 6, 0, 0, 0, 0] ++
    [0xde, 0xad, 0xbe, 0xef, 0xca, 0xfe]
  piece := fun _ resid => .ok resid

/-- The machine of a thread that has just called `as_create` and `as_activate`. -/
def freshMach (vm : Vm) : Mach := ⟨⟨vm, fun _ => 0xff⟩, asCreate true, asActivate, 0, fun _ => false⟩

/-- Both segments of `sharedPage` are loaded. -/
theorem load_elf_image_shared : ∃ vm m' as, vmBoot smallBoot = .ok vm ∧
    loadElf sharedPage (freshMach vm) = .ok (m', some 0x400000, 0) ∧ m'.as = some as ∧
    ∀ ph ∈ sharedPage.segments, ∀ k < ph.memsz.toNat, ∃ b, as.Byte m'.phys.mem (ph.vaddr.toNat + k) b ∧
      (k < min ph.filesz.toNat ph.memsz.toNat → sharedPage.data[ph.offset.toNat + k]? = some b) ∧
      (min ph.filesz.toNat ph.memsz.toNat ≤ k → b = 0) := by
  have eval : (do
      let vm ← vmBoot smallBoot
      let r ← loadElf sharedPage (freshMach vm)
      Except.ok r.2).toOption = some (some 0x400000, 0) := by decide +kernel
  have eval := ok_of_toOption eval
  simp only [bind_ok_iff] at eval
  obtain ⟨vm, boot, ⟨m', entry, result⟩, load, eq⟩ := eval
  cases eq
  have reach : (freshMach vm).phys.vm.Reachable := ⟨smallBoot, vm, [], boot, rfl⟩
  have segs : sharedPage.segments
      = [⟨1, 0x74, 0x400000, 4, 8, 5⟩, ⟨1, 0x78, 0x400800, 2, 3, 6⟩] := by decide +kernel
  have disjoint : sharedPage.segments.Pairwise Phdr.Disjoint := by
    rw [segs]
    refine List.pairwise_pair.2 ?_
    rintro x ⟨⟨-, h⟩, h', -⟩
    exact absurd (lt_of_le_of_lt h' h) (by decide)
  obtain ⟨as, space, image⟩ := load_elf_image reach rfl rfl (by rw [segs]; decide) disjoint load
  exact ⟨vm, m', as, boot, load, space, image⟩

end PDS.Kern
