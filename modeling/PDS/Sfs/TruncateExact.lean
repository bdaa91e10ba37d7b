import PDS.Sfs.SyncHonest

/-!
# What truncation frees

`sfs_truncate` frees the direct blocks from the new end on, but of the entries of the indirect block only those that
are past the block after it, and none if the new end is near the largest size. It is exact for the lengths at which
this makes no difference (`sfs_truncate_exact_iff`).

Of the volume nothing is assumed but that the table of vnodes is in order; the requests may fail in any pattern.
-/

namespace PDS.Sfs
open Kern Word

/-- The number of blocks of a file of `len` bytes. -/
def blocksFor (len : Nat) : Nat := (len + 511) / 512

section

variable {s s' : SfsFs} {sv b n k j : Nat} {blocklen : Nat}

/-- The direct blocks that the loop from `k` on gives up. -/
def DirectCut (blocklen k n : Nat) (l : Fin 15) : Prop := k ≤ l.val ∧ l.val < k + n ∧ blocklen ≤ l.val

instance {blocklen k n : Nat} {l : Fin 15} : Decidable (DirectCut blocklen k n l) := inferInstanceAs (Decidable (_ ∧ _))

/-- What the loop over the direct blocks leaves. -/
structure Directs (sv blocklen k n : Nat) (s s' : SfsFs) : Prop where
  frame : Frame s s'
  dev : s'.dev = s.dev
  inode : (s'.vnode sv).i =
    { (s.vnode sv).i with direct := fun l => if DirectCut blocklen k n l then 0 else (s.vnode sv).i.direct l }
  map : ∀ x, s'.freemap x = true ↔ s.freemap x = true ∧
    ¬ ∃ l, DirectCut blocklen k n l ∧ (s.vnode sv).i.direct l ≠ 0 ∧ ((s.vnode sv).i.direct l).toNat = x

/-- The direct blocks cut, one more. -/
lemma DirectCut.succ_iff {l : Fin 15} :
    DirectCut blocklen k (n + 1) l ↔ DirectCut blocklen k 1 l ∨ DirectCut blocklen (k + 1) n l := by
  rw [DirectCut, DirectCut, DirectCut]
  omega

/-- All fifteen of them. -/
lemma DirectCut.whole_iff {l : Fin 15} : DirectCut blocklen 0 15 l ↔ blocklen ≤ l.val := by
  rw [DirectCut]
  omega

/-- A single one. -/
lemma DirectCut.one {l : Fin 15} (cut : DirectCut blocklen k 1 l) : l = Fin.ofNat 15 k := by
  obtain ⟨lo, hi, -⟩ := cut
  apply Fin.ext
  rw [Fin.ofNat]
  dsimp only
  omega

/-- Nothing is given up. -/
lemma Directs.none (none : ∀ l, DirectCut blocklen k n l → (s.vnode sv).i.direct l = 0) :
    Directs sv blocklen k n s s := by
  refine ⟨.refl s, rfl, ?_, fun x => ?_⟩
  · have same (l : Fin 15) : (if DirectCut blocklen k n l then 0 else (s.vnode sv).i.direct l) = (s.vnode sv).i.direct l := by
      split_ifs with cut
      · exact (none l cut).symm
      · rfl
    simp only [same]
  · refine (and_iff_left ?_).symm
    rintro ⟨l, cut, used, -⟩
    exact used (none l cut)

/-- The block `k` is given up. -/
lemma Directs.one (lt : k < 15) (past : blocklen ≤ k) (used : (s.vnode sv).i.direct (Fin.ofNat 15 k) ≠ 0) :
    Directs sv blocklen k 1 s ((s.unmark ((s.vnode sv).i.direct (Fin.ofNat 15 k)).toNat).mapVnode sv
      (onInode fun i => { i with direct := Function.update i.direct (Fin.ofNat 15 k) 0 })) := by
  have here : DirectCut blocklen k 1 (Fin.ofNat 15 k) := by
    have number : (Fin.ofNat 15 k).val = k := Nat.mod_eq_of_lt lt
    rw [DirectCut, number]
    omega
  refine ⟨Frame.trans .unmark (.mapVnode rfl rfl rfl rfl), rfl, ?_, fun x => ?_⟩
  · have direct (l : Fin 15) : Function.update (s.vnode sv).i.direct (Fin.ofNat 15 k) 0 l =
        if DirectCut blocklen k 1 l then 0 else (s.vnode sv).i.direct l := by
      split_ifs with cut
      · rw [cut.one, Function.update_self]
      · refine Function.update_of_ne ?_ ..
        rintro rfl
        exact cut here
    rw [SfsFs.mapVnode]
    dsimp only
    rw [Function.update_self, onInode]
    dsimp only [SfsFs.unmark]
    rw [funext direct]
  · show Function.update s.freemap _ false x = true ↔ _
    by_cases e : x = ((s.vnode sv).i.direct (Fin.ofNat 15 k)).toNat
    · rw [e, Function.update_self]
      exact iff_of_false Bool.false_ne_true fun both => both.2 ⟨_, here, used, rfl⟩
    · rw [Function.update_of_ne e]
      refine (and_iff_left ?_).symm
      rintro ⟨l, cut, -, eq⟩
      rw [cut.one] at eq
      exact e eq.symm

/-- The loop over the direct blocks, one step and the rest. -/
lemma Directs.trans {t : SfsFs} (h : Directs sv blocklen k 1 s t) (h' : Directs sv blocklen (k + 1) n t s') :
    Directs sv blocklen k (n + 1) s s' := by
  have kept {l : Fin 15} (cut : DirectCut blocklen (k + 1) n l) : (t.vnode sv).i.direct l = (s.vnode sv).i.direct l := by
    rw [h.inode]
    refine if_neg fun cut' => ?_
    have := cut.1
    have := cut'.2.1
    omega
  refine ⟨h.frame.trans h'.frame, h'.dev.trans h.dev, ?_, fun x => ?_⟩
  · rw [h'.inode, h.inode]
    dsimp only
    congr 1
    funext l
    rw [← ite_or]
    exact if_congr (DirectCut.succ_iff.trans or_comm).symm rfl rfl
  · rw [h'.map, h.map, and_assoc, ← not_or]
    refine and_congr_right fun _ => not_congr ?_
    constructor
    · rintro (⟨l, cut, used, eq⟩ | ⟨l, cut, used, eq⟩)
      · exact ⟨l, DirectCut.succ_iff.2 (.inl cut), used, eq⟩
      · rw [kept cut] at used eq
        exact ⟨l, DirectCut.succ_iff.2 (.inr cut), used, eq⟩
    · rintro ⟨l, cut, used, eq⟩
      refine (DirectCut.succ_iff.1 cut).imp (fun cut => ⟨l, cut, used, eq⟩) fun cut => ⟨l, cut, ?_⟩
      rw [kept cut]
      exact ⟨used, eq⟩

/-- The rule for the direct blocks, by induction on those left. -/
lemma wlp_truncateDirect (bound : k + n ≤ 15) {E : Nat → SfsFs → Prop} :
    Prog.wlp (truncateDirect sv blocklen n k) (fun _ s' => Directs sv blocklen k n s s') E s := by
  induction n generalizing s k with
  | zero =>
    rw [truncateDirect, Prog.wlp_pure_iff]
    refine .none fun l cut => ?_
    have := cut.1
    have := cut.2.1
    omega
  | succ n ih =>
    rw [truncateDirect, Prog.wlp_andThen_iff]
    refine Prog.wlp_of_run (a := s.vnode sv) (t := s) rfl ?_
    dsimp only
    split_ifs with free
    · have used : (s.vnode sv).i.direct (Fin.ofNat 15 k) ≠ 0 := by
        intro zero
        rw [zero] at free
        exact free.2 rfl
      have one := Directs.one (by omega) free.1 used
      rw [Prog.wlp_andThen_iff]
      refine wlp_sfsBfree ?_
      rw [Prog.wlp_andThen_iff]
      refine Prog.wlp_of_run rfl ((ih (by omega)).mono ?_ (fun _ _ e => e))
      exact fun _ s' rest => one.trans rest
    · have none : Directs sv blocklen k 1 s s := by
        refine .none fun l cut => ?_
        have same := cut.one
        by_contra used
        refine free ⟨?_, ?_⟩
        · have := cut.2.1
          have := cut.2.2
          omega
        · rw [← same]
          exact fun zero => used (UInt32.toNat_inj.1 zero)
      exact (ih (by omega)).mono (fun _ s' rest => none.trans rest) (fun _ _ e => e)

/-- No entry of the indirect block, which are `w`, is for a block up to the number `blocklen`. -/
def Emptied (blocklen : Nat) (w : Nat → Nat) : Prop := ∀ l < 128, 15 + l ≤ blocklen → w l = 0

/-- What is left of the indirect block `idblock`, which is written back in request `n`. -/
structure Indirects (req : Nat → Request) (n sv blocklen idblock : Nat) (s s' : SfsFs) : Prop where
  frame : Frame s s'
  sect : ∀ b ≠ idblock, s'.dev.sect b = s.dev.sect b
  released : Emptied blocklen (s.dev.sect idblock).word → (s'.vnode sv).i = { (s.vnode sv).i with indirect := 0 }
  kept : ¬ Emptied blocklen (s.dev.sect idblock).word → (s'.vnode sv).i = (s.vnode sv).i ∧
    ∀ l < 128, (s'.dev.sect idblock).word l =
      if blocklen < 15 + l ∧ req n ≠ .lost then 0 else (s.dev.sect idblock).word l
  map : ∀ x, s'.freemap x = true ↔ s.freemap x = true ∧ ¬ Freed blocklen (s.dev.sect idblock).word 0 128 x ∧
    ¬ (Emptied blocklen (s.dev.sect idblock).word ∧ x = idblock)

/-- When the indirect block comes out empty. -/
lemma Trimmed.empty_iff {w : Nat → Nat} {r : (Nat → Nat) × Bool} (h : Trimmed s blocklen w 0 128 r s') :
    ((List.range 128).all fun j => decide (r.1 j = 0)) = true ↔ Emptied blocklen w := by
  simp only [List.all_eq_true, List.mem_range, decide_eq_true_eq, h.buffer]
  constructor
  · intro zero l lt le
    have := zero l lt
    rwa [if_neg (by omega)] at this
  · intro empty l lt
    split_ifs with cut
    · rfl
    · exact empty l lt (by omega)

/-- The rule for the indirect block, with its writes. -/
lemma wlp_truncateIdblock_faulty {req : Nat → Request} {idblock : Nat} (small : idblock < 2 ^ 32) :
    Prog.wlp (Faulty.truncateIdblock req sv blocklen idblock)
      (fun _ st => Indirects req (n + 1) sv blocklen idblock s st.1) (fun _ _ => True) (s, n) := by
  rw [Faulty.truncateIdblock, Prog.wlp_andThen_iff]
  refine Faulty.wlp_rblock ?_ (fun _ _ _ => trivial)
  intro data dev _ read
  obtain ⟨rfl, rfl⟩ := read small
  change Prog.wlp _ _ _ (s, n + 1)
  rw [Prog.wlp_andThen_iff, Prog.wlp_onFst_iff]
  refine (wlp_truncateIndirect (fun no => by cases no)).mono ?_ (fun _ _ e => e)
  rintro r t ⟨trimmed, -⟩
  change Trimmed s blocklen (s.dev.sect idblock).word 0 128 r t at trimmed
  have frame : Frame s t := by
    rw [trimmed.state]
    exact .setMap
  have vnode : t.vnode = s.vnode := by rw [trimmed.state]; rfl
  have dev : t.dev = s.dev := by rw [trimmed.state]; rfl
  dsimp only
  split_ifs with empty dirty
  · have empty := trimmed.empty_iff.1 empty
    rw [Prog.wlp_onFst_iff, Prog.wlp_andThen_iff]
    refine wlp_sfsBfree ?_
    refine Prog.wlp_of_run (t := (t.unmark idblock).mapVnode sv (onInode fun i => { i with indirect := 0 })) rfl ?_
    refine ⟨frame.trans (Frame.trans .unmark (.mapVnode rfl rfl rfl rfl)), fun b _ => ?_, fun _ => ?_,
      fun no => absurd empty no, ?_⟩
    · exact congrFun (congrArg Lhd.sect dev) b
    · show (Function.update t.vnode sv _ sv).i = _
      rw [Function.update_self, onInode, SfsFs.unmark, vnode]
    · intro x
      show Function.update t.freemap idblock false x = true ↔ _
      by_cases e : x = idblock
      · rw [e, Function.update_self]
        exact iff_of_false nofun fun kept => kept.2.2 ⟨empty, rfl⟩
      · rw [Function.update_of_ne e, trimmed.map, ← and_assoc]
        exact (and_iff_left fun released => e released.2).symm
  · have more := mt trimmed.empty_iff.2 empty
    have map (x : Nat) : t.freemap x = true ↔ s.freemap x = true ∧ ¬ Freed blocklen (s.dev.sect idblock).word 0 128 x ∧
        ¬ (Emptied blocklen (s.dev.sect idblock).word ∧ x = idblock) := by
      rw [trimmed.map, ← and_assoc]
      exact (and_iff_left fun released => more released.1).symm
    refine Faulty.wlp_wblock ?_ ?_ (fun _ _ _ => trivial)
    · intro dev' done write
      have written := write small
      refine ⟨frame.trans ⟨rfl, rfl, rfl, fun _ => rfl, fun _ => rfl, fun _ => rfl, fun _ => rfl⟩, fun b other => ?_,
        fun empty => absurd empty more, fun _ => ⟨by rw [← vnode], fun l lt => ?_⟩, map⟩
      · dsimp only
        rw [written, ← dev]
        exact Function.update_of_ne other ..
      dsimp only
      rw [written, done]
      show (Function.update t.dev.sect idblock (Block.ofWords r.1) idblock).word l = _
      have value := trimmed.buffer l
      have word : r.1 l < 2 ^ 32 := by
        rw [value]
        split_ifs
        · decide
        · exact Block.word_lt ..
      rw [Function.update_self, Block.word_ofWords lt word, value]
      refine if_congr ?_ rfl rfl
      simp [lt]
    · intro lost
      refine ⟨frame, fun b _ => by rw [dev], fun empty => absurd empty more, fun _ => ⟨by rw [← vnode], fun l lt => ?_⟩, map⟩
      rw [dev, lost, if_neg (fun both => both.2 rfl)]
  · have more := mt trimmed.empty_iff.2 empty
    obtain ⟨rfl, same⟩ := trimmed.clean (by simpa using dirty)
    rw [Prog.wlp_pure_iff]
    refine ⟨.refl t, fun _ _ => rfl, fun empty => absurd empty more, fun _ => ⟨rfl, fun l lt => ?_⟩, fun x => ?_⟩
    · split_ifs with cut
      · rw [← same, trimmed.buffer, if_pos (by omega)]
      · rfl
    · rw [← and_assoc, and_iff_left fun released => more released.1]
      exact trimmed.map x

end

/-- No block of the indirect block is mapped up to the number `blocklen`. -/
def Blank (s : SfsFs) (i blocklen : Nat) : Prop := ∀ fb, 15 ≤ fb → fb ≤ blocklen → s.ptr i (dataSlot fb) = 0

/-- The blocks of a file that `sfs_truncate` frees. -/
def CutOff (blocklen fb : Nat) : Prop := blocklen ≤ fb ∧ (15 ≤ fb → blocklen ≠ fb)

instance {blocklen fb : Nat} : Decidable (CutOff blocklen fb) := inferInstanceAs (Decidable (_ ∧ _))

/-- What `sfs_truncate` does to the file of the inode `i`; `lost` says that the indirect block is not written back,
although the request is reported as a success. -/
structure Cuts (lost : Prop) (i blocklen : Nat) (s s' : SfsFs) : Prop where
  ptr : ∀ fb < 143, (fb < 15 ∨ ¬ lost ∨ Blank s i blocklen) →
    s'.ptr i (dataSlot fb) = if CutOff blocklen fb then 0 else s.ptr i (dataSlot fb)
  lost : ∀ fb, 15 ≤ fb → lost → ¬ Blank s i blocklen → s'.ptr i (dataSlot fb) = s.ptr i (dataSlot fb)
  released : blocklen < 142 → Blank s i blocklen → s'.ptr i 15 = 0
  kept : 142 ≤ blocklen ∨ ¬ Blank s i blocklen → s'.ptr i 15 = s.ptr i 15
  map : ∀ x, s'.freemap x = true ↔ s.freemap x = true ∧
    ¬ (x ≠ 0 ∧ ((∃ fb, CutOff blocklen fb ∧ s.ptr i (dataSlot fb) = x) ∨
      blocklen < 142 ∧ Blank s i blocklen ∧ s.ptr i 15 = x))
  sect : ∀ b ≠ s.ptr i 15, s'.dev.sect b = s.dev.sect b

section

variable {s s' t : SfsFs} {sv n blocklen idblock : Nat} {req : Nat → Request} {lost : Prop}

/-- The pointers of a vnode in the table are its inode's. -/
lemma Table.ptr_eq (h : Table s) (mem : sv ∈ s.vnodes) (k : Nat) :
    s.ptr (s.vnode sv).ino k = ptrOf s.dev.sect (s.vnode sv).i k := by
  rw [SfsFs.ptr, h.inode_eq mem]

/-- Direct blocks have the first slots. -/
lemma dataSlot_direct {fb : Nat} (lt : fb < 15) : dataSlot fb = fb := if_pos lt

/-- Entries come after the indirect block's slot. -/
lemma dataSlot_entry (l : Nat) : dataSlot (15 + l) = 16 + l := by
  rw [dataSlot, if_neg (by omega)]
  omega

/-- Beyond 143 blocks there is no slot. -/
lemma dataSlot_large {fb : Nat} (large : 143 ≤ fb) : 144 ≤ dataSlot fb := by
  rw [dataSlot, if_neg (by omega)]
  omega

/-- The direct blocks have been cut. -/
lemma Directs.ptr (h : Directs sv blocklen 0 15 s t) (table : Table s) (mem : sv ∈ s.vnodes) (k : Nat) :
    t.ptr (s.vnode sv).ino k = if k < 15 ∧ blocklen ≤ k then 0 else s.ptr (s.vnode sv).ino k := by
  have ptr := (table.of_frame h.frame).ptr_eq (h.frame.vnodes.symm ▸ mem) k
  rw [h.frame.ino] at ptr
  rw [ptr, table.ptr_eq mem, h.inode, h.dev]
  obtain lt | rfl | gt := lt_trichotomy k 15
  · rw [ptrOf_of_lt _ _ lt, ptrOf_of_lt _ _ lt]
    dsimp only
    by_cases past : blocklen ≤ k
    · rw [if_pos (DirectCut.whole_iff.2 past), if_pos ⟨lt, past⟩]
      rfl
    · rw [if_neg (mt DirectCut.whole_iff.1 past), if_neg (fun cut => past cut.2)]
  · rw [ptrOf_indirect, ptrOf_indirect, if_neg (by omega)]
  · rw [ptrOf_of_gt _ _ gt, ptrOf_of_gt _ _ gt, if_neg (c := k < 15 ∧ blocklen ≤ k) (by omega)]

/-- The map after the direct blocks are cut. -/
lemma Directs.map_iff (h : Directs sv blocklen 0 15 s t) (table : Table s) (mem : sv ∈ s.vnodes) (x : Nat) :
    t.freemap x = true ↔ s.freemap x = true ∧
      ¬ (x ≠ 0 ∧ ∃ fb < 15, blocklen ≤ fb ∧ s.ptr (s.vnode sv).ino (dataSlot fb) = x) := by
  have ptr {k : Nat} (lt : k < 15) : s.ptr (s.vnode sv).ino (dataSlot k) = ((s.vnode sv).i.direct ⟨k, lt⟩).toNat := by
    rw [dataSlot_direct lt, table.ptr_eq mem, ptrOf_of_lt _ _ lt]
  rw [h.map]
  refine and_congr_right fun _ => not_congr ?_
  constructor
  · rintro ⟨l, cut, used, rfl⟩
    exact ⟨fun zero => used (UInt32.toNat_inj.1 zero), l.val, l.isLt, DirectCut.whole_iff.1 cut, ptr l.isLt⟩
  · rintro ⟨nz, fb, lt, past, eq⟩
    rw [ptr lt] at eq
    refine ⟨⟨fb, lt⟩, DirectCut.whole_iff.2 past, fun zero => nz ?_, eq⟩
    rw [← eq, zero]
    rfl

/-- The entries of the indirect block, as blocks of the file. -/
lemma SfsFs.ptr_slot {i : Nat} (ind : s.ptr i 15 = idblock) (ne : idblock ≠ 0) {fb : Nat} (large : 15 ≤ fb)
    (small : fb < 143) : s.ptr i (dataSlot fb) = (s.dev.sect idblock).word (fb - 15) := by
  obtain ⟨l, rfl⟩ := Nat.exists_eq_add_of_le large
  rw [dataSlot_entry, SfsFs.ptr_entry ind ne (by omega), Nat.add_sub_cancel_left]

/-- Without an indirect block there are no entries. -/
lemma SfsFs.ptr_none {i fb : Nat} (none : s.ptr i 15 = 0) (large : 15 ≤ fb) : s.ptr i (dataSlot fb) = 0 := by
  have empty : (s.inode i).indirect = 0 := by
    rw [SfsFs.ptr, ptrOf_indirect] at none
    exact UInt32.toNat_inj.1 none
  rw [SfsFs.ptr]
  refine ptrOf_of_none empty ?_
  rw [dataSlot, if_neg (by omega)]
  omega

/-- When every entry left is 0. -/
lemma emptied_iff {i : Nat} (ind : s.ptr i 15 = idblock) (ne : idblock ≠ 0) :
    Emptied blocklen (s.dev.sect idblock).word ↔ Blank s i blocklen := by
  constructor
  · intro empty fb large le
    by_cases small : fb < 143
    · rw [SfsFs.ptr_slot ind ne large small]
      exact empty _ (by omega) (by omega)
    · exact SfsFs.ptr_of_le (dataSlot_large (by omega))
  · intro blank l lt le
    rw [← SfsFs.ptr_entry ind ne lt, ← dataSlot_entry]
    exact blank _ (by omega) le

/-- The blocks freed through the entries. -/
lemma freed_iff {i x : Nat} (ind : s.ptr i 15 = idblock) (ne : idblock ≠ 0) :
    Freed blocklen (s.dev.sect idblock).word 0 128 x ↔
      x ≠ 0 ∧ ∃ fb, 15 ≤ fb ∧ blocklen < fb ∧ s.ptr i (dataSlot fb) = x := by
  constructor
  · rintro ⟨l, -, lt, past, eq, nz⟩
    refine ⟨nz, 15 + l, by omega, past, ?_⟩
    rw [dataSlot_entry, SfsFs.ptr_entry ind ne (by omega), eq]
  · rintro ⟨nz, fb, large, past, eq⟩
    have small : fb < 143 := by
      rw [← dataSlot_lt]
      exact SfsFs.lt_of_ptr (eq.symm ▸ nz)
    rw [SfsFs.ptr_slot ind ne large small] at eq
    exact ⟨fb - 15, by omega, by omega, by omega, eq, nz⟩

/-- The direct blocks have been cut, and of the rest nothing can be or need be. -/
lemma Directs.cuts (h : Directs sv blocklen 0 15 s t) (table : Table s) (mem : sv ∈ s.vnodes)
    (rest : 142 ≤ blocklen ∨ s.ptr (s.vnode sv).ino 15 = 0) : Cuts lost (s.vnode sv).ino blocklen s t := by
  have same {fb : Nat} (large : 15 ≤ fb) : t.ptr (s.vnode sv).ino (dataSlot fb) = s.ptr (s.vnode sv).ino (dataSlot fb) := by
    rw [h.ptr table mem, if_neg]
    rw [dataSlot, if_neg (by omega)]
    omega
  have ind : t.ptr (s.vnode sv).ino 15 = s.ptr (s.vnode sv).ino 15 := by
    rw [h.ptr table mem, if_neg (by omega)]
  -- an entry that is cut off is not mapped
  have none {fb : Nat} (large : 15 ≤ fb) (cut : CutOff blocklen fb) : s.ptr (s.vnode sv).ino (dataSlot fb) = 0 := by
    obtain long | zero := rest
    · refine SfsFs.ptr_of_le ?_
      have := cut.1
      have := cut.2 large
      rw [dataSlot, if_neg (by omega)]
      omega
    · exact SfsFs.ptr_none zero large
  refine ⟨?_, fun fb large _ _ => same large, ?_, fun _ => ind, fun x => ?_, fun b _ => by rw [h.dev]⟩
  · intro fb small _
    by_cases direct : fb < 15
    · rw [dataSlot_direct direct, h.ptr table mem]
      exact if_congr ⟨fun past => ⟨past.2, fun le => absurd direct (by omega)⟩, fun cut => ⟨direct, cut.1⟩⟩ rfl rfl
    · rw [same (by omega)]
      split_ifs with cut
      · exact none (by omega) cut
      · rfl
  · intro short _
    obtain long | zero := rest
    · omega
    · rw [ind, zero]
  · rw [h.map_iff table mem]
    refine and_congr_right fun _ => not_congr (and_congr_right fun nz => ?_)
    constructor
    · rintro ⟨fb, lt, past, eq⟩
      exact .inl ⟨fb, ⟨past, fun le => absurd lt (by omega)⟩, eq⟩
    · rintro (⟨fb, cut, eq⟩ | ⟨short, -, eq⟩)
      · refine ⟨fb, ?_, cut.1, eq⟩
        by_contra large
        rw [none (by omega) cut] at eq
        exact nz eq.symm
      · obtain long | zero := rest
        · omega
        · rw [zero] at eq
          exact absurd eq.symm nz

/-- The direct blocks have been cut, and the indirect block. -/
lemma Directs.cuts_trans (h : Directs sv blocklen 0 15 s t) (table : Table s) (mem : sv ∈ s.vnodes)
    (ind : s.ptr (s.vnode sv).ino 15 = idblock) (ne : idblock ≠ 0) (short : blocklen < 142)
    (h' : Indirects req n sv blocklen idblock t s') : Cuts (req n = .lost) (s.vnode sv).ino blocklen s s' := by
  have mem₁ : sv ∈ t.vnodes := h.frame.vnodes.symm ▸ mem
  have mem' : sv ∈ s'.vnodes := h'.frame.vnodes.symm ▸ mem₁
  have ino₁ := h.frame.ino sv
  have table₁ := table.of_frame h.frame
  have ptr₁ (k : Nat) : t.ptr (s.vnode sv).ino k = ptrOf t.dev.sect (t.vnode sv).i k := by
    rw [← ino₁]
    exact table₁.ptr_eq mem₁ k
  have ptr (k : Nat) : s'.ptr (s.vnode sv).ino k = ptrOf s'.dev.sect (s'.vnode sv).i k := by
    rw [← ino₁, ← h'.frame.ino sv]
    exact (table₁.of_frame h'.frame).ptr_eq mem' k
  have ind₁ : t.ptr (s.vnode sv).ino 15 = idblock := by
    rw [h.ptr table mem, if_neg (by omega), ind]
  have entry₁ {fb : Nat} (large : 15 ≤ fb) :
      t.ptr (s.vnode sv).ino (dataSlot fb) = s.ptr (s.vnode sv).ino (dataSlot fb) := by
    rw [h.ptr table mem, if_neg]
    rw [dataSlot, if_neg (by omega)]
    omega
  have empty : Emptied blocklen (t.dev.sect idblock).word ↔ Blank s (s.vnode sv).ino blocklen := by
    rw [h.dev]
    exact emptied_iff ind ne
  have direct {fb : Nat} (lt : fb < 15) (same : (s'.vnode sv).i.direct = (t.vnode sv).i.direct) :
      s'.ptr (s.vnode sv).ino (dataSlot fb) =
        if CutOff blocklen fb then 0 else s.ptr (s.vnode sv).ino (dataSlot fb) := by
    rw [ptr, dataSlot_direct lt, ptrOf_of_lt _ _ lt, same, ← ptrOf_of_lt t.dev.sect _ lt, ← ptr₁, h.ptr table mem]
    exact if_congr ⟨fun past => ⟨past.2, fun le => absurd lt (by omega)⟩, fun cut => ⟨lt, cut.1⟩⟩ rfl rfl
  have map (x : Nat) : s'.freemap x = true ↔ s.freemap x = true ∧
      ¬ (x ≠ 0 ∧ ((∃ fb, CutOff blocklen fb ∧ s.ptr (s.vnode sv).ino (dataSlot fb) = x) ∨
        blocklen < 142 ∧ Blank s (s.vnode sv).ino blocklen ∧ s.ptr (s.vnode sv).ino 15 = x)) := by
    rw [h'.map, empty, h.dev, freed_iff ind ne, h.map_iff table mem, and_assoc, ← not_or, ← not_or]
    refine and_congr_right fun _ => not_congr ?_
    constructor
    · rintro (⟨nz, fb, lt, past, eq⟩ | ⟨nz, fb, large, past, eq⟩ | ⟨blank, rfl⟩)
      · exact ⟨nz, .inl ⟨fb, ⟨past, fun le => absurd lt (by omega)⟩, eq⟩⟩
      · exact ⟨nz, .inl ⟨fb, ⟨past.le, fun _ => past.ne⟩, eq⟩⟩
      · exact ⟨ne, .inr ⟨short, blank, ind⟩⟩
    · rintro ⟨nz, ⟨fb, cut, eq⟩ | ⟨-, blank, eq⟩⟩
      · by_cases lt : fb < 15
        · exact .inl ⟨nz, fb, lt, cut.1, eq⟩
        · exact .inr (.inl ⟨nz, fb, by omega, lt_of_le_of_ne cut.1 (cut.2 (by omega)), eq⟩)
      · exact .inr (.inr ⟨blank, by rw [← eq, ind]⟩)
  have sect (b : Nat) (other : b ≠ s.ptr (s.vnode sv).ino 15) : s'.dev.sect b = s.dev.sect b := by
    rw [h'.sect b (ind ▸ other), h.dev]
  by_cases blank : Blank s (s.vnode sv).ino blocklen
  · have inode := h'.released (empty.2 blank)
    have none : s'.ptr (s.vnode sv).ino 15 = 0 := by
      rw [ptr, ptrOf_indirect, inode]
      rfl
    refine ⟨?_, fun _ _ _ more => absurd blank more, fun _ _ => none, ?_, map, sect⟩
    · intro fb small _
      by_cases lt : fb < 15
      · exact direct lt (by rw [inode])
      · rw [SfsFs.ptr_none none (by omega)]
        split_ifs with cut
        · rfl
        · refine (blank fb (by omega) ?_).symm
          by_contra past
          exact cut ⟨by omega, by omega⟩
    · rintro (long | more)
      · omega
      · exact absurd blank more
  · obtain ⟨inode, entries⟩ := h'.kept (mt empty.1 blank)
    have same : s'.ptr (s.vnode sv).ino 15 = s.ptr (s.vnode sv).ino 15 := by
      rw [ptr, inode, ptrOf_indirect, ← ptrOf_indirect t.dev.sect, ← ptr₁, ind₁, ind]
    have entry {fb : Nat} (large : 15 ≤ fb) (small : fb < 143) : s'.ptr (s.vnode sv).ino (dataSlot fb) =
        if blocklen < fb ∧ req n ≠ .lost then 0 else s.ptr (s.vnode sv).ino (dataSlot fb) := by
      rw [SfsFs.ptr_slot (same.trans ind) ne large small, entries _ (by omega), ← SfsFs.ptr_slot ind₁ ne large small,
        entry₁ large, Nat.add_sub_cancel' large]
    refine ⟨?_, ?_, fun _ empty => absurd empty blank, fun _ => same, map, sect⟩
    · intro fb small why
      by_cases lt : fb < 15
      · exact direct lt (by rw [inode])
      · rw [entry (by omega) small]
        refine if_congr ?_ rfl rfl
        have written : req n ≠ .lost := (why.resolve_left lt).resolve_right blank
        rw [and_iff_left written, CutOff]
        omega
    · intro fb large lost _
      by_cases small : fb < 143
      · rw [entry large small, if_neg (fun both => both.2 lost)]
      · rw [SfsFs.ptr_of_le (dataSlot_large (Nat.not_lt.1 small)), SfsFs.ptr_of_le (dataSlot_large (Nat.not_lt.1 small))]

/-- The block count that the C division gives. -/
lemma tdiv_blocks (len : Nat) : (Int.tdiv ((len : Int) + 512 - 1) 512 % 2 ^ 32).toNat = blocksFor len % 2 ^ 32 := by
  rw [blocksFor]
  rw [Int.tdiv_eq_ediv_of_nonneg (by omega)]
  omega

/-- What `sfs_truncate` does if it succeeds. -/
lemma cuts_of_sfsTruncate {len : Nat} {st : SfsFs × Nat} (table : Table s) (mem : sv ∈ s.vnodes)
    (run : Faulty.sfsTruncate req sv (len : Int) (s, n) = .ok (.ok (), st)) :
    Frame s st.1 ∧ Cuts (req (n + 1) = .lost) (s.vnode sv).ino (blocksFor len % 2 ^ 32) s st.1 ∧
      (st.1.vnode sv).i.size = UInt32.ofNat len := by
  have size : UInt32.ofNat ((len : Int) % 2 ^ 32).toNat = UInt32.ofNat len := by
    apply UInt32.toNat_inj.1
    rw [UInt32.toNat_ofNat', UInt32.toNat_ofNat']
    omega
  refine Prog.wlp.of_ok (E := fun _ _ => True) (Q := fun _ st => Frame s st.1 ∧
    Cuts (req (n + 1) = .lost) (s.vnode sv).ino (blocksFor len % 2 ^ 32) s st.1 ∧
      (st.1.vnode sv).i.size = UInt32.ofNat len) ?_ run
  clear run
  rw [Faulty.sfsTruncate, tdiv_blocks len, size]
  dsimp only
  generalize blocksFor len % 2 ^ 32 = blocklen
  generalize UInt32.ofNat len = size
  -- the size is set in any case
  have finish (s₂ : SfsFs) (k : Nat) (fr : Frame s s₂)
      (cuts : Cuts (req (n + 1) = .lost) (s.vnode sv).ino blocklen s s₂) :
      Prog.wlp (Prog.onFst (setInode sv fun i => { i with size := size }))
        (fun _ st => Frame s st.1 ∧ Cuts (req (n + 1) = .lost) (s.vnode sv).ino blocklen s st.1 ∧
          (st.1.vnode sv).i.size = size) (fun _ _ => True) (s₂, k) := by
    have mem₂ : sv ∈ s₂.vnodes := fr.vnodes.symm ▸ mem
    have ptr (l : Nat) : (s₂.mapVnode sv (onInode fun i => { i with size := size })).ptr (s.vnode sv).ino l =
        s₂.ptr (s.vnode sv).ino l := (table.of_frame fr).ptr_mapVnode mem₂ rfl rfl rfl
    refine Prog.wlp_of_run (t := (s₂.mapVnode sv (onInode fun i => { i with size := size }), k)) rfl
      ⟨fr.trans (.mapVnode rfl rfl rfl rfl), ⟨?_, ?_, ?_, ?_, cuts.map, cuts.sect⟩, ?_⟩
    · intro fb lt why
      exact (ptr _).trans (cuts.ptr fb lt why)
    · intro fb large lost more
      exact (ptr _).trans (cuts.lost fb large lost more)
    · intro short blank
      exact (ptr _).trans (cuts.released short blank)
    · intro why
      exact (ptr _).trans (cuts.kept why)
    · show (Function.update s₂.vnode sv _ sv).i.size = _
      rw [Function.update_self, onInode]
  rw [Prog.wlp_andThen_iff, Prog.wlp_onFst_iff]
  refine (wlp_truncateDirect (Nat.le_refl _)).mono ?_ (fun _ _ e => e)
  intro _ t directs
  have mem₁ : sv ∈ t.vnodes := directs.frame.vnodes.symm ▸ mem
  have number : (t.vnode sv).i.indirect.toNat = s.ptr (s.vnode sv).ino 15 := by
    rw [directs.inode, table.ptr_eq mem, ptrOf_indirect]
  rw [Prog.wlp_andThen_iff, Prog.wlp_onFst_iff]
  refine Prog.wlp_of_run (a := t.vnode sv) (t := t) rfl ?_
  dsimp only
  rw [Prog.wlp_andThen_iff, number]
  split_ifs with past
  · have word : s.ptr (s.vnode sv).ino 15 < 2 ^ 32 := by
      rw [← number]
      exact UInt32.toNat_lt _
    refine (wlp_truncateIdblock_faulty word).mono ?_ (fun _ _ e => e)
    rintro _ ⟨s₂, k⟩ indirects
    exact finish s₂ k (directs.frame.trans indirects.frame)
      (directs.cuts_trans table mem rfl past.2 (by omega) indirects)
  · refine finish t n directs.frame (directs.cuts table mem ?_)
    by_contra none
    exact past ⟨by omega, fun zero => none (.inr zero)⟩

end

/-- The file of the vnode `sv` has been cut down to `len` bytes: exactly the blocks past the end have been unmapped and
freed, the indirect block is there as long as it maps a block, and the size is `len`. -/
structure TruncatedTo (sv len : Nat) (s s' : SfsFs) : Prop where
  unmapped : ∀ fb, blocksFor len ≤ fb → s'.ptr (s.vnode sv).ino (dataSlot fb) = 0
  kept : ∀ fb < blocksFor len, s'.ptr (s.vnode sv).ino (dataSlot fb) = s.ptr (s.vnode sv).ino (dataSlot fb)
  freed : ∀ b, s'.freemap b = true ↔ s.freemap b = true ∧
    ¬ (b ≠ 0 ∧ ∃ fb, blocksFor len ≤ fb ∧ s.ptr (s.vnode sv).ino (dataSlot fb) = b) ∧
    ¬ (b ≠ 0 ∧ s.ptr (s.vnode sv).ino 15 = b ∧ s'.ptr (s.vnode sv).ino 15 = 0)
  indirect : s'.ptr (s.vnode sv).ino 15 ≠ 0 ↔ ∃ fb, 15 ≤ fb ∧ s'.ptr (s.vnode sv).ino (dataSlot fb) ≠ 0
  same : s'.ptr (s.vnode sv).ino 15 ≠ 0 → s'.ptr (s.vnode sv).ino 15 = s.ptr (s.vnode sv).ino 15
  size : (s'.vnode sv).i.size.toNat = len

/-- The length fits the inode; the block after the new end is not mapped by the indirect block; an indirect block that
maps nothing is not left alone; and if the indirect block is not written back, it does not matter. -/
structure TruncatesWell (lost : Prop) (s : SfsFs) (i len : Nat) : Prop where
  fits : len < 2 ^ 32
  next : 15 ≤ blocksFor len → s.ptr i (dataSlot (blocksFor len)) = 0
  used : 142 ≤ blocksFor len → s.ptr i 15 ≠ 0 → ∃ fb, 15 ≤ fb ∧ s.ptr i (dataSlot fb) ≠ 0
  written : lost → Blank s i (blocksFor len) ∨ ∀ fb, 15 ≤ fb → blocksFor len < fb → s.ptr i (dataSlot fb) = 0

section

variable {s s' : SfsFs} {sv len i blocklen fb : Nat} {lost : Prop}

/-- A block that is not cut off stays, whatever happens to the indirect block. -/
lemma Cuts.stays (h : Cuts lost i blocklen s s') (stays : ¬ CutOff blocklen fb) :
    s'.ptr i (dataSlot fb) = s.ptr i (dataSlot fb) := by
  by_cases small : fb < 143
  · by_cases why : fb < 15 ∨ ¬ lost ∨ Blank s i blocklen
    · rw [h.ptr fb small why, if_neg stays]
    · simp only [not_or, not_not] at why
      exact h.lost fb (Nat.not_lt.1 why.1) why.2.1 why.2.2
  · rw [SfsFs.ptr_of_le (dataSlot_large (Nat.not_lt.1 small)), SfsFs.ptr_of_le (dataSlot_large (Nat.not_lt.1 small))]

/-- Truncation never maps a block. -/
lemma Cuts.mapped (h : Cuts lost i blocklen s s') (ne : s'.ptr i (dataSlot fb) ≠ 0) : s.ptr i (dataSlot fb) ≠ 0 := by
  by_cases cut : CutOff blocklen fb
  · have small : fb < 143 := dataSlot_lt.1 (SfsFs.lt_of_ptr ne)
    by_cases why : fb < 15 ∨ ¬ lost ∨ Blank s i blocklen
    · rw [h.ptr fb small why, if_pos cut] at ne
      exact absurd rfl ne
    · simp only [not_or, not_not] at why
      rwa [h.lost fb (Nat.not_lt.1 why.1) why.2.1 why.2.2] at ne
  · rwa [h.stays cut] at ne

/-- The condition is enough. -/
lemma Cuts.exact_of_well (h : Cuts lost (s.vnode sv).ino (blocksFor len) s s')
    (size : (s'.vnode sv).i.size = UInt32.ofNat len) (well : TruncatesWell lost s (s.vnode sv).ino len) :
    TruncatedTo sv len s s' := by
  have unmapped (fb : Nat) (past : blocksFor len ≤ fb) : s'.ptr (s.vnode sv).ino (dataSlot fb) = 0 := by
    by_contra ne
    have mapped := h.mapped ne
    have small : fb < 143 := dataSlot_lt.1 (SfsFs.lt_of_ptr mapped)
    by_cases cut : CutOff (blocksFor len) fb
    · by_cases why : fb < 15 ∨ ¬ lost ∨ Blank s (s.vnode sv).ino (blocksFor len)
      · rw [h.ptr fb small why, if_pos cut] at ne
        exact ne rfl
      · simp only [not_or, not_not] at why
        have large := Nat.not_lt.1 why.1
        have zero := (well.written why.2.1).resolve_left why.2.2 fb large (lt_of_le_of_ne past (cut.2 large))
        exact mapped zero
    · -- only the block after the end can be meant
      have large : 15 ≤ fb ∧ blocksFor len = fb := by
        rw [CutOff] at cut
        omega
      obtain ⟨large, rfl⟩ := large
      exact mapped (well.next large)
  have indirect : s'.ptr (s.vnode sv).ino 15 ≠ 0 ↔ ∃ fb, 15 ≤ fb ∧ s'.ptr (s.vnode sv).ino (dataSlot fb) ≠ 0 := by
    constructor
    · intro ne
      by_cases blank : Blank s (s.vnode sv).ino (blocksFor len)
      · by_cases short : blocksFor len < 142
        · exact absurd (h.released short blank) ne
        · rw [h.kept (.inl (by omega))] at ne
          obtain ⟨fb, large, mapped⟩ := well.used (by omega) ne
          refine ⟨fb, large, ?_⟩
          rw [h.stays]
          · exact mapped
          · intro cut
            have := dataSlot_lt.1 (SfsFs.lt_of_ptr mapped)
            have := cut.1
            have := cut.2 large
            omega
      · rw [Blank] at blank
        push Not at blank
        obtain ⟨fb, large, le, mapped⟩ := blank
        refine ⟨fb, large, ?_⟩
        rw [h.stays]
        · exact mapped
        · intro cut
          exact cut.2 large (le_antisymm cut.1 le)
    · rintro ⟨fb, large, mapped⟩ none
      exact mapped (SfsFs.ptr_none none large)
  have same (ne : s'.ptr (s.vnode sv).ino 15 ≠ 0) : s'.ptr (s.vnode sv).ino 15 = s.ptr (s.vnode sv).ino 15 := by
    apply h.kept
    by_contra no
    rw [not_or, not_not] at no
    exact ne (h.released (by omega) no.2)
  refine ⟨unmapped, ?_, ?_, indirect, same, ?_⟩
  · intro fb before
    exact h.stays fun cut => by have := cut.1; omega
  · intro b
    rw [h.map, ← not_or, ← and_or_left]
    refine and_congr_right fun _ => not_congr (and_congr_right fun nz => or_congr ?_ ?_)
    · constructor
      · rintro ⟨fb, cut, eq⟩
        exact ⟨fb, cut.1, eq⟩
      · rintro ⟨fb, past, eq⟩
        refine ⟨fb, ⟨past, ?_⟩, eq⟩
        rintro large rfl
        rw [well.next large] at eq
        exact nz eq.symm
    · constructor
      · rintro ⟨short, blank, eq⟩
        exact ⟨eq, h.released short blank⟩
      · rintro ⟨rfl, zero⟩
        by_contra no
        refine nz ?_
        rw [← h.kept ?_, zero]
        by_contra why
        rw [not_or, not_not] at why
        exact no ⟨by omega, why.2, rfl⟩
  · rw [size]
    exact toNat_ofNat_of_lt well.fits

/-- The condition is necessary. -/
lemma Cuts.well_of_exact (h : Cuts lost (s.vnode sv).ino (blocksFor len) s s') (exact_ : TruncatedTo sv len s s') :
    TruncatesWell lost s (s.vnode sv).ino len := by
  refine ⟨?_, ?_, ?_, ?_⟩
  · rw [← exact_.size]
    exact UInt32.toNat_lt _
  · intro large
    rw [← exact_.unmapped _ (Nat.le_refl _), h.stays]
    exact fun cut => cut.2 large rfl
  · intro long some
    rw [← h.kept (.inl long)] at some
    obtain ⟨fb, large, mapped⟩ := exact_.indirect.1 some
    exact ⟨fb, large, h.mapped mapped⟩
  · intro lost
    by_cases blank : Blank s (s.vnode sv).ino (blocksFor len)
    · exact .inl blank
    · refine .inr fun fb large past => ?_
      rw [← h.lost fb large lost blank, exact_.unmapped fb past.le]

end

/-- A successful `sfs_truncate` is exact exactly when the length fits the inode, the block after the new end is no
block of the indirect block, an indirect block without blocks is not left alone, and the indirect block is written
back if it matters. -/
theorem sfs_truncate_exact_iff {req : Nat → Request} {s : SfsFs} {n sv len : Nat} {st : SfsFs × Nat} (table : Table s)
    (mem : sv ∈ s.vnodes) (small : blocksFor len < 2 ^ 32)
    (run : Faulty.sfsTruncate req sv (len : Int) (s, n) = .ok (.ok (), st)) :
    TruncatedTo sv len s st.1 ↔ TruncatesWell (req (n + 1) = .lost) s (s.vnode sv).ino len := by
  obtain ⟨-, cuts, size⟩ := cuts_of_sfsTruncate table mem run
  rw [Nat.mod_eq_of_lt small] at cuts
  exact ⟨cuts.well_of_exact, cuts.exact_of_well size⟩

/-- A file with a block after the direct ones. -/
lemma exists_long_file : ∃ s N sv, Core s N ∧ sv ∈ s.vnodes ∧ (s.vnode sv).ops = .file ∧
    s.ptr (s.vnode sv).ino (dataSlot 15) ≠ 0 := by
  obtain ⟨s, N, sv, new, free₅⟩ := exists_new_file_free
  have mem := new.mem
  have none : (s.vnode sv).i.indirect = 0 := by
    have ind := new.blank 15
    rw [new.core.table.ptr_eq mem, ptrOf_indirect] at ind
    exact UInt32.toNat_inj.1 ind
  obtain ⟨quiet, ind⟩ := new.core.growIndirect new.free (by rw [new.nblocks]; decide) mem none
  have free₁ : ((s.take 4).mapVnode sv (onInode (assignIndirect 4))).freemap 5 = false :=
    (Function.update_of_ne (show 5 ≠ 4 by decide) true s.freemap).trans free₅
  have zero₁ : ((s.take 4).mapVnode sv (onInode (assignIndirect 4))).dev.sect 4 = Block.zeros := SfsFs.sect_take_self
  have mem₁ : sv ∈ ((s.take 4).mapVnode sv (onInode (assignIndirect 4))).vnodes := quiet.frame.vnodes.symm ▸ mem
  have ino₁ := quiet.frame.ino sv
  have idle₁ : ((s.take 4).mapVnode sv (onInode (assignIndirect 4))).ptr (s.vnode sv).ino (16 + 0) = 0 := by
    rw [SfsFs.ptr_entry ind (by decide) (by decide), zero₁, Block.word_zeros]
  have lt₁ : 5 < ((s.take 4).mapVnode sv (onInode (assignIndirect 4))).nblocks := by
    rw [quiet.frame.nblocks, new.nblocks]
    decide
  generalize (s.take 4).mapVnode sv (onInode (assignIndirect 4)) = s₁ at quiet ind free₁ mem₁ ino₁ idle₁ lt₁
  rw [← ino₁] at ind idle₁
  obtain ⟨quiet₂, entry⟩ := quiet.core.growEntry free₁ lt₁ mem₁ (by decide) ind (by decide) idle₁ rfl
  have live := SfsFs.live_of_mem (N := N) mem
  have ops := new.core.table.ops_file mem (new.core.ne_root live (congrArg File.type new.file))
  refine ⟨_, N, sv, quiet₂.core, quiet₂.frame.vnodes.symm ▸ mem₁, ?_, ?_⟩
  · rw [quiet₂.frame.ops, quiet.frame.ops, ops]
  · have slot : dataSlot 15 = 16 + 0 := rfl
    rw [quiet₂.frame.ino, slot, entry]
    decide

/-- A truncation on a disk without errors. -/
lemma Core.truncate_run {s : SfsFs} {N : Nat → Prop} {sv : Nat} (h : Core s N) (mem : sv ∈ s.vnodes) (len : Int) :
    ∃ st, Faulty.sfsTruncate Faulty.allDone sv len (s, 0) = .ok (.ok (), st) := by
  obtain ⟨r, s', call, -, err⟩ := Prog.wp_iff.1 (h.wp_sfsTruncate mem len (E := fun _ _ => False))
  cases r with
  | error e => exact (err e rfl).elim
  | ok =>
    obtain ⟨n, run⟩ := (Faulty.sfsTruncate_erases sv len).exists_run call 0
    exact ⟨(s', n), run⟩

/-- A file with a block after the direct ones is cut down to one block. -/
theorem sfs_truncate_exact_long : ∃ s sv st, Table s ∧ sv ∈ s.vnodes ∧ s.ptr (s.vnode sv).ino (dataSlot 15) ≠ 0 ∧
    Faulty.sfsTruncate Faulty.allDone sv ((512 : Nat) : Int) (s, 0) = .ok (.ok (), st) ∧
    TruncatedTo sv 512 s st.1 := by
  obtain ⟨s, N, sv, core, mem, -, long⟩ := exists_long_file
  obtain ⟨st, run⟩ := core.truncate_run mem ((512 : Nat) : Int)
  refine ⟨s, sv, st, core.table, mem, long, run, ?_⟩
  refine (sfs_truncate_exact_iff core.table mem (by decide) run).2 ⟨by decide, ?_, ?_, nofun⟩
  · intro large
    exact absurd large (by decide)
  · intro large
    exact absurd large (by decide)

/-- A file with a block after the direct ones is cut down to the direct blocks; the block stays. -/
theorem sfs_truncate_keeps_block : ∃ s N sv st, Core s N ∧ sv ∈ s.vnodes ∧ (s.vnode sv).ops = .file ∧
    Faulty.sfsTruncate Faulty.allDone sv ((15 * 512 : Nat) : Int) (s, 0) = .ok (.ok (), st) ∧
    ¬ TruncatedTo sv (15 * 512) s st.1 := by
  obtain ⟨s, N, sv, core, mem, file, long⟩ := exists_long_file
  obtain ⟨st, run⟩ := core.truncate_run mem ((15 * 512 : Nat) : Int)
  refine ⟨s, N, sv, st, core, mem, file, run, fun exact_ => ?_⟩
  obtain ⟨-, cuts, -⟩ := cuts_of_sfsTruncate core.table mem run
  exact long ((cuts.well_of_exact exact_).next (by decide))

end PDS.Sfs
