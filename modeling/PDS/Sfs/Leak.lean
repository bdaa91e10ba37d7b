import PDS.Sfs.WriteFail

/-!
# Blocks that leak

`sfs_bmap` allocates up to two blocks, and gives none of them back when it fails later on. What it leaves behind is
a question of how the requests end and of what a new indirect block held before (`sfs_bmap_leak_iff`).

Nothing is assumed of the size of the volume, of the dirty flags or of what else is on the disk.
-/

namespace PDS.Sfs
open Kern Word

/-- The blocks that are marked in the free map are those that belong to somebody. -/
def NoLeak (N : Nat → Prop) (s : SfsFs) : Prop := ∀ b, s.Marked b ↔ ∃ o, s.Owns N o b

section

variable {s s' : SfsFs} {N M R : Nat → Prop} {sv b i j k n : Nat}

/-- Where every marked block has an owner nothing leaks. -/
lemma Sound.noLeak (h : Sound s N) : NoLeak N s := fun _ =>
  ⟨h.own.total, fun ⟨_, own⟩ => h.own.sound own⟩

/-- The free map may change, and what is in blocks that nobody uses. -/
structure Scratch (s s' : SfsFs) : Prop where
  vnodes : s'.vnodes = s.vnodes
  vnode : s'.vnode = s.vnode
  next : s'.next = s.next
  super : s'.super = s.super
  sect : ∀ b, s.freemap b = true → s'.dev.sect b = s.dev.sect b

/-- A write to scratch blocks is a frame. -/
lemma Scratch.frame (h : Scratch s s') : Frame s s' where
  vnodes := h.vnodes
  next := h.next
  super := h.super
  ino _ := by rw [h.vnode]
  ops _ := by rw [h.vnode]
  refcount _ := by rw [h.vnode]
  opencount _ := by rw [h.vnode]

/-- It changes no inode. -/
lemma Sound.inode_scratch (h : Sound s N) (sc : Scratch s s') (live : s.Live N j) : s'.inode j = s.inode j := by
  rw [SfsFs.inode, SfsFs.inode, sc.vnodes, sc.vnode, sc.sect j (h.inode_marked live)]

/-- It changes no pointer. -/
lemma Sound.ptr_scratch (h : Sound s N) (sc : Scratch s s') (live : s.Live N j) : s'.ptr j k = s.ptr j k := by
  rw [SfsFs.ptr, SfsFs.ptr, h.inode_scratch sc live]
  apply ptrOf_congr
  intro some
  apply sc.sect
  have number : s.ptr j 15 = (s.inode j).indirect.toNat := ptrOf_indirect ..
  rw [← number]
  apply h.ptr_marked live
  rw [number]
  exact fun zero => some (UInt32.toNat_inj.1 zero)

/-- The blocks `M` have been marked, and the files use the blocks `R` in addition to those they used before. -/
lemma Sound.noLeak_iff (h : Sound s N) (size : s'.nblocks = s.nblocks) (live : ∀ j, s'.Live N j ↔ s.Live N j)
    (map : ∀ b, s'.Marked b ↔ s.Marked b ∨ M b) (new : ∀ b, M b → s.freemap b = false)
    (ptr : ∀ b, (∃ j k, s'.Owns N (.block j k) b) ↔ (∃ j k, s.Owns N (.block j k) b) ∨ R b) :
    NoLeak N s' ↔ (∀ b, R b → s'.Marked b) ∧ ∀ b, M b → R b := by
  have used (b : Nat) : (∃ o, s'.Owns N o b) ↔ (∃ o, s.Owns N o b) ∨ R b := by
    constructor
    · rintro ⟨o, own⟩
      cases o with
      | volume c => exact .inl ⟨.volume c, own.1, size ▸ own.2⟩
      | inode j => exact .inl ⟨.inode j, own.1, (live _).1 own.2⟩
      | block j k =>
        refine ((ptr b).1 ⟨j, k, own⟩).imp_left ?_
        exact fun ⟨j, k, own⟩ => ⟨_, own⟩
    · rintro (⟨o, own⟩ | new)
      · cases o with
        | volume c => exact ⟨.volume c, own.1, size.symm ▸ own.2⟩
        | inode j => exact ⟨.inode j, own.1, (live _).2 own.2⟩
        | block j k =>
          obtain ⟨j, k, own⟩ := (ptr b).2 (.inl ⟨j, k, own⟩)
          exact ⟨_, own⟩
      · obtain ⟨j, k, own⟩ := (ptr b).2 (.inr new)
        exact ⟨_, own⟩
  constructor
  · intro books
    refine ⟨fun b r => (books b).2 ((used b).2 (.inr r)), fun b m => ?_⟩
    obtain ⟨o, own⟩ | r := (used b).1 ((books b).1 ((map b).2 (.inr m)))
    · exact absurd own (h.not_owns (new b m) o)
    · exact r
  · rintro ⟨marked, used'⟩ b
    rw [used]
    constructor
    · intro mark
      exact ((map b).1 mark).imp (h.noLeak b).1 (used' b)
    · rintro (own | r)
      · exact (map b).2 (.inl ((h.noLeak b).2 own))
      · exact marked b r

/-- Without an indirect block its entries are 0. -/
lemma ptrOf_of_none {sect : Nat → Block} {i : SfsInode} (none : i.indirect = 0) (le : 15 ≤ k) : ptrOf sect i k = 0 := by
  obtain rfl | gt : k = 15 ∨ 15 < k := by omega
  · rw [ptrOf_indirect, none]
    rfl
  · rw [ptrOf_of_gt _ _ gt, if_neg (fun some => some.2 none)]

/-- The block numbers of the files, when an inode has been given the indirect block `b`. -/
lemma Sound.ptr_newIndirect (h : Sound s N) {t : SfsFs} (sc : Scratch s t) (mem : sv ∈ s.vnodes) (small : b < 2 ^ 32)
    (ne : b ≠ 0) (live : s.Live N j) :
    (t.mapVnode sv (onInode (assignIndirect b))).ptr j k = if j = (s.vnode sv).ino ∧ 15 ≤ k then
      if k = 15 then b else if k < 144 then (t.dev.sect b).word (k - 16) else 0 else s.ptr j k := by
  have table : Table t := h.table.of_frame sc.frame
  have inode : (t.mapVnode sv (onInode (assignIndirect b))).inode =
      Function.update t.inode (t.vnode sv).ino (assignIndirect b (t.vnode sv).i) :=
    table.inode_mapVnode (sc.vnodes ▸ mem) rfl
  rw [sc.vnode] at inode
  have number : (UInt32.ofNat b).toNat = b := toNat_ofNat_of_lt small
  have some : UInt32.ofNat b ≠ 0 := by
    intro zero
    rw [zero] at number
    exact ne number.symm
  by_cases same : j = (s.vnode sv).ino
  · subst same
    have old : s.inode (s.vnode sv).ino = (s.vnode sv).i := h.table.inode_eq mem
    have direct (lt : k < 15) : s.ptr (s.vnode sv).ino k = ((s.vnode sv).i.direct ⟨k, lt⟩).toNat := by
      rw [SfsFs.ptr, old, ptrOf_of_lt _ _ lt]
    rw [SfsFs.ptr, inode, Function.update_self]
    simp only [true_and]
    obtain lt | rfl | gt := lt_trichotomy k 15
    · rw [if_neg (by omega), direct lt, ptrOf_of_lt _ _ lt]
      rfl
    · rw [ptrOf_indirect, if_pos (le_refl _), if_pos rfl]
      exact number
    · rw [ptrOf_of_gt _ _ gt, if_pos (c := 15 ≤ k) gt.le, if_neg (c := k = 15) (by omega)]
      by_cases lt : k < 144
      · rw [if_pos lt, if_pos ⟨lt, some⟩]
        dsimp only [assignIndirect]
        rw [number]
        rfl
      · rw [if_neg lt, if_neg (fun some => lt some.1)]
  · rw [if_neg (fun c => same c.1), SfsFs.ptr, inode, Function.update_of_ne same]
    exact h.ptr_scratch sc live

/-- The blocks of the files, when an inode has been given the indirect block `b`. -/
lemma Sound.owns_newIndirect (h : Sound s N) {t : SfsFs} (sc : Scratch s t) (mem : sv ∈ s.vnodes) (small : b < 2 ^ 32)
    (ne : b ≠ 0) (none : (s.vnode sv).i.indirect = 0) (x : Nat) :
    (∃ j k, (t.mapVnode sv (onInode (assignIndirect b))).Owns N (.block j k) x) ↔
      (∃ j k, s.Owns N (.block j k) x) ∨ x ≠ 0 ∧ (x = b ∨ ∃ l < 128, (t.dev.sect b).word l = x) := by
  have live' (j : Nat) : (t.mapVnode sv (onInode (assignIndirect b))).Live N j ↔ s.Live N j := by
    rw [SfsFs.live_mapVnode rfl, sc.frame.live_iff]
  have live : s.Live N (s.vnode sv).ino := SfsFs.live_of_mem mem
  constructor
  · rintro ⟨j, k, hj, lt, eq, nz⟩
    have hj := (live' j).1 hj
    rw [h.ptr_newIndirect sc mem small ne hj] at eq
    by_cases here : j = (s.vnode sv).ino ∧ 15 ≤ k
    · rw [if_pos here] at eq
      refine .inr ⟨nz, ?_⟩
      split_ifs at eq with fifteen
      · exact .inl eq.symm
      · exact .inr ⟨k - 16, by omega, eq⟩
    · rw [if_neg here] at eq
      exact .inl ⟨j, k, hj, lt, eq, nz⟩
  · rintro (⟨j, k, hj, lt, eq, nz⟩ | ⟨nz, at_⟩)
    · refine ⟨j, k, (live' j).2 hj, lt, ?_, nz⟩
      rw [h.ptr_newIndirect sc mem small ne hj, if_neg, eq]
      rintro ⟨rfl, le⟩
      rw [SfsFs.ptr, h.table.inode_eq mem, ptrOf_of_none none le] at eq
      exact nz eq.symm
    · obtain ⟨k, le, lt, eq⟩ : ∃ k, 15 ≤ k ∧ k < 144 ∧
          (if k = 15 then b else if k < 144 then (t.dev.sect b).word (k - 16) else 0) = x := by
        obtain rfl | ⟨l, lt, eq⟩ := at_
        · exact ⟨15, le_refl _, by decide, if_pos rfl⟩
        · refine ⟨l + 16, by omega, by omega, ?_⟩
          rw [if_neg (by omega), if_pos (by omega), Nat.add_sub_cancel, eq]
      refine ⟨(s.vnode sv).ino, k, (live' _).2 live, lt, ?_, nz⟩
      rw [h.ptr_newIndirect sc mem small ne live, if_pos ⟨rfl, le⟩, eq]

end

/-- The block that is allocated next. -/
def SfsFs.nextFree (s : SfsFs) : Option Nat := bitmapAlloc (bitmapsize s.nblocks) s.freemap

/-- The block `b` has been allocated, after a request that has ended with `r`. -/
structure Taken (r : Request) (s : SfsFs) (b : Nat) (t : SfsFs) : Prop where
  next : s.nextFree = some b
  lt : b < s.nblocks
  state : t = { s.mark b with dev := t.dev }
  sect : r = .done ∧ t.dev = (s.write b Block.zeros).dev ∨ r = .lost ∧ t.dev = s.dev

section

variable {req : Nat → Request} {s t : SfsFs} {N : Nat → Prop} {sv b n : Nat} {r : Request}

/-- The block found is free. -/
lemma SfsFs.free_of_next (next : s.nextFree = some b) : s.freemap b = false ∧ b < bitmapsize s.nblocks :=
  ⟨by simpa using List.find?_some next, List.mem_range.1 (List.mem_of_find?_eq_some next)⟩

/-- The marked blocks after one more. -/
lemma SfsFs.marked_mark (inside : b < bitmapsize s.nblocks) (x : Nat) : (s.mark b).Marked x ↔ s.Marked x ∨ x = b := by
  rw [SfsFs.Marked, SfsFs.Marked, SfsFs.nblocks_mark, SfsFs.mark]
  dsimp only
  by_cases same : x = b
  · rw [same, Function.update_self]
    exact iff_of_true ⟨inside, rfl⟩ (.inr rfl)
  · rw [Function.update_of_ne same, or_iff_left same]

/-- Marking a block is scratch work. -/
lemma Scratch.mark (s : SfsFs) (b : Nat) : Scratch s (s.mark b) := ⟨rfl, rfl, rfl, rfl, fun _ _ => rfl⟩

/-- Taking a block is scratch work. -/
lemma Taken.scratch (h : Taken r s b t) : Scratch s t := by
  rw [h.state]
  refine ⟨rfl, rfl, rfl, rfl, fun c marked => ?_⟩
  have ne : c ≠ b := by
    rintro rfl
    rw [(SfsFs.free_of_next h.next).1] at marked
    cases marked
  dsimp only
  obtain ⟨-, dev⟩ | ⟨-, dev⟩ := h.sect
  · rw [dev]
    exact Function.update_of_ne ne ..
  · rw [dev]

/-- The marked blocks after one is taken. -/
lemma Taken.marked (h : Taken r s b t) (x : Nat) : t.Marked x ↔ s.Marked x ∨ x = b := by
  rw [h.state]
  exact SfsFs.marked_mark (SfsFs.free_of_next h.next).2 x

/-- Any state in which one block more is marked, but not used. -/
lemma Sound.leaks (h : Sound s N) (sc : Scratch s t) (free : s.freemap b = false)
    (marked : ∀ x, t.Marked x ↔ s.Marked x ∨ x = b) : ¬ NoLeak N t := by
  rw [h.noLeak_iff (M := (· = b)) (R := fun _ => False) sc.frame.nblocks (fun j => sc.frame.live_iff) marked
    (fun _ e => e ▸ free)]
  · exact fun both => both.2 b rfl
  · intro x
    rw [or_false]
    constructor
    · rintro ⟨j, k, live, lt, eq, ne⟩
      have live := sc.frame.live_iff.1 live
      exact ⟨j, k, live, lt, h.ptr_scratch sc live ▸ eq, ne⟩
    · rintro ⟨j, k, live, lt, eq, ne⟩
      exact ⟨j, k, sc.frame.live_iff.2 live, lt, (h.ptr_scratch sc live).trans eq, ne⟩

/-- The allocator returns. -/
lemma wlp_sfsBalloc_faulty {Q : Nat → SfsFs × Nat → Prop} {E : Nat → SfsFs × Nat → Prop}
    (full : s.nextFree = none → E enospc (s, n)) (ok : ∀ b t, Taken (req n) s b t → Q b (t, n + 1))
    (err : ∀ b e ne, s.nextFree = some b → req n = .fails e ne → E e (s.mark b, n + 1)) :
    Prog.wlp (Faulty.sfsBalloc req) Q E (s, n) := by
  rw [Faulty.sfsBalloc, Prog.wlp_andThen_iff]
  refine Prog.wlp_of_run (a := s) rfl ?_
  cases found : bitmapAlloc (bitmapsize s.nblocks) s.freemap with
  | none => exact full found
  | some b =>
    dsimp only
    rw [Prog.wlp_andThen_iff]
    refine Prog.wlp_of_run (t := (s.mark b, n)) rfl ?_
    rw [Prog.wlp_andThen_iff]
    refine Prog.wlp.require fun lt => ?_
    have small : s.nblocks < 2 ^ 32 := Block.word_lt ..
    rw [Prog.wlp_andThen_iff]
    refine Faulty.wlp_wblock ?_ ?_ ?_
    · intro dev done write
      exact ok b _ ⟨found, lt, rfl, .inl ⟨done, write (lt.trans small)⟩⟩
    · intro lost
      exact ok b _ ⟨found, lt, rfl, .inr ⟨lost, rfl⟩⟩
    · intro e ne fails
      exact err b e ne found fails

end

/-- The numbers in the old contents of a new indirect block are numbers of marked blocks, or of the block that is
allocated next; and if there is one, its number is among them. -/
def Stale (s : SfsFs) (x : Block) : Prop :=
  (∀ l < 128, x.word l ≠ 0 → s.Marked (x.word l) ∨ s.nextFree = some (x.word l)) ∧
    ∀ c, s.nextFree = some c → ∃ l < 128, x.word l = c

/-- When a failure of `sfs_bmap` for a write leaves no block behind: there is no free block, the file would be too
large, or the indirect block cannot be read, so that nothing has been allocated; or only the indirect block is new,
and as empty as it should be, or holds by coincidence what is marked. -/
def BooksKept (req : Nat → Request) (s : SfsFs) (sv fileblock n : Nat) : Prop :=
  s.nextFree = none ∨ 143 ≤ fileblock ∨
    (15 ≤ fileblock ∧ (s.vnode sv).i.indirect.toNat ≠ 0 ∧ (req n).Fails) ∨
    (15 ≤ fileblock ∧ (s.vnode sv).i.indirect.toNat = 0 ∧ ∃ b, s.nextFree = some b ∧
      (req n = .done ∧ (s.mark b).nextFree = none ∨ req n = .lost ∧ Stale (s.mark b) (s.dev.sect b)))

section

variable {req : Nat → Request} {s t : SfsFs} {N : Nat → Prop} {sv b c n fb : Nat} {r : Request}

/-- When the books are kept for an entry of the indirect block. -/
lemma BooksKept.entry_iff (found : s.nextFree = some b) (large : 15 ≤ fb) (small : fb < 143)
    (some : (s.vnode sv).i.indirect.toNat ≠ 0) : BooksKept req s sv fb n ↔ (req n).Fails := by
  rw [BooksKept, found]
  simp [large, some, Nat.not_le.2 small]

/-- When they are kept for a new indirect block. -/
lemma BooksKept.new_iff (found : s.nextFree = some b) (large : 15 ≤ fb) (small : fb < 143)
    (none : (s.vnode sv).i.indirect.toNat = 0) : BooksKept req s sv fb n ↔
      (req n = .done ∧ (s.mark b).nextFree = Option.none ∨ req n = .lost ∧ Stale (s.mark b) (s.dev.sect b)) := by
  rw [BooksKept, found]
  simp [large, none, Nat.not_le.2 small]

/-- The indirect block is new, and the block that is allocated next, if there is one, is marked as well. -/
lemma Sound.noLeak_newIndirect (h : Sound s N) (sc : Scratch s t) (mem : sv ∈ s.vnodes)
    (none : (s.vnode sv).i.indirect.toNat = 0) (found : s.nextFree = some b) (lt : b < s.nblocks) (large : 15 ≤ fb)
    (small : fb < 143) (marked : ∀ x, t.Marked x ↔ s.Marked x ∨ x = b ∨ (s.mark b).nextFree = some x)
    (sect : req n = .done ∧ t.dev.sect b = Block.zeros ∨ req n = .lost ∧ t.dev.sect b = s.dev.sect b) :
    NoLeak N (t.mapVnode sv (onInode (assignIndirect b))) ↔ BooksKept req s sv fb n := by
  have free := (SfsFs.free_of_next found).1
  have inside := (SfsFs.free_of_next found).2
  have ne := h.free_ne_zero free
  have word : b < 2 ^ 32 := lt.trans (Block.word_lt ..)
  have live (j : Nat) : (t.mapVnode sv (onInode (assignIndirect b))).Live N j ↔ s.Live N j := by
    rw [SfsFs.live_mapVnode rfl, sc.frame.live_iff]
  have free' (x : Nat) (next : (s.mark b).nextFree = some x) : s.freemap x = false ∧ x ≠ b := by
    have free := (SfsFs.free_of_next next).1
    rw [SfsFs.mark] at free
    dsimp only at free
    have other : x ≠ b := by
      rintro rfl
      rw [Function.update_self] at free
      cases free
    rw [Function.update_of_ne other] at free
    exact ⟨free, other⟩
  have owns := h.owns_newIndirect sc mem word ne (UInt32.toNat_inj.1 none)
  have size : (t.mapVnode sv (onInode (assignIndirect b))).nblocks = s.nblocks := sc.frame.nblocks
  rw [h.noLeak_iff size live marked ?_ owns, BooksKept.new_iff found large small none]
  · have both (x : Nat) : t.Marked x ↔ (s.mark b).Marked x ∨ (s.mark b).nextFree = some x := by
      rw [marked, SfsFs.marked_mark inside, or_assoc]
    obtain ⟨done, zero⟩ | ⟨lost, old⟩ := sect
    · -- the block is empty, so that all that matters is whether a second block has been marked
      rw [done, zero]
      simp only [Block.word_zeros, true_and, reduceCtorEq, false_and, or_false]
      constructor
      · rintro ⟨-, used⟩
        rw [Option.eq_none_iff_forall_ne_some]
        intro x next
        obtain ⟨-, rfl | ⟨l, -, zero⟩⟩ := used x (.inr next)
        · exact (free' _ next).2 rfl
        · exact h.free_ne_zero (free' x next).1 zero.symm
      · intro last
        refine ⟨?_, ?_⟩
        · rintro x ⟨nz, rfl | ⟨l, -, zero⟩⟩
          · exact (marked x).2 (.inr (.inl rfl))
          · exact absurd zero.symm nz
        · rintro x (rfl | next)
          · exact ⟨ne, .inl rfl⟩
          · rw [last] at next
            cases next
    · rw [lost, old]
      simp only [reduceCtorEq, false_and, true_and, false_or, Stale]
      refine and_congr ?_ ?_
      · constructor
        · intro used l hl nz
          exact (both _).1 (used _ ⟨nz, .inr ⟨l, hl, rfl⟩⟩)
        · rintro all x ⟨nz, rfl | ⟨l, hl, rfl⟩⟩
          · exact (marked x).2 (.inr (.inl rfl))
          · exact (both _).2 (all l hl nz)
      · constructor
        · intro used c next
          exact (used c (.inr next)).2.resolve_left (free' c next).2
        · rintro all x (rfl | next)
          · exact ⟨ne, .inl rfl⟩
          · exact ⟨h.free_ne_zero (free' x next).1, .inr (all x next)⟩
  · rintro x (rfl | next)
    · exact free
    · exact (free' x next).1

/-- The state after the second block `c` has been marked, before the inode is changed. -/
lemma Taken.second (h : Taken r s b t) (next : (s.mark b).nextFree = some c) {dev : Lhd}
    (sect : ∀ x ≠ c, dev.sect x = t.dev.sect x) :
    Scratch s { t.mark c with dev := dev } ∧ dev.sect b = t.dev.sect b ∧
      ∀ x, SfsFs.Marked { t.mark c with dev := dev } x ↔ s.Marked x ∨ x = b ∨ (s.mark b).nextFree = some x := by
  obtain ⟨free, inside⟩ := SfsFs.free_of_next next
  have other (x : Nat) (marked : (s.mark b).freemap x = true) : x ≠ c := by
    rintro rfl
    rw [marked] at free
    cases free
  refine ⟨⟨h.scratch.vnodes, h.scratch.vnode, h.scratch.next, h.scratch.super, ?_⟩, ?_, ?_⟩
  · intro x marked
    rw [← h.scratch.sect x marked]
    refine sect x (other x ?_)
    rw [SfsFs.mark]
    dsimp only
    rw [Function.update_apply, marked, ite_self]
  · refine sect b (other b ?_)
    rw [SfsFs.mark]
    dsimp only
    rw [Function.update_self]
  · intro x
    have inside' : c < bitmapsize t.nblocks := by
      rw [h.state]
      exact inside
    have marked : SfsFs.Marked { t.mark c with dev := dev } x ↔ (t.mark c).Marked x := Iff.rfl
    rw [marked, SfsFs.marked_mark inside', h.marked, or_assoc, next, Option.some.injEq, eq_comm (a := c)]

/-- An entry of the indirect block is wanted. -/
lemma wlp_sfsBmapEntry_faulty {idblock idoff : Nat} {idbuf : Nat → Nat} {E : Nat → SfsFs × Nat → Prop}
    (full : s.nextFree = none → E enospc (s, n))
    (clear : ∀ b e ne, s.nextFree = some b → req n = .fails e ne → E e (s.mark b, n + 1))
    (write : ∀ b t e ne, Taken (req n) s b t → req (n + 1) = .fails e ne → E e (t, n + 2)) :
    Prog.wlp (Faulty.sfsBmapEntry req sv idblock idbuf idoff true) (fun _ _ => True) E (s, n) := by
  rw [Faulty.sfsBmapEntry]
  have check {block : Nat} {st : SfsFs × Nat} :
      Prog.wlp (Prog.onFst (checkUsed sv block idoff) : FaultM Nat) (fun _ _ => True) E st := by
    rw [Prog.wlp_onFst_iff]
    exact wlp_checkUsed trivial
  split_ifs with missing
  · rw [Prog.wlp_andThen_iff]
    refine wlp_sfsBalloc_faulty full ?_ clear
    intro b t taken
    rw [Prog.wlp_andThen_iff]
    exact Faulty.wlp_wblock (fun _ _ _ => check) (fun _ => check) fun e ne fails => write b t e ne taken fails
  · exact check

/-- An error of `sfs_bmap` leaves a block behind, or none. -/
lemma Sound.wlp_sfsBmap (h : Sound s N) (mem : sv ∈ s.vnodes) (fb n : Nat) :
    Prog.wlp (Faulty.sfsBmap req sv fb true) (fun _ _ => True)
      (fun _ st => NoLeak N st.1 ↔ BooksKept req s sv fb n) (s, n) := by
  have nothing (full : s.nextFree = none) : NoLeak N s ↔ BooksKept req s sv fb n :=
    iff_of_true h.noLeak (.inl full)
  have leaks {b : Nat} (found : s.nextFree = some b) : ¬ NoLeak N (s.mark b) :=
    h.leaks (.mark s b) (SfsFs.free_of_next found).1 (SfsFs.marked_mark (SfsFs.free_of_next found).2)
  by_cases direct : fb < 15
  · rw [Faulty.sfsBmap, dif_pos direct, Faulty.sfsBmapDirect, Prog.wlp_andThen_iff]
    refine Prog.wlp_of_run (a := s.vnode sv) rfl ?_
    dsimp only
    split_ifs with missing
    · rw [Prog.wlp_andThen_iff]
      refine wlp_sfsBalloc_faulty nothing ?_ ?_
      · intro b t taken
        rw [Prog.wlp_andThen_iff]
        refine Prog.wlp_of_run rfl ?_
        rw [Prog.wlp_onFst_iff]
        exact wlp_checkUsed trivial
      · intro b e ne found fails
        refine iff_of_false (leaks found) ?_
        rintro (full | large | ⟨large, -⟩ | ⟨large, -⟩)
        · rw [found] at full
          cases full
        · omega
        · omega
        · omega
    · rw [Prog.wlp_onFst_iff]
      exact wlp_checkUsed trivial
  rw [Faulty.sfsBmap, dif_neg direct]
  dsimp only
  by_cases large : (fb - 15) / 128 > 0
  · rw [if_pos large]
    exact iff_of_true h.noLeak (.inr (.inl (by omega)))
  have lo : 15 ≤ fb := by omega
  have hi : fb < 143 := by omega
  rw [if_neg large, Prog.wlp_andThen_iff]
  refine Prog.wlp_of_run (a := s.vnode sv) rfl ?_
  rw [if_neg (fun no => by cases no.2)]
  by_cases none : (s.vnode sv).i.indirect.toNat = 0
  · rw [if_pos none, Prog.wlp_andThen_iff]
    refine wlp_sfsBalloc_faulty nothing ?_ ?_
    · intro b t taken
      have after (x : Nat) : (t.mapVnode sv (onInode (assignIndirect b))).nextFree = some x ↔
          (s.mark b).nextFree = some x := by
        rw [taken.state]
        rfl
      have books (c : Nat) (dev : Lhd) (next : (s.mark b).nextFree = some c)
          (sect : ∀ x ≠ c, dev.sect x = t.dev.sect x) :
          NoLeak N (SfsFs.mapVnode { t.mark c with dev := dev } sv (onInode (assignIndirect b))) ↔
            BooksKept req s sv fb n := by
        obtain ⟨sc, same, marked⟩ := taken.second next sect
        refine h.noLeak_newIndirect sc mem none taken.next taken.lt lo hi marked ?_
        exact taken.sect.imp (fun d => ⟨d.1, by rw [same, d.2]; exact Function.update_self ..⟩)
          fun d => ⟨d.1, by rw [same, d.2]⟩
      rw [Prog.wlp_andThen_iff]
      refine Prog.wlp_of_run (t := (t.mapVnode sv (onInode (assignIndirect b)), n + 1)) rfl ?_
      refine wlp_sfsBmapEntry_faulty ?_ ?_ ?_
      · intro full
        have last : (s.mark b).nextFree = Option.none := by
          rw [Option.eq_none_iff_forall_ne_some]
          intro x next
          rw [(after x).2 next] at full
          cases full
        refine h.noLeak_newIndirect taken.scratch mem none taken.next taken.lt lo hi ?_ ?_
        · intro x
          rw [taken.marked, last]
          simp
        · exact taken.sect.imp (fun d => ⟨d.1, by rw [d.2]; exact Function.update_self ..⟩)
            fun d => ⟨d.1, by rw [d.2]⟩
      · intro c e ne next fails
        exact books c t.dev ((after c).1 next) fun x _ => rfl
      · intro c t₂ e ne taken₂ fails
        have next := (after c).1 taken₂.next
        rw [taken₂.state]
        refine books c t₂.dev next fun x other => ?_
        obtain ⟨-, dev⟩ | ⟨-, dev⟩ := taken₂.sect
        · rw [dev]
          exact Function.update_of_ne other ..
        · rw [dev]
          rfl
    · intro b e ne found fails
      refine iff_of_false (leaks found) ?_
      rw [BooksKept.new_iff found lo hi none, fails]
      simp
  · rw [if_neg none, Prog.wlp_andThen_iff]
    refine Faulty.wlp_rblock ?_ ?_
    · intro data dev works read
      obtain ⟨rfl, rfl⟩ := read (UInt32.toNat_lt _)
      refine wlp_sfsBmapEntry_faulty nothing ?_ ?_
      · intro b e ne found fails
        exact iff_of_false (leaks found) fun kept => works ((BooksKept.entry_iff found lo hi none).1 kept)
      · intro b t e ne taken fails
        refine iff_of_false (h.leaks taken.scratch (SfsFs.free_of_next taken.next).1 taken.marked) fun kept => ?_
        exact works ((BooksKept.entry_iff taken.next lo hi none).1 kept)
    · intro e ne fails
      refine iff_of_true h.noLeak ?_
      by_cases full : s.nextFree = Option.none
      · exact .inl full
      · refine .inr (.inr (.inl ⟨lo, none, ?_⟩))
        rw [fails]
        trivial

/-- When `sfs_bmap` returns an error, the free map marks what is in use exactly if nothing has been allocated, or a
new indirect block only. -/
theorem sfs_bmap_leak_iff (h : Sound s N) (mem : sv ∈ s.vnodes) {e : Nat} {st : SfsFs × Nat}
    (run : Faulty.sfsBmap req sv fb true (s, n) = .ok (.error e, st)) : NoLeak N st.1 ↔ BooksKept req s sv fb n :=
  (h.wlp_sfsBmap mem fb n).of_error run

end

/-- A block past the maximum size of a file cannot be mapped, and nothing is allocated for it. -/
theorem sfs_bmap_leak_large : ∃ s N sv st, Core s N ∧ sv ∈ s.vnodes ∧
    Faulty.sfsBmap (fun _ => .lost) sv 143 true (s, 0) = .ok (.error efbig, st) ∧ NoLeak N st.1 := by
  obtain ⟨s, N, sv, new⟩ := exists_new_file
  have core := new.core
  have mem := new.mem
  have run : Faulty.sfsBmap (fun _ => .lost) sv 143 true (s, 0) = .ok (.error efbig, (s, 0)) := rfl
  exact ⟨s, N, sv, _, core, mem, run, (sfs_bmap_leak_iff core.sound mem run).2 (.inr (.inl (le_refl _)))⟩

/-- A disk of five blocks that has been in use: all its bytes are 255. -/
def usedDisk : Lhd := ⟨5, fun _ _ => 255⟩

/-- A new file on a volume that `mksfs` has made on the used disk; one block is left, with its old bytes. -/
structure OneLeft (s : SfsFs) (N : Nat → Prop) (sv : Nat) : Prop where
  core : Core s N
  mem : sv ∈ s.vnodes
  indirect : (s.vnode sv).i.indirect = 0
  nblocks : s.nblocks = 5
  next : s.nextFree = some 4
  last : (s.mark 4).nextFree = none
  old : s.dev.sect 4 = usedDisk.sect 4

/-- There is such a volume: `mksfs` leaves the blocks alone that the volume does not use yet. -/
lemma exists_one_left : ∃ s N sv, OneLeft s N sv := by
  obtain ⟨inv, map, -⟩ := @inv_newsect [118] usedDisk (by decide) (by decide)
  have size : (mounted { usedDisk with sect := newsect [118] usedDisk }).nblocks = 5 := inv.core.geom.dev.symm
  have old : (mounted { usedDisk with sect := newsect [118] usedDisk }).dev.sect 4 = usedDisk.sect 4 := by
    rw [show (mounted { usedDisk with sect := newsect [118] usedDisk }).dev.sect = newsect [118] usedDisk from rfl]
    rw [newsect, if_neg (by decide), if_neg (by decide), if_neg (by decide)]
  generalize mounted { usedDisk with sect := newsect [118] usedDisk } = s at inv map size old
  have marks (b : Nat) (lt : b < 4096) : s.freemap b = true ↔ b < 3 ∨ 5 ≤ b := by
    rw [map b lt, newmap, Bool.or_eq_true, decide_eq_true_eq, decide_eq_true_eq]
    rfl
  have free (b : Nat) (lo : 3 ≤ b) (hi : b < 5) : s.freemap b = false := by
    rw [Bool.eq_false_iff, ne_eq, marks b (by omega)]
    omega
  have makes := inv.core.makes (free 3 (by omega) (by omega)) (by omega)
  have bits : bitmapsize s.nblocks = 4096 := by
    rw [size]
    rfl
  -- block 3 has become the inode of the file
  have marks' (b : Nat) (lt : b < 4096) (ne : b ≠ 4) : (s.mark 3).freemap b = true := by
    rw [SfsFs.mark]
    dsimp only
    by_cases three : b = 3
    · rw [three, Function.update_self]
    · rw [Function.update_of_ne three, marks b lt]
      omega
  refine ⟨_, s.Named, s.next, makes.core, makes.mem, ?_, size, ?_, ?_, ?_⟩
  · show (Function.update s.vnode s.next _ s.next).i.indirect = 0
    rw [Function.update_self]
    rfl
  · show bitmapAlloc (bitmapsize s.nblocks) (s.mark 3).freemap = some 4
    rw [bitmapAlloc, bits, List.find?_range_eq_some]
    refine ⟨?_, List.mem_range.2 (by decide), ?_⟩
    · show (!Function.update s.freemap 3 true 4) = true
      rw [Function.update_of_ne (by decide), free 4 (by omega) (by omega)]
      rfl
    · intro j lt
      rw [marks' j (by omega) (by omega)]
      rfl
  · show bitmapAlloc (bitmapsize s.nblocks) ((s.mark 3).mark 4).freemap = none
    rw [bitmapAlloc, bits, List.find?_range_eq_none]
    intro j lt
    rw [SfsFs.mark]
    dsimp only
    by_cases four : j = 4
    · rw [four, Function.update_self]
      rfl
    · rw [Function.update_of_ne four, marks' j lt four]
      rfl
  · show Function.update s.dev.sect 3 Block.zeros 4 = _
    rw [Function.update_of_ne (by decide), old]

/-- Its first block past the direct ones, with the write that clears the new indirect block lost: there is no room. -/
lemma OneLeft.wp_sfsBmap {s : SfsFs} {N : Nat → Prop} {sv : Nat} (left : OneLeft s N sv) :
    Prog.wp (Faulty.sfsBmap (fun _ => .lost) sv 15 true) (fun _ _ => False) (fun e _ => e = enospc) (s, 0) := by
  have blocks : s.dev.blocks = s.nblocks := left.core.geom.dev
  have none : (s.vnode sv).i.indirect.toNat = 0 := congrArg UInt32.toNat left.indirect
  have inside : 4 < s.nblocks := by
    rw [left.nblocks]
    decide
  rw [Faulty.sfsBmap, dif_neg (by decide)]
  dsimp only
  rw [if_neg (by decide), Prog.wp_andThen_iff]
  refine Prog.wp_of_run (a := s.vnode sv) rfl ?_
  rw [if_neg (fun no => by cases no.2), if_pos none, Prog.wp_andThen_iff, Faulty.sfsBalloc, Prog.wp_andThen_iff]
  refine Prog.wp_of_run (a := s) rfl ?_
  rw [show bitmapAlloc (bitmapsize s.nblocks) s.freemap = some 4 from left.next]
  dsimp only
  rw [Prog.wp_andThen_iff]
  refine Prog.wp_of_run (t := (s.mark 4, 0)) rfl ?_
  rw [Prog.wp_andThen_iff]
  refine Prog.wp.require inside ?_
  rw [Prog.wp_andThen_iff]
  refine Faulty.wp_wblock (s := s.mark 4) blocks inside (fun no => by cases no) ?_ (fun _ _ no => by cases no)
  intro _
  show Prog.wp _ _ _ (s.mark 4, 1)
  rw [Prog.wp_pure_iff, Prog.wp_andThen_iff]
  refine Prog.wp_of_run (t := ((s.mark 4).mapVnode sv (onInode (assignIndirect 4)), 1)) rfl ?_
  rw [Faulty.sfsBmapEntry, if_pos ⟨rfl, rfl⟩, Prog.wp_andThen_iff, Faulty.sfsBalloc, Prog.wp_andThen_iff]
  refine Prog.wp_of_run (a := (s.mark 4).mapVnode sv (onInode (assignIndirect 4))) rfl ?_
  have full : bitmapAlloc (bitmapsize (s.mark 4).nblocks) (s.mark 4).freemap = Option.none := left.last
  rw [show bitmapAlloc (bitmapsize ((s.mark 4).mapVnode sv (onInode (assignIndirect 4))).nblocks)
    ((s.mark 4).mapVnode sv (onInode (assignIndirect 4))).freemap = Option.none from full]
  rfl

/-- The first block past the direct ones is mapped on an `lhd` that cannot write for a moment. The write that clears
the new indirect block is lost, so that `sfs_wblock` returns `0` and the block keeps its old bytes; there is no block
for the file itself, and `sfs_bmap` returns `ENOSPC`. The inode then refers to block numbers that are not marked. -/
theorem sfs_bmap_leaks : ∃ s N sv st, Core s N ∧ sv ∈ s.vnodes ∧
    sfsWblock (fun tries _ => tries != 0) s.dev Block.zeros 4 = .ok (0, s.dev) ∧
    Faulty.sfsBmap (fun _ => .lost) sv 15 true (s, 0) = .ok (.error enospc, st) ∧ ¬ NoLeak N st.1 := by
  obtain ⟨s, N, sv, left⟩ := exists_one_left
  have ⟨core, mem, indirect, size, next, last, old⟩ := left
  have blocks : s.dev.blocks = s.nblocks := core.geom.dev
  have none : (s.vnode sv).i.indirect.toNat = 0 := congrArg UInt32.toNat indirect
  have inside : 4 < s.nblocks := by
    rw [size]
    decide
  have lost : sfsWblock (fun tries _ => tries != 0) s.dev Block.zeros 4 = .ok (0, s.dev) :=
    sfsWblock_lost _ (blocks ▸ inside) (by rw [blocks, size]; decide) rfl
  obtain ⟨r, st, run, ok, err⟩ := Prog.wp_iff.1 left.wp_sfsBmap
  cases r with
  | ok a => exact (ok a rfl).elim
  | error e =>
    obtain rfl := err e rfl
    refine ⟨s, N, sv, st, core, mem, lost, run, fun books => ?_⟩
    have kept := ((core.sound.wlp_sfsBmap mem 15 0).of_error run).1 books
    obtain ⟨no, -⟩ | ⟨-, stale, -⟩ := (BooksKept.new_iff next (by decide) (by decide) none).1 kept
    · cases no
    · -- the number in the old bytes is none of a block
      rw [old] at stale
      have word : (usedDisk.sect 4).word 0 = 2 ^ 32 - 1 := rfl
      obtain ⟨range, -⟩ | next' := stale 0 (by decide) (by rw [word]; decide)
      · have bits : bitmapsize (s.mark 4).nblocks = 4096 := by
          rw [SfsFs.nblocks_mark, size]
          rfl
        rw [word, bits] at range
        exact absurd range (by decide)
      · rw [last] at next'
        cases next'

end PDS.Sfs
