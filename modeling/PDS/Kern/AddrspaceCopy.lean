import PDS.Kern.AddrspaceRun
import PDS.Kern.AddrspaceLoad

/-!
# Copies of address spaces

`as_copy` either gives the new address space the pages of the old one, in frames of its own, or gives back what it
has allocated.

`Backs v as v'` says that the allocator has gone from `v` to `v'` by allocating the physical memory that `as` has. The
allocations of `as_prepare_load` and the releases of `as_destroy` keep it, and when the address space has no memory
any more, the block lists are those of `v`.
-/

namespace PDS.Kern
open Word Extent

/-- The panic of `alloc_ppages` when the node pool is exhausted. -/
def poolPanic : Halt := .panic "Not enough memory for VM system!\n"

/-- The used blocks of `v'` are those of `v` and the physical memory of `as`. -/
structure Backs (v : Vm) (as : AddrSpace) (v' : Vm) : Prop where
  kin : v.Kin v'
  booted : v'.Booted
  used : ∀ b, v'.Used b ↔ v.Used b ∨ ∃ r, as.pbase r ≠ 0 ∧ b = as.block r
  new : ∀ r, as.pbase r ≠ 0 → ¬ v.Holds (as.pbase r)
  inj : ∀ r r', as.pbase r ≠ 0 → as.pbase r' = as.pbase r → r' = r

namespace Backs

variable {v v' : Vm} {as : AddrSpace} {r : Region} {a : Nat} {b : Block}

/-- Nothing is backed at the start. -/
lemma start (bt : v.Booted) (zero : ∀ r, as.pbase r = 0) : Backs v as v where
  kin := .inl rfl
  booted := bt
  used b := by simp [zero]
  new r nz := absurd (zero r) nz
  inj r _ nz := absurd (zero r) nz

/-- A region gets physical memory. -/
lemma block_setPbase (zero : as.pbase r = 0) (nz : a ≠ 0) :
    (∃ r', (as.setPbase r a).pbase r' ≠ 0 ∧ b = (as.setPbase r a).block r') ↔
      (∃ r', as.pbase r' ≠ 0 ∧ b = as.block r') ∨ b = ⟨a, as.npages r * pageSize⟩ := by
  have self : (as.setPbase r a).block r = ⟨a, as.npages r * pageSize⟩ := by
    rw [AddrSpace.block, AddrSpace.setPbase_self, AddrSpace.setPbase_npages]
  constructor
  · rintro ⟨r', nz', rfl⟩
    by_cases same : r' = r
    · rw [same]
      exact .inr self
    · rw [AddrSpace.setPbase_ne same] at nz'
      exact .inl ⟨r', nz', AddrSpace.setPbase_block_ne same⟩
  · rintro (⟨r', nz', rfl⟩ | rfl)
    · have ne : r' ≠ r := by
        rintro rfl
        exact nz' zero
      exact ⟨r', by rwa [AddrSpace.setPbase_ne ne], (AddrSpace.setPbase_block_ne ne).symm⟩
    · exact ⟨r, by rwa [AddrSpace.setPbase_self], self.symm⟩

/-- A region loses its physical memory. -/
lemma block_clear (inj : ∀ r', as.pbase r' = as.pbase r → r' = r) :
    (∃ r', (as.setPbase r 0).pbase r' ≠ 0 ∧ b = (as.setPbase r 0).block r') ↔
      (∃ r', as.pbase r' ≠ 0 ∧ b = as.block r') ∧ b.start ≠ as.pbase r := by
  constructor
  · rintro ⟨r', nz', rfl⟩
    have ne : r' ≠ r := by
      rintro rfl
      exact nz' AddrSpace.setPbase_self
    rw [AddrSpace.setPbase_ne ne] at nz'
    rw [AddrSpace.setPbase_block_ne ne]
    exact ⟨⟨r', nz', rfl⟩, fun e => ne (inj r' e)⟩
  · rintro ⟨⟨r', nz', rfl⟩, other⟩
    have ne : r' ≠ r := by
      rintro rfl
      exact other rfl
    exact ⟨r', by rwa [AddrSpace.setPbase_ne ne], (AddrSpace.setPbase_block_ne ne).symm⟩

/-- `as_pbase = alloc_ppages(as_npages)`: the pool is exhausted, or the field is set. -/
lemma alloc (bk : Backs v as v') (zero : as.pbase r = 0) :
    as.allocRegion v' r = .error poolPanic ∨
      ∃ v₂ a, as.allocRegion v' r = .ok (v₂, as.setPbase r a) ∧ Backs v (as.setPbase r a) v₂ := by
  obtain e | ⟨v₂, a, e, kin⟩ := bk.booted.alloc_kin (as.npages r)
  · left
    rw [AddrSpace.allocRegion, e]
    rfl
  · refine .inr ⟨v₂, a, by rw [AddrSpace.allocRegion, e]; rfl, ?_⟩
    obtain ⟨booted, ⟨rfl, rfl⟩ | ⟨nz, -, new, used⟩⟩ := bk.booted.alloc e
    · have same : as.setPbase r 0 = as := by rw [← zero, AddrSpace.setPbase_pbase]
      rwa [same]
    · refine ⟨bk.kin.trans kin, booted, ?_, ?_, ?_⟩
      · intro b
        rw [used, bk.used, block_setPbase zero nz, or_assoc]
      · intro r' nz'
        by_cases same : r' = r
        · rw [same, AddrSpace.setPbase_self]
          rintro ⟨b, hb, start⟩
          exact new ⟨b, (bk.used b).2 (.inl hb), start⟩
        · rw [AddrSpace.setPbase_ne same] at nz' ⊢
          exact bk.new r' nz'
      · -- the new block is none of those that the other regions have
        have other : ∀ r', r' ≠ r → as.pbase r' ≠ 0 → as.pbase r' ≠ a := by
          rintro r' - nz' rfl
          exact new ⟨as.block r', (bk.used _).2 (.inr ⟨r', nz', rfl⟩), rfl⟩
        intro r₁ r₂ nz₁ e₁
        by_cases same₁ : r₁ = r
        · subst same₁
          rw [AddrSpace.setPbase_self] at e₁
          by_contra ne
          rw [AddrSpace.setPbase_ne ne] at e₁
          exact other r₂ ne (e₁ ▸ nz) e₁
        · rw [AddrSpace.setPbase_ne same₁] at nz₁ e₁
          by_cases same₂ : r₂ = r
          · subst same₂
            rw [AddrSpace.setPbase_self] at e₁
            exact absurd e₁.symm (other r₁ same₁ nz₁)
          · rw [AddrSpace.setPbase_ne same₂] at e₁
            exact bk.inj r₁ r₂ nz₁ e₁

/-- `if (as_pbase != 0) free_ppages(as_pbase);` -/
lemma free (bk : Backs v as v') (r : Region) :
    ∃ v₂, as.freeRegion v' r = .ok v₂ ∧ Backs v (as.setPbase r 0) v₂ := by
  by_cases nz : as.pbase r = 0
  · have same : as.setPbase r 0 = as := by rw [← nz, AddrSpace.setPbase_pbase]
    rw [same]
    exact ⟨v', if_neg (not_not.2 nz), bk⟩
  · obtain ⟨v₂, e, kin⟩ := bk.booted.free_kin (as.pbase r)
    obtain ⟨booted, used⟩ := bk.booted.free e
    have inj := fun r' => bk.inj r r' nz
    have keep : ∀ r', (as.setPbase r 0).pbase r' ≠ 0 → r' ≠ r := by
      rintro r' nz' rfl
      exact nz' AddrSpace.setPbase_self
    refine ⟨v₂, by rw [AddrSpace.freeRegion, if_pos nz, e], bk.kin.trans kin, booted, ?_, ?_, ?_⟩
    · intro b
      rw [used, bk.used, block_clear inj, or_and_right]
      refine or_congr (and_iff_left_of_imp ?_) Iff.rfl
      exact fun hb start => bk.new r nz ⟨b, hb, start⟩
    · intro r' nz'
      have ne := keep r' nz'
      rw [AddrSpace.setPbase_ne ne] at nz' ⊢
      exact bk.new r' nz'
    · intro r₁ r₂ nz₁ e₁
      have ne₁ := keep r₁ nz₁
      have ne₂ := keep r₂ (e₁ ▸ nz₁)
      rw [AddrSpace.setPbase_ne ne₁] at nz₁ e₁
      rw [AddrSpace.setPbase_ne ne₂] at e₁
      exact bk.inj r₁ r₂ nz₁ e₁

/-- Without physical memory the lists are those from before. -/
lemma done (bk : Backs v as v') (bt : v.Booted) (zero : ∀ r, as.pbase r = 0) : v.SameLists v' :=
  bk.kin.same bt (fun b => by rw [bk.used]; simp [zero])

/-- `as_destroy` gives everything back. -/
lemma destroy (bk : Backs v as v') (bt : v.Booted) : ∃ v₂, asDestroy v' as = .ok v₂ ∧ v.SameLists v₂ := by
  obtain ⟨v₁, e₁, bk₁⟩ := bk.free .one
  obtain ⟨v₂, e₂, bk₂⟩ := bk₁.free .two
  obtain ⟨v₃, e₃, bk₃⟩ := bk₂.free .stack
  have e₂ : as.freeRegion v₁ .two = .ok v₂ := e₂
  have e₃ : as.freeRegion v₂ .stack = .ok v₃ := e₃
  refine ⟨v₃, ?_, bk₃.done bt (by rintro ⟨⟩ <;> rfl)⟩
  rw [asDestroy, e₁, ok_bind, e₂, ok_bind, e₃]

/-- New blocks are apart from the old ones and from each other. -/
lemma apart_old (bk : Backs v as v') (nz : as.pbase r ≠ 0) (old : v.Used b) : (as.block r).Apart b := by
  have used : v'.Used (as.block r) := (bk.used _).2 (.inr ⟨r, nz, rfl⟩)
  obtain e | apart := bk.booted.used_apart used ((bk.used b).2 (.inl old))
  · exact absurd ⟨b, old, (congrArg Block.start e).symm⟩ (bk.new r nz)
  · exact apart

/-- Two regions have blocks of their own. -/
lemma apart_new (bk : Backs v as v') {r' : Region} (nz : as.pbase r ≠ 0) (nz' : as.pbase r' ≠ 0) (ne : r' ≠ r) :
    (as.block r).Apart (as.block r') := by
  have used := fun r nz => (bk.used (as.block r)).2 (.inr ⟨r, nz, rfl⟩)
  obtain e | apart := bk.booted.used_apart (used r nz) (used r' nz')
  · exact absurd (bk.inj r r' nz (congrArg Block.start e).symm) ne
  · exact apart

/-- A block lies below `kseg0`. -/
lemma top (bk : Backs v as v') (nz : as.pbase r ≠ 0) :
    pageSize ∣ as.pbase r ∧ 0 < as.npages r ∧ as.pbase r + as.npages r * pageSize ≤ kseg0 := by
  obtain ⟨al, -, pos, top⟩ := bk.booted.used_pages ((bk.used (as.block r)).2 (.inr ⟨r, nz, rfl⟩))
  exact ⟨al, Nat.pos_of_mul_pos_right pos, top⟩

end Backs

/-- `as_prepare_load` exhausts the pool, or fails without touching the memory, or gives every region a block and
writes to these blocks only. -/
lemma asPrepareLoad_total {ph : Phys} {as : AddrSpace} (bt : ph.vm.Booted) (zero : ∀ r, as.pbase r = 0) :
    asPrepareLoad ph as = .error poolPanic ∨
      ∃ ph' as' result, asPrepareLoad ph as = .ok (ph', as', result) ∧ Backs ph.vm as' ph'.vm ∧
        as'.vbase = as.vbase ∧ as'.npages = as.npages ∧
        ((result = enomem ∧ ph'.mem = ph.mem) ∨
          (result = 0 ∧ (∀ r, as'.pbase r ≠ 0) ∧
            ∀ p, (∀ r, ¬ (as'.block r).Has p) → ph'.mem p = ph.mem p)) := by
  have z₁ : as.pbase1 = 0 := zero .one
  have z₂ : as.pbase2 = 0 := zero .two
  have z₃ : as.stackpbase = 0 := zero .stack
  rw [asPrepareLoad, kassert_pos z₁, kassert_pos z₂, kassert_pos z₃, ok_bind, ok_bind, ok_bind]
  obtain e₁ | ⟨v₁, a₁, e₁, bk₁⟩ := (Backs.start bt zero).alloc (r := .one) z₁
  · exact .inl (by rw [e₁, error_bind])
  rw [e₁, ok_bind]
  dsimp only
  split
  next => exact .inr ⟨_, _, _, rfl, bk₁, AddrSpace.setPbase_vbase, AddrSpace.setPbase_npages, .inl ⟨rfl, rfl⟩⟩
  next nz₁ =>
  obtain e₂ | ⟨v₂, a₂, e₂, bk₂⟩ := bk₁.alloc (r := .two) z₂
  · exact .inl (by rw [e₂, error_bind])
  rw [e₂, ok_bind]
  dsimp only
  split
  next =>
    refine .inr ⟨_, _, _, rfl, bk₂, ?_, ?_, .inl ⟨rfl, rfl⟩⟩
    · rw [AddrSpace.setPbase_vbase, AddrSpace.setPbase_vbase]
    · rw [AddrSpace.setPbase_npages, AddrSpace.setPbase_npages]
  next nz₂ =>
  obtain e₃ | ⟨v₃, a₃, e₃, bk₃⟩ := bk₂.alloc (r := .stack) z₃
  · exact .inl (by rw [e₃, error_bind])
  rw [e₃, ok_bind]
  dsimp only
  have vbase : (((as.setPbase .one a₁).setPbase .two a₂).setPbase .stack a₃).vbase = as.vbase := by
    rw [AddrSpace.setPbase_vbase, AddrSpace.setPbase_vbase, AddrSpace.setPbase_vbase]
  have npages : (((as.setPbase .one a₁).setPbase .two a₂).setPbase .stack a₃).npages = as.npages := by
    rw [AddrSpace.setPbase_npages, AddrSpace.setPbase_npages, AddrSpace.setPbase_npages]
  split
  next => exact .inr ⟨_, _, _, rfl, bk₃, vbase, npages, .inl ⟨rfl, rfl⟩⟩
  next nz₃ =>
    have nz : ∀ r, (((as.setPbase .one a₁).setPbase .two a₂).setPbase .stack a₃).pbase r ≠ 0 := by
      rintro ⟨⟩
      exacts [nz₁, nz₂, nz₃]
    generalize ((as.setPbase .one a₁).setPbase .two a₂).setPbase .stack a₃ = as' at *
    refine .inr ⟨_, _, _, rfl, bk₃, vbase, npages, .inr ⟨rfl, nz, fun p out => ?_⟩⟩
    have keep : ∀ r mem, asZeroRegion mem (as'.pbase r) (as'.npages r) p = mem p := by
      intro r mem
      obtain ⟨-, pos, top⟩ := bk₃.top (nz r)
      exact (asZeroRegion_apply mem pos top).trans (if_neg (out r))
    have keep₁ : ∀ mem, asZeroRegion mem as'.pbase1 as'.npages1 p = mem p := keep .one
    have keep₂ : ∀ mem, asZeroRegion mem as'.pbase2 as'.npages2 p = mem p := keep .two
    have keep₃ : ∀ mem, asZeroRegion mem as'.stackpbase vmStackpages p = mem p := keep .stack
    dsimp only
    rw [keep₃, keep₂, keep₁]

/-- `memmove` of a region of the old address space to that of the new one. -/
def copyRegion (mem : Pmem) (new old : AddrSpace) (r : Region) : Pmem :=
  mem.memmove (paddrToKvaddr (new.pbase r)) (paddrToKvaddr (old.pbase r)) (wmul 32 (old.npages r) pageSize)

section Copy

variable {mem : Pmem} {old new : AddrSpace} {r : Region} {p : Nat}

/-- The bytes of a region after it has been copied. -/
lemma copyRegion_apply (np : new.npages = old.npages) (pos : 0 < old.npages r)
    (top : old.pbase r + old.npages r * pageSize ≤ kseg0) (top' : new.pbase r + new.npages r * pageSize ≤ kseg0) :
    copyRegion mem new old r p = if new.pbase r ≤ p ∧ p < new.pbase r + new.npages r * pageSize
      then mem (old.pbase r + (p - new.pbase r)) else mem p := by
  have size : 0 < old.npages r * pageSize := Nat.mul_pos pos (by decide)
  rw [np] at top' ⊢
  have e : wmul 32 (old.npages r) pageSize = old.npages r * pageSize :=
    wmul_of_lt (by simp only [kseg0] at top; omega)
  rw [copyRegion, Pmem.memmove, kvaddrToPaddr_paddrToKvaddr (by omega), kvaddrToPaddr_paddrToKvaddr (by omega), e]

/-- What the three copies do when the blocks are apart: the new blocks have the contents of the old ones, and nothing
else changes. -/
lemma copyRegions_apply (mem : Pmem) (np : new.npages = old.npages) (pos : ∀ r, 0 < old.npages r)
    (top : ∀ r, old.pbase r + old.npages r * pageSize ≤ kseg0)
    (top' : ∀ r, new.pbase r + new.npages r * pageSize ≤ kseg0)
    (apart_old : ∀ r r', (new.block r).Apart (old.block r'))
    (apart_new : ∀ r r', r' ≠ r → (new.block r).Apart (new.block r')) :
    (∀ r off, off < new.npages r * pageSize →
      copyRegion (copyRegion (copyRegion mem new old .one) new old .two) new old .stack (new.pbase r + off)
        = mem (old.pbase r + off)) ∧
    ∀ p, (∀ r, ¬ (new.block r).Has p) →
      copyRegion (copyRegion (copyRegion mem new old .one) new old .two) new old .stack p = mem p := by
  have inside : ∀ r mem off, off < new.npages r * pageSize →
      copyRegion mem new old r (new.pbase r + off) = mem (old.pbase r + off) := by
    intro r mem off lt
    rw [copyRegion_apply np (pos r) (top r) (top' r), if_pos ⟨Nat.le_add_right _ _, by omega⟩, Nat.add_sub_cancel_left]
  have outside : ∀ r mem p, ¬ (new.block r).Has p → copyRegion mem new old r p = mem p := by
    intro r mem p out
    exact (copyRegion_apply np (pos r) (top r) (top' r)).trans (if_neg out)
  have source : ∀ r r' off, off < new.npages r' * pageSize → ¬ (new.block r).Has (old.pbase r' + off) := by
    intro r r' off lt
    have apart := apart_old r r'
    simp only [Block.Apart, Block.Has, Block.stop, AddrSpace.block] at apart ⊢
    rw [np] at lt
    omega
  have target : ∀ r r' off, r' ≠ r → off < new.npages r' * pageSize → ¬ (new.block r).Has (new.pbase r' + off) := by
    intro r r' off ne lt
    have apart := apart_new r r' ne
    simp only [Block.Apart, Block.Has, Block.stop, AddrSpace.block] at apart ⊢
    omega
  refine ⟨fun r off lt => ?_, fun p out => ?_⟩
  · cases r with
    | one =>
      rw [outside .stack _ _ (target .stack .one off (by decide) lt), outside .two _ _ (target .two .one off (by decide) lt),
        inside .one _ _ lt]
    | two =>
      rw [outside .stack _ _ (target .stack .two off (by decide) lt), inside .two _ _ lt,
        outside .one _ _ (source .one .two off lt)]
    | stack =>
      rw [inside .stack _ _ lt, outside .two _ _ (source .two .stack off lt),
        outside .one _ _ (source .one .stack off lt)]
  · rw [outside .stack _ _ (out _), outside .two _ _ (out _), outside .one _ _ (out _)]

end Copy

namespace AddrSpace

variable {as as' : AddrSpace} {va pa : Nat}

/-- Address spaces with the same layout find a page in the same region. -/
lemma lookup_same (vb : as'.vbase = as.vbase) (np : as'.npages = as.npages) {fa : Nat} (hfa : fa < 2 ^ 32)
    (e : as.lookup fa = some pa) :
    ∃ r, fa - as.vbase r < as.npages r * pageSize ∧ pa = wadd 32 (fa - as.vbase r) (as.pbase r) ∧
      as'.lookup fa = some (wadd 32 (fa - as.vbase r) (as'.pbase r)) := by
  have vb₁ : as'.vbase1 = as.vbase1 := congrFun vb .one
  have vb₂ : as'.vbase2 = as.vbase2 := congrFun vb .two
  have np₁ : as'.npages1 = as.npages1 := congrFun np .one
  have np₂ : as'.npages2 = as.npages2 := congrFun np .two
  simp only [lookup, vb₁, vb₂, np₁, np₂] at e ⊢
  split_ifs at e ⊢ with h₁ h₂ h₃
  · obtain ⟨lt, sub⟩ := region_range hfa h₁
    rw [sub] at e ⊢
    exact ⟨.one, lt, (Option.some.inj e).symm, rfl⟩
  · obtain ⟨lt, sub⟩ := region_range hfa h₂
    rw [sub] at e ⊢
    exact ⟨.two, lt, (Option.some.inj e).symm, rfl⟩
  · have base : wsub 32 userstack (wmul 32 vmStackpages pageSize) = userstack - vmStackpages * pageSize := by decide
    have top : userstack = userstack - vmStackpages * pageSize + vmStackpages * pageSize := by decide
    rw [base] at e h₃ ⊢
    rw [wsub_of_le h₃.1 hfa] at e ⊢
    refine ⟨.stack, ?_, (Option.some.inj e).symm, rfl⟩
    simp only [vbase, npages]
    omega

/-- An address space with the layout of one that is set up, and aligned memory of its own, is set up. -/
lemma SetUp.copy (su : as.SetUp) (vb : as'.vbase = as.vbase) (np : as'.npages = as.npages)
    (nz : ∀ r, as'.pbase r ≠ 0) (al : ∀ r, pageSize ∣ as'.pbase r) (top : ∀ r, as'.pbase r < 2 ^ 32) :
    as'.SetUp where
  vbase := vb ▸ su.vbase
  pbase := nz
  npages := np ▸ su.npages
  vbase_aligned := vb ▸ su.vbase_aligned
  pbase_aligned r := (and_pageFrame_eq_iff (top r)).2 (al r)

/-- The frames of a page in two address spaces of the same layout are as far into the memory of the same region. -/
lemma Translates.copy (t : as.Translates va pa) (vb : as'.vbase = as.vbase) (np : as'.npages = as.npages)
    (su : as'.SetUp) (top : ∀ r, as.pbase r + as.npages r * pageSize ≤ kseg0)
    (top' : ∀ r, as'.pbase r + as'.npages r * pageSize ≤ kseg0) :
    ∃ r off, pa = as.pbase r + off ∧ off + pageSize ≤ as.npages r * pageSize ∧
      as'.Translates va (as'.pbase r + off) := by
  obtain ⟨su₀, look, -⟩ := translates_iff.1 t
  obtain ⟨r, lt, rfl, look'⟩ := lookup_same vb np (and_pageFrame_lt va) look
  have le := top r
  have le' := top' r
  rw [np] at le'
  have small : kseg0 < 2 ^ 32 := by decide
  refine ⟨r, (va &&& pageFrame) - as.vbase r, ?_, su₀.page_within lt, ?_⟩
  · rw [wadd_of_lt (by omega), Nat.add_comm]
  · rw [wadd_of_lt (by omega), Nat.add_comm] at look'
    have al := su.lookup_aligned (and_pageFrame_lt va) (pageSize_dvd_and_pageFrame va) look'
    exact translates_iff.2 ⟨su, look', al⟩

end AddrSpace

/-- `new` with the memory `mem'` is a copy of `old` with the memory `mem`: `vm_fault` translates the same pages, to
other frames with the same contents, and the memory of `old` is as before. -/
structure Copied (mem : Pmem) (old : AddrSpace) (mem' : Pmem) (new : AddrSpace) : Prop where
  forth : ∀ va pa, old.Translates va pa →
    ∃ pa', new.Translates va pa' ∧ pa' ≠ pa ∧ ∀ i < pageSize, mem' (pa' + i) = mem (pa + i)
  back : ∀ va pa', new.Translates va pa' →
    ∃ pa, old.Translates va pa ∧ pa' ≠ pa ∧ ∀ i < pageSize, mem' (pa' + i) = mem (pa + i)
  unchanged : ∀ r p, (old.block r).Has p → mem' p = mem p

/-- The three copies make a copy, when the old address space has memory and that of the new one has been allocated
beside it. -/
lemma copyRegions_copied {v v' : Vm} {mem mem' : Pmem} {old new : AddrSpace} (bt : v.Booted) (bk : Backs v new v')
    (vb : new.vbase = old.vbase) (np : new.npages = old.npages) (nz : ∀ r, old.pbase r ≠ 0)
    (nz' : ∀ r, new.pbase r ≠ 0) (used : ∀ r, v.Used (old.block r))
    (keep : ∀ p, (∀ r, ¬ (new.block r).Has p) → mem' p = mem p) :
    Copied mem old (copyRegion (copyRegion (copyRegion mem' new old .one) new old .two) new old .stack) new := by
  have pages := fun r => bt.used_pages (used r)
  have top : ∀ r, old.pbase r + old.npages r * pageSize ≤ kseg0 := fun r => (pages r).2.2.2
  have top' : ∀ r, new.pbase r + new.npages r * pageSize ≤ kseg0 := fun r => (bk.top (nz' r)).2.2
  have apart : ∀ r r', (new.block r).Apart (old.block r') := fun r r' => bk.apart_old (nz' r) (used r')
  obtain ⟨contents, frame⟩ := copyRegions_apply mem' np
    (fun r => Nat.pos_of_mul_pos_right (pages r).2.2.1) top top' apart (fun r r' => bk.apart_new (nz' r) (nz' r'))
  have outside : ∀ r p, (old.block r).Has p → ∀ r', ¬ (new.block r').Has p := by
    intro r p has r' has'
    have apart := apart r' r
    simp only [Block.Apart, Block.Has] at apart has has'
    omega
  have small : kseg0 < 2 ^ 32 := by decide
  -- the frames of a page
  have frames : ∀ r off, off + pageSize ≤ old.npages r * pageSize → new.pbase r + off ≠ old.pbase r + off ∧
      ∀ i < pageSize, copyRegion (copyRegion (copyRegion mem' new old .one) new old .two) new old .stack
        (new.pbase r + off + i) = mem (old.pbase r + off + i) := by
    intro r off le
    have pos : 0 < pageSize := by decide
    refine ⟨?_, fun i lt => ?_⟩
    · have apart := apart r r
      simp only [Block.Apart, Block.stop, AddrSpace.block, np] at apart
      omega
    · rw [Nat.add_assoc, Nat.add_assoc, contents r (off + i) (by rw [np]; omega)]
      refine keep _ (outside r _ ?_)
      simp only [Block.Has, Block.stop, AddrSpace.block]
      omega
  refine ⟨fun va pa t => ?_, fun va pa' t => ?_, fun r p has => ?_⟩
  · have su := (AddrSpace.translates_iff.1 t).1.copy vb np nz' (fun r => (bk.top (nz' r)).1)
      (fun r => by have := top' r; omega)
    obtain ⟨r, off, rfl, le, t'⟩ := t.copy vb np su top top'
    exact ⟨_, t', frames r off le⟩
  · have su := (AddrSpace.translates_iff.1 t).1.copy vb.symm np.symm nz (fun r => (pages r).1)
      (fun r => by have := top r; omega)
    obtain ⟨r, off, rfl, le, t'⟩ := t.copy vb.symm np.symm su top' top
    rw [np] at le
    exact ⟨_, t', frames r off le⟩
  · rw [frame p (outside r p has), keep p (outside r p has)]

/-- `as_copy` of an address space that has been prepared, in any state that operations on address spaces and the kernel
heap reach after boot: unless the node pool is exhausted it returns, and either the new address space is a copy of the
old one, or it reports `ENOMEM` and the block lists, the number of free pages and the memory are those from before. -/
theorem as_copy_faithful (b : Boot) (mem : Pmem) {vm : Vm} {s : AsSys} (boot : vmBoot b = .ok vm)
    (run : Relation.ReflTransGen AsStep (AsSys.init vm mem) s) {id : Nat} {old : AddrSpace}
    (live : s.space id = some ⟨old, true⟩) (prepared : ∀ r, old.pbase r ≠ 0) (kmalloc : Bool) :
    asCopy s.phys old kmalloc = .error poolPanic ∨
      ∃ ph ret result, asCopy s.phys old kmalloc = .ok (ph, ret, result) ∧
        ((result = 0 ∧ ∃ new, ret = some new ∧ Copied s.phys.mem old ph.mem new) ∨
          (result = enomem ∧ ret = none ∧ ph.mem = s.phys.mem ∧ s.phys.vm.SameLists ph.vm)) := by
  obtain ⟨_, boot', ok⟩ := vmBoot_ok b
  rw [boot] at boot'
  cases boot'
  have inv := (AsSys.init_inv mem ok).run run
  have bt := inv.booted
  cases kmalloc with
  | false => exact .inr ⟨_, _, _, rfl, .inr ⟨rfl, rfl, rfl, bt.same⟩⟩
  | true =>
    have zero : ∀ r, AddrSpace.pbase ⟨old.vbase1, 0, old.npages1, old.vbase2, 0, old.npages2, 0⟩ r = 0 := by
      rintro ⟨⟩ <;> rfl
    obtain e | ⟨ph, new, result, e, bk, vb, np, failed | ⟨rfl, nz, keep⟩⟩ := asPrepareLoad_total bt zero
    · left
      simp only [asCopy, asCreate, if_true, e, error_bind]
    · obtain ⟨rfl, same⟩ := failed
      obtain ⟨v, e', lists⟩ := bk.destroy bt
      refine .inr ⟨⟨v, ph.mem⟩, none, enomem, ?_, .inr ⟨rfl, rfl, same, lists⟩⟩
      simp only [asCopy, asCreate, if_true, e, ok_bind]
      rw [if_pos (by decide), e', ok_bind]
    · have layout : new.vbase = old.vbase ∧ new.npages = old.npages := by
        refine ⟨vb.trans ?_, np.trans ?_⟩
        · funext r
          cases r <;> rfl
        · funext r
          cases r <;> rfl
      have copied := copyRegions_copied bt bk layout.1 layout.2 prepared nz (fun r => inv.used live (prepared r)) keep
      generalize result : copyRegion (copyRegion (copyRegion ph.mem new old .one) new old .two) new old .stack = mem'
        at copied
      refine .inr ⟨⟨ph.vm, mem'⟩, some new, 0, ?_, .inl ⟨rfl, new, rfl, copied⟩⟩
      have nz₁ : new.pbase1 ≠ 0 := nz .one
      have nz₂ : new.pbase2 ≠ 0 := nz .two
      have nz₃ : new.stackpbase ≠ 0 := nz .stack
      simp only [asCopy, asCreate, if_true, e, ok_bind]
      rw [if_neg (by decide), kassert_pos nz₁, kassert_pos nz₂, kassert_pos nz₃, ok_bind, ok_bind, ok_bind, ← result]
      rfl

/-- The copy of a program with two regions. -/
theorem as_copy_faithful_two_regions : ∃ ph ph' new, asCopy ph twoRegions true = .ok (ph', some new, 0) ∧
    new.stackpbase = 0x42000 ∧ Copied ph.mem twoRegions ph'.mem new := by
  obtain ⟨vm, ph, ph', new, boot, load, copy, stack⟩ := twoRegions_loaded
  have nz : ∀ r, twoRegions.pbase r ≠ 0 := by
    rintro ⟨⟩ <;> decide
  have correct := as_copy_faithful megaBoot (fun _ => 0) boot load (AsSys.set_self ..) nz true
  rw [AsSys.set_phys, copy] at correct
  obtain e | ⟨_, _, _, e, ⟨-, new', rfl, copied⟩ | ⟨-, rfl, -⟩⟩ := correct
  · cases e
  · cases e
    exact ⟨ph, ph', new, copy, stack, copied⟩
  · cases e

end PDS.Kern
