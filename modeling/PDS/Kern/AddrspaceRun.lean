import PDS.Kern.VmFault
import PDS.Kern.PpagesUsed
import PDS.Lib.Owned

/-!
# Isolation of address spaces

Runs of the operations on address spaces, interleaved in any order and for any number of them, on one
page allocator. The kernel heap takes pages from the same allocator; it is represented by the pages it
holds. `AsSys.Inv` says that every used block has exactly one owner: a part of one address space, or the
heap. The operations are taken apart into the allocation or release of one block at a time, because
`as_prepare_load` may stop after any of them.

The translation of `vm_fault` is the same for all the pages of a region that the region's place in the
`if` chain leaves to it (`lookup_spec`), so the disjointness of the blocks carries over to the page frames.
-/

namespace PDS.Kern
open Word Extent

/-- A live address space; `prepared` records that `as_prepare_load` has been called for it. -/
structure Space where
  as : AddrSpace
  prepared : Bool
deriving DecidableEq, Repr

/-- The machine, the live address spaces and the pages that the kernel heap holds. -/
structure AsSys where
  phys : Phys
  space : Nat → Option Space
  heap : Finset Nat

namespace AsSys

/-- No address space, and no page on the heap. -/
def init (vm : Vm) (mem : Pmem) : AsSys := ⟨⟨vm, mem⟩, fun _ => none, ∅⟩

/-- Replaces the machine state and one address space. -/
def set (s : AsSys) (ph : Phys) (id : Nat) (sp : Option Space) : AsSys :=
  { s with phys := ph, space := Function.update s.space id sp }

/-- The machine that has been set. -/
@[simp] lemma set_phys (s : AsSys) (ph : Phys) (id : Nat) (sp : Option Space) :
    (s.set ph id sp).phys = ph := rfl

/-- The heap stays. -/
@[simp] lemma set_heap (s : AsSys) (ph : Phys) (id : Nat) (sp : Option Space) :
    (s.set ph id sp).heap = s.heap := rfl

/-- The address space that has been set. -/
@[simp] lemma set_self (s : AsSys) (ph : Phys) (id : Nat) (sp : Option Space) :
    (s.set ph id sp).space id = sp :=
  Function.update_self ..

/-- The others stay. -/
lemma set_ne (s : AsSys) (ph : Phys) {id id' : Nat} (sp : Option Space) (h : id' ≠ id) :
    (s.set ph id sp).space id' = s.space id' :=
  Function.update_of_ne h ..

/-- The last one that is set counts. -/
@[simp] lemma set_set (s : AsSys) (ph ph' : Phys) (id : Nat) (sp sp' : Option Space) :
    (s.set ph id sp).set ph' id sp' = s.set ph' id sp' := by
  simp [set]

/-- Setting an address space to what it is changes the machine only. -/
lemma set_same {s : AsSys} {id : Nat} {sp : Option Space} (ph : Phys) (h : s.space id = sp) :
    s.set ph id sp = { s with phys := ph } := by
  rw [set, ← h, Function.update_eq_self]

end AsSys

/-- One operation that returns. Regions are defined before the address space is prepared, and it is
prepared once, as in `load_elf`; the heap allocates and frees pages as it likes. -/
inductive AsStep : AsSys → AsSys → Prop
  | create {s id k as} : s.space id = none → asCreate k = some as →
      AsStep s (s.set s.phys id (some ⟨as, false⟩))
  | define {s id as vaddr sz as' result} : s.space id = some ⟨as, false⟩ →
      asDefineRegion as vaddr sz = (as', result) → AsStep s (s.set s.phys id (some ⟨as', false⟩))
  | prepare {s id as ph as' result} : s.space id = some ⟨as, false⟩ →
      asPrepareLoad s.phys as = .ok (ph, as', result) → AsStep s (s.set ph id (some ⟨as', true⟩))
  | copy {s id id' old k ph ret result} : s.space id = some ⟨old, true⟩ → s.space id' = none →
      asCopy s.phys old k = .ok (ph, ret, result) →
      AsStep s (s.set ph id' (ret.map fun new => ⟨new, true⟩))
  | destroy {s id sp vm} : s.space id = some sp → asDestroy s.phys.vm sp.as = .ok vm →
      AsStep s (s.set ⟨vm, s.phys.mem⟩ id none)
  | heapAlloc {s n vm a} : allocPpages s.phys.vm n = .ok (vm, a) →
      AsStep s { s with
        phys := ⟨vm, s.phys.mem⟩
        heap := if a = 0 then s.heap else insert a s.heap }
  | heapFree {s a vm} : a ∈ s.heap → freePpages s.phys.vm a = .ok vm →
      AsStep s { s with
        phys := ⟨vm, s.phys.mem⟩
        heap := s.heap.erase a }

/-- Who owns a block. -/
inductive BlockOwner where
  | region (id : Nat) (r : Region)
  | heap (a : Nat)

/-- Where the physical memory of a region starts; `0` when there is none. -/
def baseOf (x : Option Space) (r : Region) : Nat :=
  match x with
  | none => 0
  | some sp => sp.as.pbase r

namespace AsSys

/-- `o` owns the block that starts at `a`. -/
def Owns (s : AsSys) : BlockOwner → Nat → Prop
  | .region id r, a => a ≠ 0 ∧ baseOf (s.space id) r = a
  | .heap x, a => x = a ∧ a ∈ s.heap

structure Inv (s : AsSys) : Prop where
  booted : s.phys.vm.Booted
  owned : Owned s.Owns s.phys.vm.Holds
  used : ∀ {id sp r}, s.space id = some sp → sp.as.pbase r ≠ 0 → s.phys.vm.Used (sp.as.block r)
  fresh : ∀ {id sp}, s.space id = some sp → sp.prepared = false → ∀ r, sp.as.pbase r = 0

variable {s s' : AsSys} {id id' : Nat} {sp sp' : Space} {as as' : AddrSpace} {r : Region} {ph : Phys}
  {vm : Vm} {mem : Pmem} {x : Option Space} {a : Nat}

/-- An address space is the one that has been set, or an older one. -/
lemma space_set_cases (h : (s.set ph id x).space id' = some sp) :
    (id' = id ∧ x = some sp) ∨ (id' ≠ id ∧ s.space id' = some sp) := by
  by_cases e : id' = id
  · subst e
    rw [set_self] at h
    exact .inl ⟨rfl, h⟩
  · rw [set_ne _ _ _ e] at h
    exact .inr ⟨e, h⟩

/-- What the others own does not depend on the address space `id`. -/
lemma owns_set_ne {o : BlockOwner} (h : ∀ r, o ≠ .region id r) :
    (s.set ph id x).Owns o a ↔ s.Owns o a := by
  cases o with
  | heap => exact Iff.rfl
  | region id' r =>
    have ne : id' ≠ id := by
      rintro rfl
      exact h r rfl
    simp only [Owns, set_ne s ph x ne]

/-- What the address space owns that has been set. -/
lemma owns_set_self : (s.set ph id x).Owns (.region id r) a ↔ a ≠ 0 ∧ baseOf x r = a := by
  rw [Owns, set_self]

/-- Two owners of parts of one address space, or one that is none of them. -/
lemma owner_cases (id : Nat) (o : BlockOwner) : (∃ r, o = .region id r) ∨ ∀ r, o ≠ .region id r := by
  by_cases h : ∃ r, o = .region id r
  · exact .inl h
  · exact .inr (fun r e => h ⟨r, e⟩)

/-- Creating, changing or removing an address space without changing its physical memory. -/
lemma Inv.place (inv : s.Inv) (id : Nat) (mem : Pmem) (keep : ∀ r, baseOf x r = baseOf (s.space id) r)
    (used : ∀ sp, x = some sp → ∀ r, sp.as.pbase r ≠ 0 → s.phys.vm.Used (sp.as.block r))
    (fresh : ∀ sp, x = some sp → sp.prepared = false → ∀ r, sp.as.pbase r = 0) :
    (s.set ⟨s.phys.vm, mem⟩ id x).Inv where
  booted := inv.booted
  owned := by
    refine inv.owned.congr ?_ (fun _ => Iff.rfl)
    intro o a
    cases owner_cases id o with
    | inl h =>
      obtain ⟨r, rfl⟩ := h
      rw [owns_set_self, keep]
      exact Iff.rfl
    | inr h => exact owns_set_ne h
  used h nz := by
    cases space_set_cases h with
    | inl h => exact used _ h.2 _ nz
    | inr h => exact inv.used h.2 nz
  fresh h np r := by
    cases space_set_cases h with
    | inl h => exact fresh _ h.2 np r
    | inr h => exact inv.fresh h.2 np r

/-- `as_pbase = alloc_ppages(as_npages)` for a region without physical memory. -/
lemma Inv.allocRegion (inv : s.Inv) (mem : Pmem) (h : s.space id = some ⟨as, true⟩) (zero : as.pbase r = 0)
    (e : as.allocRegion s.phys.vm r = .ok (vm, as')) :
    (s.set ⟨vm, mem⟩ id (some ⟨as', true⟩)).Inv := by
  obtain ⟨⟨vm₁, a⟩, ea, e⟩ := bind_ok_iff.1 e
  cases e
  obtain ⟨booted, hz | ⟨nz, -, new, used⟩⟩ := inv.booted.alloc ea
  · obtain ⟨rfl, rfl⟩ := hz
    have same : as.setPbase r 0 = as := by rw [← zero, AddrSpace.setPbase_pbase]
    rw [same]
    refine inv.place _ _ (fun r => by rw [h]) ?_ (by rintro sp ⟨⟩ ⟨⟩)
    rintro sp ⟨⟩ r nz
    exact inv.used h nz
  · refine ⟨booted, ?_, ?_, ?_⟩
    · refine inv.owned.add (c := .region id r) new ?_ ?_ (Vm.holds_add used)
      · rintro x ⟨nx, hx⟩
        rw [h] at hx
        exact nx (hx.symm.trans zero)
      · intro o x
        cases owner_cases id o with
        | inl ho =>
          obtain ⟨r', rfl⟩ := ho
          rw [owns_set_self]
          simp only [Owns, h, baseOf, BlockOwner.region.injEq, true_and]
          by_cases er : r' = r
          · subst er
            rw [AddrSpace.setPbase_self, zero]
            constructor
            · rintro ⟨-, rfl⟩
              exact .inr ⟨rfl, rfl⟩
            · rintro (⟨nx, hx⟩ | ⟨-, rfl⟩)
              · exact absurd hx.symm nx
              · exact ⟨nz, rfl⟩
          · rw [AddrSpace.setPbase_ne er]
            simp [er]
        | inr ho =>
          rw [owns_set_ne ho]
          simp [ho r]
    · intro id' sp r' h' nz'
      rw [set_phys, used]
      cases space_set_cases h' with
      | inl h' =>
        cases h'.2
        by_cases er : r' = r
        · subst er
          right
          simp [AddrSpace.block]
        · left
          rw [AddrSpace.setPbase_ne er] at nz'
          rw [AddrSpace.setPbase_block_ne er]
          exact inv.used h nz'
      | inr h' => exact .inl (inv.used h'.2 nz')
    · intro id' sp h' np
      cases space_set_cases h' with
      | inl h' =>
        cases h'.2
        cases np
      | inr h' => exact inv.fresh h'.2 np

/-- Two regions with the same physical memory are the same region of the same address space. -/
lemma Inv.base_inj {r r' : Region} (inv : s.Inv) (h : s.space id = some sp) (h' : s.space id' = some sp')
    (nz : sp.as.pbase r ≠ 0) (e : sp'.as.pbase r' = sp.as.pbase r) : id' = id ∧ r' = r := by
  have own : s.Owns (.region id r) (sp.as.pbase r) := ⟨nz, by rw [h]; rfl⟩
  have own' : s.Owns (.region id' r') (sp.as.pbase r) := ⟨nz, by rw [h']; exact e⟩
  have eq := inv.owned.inj own' own
  rwa [BlockOwner.region.injEq] at eq

/-- `if (as_pbase != 0) free_ppages(as_pbase);`, after which the field is stale. -/
lemma Inv.freeRegion (inv : s.Inv) (mem : Pmem) (h : s.space id = some sp)
    (e : sp.as.freeRegion s.phys.vm r = .ok vm) :
    (s.set ⟨vm, mem⟩ id (some ⟨sp.as.setPbase r 0, sp.prepared⟩)).Inv := by
  have fresh : sp.prepared = false → ∀ r', (sp.as.setPbase r 0).pbase r' = 0 := by
    intro np r'
    by_cases er : r' = r
    · subst er
      exact AddrSpace.setPbase_self
    · rw [AddrSpace.setPbase_ne er]
      exact inv.fresh h np r'
  rw [AddrSpace.freeRegion] at e
  split at e
  next nz =>
    obtain ⟨booted, used⟩ := inv.booted.free e
    refine ⟨booted, ?_, ?_, ?_⟩
    · have own : s.Owns (.region id r) (sp.as.pbase r) := ⟨nz, by rw [h]; rfl⟩
      refine inv.owned.drop own ?_ (Vm.holds_drop used)
      intro o x
      cases owner_cases id o with
      | inl ho =>
        obtain ⟨r', rfl⟩ := ho
        rw [owns_set_self]
        simp only [Owns, h, baseOf]
        by_cases er : r' = r
        · subst er
          rw [AddrSpace.setPbase_self]
          constructor
          · exact fun hx => absurd hx.2.symm hx.1
          · exact fun hx => absurd rfl hx.2
        · rw [AddrSpace.setPbase_ne er]
          simp [er]
      | inr ho =>
        rw [owns_set_ne ho]
        simp [ho r]
    · intro id' sp' r' h' nz'
      rw [set_phys, used]
      cases space_set_cases h' with
      | inl h' =>
        cases h'.2
        have er : r' ≠ r := by
          rintro rfl
          exact nz' AddrSpace.setPbase_self
        rw [AddrSpace.setPbase_ne er] at nz'
        rw [AddrSpace.setPbase_block_ne er]
        exact ⟨inv.used h nz', fun eq => er (inv.base_inj h h nz eq).2⟩
      | inr h' => exact ⟨inv.used h'.2 nz', fun eq => h'.1 (inv.base_inj h h'.2 nz eq).1⟩
    · intro id' sp' h' np
      cases space_set_cases h' with
      | inl h' =>
        cases h'.2
        exact fresh np
      | inr h' => exact inv.fresh h'.2 np
  next z =>
    cases e
    have same : sp.as.setPbase r 0 = sp.as := by rw [← not_not.1 z, AddrSpace.setPbase_pbase]
    rw [same] at fresh ⊢
    refine inv.place _ _ (fun r => by rw [h]) ?_ ?_
    · rintro sp' ⟨⟩ r' nz
      exact inv.used h nz
    · rintro sp' ⟨⟩ np
      exact fresh np

/-- `as_prepare_load` keeps the invariant. -/
lemma Inv.prepare (inv : s.Inv) (h : s.space id = some ⟨as, true⟩) {result : Nat}
    (e : asPrepareLoad s.phys as = .ok (ph, as', result)) :
    (s.set ph id (some ⟨as', true⟩)).Inv := by
  simp only [asPrepareLoad, bind_ok_iff, kassert_ok_iff] at e
  obtain ⟨-, z₁, -, z₂, -, z₃, ⟨vm₁, as₁⟩, e₁, e⟩ := e
  have inv₁ := inv.allocRegion (r := .one) s.phys.mem h z₁ e₁
  obtain ⟨⟨_, p₁⟩, -, e₁⟩ := bind_ok_iff.1 e₁
  cases e₁
  split at e
  next => cases e; exact inv₁
  next =>
    simp only [bind_ok_iff] at e
    obtain ⟨⟨vm₂, as₂⟩, e₂, e⟩ := e
    have inv₂ := inv₁.allocRegion (r := .two) s.phys.mem (set_self ..) z₂ e₂
    rw [set_set] at inv₂
    obtain ⟨⟨_, p₂⟩, -, e₂⟩ := bind_ok_iff.1 e₂
    cases e₂
    split at e
    next => cases e; exact inv₂
    next =>
      simp only [bind_ok_iff] at e
      obtain ⟨⟨vm₃, as₃⟩, e₃, e⟩ := e
      have inv₃ := fun mem => inv₂.allocRegion (r := .stack) mem (set_self ..) z₃ e₃
      simp only [set_set] at inv₃
      split at e
      next => cases e; exact inv₃ _
      next => cases e; exact inv₃ _

/-- `as_destroy` keeps the invariant. -/
lemma Inv.destroy (inv : s.Inv) (h : s.space id = some sp) (e : asDestroy s.phys.vm sp.as = .ok vm) :
    (s.set ⟨vm, s.phys.mem⟩ id none).Inv := by
  simp only [asDestroy, bind_ok_iff] at e
  obtain ⟨vm₁, e₁, vm₂, e₂, e₃⟩ := e
  have inv₁ := inv.freeRegion s.phys.mem h e₁
  have inv₂ := inv₁.freeRegion (r := .two) s.phys.mem (set_self ..) e₂
  rw [set_set] at inv₂
  have inv₃ := inv₂.freeRegion (r := .stack) s.phys.mem (set_self ..) e₃
  rw [set_set] at inv₃
  have inv₄ := inv₃.place id (x := none) s.phys.mem ?_ (by simp) (by simp)
  · rwa [set_set] at inv₄
  · intro r
    rw [set_self]
    cases r <;> rfl

/-- `as_copy` keeps the invariant. -/
lemma Inv.copy (inv : s.Inv) {old : AddrSpace} {kmalloc : Bool} {ret : Option AddrSpace} {result : Nat}
    (h : s.space id = none) (e : asCopy s.phys old kmalloc = .ok (ph, ret, result)) :
    (s.set ph id (ret.map fun new => ⟨new, true⟩)).Inv := by
  rw [asCopy] at e
  cases created : asCreate kmalloc with
  | none =>
    rw [created] at e
    cases e
    rw [Option.map_none, set_same _ h]
    exact inv
  | some new =>
    simp only [created, bind_ok_iff] at e
    obtain ⟨⟨ph₁, new₁, result₁⟩, e₁, e⟩ := e
    have zero := asCreate_pbase created
    have inv₀ := inv.place id s.phys.mem (x := some ⟨{ new with
      vbase1 := old.vbase1, npages1 := old.npages1, vbase2 := old.vbase2, npages2 := old.npages2 }, true⟩)
      (fun r => by rw [h]; exact zero r) (fun _ h r nz => by cases h; exact absurd (zero r) nz)
      (fun _ h np => by cases h; cases np)
    have inv₁ := inv₀.prepare (set_self ..) e₁
    rw [set_set] at inv₁
    split at e
    next =>
      obtain ⟨vm, e₂, e⟩ := bind_ok_iff.1 e
      cases e
      have inv₂ := inv₁.destroy (set_self ..) e₂
      rwa [set_set] at inv₂
    next =>
      simp only [bind_ok_iff] at e
      obtain ⟨-, -, -, -, -, -, e⟩ := e
      cases e
      have inv₂ := fun mem => inv₁.place id mem (x := some ⟨new₁, true⟩)
        (fun r => by rw [set_self]) (fun _ h r nz => by cases h; exact inv₁.used (set_self ..) nz)
        (fun _ h np => by cases h; cases np)
      simp only [set_set] at inv₂
      exact inv₂ _

/-- The heap gets pages. -/
lemma Inv.heapAlloc (inv : s.Inv) {n : Nat} (e : allocPpages s.phys.vm n = .ok (vm, a)) :
    Inv { s with phys := ⟨vm, s.phys.mem⟩, heap := if a = 0 then s.heap else insert a s.heap } := by
  obtain ⟨booted, hz | ⟨nz, -, new, used⟩⟩ := inv.booted.alloc e
  · obtain ⟨rfl, rfl⟩ := hz
    exact inv
  · rw [if_neg nz]
    refine ⟨booted, ?_, fun h nz => (used _).2 (.inl (inv.used h nz)), inv.fresh⟩
    refine inv.owned.add (c := .heap a) new (fun x hx => ?_) ?_ (Vm.holds_add used)
    · obtain ⟨rfl, mem⟩ := hx
      exact new (inv.owned.sound (o := .heap a) ⟨rfl, mem⟩)
    · intro o x
      cases o with
      | region id r => simp [Owns]
      | heap y =>
        simp only [Owns, Finset.mem_insert, BlockOwner.heap.injEq]
        constructor
        · rintro ⟨rfl, rfl | mem⟩
          · exact .inr ⟨rfl, rfl⟩
          · exact .inl ⟨rfl, mem⟩
        · rintro (⟨rfl, mem⟩ | ⟨rfl, rfl⟩)
          · exact ⟨rfl, .inr mem⟩
          · exact ⟨rfl, .inl rfl⟩

/-- The heap gives pages back. -/
lemma Inv.heapFree (inv : s.Inv) (ha : a ∈ s.heap) (e : freePpages s.phys.vm a = .ok vm) :
    Inv { s with phys := ⟨vm, s.phys.mem⟩, heap := s.heap.erase a } := by
  obtain ⟨booted, used⟩ := inv.booted.free e
  have own : s.Owns (.heap a) a := ⟨rfl, ha⟩
  refine ⟨booted, inv.owned.drop own ?_ (Vm.holds_drop used), ?_, inv.fresh⟩
  · intro o x
    cases o with
    | region id r => simp [Owns]
    | heap y =>
      simp only [Owns, Finset.mem_erase, ne_eq, BlockOwner.heap.injEq]
      constructor
      · rintro ⟨rfl, ne, mem⟩
        exact ⟨⟨rfl, mem⟩, ne⟩
      · rintro ⟨⟨rfl, mem⟩, ne⟩
        exact ⟨rfl, ne, mem⟩
  · intro id sp r h nz
    refine (used _).2 ⟨inv.used h nz, ?_⟩
    intro eq
    have own' : s.Owns (.region id r) a := ⟨fun hz => nz (eq.trans hz), by rw [h]; exact eq⟩
    cases inv.owned.inj own own'

/-- The step lemma. -/
lemma Inv.step (inv : s.Inv) (st : AsStep s s') : s'.Inv := by
  cases st with
  | @create id k as free created =>
    have zero := asCreate_pbase created
    refine inv.place _ _ (fun r => by rw [free]; exact zero r) ?_ ?_
    · rintro sp ⟨⟩ r nz
      exact absurd (zero r) nz
    · rintro sp ⟨⟩ -
      exact zero
  | @define id as vaddr sz as' result h e =>
    have zero : ∀ r, as.pbase r = 0 := inv.fresh h rfl
    have zero' : ∀ r, as'.pbase r = 0 := by
      intro r
      have keep := asDefineRegion_pbase as vaddr sz r
      rw [e] at keep
      exact keep.trans (zero r)
    refine inv.place _ _ (fun r => by rw [h]; exact (zero' r).trans (zero r).symm) ?_ ?_
    · rintro sp ⟨⟩ r nz
      exact absurd (zero' r) nz
    · rintro sp ⟨⟩ -
      exact zero'
  | @prepare id as ph as' result h e =>
    have inv₀ := inv.place id s.phys.mem (x := some ⟨as, true⟩) (fun r => by rw [h]; rfl)
      (fun _ e r nz => by cases e; exact absurd (inv.fresh h rfl r) nz) (fun _ e np => by cases e; cases np)
    have inv₁ := inv₀.prepare (set_self ..) e
    rwa [set_set] at inv₁
  | copy _ free e => exact inv.copy free e
  | destroy h e => exact inv.destroy h e
  | heapAlloc e => exact inv.heapAlloc e
  | heapFree mem e => exact inv.heapFree mem e

/-- The run lemma. -/
lemma Inv.run (inv : s.Inv) (run : Relation.ReflTransGen AsStep s s') : s'.Inv := by
  induction run with
  | refl => exact inv
  | tail _ st ih => exact ih.step st

/-- The physical memory of the live address spaces is allocated and shared by no two of their regions,
and so are the frames that `vm_fault` maps for them. -/
structure Isolated (s : AsSys) : Prop where
  used : ∀ {id sp r}, s.space id = some sp → sp.as.pbase r ≠ 0 → s.phys.vm.Used (sp.as.block r)
  disjoint : ∀ {id id' sp sp' r r'}, s.space id = some sp → s.space id' = some sp' →
    sp.as.pbase r ≠ 0 → sp'.as.pbase r' ≠ 0 → ¬ (id' = id ∧ r' = r) →
    (sp.as.block r).Apart (sp'.as.block r')
  frames_within : ∀ {id sp va pa}, s.space id = some sp → sp.as.Translates va pa →
    ∃ r, sp.as.pbase r ≠ 0 ∧ (sp.as.block r).start ≤ pa ∧ pa + pageSize ≤ (sp.as.block r).stop
  frames_distinct : ∀ {id id' sp sp' va va' pa pa'}, s.space id = some sp → s.space id' = some sp' →
    sp.as.Translates va pa → sp'.as.Translates va' pa' →
    ¬ (id' = id ∧ va' &&& pageFrame = va &&& pageFrame) → pa' ≠ pa

/-- Blocks of different regions have no page in common. -/
lemma Inv.disjoint {r r' : Region} (inv : s.Inv) (h : s.space id = some sp) (h' : s.space id' = some sp')
    (nz : sp.as.pbase r ≠ 0) (nz' : sp'.as.pbase r' ≠ 0) (ne : ¬ (id' = id ∧ r' = r)) :
    (sp.as.block r).Apart (sp'.as.block r') := by
  cases inv.booted.used_apart (inv.used h nz) (inv.used h' nz') with
  | inl e => exact absurd (inv.base_inj h h' nz (congrArg Block.start e).symm) ne
  | inr ap => exact ap

/-- A translation leads into the block of a region. -/
lemma Inv.frame (inv : s.Inv) (h : s.space id = some sp) {va pa : Nat} (t : sp.as.Translates va pa) :
    ∃ r off, sp.as.pbase r ≠ 0 ∧ va &&& pageFrame = sp.as.vbase r + off ∧ pa = sp.as.pbase r + off ∧
      off + pageSize ≤ sp.as.npages r * pageSize :=
  t.frame (fun _ nz => (inv.booted.used_pages (inv.used h nz)).2.2.2)

/-- The invariant says what is to be shown. -/
lemma Inv.isolated (inv : s.Inv) : s.Isolated where
  used := inv.used
  disjoint := inv.disjoint
  frames_within h t := by
    obtain ⟨r, off, nz, -, rfl, le⟩ := inv.frame h t
    refine ⟨r, nz, Nat.le_add_right _ _, ?_⟩
    simp only [AddrSpace.block, Block.stop]
    omega
  frames_distinct {id id' sp sp' va va' pa pa'} h h' t t' ne e := by
    obtain ⟨r, off, nz, ev, ep, le⟩ := inv.frame h t
    obtain ⟨r', off', nz', ev', ep', le'⟩ := inv.frame h' t'
    have pos : 0 < pageSize := by decide
    by_cases same : id' = id ∧ r' = r
    · obtain ⟨rfl, rfl⟩ := same
      rw [h] at h'
      cases h'
      refine ne ⟨rfl, ?_⟩
      omega
    · have ap := inv.disjoint h h' nz nz' same
      simp only [Block.Apart, AddrSpace.block, Block.stop] at ap
      omega

/-- There is nothing to own at the start. -/
lemma init_inv {vm : Vm} (mem : Pmem) (ok : vm.Ok [0] [] []) : (init vm mem).Inv where
  booted := ⟨_, _, _, ok⟩
  owned := by
    have none : ∀ a, ¬ vm.Holds a := by
      rintro a ⟨b, hb, -⟩
      rw [ok.used_iff] at hb
      cases hb
    have nobody : ∀ o a, ¬ (init vm mem).Owns o a := by
      rintro (⟨id, r⟩ | x) a ⟨h, h'⟩
      · exact h h'.symm
      · cases h'
    exact ⟨fun h => absurd h (nobody _ _), fun h => absurd h (nobody _ _), fun h => absurd h (nobody _ _),
      fun h => absurd h (none _)⟩
  used h := by cases h
  fresh h := by cases h

end AsSys

/-- In every state that operations on address spaces and the kernel heap reach after boot, in any order,
the recorded physical memory of the live address spaces consists of disjoint used blocks, and `vm_fault`
maps distinct pages to distinct frames inside the memory of their own address space. -/
theorem addrspaces_isolated (b : Boot) (mem : Pmem) {vm : Vm} {s : AsSys} (boot : vmBoot b = .ok vm)
    (run : Relation.ReflTransGen AsStep (AsSys.init vm mem) s) : s.Isolated := by
  obtain ⟨vm', boot', ok⟩ := vmBoot_ok b
  rw [boot] at boot'
  cases boot'
  exact ((AsSys.init_inv mem ok).run run).isolated

/-- The kernel of this machine ends at a page. -/
lemma dvd_megaBoot : pageSize ∣ 0x80020000 := by decide

/-- It lies above `kseg0`. -/
lemma lt_megaBoot : kseg0 < 0x80020000 := by decide

/-- It lies in the memory. -/
lemma le_megaBoot : 0x80020000 - kseg0 ≤ min 0x100000 (508 * 1024 * 1024) := by decide

/-- A machine with 1 MB of memory and a kernel of 128 kB. -/
def megaBoot : Boot where
  firstfree := 0x80020000
  ramsize := 0x100000
  aligned := dvd_megaBoot
  above := lt_megaBoot
  loaded := le_megaBoot

/-- A program of two regions, of two pages and one page, after its load at 192 kB. -/
def twoRegions : AddrSpace := ⟨0x400000, 0x30000, 2, 0x10000000, 0x32000, 1, 0x33000⟩

/-- It is loaded, and a copy of it succeeds. -/
lemma twoRegions_loaded : ∃ vm ph ph' new, vmBoot megaBoot = .ok vm ∧
    Relation.ReflTransGen AsStep (AsSys.init vm fun _ => 0)
      ((AsSys.init vm fun _ => 0).set ph 0 (some ⟨twoRegions, true⟩)) ∧
    asCopy ph twoRegions true = .ok (ph', some new, 0) ∧ new.stackpbase = 0x42000 := by
  let as₀ : AddrSpace := ⟨0, 0, 0, 0, 0, 0, 0⟩
  let as₁ := (asDefineRegion as₀ 0x400000 0x1234).1
  let as₂ := (asDefineRegion as₁ 0x10000000 100).1
  have eval : (do
      let vm ← vmBoot megaBoot
      let r ← asPrepareLoad ⟨vm, fun _ => 0⟩ as₂
      let r' ← asCopy r.1 r.2.1 true
      Except.ok (r.2.1, r'.2.1.map AddrSpace.stackpbase, r'.2.2)).toOption
        = some (twoRegions, some 0x42000, 0) := by decide +kernel
  have eval := ok_of_toOption eval
  simp only [bind_ok_iff] at eval
  obtain ⟨vm, boot, ⟨ph, as, res⟩, prep, ⟨ph', ret, res'⟩, copy, eq⟩ := eval
  simp only [Except.ok.injEq, Prod.mk.injEq, Option.map_eq_some_iff] at eq
  obtain ⟨rfl, ⟨new, rfl, stack⟩, rfl⟩ := eq
  let s₀ := AsSys.init vm fun _ => 0
  have st₁ : AsStep s₀ (s₀.set s₀.phys 0 (some ⟨as₀, false⟩)) := .create (k := true) rfl rfl
  have st₂ := AsStep.define (AsSys.set_self s₀ s₀.phys 0 (some ⟨as₀, false⟩)) (show _ = (as₁, 0) from rfl)
  rw [AsSys.set_set] at st₂
  have st₃ := AsStep.define (AsSys.set_self s₀ s₀.phys 0 (some ⟨as₁, false⟩)) (show _ = (as₂, 0) from rfl)
  rw [AsSys.set_set] at st₃
  have st₄ := AsStep.prepare (AsSys.set_self s₀ s₀.phys 0 (some ⟨as₂, false⟩)) prep
  rw [AsSys.set_set] at st₄
  exact ⟨vm, ph, ph', new, boot, ((((Relation.ReflTransGen.refl).tail st₁).tail st₂).tail st₃).tail st₄, copy, stack⟩

/-- A program with two regions is loaded and copied; both address spaces are isolated. -/
theorem addrspaces_isolated_copy : ∃ vm s, vmBoot megaBoot = .ok vm ∧
    Relation.ReflTransGen AsStep (AsSys.init vm fun _ => 0) s ∧
    ((s.space 0).map (·.as.stackpbase), (s.space 1).map (·.as.stackpbase)) =
      (some 0x33000, some 0x42000) ∧ s.Isolated := by
  obtain ⟨vm, ph, ph', new, boot, load, copy, stack⟩ := twoRegions_loaded
  let s₀ := AsSys.init vm fun _ => 0
  have st := AsStep.copy (AsSys.set_self s₀ ph 0 (some ⟨twoRegions, true⟩))
    (show (s₀.set ph 0 (some ⟨twoRegions, true⟩)).space 1 = none from rfl) copy
  have run := load.tail st
  refine ⟨vm, _, boot, run, ?_, addrspaces_isolated megaBoot (fun _ => 0) boot run⟩
  rw [AsSys.set_self, AsSys.set_ne _ _ _ (by decide), AsSys.set_self, Option.map_some, Option.map_map]
  exact Prod.ext rfl (congrArg some stack)

end PDS.Kern
