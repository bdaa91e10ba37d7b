import PDS.Kern.VmFault
import PDS.Kern.PpagesUsed
import PDS.Kern.LoadElf

/-!
# Address spaces that the loader has set up

What `as_prepare_load` leaves behind when it succeeds (`Backed`, `asPrepareLoad_ok`), and what the first
pass of `load_elf` makes of a list of program headers.

`as_define_region` takes a region whose `vbase` is `0` for unused. A segment in page `0` therefore does not
occupy the region that it is given: the next segment takes its place, and if there is none, the address
space fails an assertion of `vm_fault` (`vm_fault_returns_iff`).
-/

namespace PDS.Kern
open Word Extent

/-- Every region has physical memory of its own. -/
structure AddrSpace.Backed (as : AddrSpace) : Prop where
  pbase : ∀ r, as.pbase r ≠ 0
  npages : ∀ r, as.npages r ≠ 0
  aligned : ∀ r, pageSize ∣ as.pbase r
  top : ∀ r, (as.block r).stop ≤ kseg0
  apart : ∀ r r', r ≠ r' → (as.block r).Apart (as.block r')

/-- A region is allocated. -/
lemma allocRegion_ok {as as' : AddrSpace} {vm vm' : Vm} {r : Region} (bt : vm.Booted)
    (e : as.allocRegion vm r = .ok (vm', as')) (nz : as'.pbase r ≠ 0) :
    vm'.Booted ∧ (∃ a, as' = as.setPbase r a) ∧ as.npages r ≠ 0 ∧ ¬ vm.Holds (as'.pbase r) ∧
      ∀ b, vm'.Used b ↔ vm.Used b ∨ b = as'.block r := by
  obtain ⟨⟨vm₁, a⟩, ea, e⟩ := bind_ok_iff.1 e
  cases e
  rw [AddrSpace.setPbase_self] at nz ⊢
  have blk : (as.setPbase r a).block r = ⟨a, as.npages r * pageSize⟩ := by
    rw [AddrSpace.block, AddrSpace.setPbase_self, AddrSpace.setPbase_npages]
  rw [blk]
  obtain ⟨bt', hz | ⟨-, hn, new, used⟩⟩ := bt.alloc ea
  · exact absurd hz.1 nz
  · exact ⟨bt', ⟨a, rfl⟩, hn, new, used⟩

/-- A physical address and back. -/
lemma kvaddrToPaddr_paddrToKvaddr {p : Nat} (h : p < kseg0) : kvaddrToPaddr (paddrToKvaddr p) = p := by
  have e : paddrToKvaddr p = p + kseg0 := wadd_of_lt (by simp only [kseg0] at h ⊢; omega)
  rw [kvaddrToPaddr, e, wsub_of_le (Nat.le_add_left _ _) (by simp only [kseg0] at h ⊢; omega)]
  exact Nat.add_sub_cancel _ _

/-- The bytes of a region are zero afterwards. -/
lemma asZeroRegion_apply (mem : Pmem) {p n q : Nat} (pos : 0 < n) (top : p + n * pageSize ≤ kseg0) :
    asZeroRegion mem p n q = if p ≤ q ∧ q < p + n * pageSize then 0 else mem q := by
  have size : 0 < n * pageSize := Nat.mul_pos pos (by decide)
  have e : wmul 32 n pageSize = n * pageSize := wmul_of_lt (by simp only [kseg0] at top; omega)
  rw [asZeroRegion, Pmem.bzero, kvaddrToPaddr_paddrToKvaddr (by omega), e]

/-- What `as_prepare_load` leaves behind when it succeeds. -/
lemma asPrepareLoad_ok {ph ph' : Phys} {as as' : AddrSpace} (bt : ph.vm.Booted)
    (e : asPrepareLoad ph as = .ok (ph', as', 0)) :
    as'.Backed ∧ as'.vbase = as.vbase ∧ as'.npages = as.npages ∧
      ∀ r p, (as'.block r).Has p → ph'.mem p = 0 := by
  simp only [asPrepareLoad, bind_ok_iff, kassert_ok_iff] at e
  obtain ⟨-, -, -, -, -, -, ⟨vm₁, as₁⟩, e₁, e⟩ := e
  split at e
  next => cases e
  next nz₁ =>
  obtain ⟨bt₁, ⟨p₁, rfl⟩, n₁, new₁, used₁⟩ := allocRegion_ok (r := .one) bt e₁ nz₁
  obtain ⟨⟨vm₂, as₂⟩, e₂, e⟩ := bind_ok_iff.1 e
  split at e
  next => cases e
  next nz₂ =>
  obtain ⟨bt₂, ⟨p₂, rfl⟩, n₂, new₂, used₂⟩ := allocRegion_ok (r := .two) bt₁ e₂ nz₂
  obtain ⟨⟨vm₃, as₃⟩, e₃, e⟩ := bind_ok_iff.1 e
  split at e
  next => cases e
  next nz₃ =>
  obtain ⟨bt₃, ⟨p₃, rfl⟩, n₃, new₃, used₃⟩ := allocRegion_ok (r := .stack) bt₂ e₃ nz₃
  cases e
  generalize has' : ((as.setPbase .one p₁).setPbase .two p₂).setPbase .stack p₃ = as' at *
  -- the blocks of the three regions, and when they are taken
  have blk₁ : (as.setPbase .one p₁).block .one = as'.block .one := by rw [← has']; rfl
  have blk₂ : ((as.setPbase .one p₁).setPbase .two p₂).block .two = as'.block .two := by
    rw [← has']; rfl
  rw [blk₁] at used₁
  rw [blk₂] at used₂
  have vbase : as'.vbase = as.vbase := by simp [← has']
  have npages : as'.npages = as.npages := by simp [← has']
  have use₁ : vm₁.Used (as'.block .one) := (used₁ _).2 (.inr rfl)
  have use₂ : vm₂.Used (as'.block .one) := (used₂ _).2 (.inl use₁)
  have used : ∀ r, vm₃.Used (as'.block r) := by
    intro r
    cases r with
    | one => exact (used₃ _).2 (.inl use₂)
    | two => exact (used₃ _).2 (.inl ((used₂ _).2 (.inr rfl)))
    | stack => exact (used₃ _).2 (.inr rfl)
  have pages := fun r => bt₃.used_pages (used r)
  have ne₁₂ : as'.block .one ≠ as'.block .two := by
    intro eq
    exact new₂ ⟨_, use₁, congrArg Block.start (eq.trans blk₂.symm)⟩
  have ne₁₃ : as'.block .one ≠ as'.block .stack :=
    fun eq => new₃ ⟨_, use₂, congrArg Block.start eq⟩
  have ne₂₃ : as'.block .two ≠ as'.block .stack :=
    fun eq => new₃ ⟨_, (used₂ _).2 (.inr rfl), congrArg Block.start eq⟩
  have apart : ∀ r r', r ≠ r' → (as'.block r).Apart (as'.block r') := by
    intro r r' ne
    refine (bt₃.used_apart (used r) (used r')).resolve_left ?_
    cases r <;> cases r'
    all_goals first
      | exact absurd rfl ne
      | assumption
      | exact Ne.symm (by assumption)
  have npos : ∀ r, as'.npages r ≠ 0 := by
    rw [npages]
    intro r
    cases r with
    | one => exact n₁
    | two => exact n₂
    | stack => exact n₃
  refine ⟨⟨fun r => (pages r).2.1.ne', npos, fun r => (pages r).1, fun r => (pages r).2.2.2, apart⟩,
    vbase, npages, ?_⟩
  intro r p has
  have top : ∀ r, as'.pbase r + as'.npages r * pageSize ≤ kseg0 := fun r => (pages r).2.2.2
  have zero := fun r mem => asZeroRegion_apply (q := p) mem (Nat.pos_of_ne_zero (npos r)) (top r)
  have zero₁ : ∀ mem, asZeroRegion mem as'.pbase1 as'.npages1 p = _ := zero .one
  have zero₂ : ∀ mem, asZeroRegion mem as'.pbase2 as'.npages2 p = _ := zero .two
  have zero₃ : ∀ mem, asZeroRegion mem as'.stackpbase vmStackpages p = _ := zero .stack
  have has : as'.pbase r ≤ p ∧ p < as'.pbase r + as'.npages r * pageSize := has
  simp only [zero₁, zero₂, zero₃]
  cases r with
  | one => rw [if_pos has, ite_self, ite_self]
  | two => rw [if_pos has, ite_self]
  | stack => rw [if_pos has]

/-- Frames are aligned, so `vm_fault` does not fail its last assertion. -/
lemma AddrSpace.SetUp.lookup_aligned {as : AddrSpace} (su : as.SetUp) {fa pa : Nat} (hfa : fa < 2 ^ 32)
    (al : pageSize ∣ fa) (e : as.lookup fa = some pa) : pa &&& pageFrame = pa := by
  obtain ⟨r, le, -, rfl⟩ := AddrSpace.lookup_spec hfa e
  have base : pageSize ∣ as.vbase r := by
    rw [← su.vbase_aligned r]
    exact pageSize_dvd_and_pageFrame _
  have frame : pageSize ∣ as.pbase r := by
    rw [← su.pbase_aligned r]
    exact pageSize_dvd_and_pageFrame _
  rw [and_pageFrame_eq_iff (wadd_lt _ _ _), wadd]
  exact (Nat.dvd_mod_iff (by decide)).2 (Dvd.dvd.add (Nat.dvd_sub al base) frame)

/-- `vm_fault` returns on a read or write fault exactly when its assertions about the address space
hold. -/
lemma vmFault_returns_iff {as : AddrSpace} :
    (∀ tlb faulttype va, faulttype = vmFaultRead ∨ faulttype = vmFaultWrite →
      ∃ r, vmFault (some as) tlb faulttype va = .ok r) ↔ as.SetUp := by
  constructor
  · intro h
    obtain ⟨r, e⟩ := h (fun _ => ⟨0, 0⟩) vmFaultRead 0 (.inl rfl)
    rw [vmFault, if_neg (by decide), if_neg (by decide)] at e
    obtain ⟨_, su, -⟩ := bind_ok_iff.1 e
    exact AddrSpace.assertSetUp_ok_iff.1 su
  · intro su tlb faulttype va ft
    have ro : faulttype ≠ vmFaultReadonly := by
      rcases ft with rfl | rfl <;> decide
    have set : as.assertSetUp = .ok () := AddrSpace.assertSetUp_ok_iff.2 su
    rw [vmFault, if_neg ro, if_neg (not_not.2 ft)]
    simp only [set, ok_bind]
    cases look : as.lookup (va &&& pageFrame) with
    | none => exact ⟨_, rfl⟩
    | some pa =>
      have al := su.lookup_aligned (and_pageFrame_lt va) (pageSize_dvd_and_pageFrame va) look
      simp only [kassert_pos al, ok_bind]
      cases tlb.unused with
      | none => exact ⟨_, rfl⟩
      | some i => exact ⟨_, rfl⟩

/-- With physical memory, an address space is set up exactly when both regions have a first page, and
that is not page `0`. -/
lemma AddrSpace.Backed.setUp_iff {as : AddrSpace} (bk : as.Backed)
    (al : ∀ r, as.vbase r &&& pageFrame = as.vbase r) :
    as.SetUp ↔ as.vbase1 ≠ 0 ∧ as.vbase2 ≠ 0 := by
  constructor
  · exact fun su => ⟨su.vbase .one, su.vbase .two⟩
  · rintro ⟨h₁, h₂⟩
    refine ⟨?_, bk.pbase, bk.npages, al, ?_⟩
    · rintro ⟨⟩
      exacts [h₁, h₂, show userstack - vmStackpages * pageSize ≠ 0 by decide]
    · intro r
      have top := bk.top r
      simp only [AddrSpace.block, Block.stop, kseg0] at top
      exact (and_pageFrame_eq_iff (by omega)).2 (bk.aligned r)

/-- The segments to be loaded. -/
def loads (phs : List Phdr) : List Phdr := phs.filter (fun ph => ph.kind = .load)

/-- The calls of `as_define_region` that the first pass of `load_elf` makes for a list of program
headers. -/
def defineRegions (as : AddrSpace) : List Phdr → AddrSpace × Nat
  | [] => (as, 0)
  | ph :: phs =>
    match ph.kind with
    | .skip => defineRegions as phs
    | .unknown => (as, enoexec)
    | .load =>
      let (as, result) := asDefineRegion as ph.vaddr.toNat ph.memsz.toNat
      if result ≠ 0 then (as, result) else defineRegions as phs

/-- A segment that is skipped is not loaded. -/
lemma loads_skip {ph : Phdr} {phs : List Phdr} (kind : ph.kind = .skip) : loads (ph :: phs) = loads phs := by
  simp [loads, kind]

/-- A segment that is loaded comes first. -/
lemma loads_load {ph : Phdr} {phs : List Phdr} (kind : ph.kind = .load) :
    loads (ph :: phs) = ph :: loads phs := by
  simp [loads, kind]

/-- The first segment is defined before the others. -/
lemma defineRegions_load {as as' : AddrSpace} {ph : Phdr} {phs : List Phdr} (kind : ph.kind = .load)
    (e : defineRegions as (ph :: phs) = (as', 0)) :
    ∃ as₁, asDefineRegion as ph.vaddr.toNat ph.memsz.toNat = (as₁, 0) ∧
      defineRegions as₁ phs = (as', 0) := by
  rw [defineRegions, kind] at e
  dsimp only at e
  split at e
  next nz => exact absurd (congrArg Prod.snd e) nz
  next z => exact ⟨_, Prod.ext rfl (not_not.1 z), e⟩

/-- The number of pages that `as_define_region` gives a segment. -/
def segmentPages (vaddr sz : Nat) : Nat :=
  (wsub 32 (wadd 32 (wadd 32 sz (vaddr &&& (2 ^ 32 - 1 - pageFrame))) pageSize) 1 &&& pageFrame) / pageSize

/-- A segment takes the first region that looks unused. -/
lemma asDefineRegion_ok {as as' : AddrSpace} {vaddr sz : Nat} (e : asDefineRegion as vaddr sz = (as', 0)) :
    (as.vbase1 = 0 ∧ as' = { as with vbase1 := vaddr &&& pageFrame, npages1 := segmentPages vaddr sz }) ∨
    (as.vbase1 ≠ 0 ∧ as.vbase2 = 0 ∧
      as' = { as with vbase2 := vaddr &&& pageFrame, npages2 := segmentPages vaddr sz }) := by
  simp only [asDefineRegion] at e
  split_ifs at e with h₁ h₂
  · cases e
    exact .inl ⟨h₁, rfl⟩
  · cases e
    exact .inr ⟨h₁, h₂, rfl⟩
  · cases e

/-- All the rounding of `as_define_region`, in one reduction modulo `2 ^ 32`. -/
lemma segmentPages_eq (vaddr sz : Nat) :
    segmentPages vaddr sz = (vaddr % pageSize + sz + (pageSize - 1)) % 2 ^ 32 / pageSize := by
  have low : vaddr &&& (2 ^ 32 - 1 - pageFrame) = vaddr % pageSize := by
    have e : 2 ^ 32 - 1 - pageFrame = 2 ^ 12 - 1 := by decide
    rw [e, Nat.and_two_pow_sub_one_eq_mod]
    rfl
  have round : wsub 32 (wadd 32 (wadd 32 sz (vaddr % pageSize)) pageSize) 1
      = (vaddr % pageSize + sz + (pageSize - 1)) % 2 ^ 32 := by
    simp only [wsub, wadd, pageSize]
    omega
  rw [segmentPages, low, round, and_pageFrame (Nat.mod_lt _ (by decide)),
    Nat.mul_div_cancel _ (by decide)]

/-- The region that `as_define_region` gives the next segment. -/
def AddrSpace.nextRegion (as : AddrSpace) : Region := if as.vbase1 = 0 then .one else .two

/-- The addresses from `vaddr` to `vaddr + sz` are in the pages of a region. -/
def AddrSpace.Covers (as : AddrSpace) (r : Region) (vaddr sz : Nat) : Prop :=
  ∀ a, vaddr ≤ a → a < vaddr + sz → as.vbase r ≤ a ∧ a < as.vbase r + as.npages r * pageSize

/-- The first free region gets the address and the size. -/
lemma asDefineRegion_nextRegion {as as' : AddrSpace} {vaddr sz : Nat}
    (e : asDefineRegion as vaddr sz = (as', 0)) :
    as'.vbase as.nextRegion = vaddr &&& pageFrame ∧ as'.npages as.nextRegion = segmentPages vaddr sz := by
  obtain ⟨h, rfl⟩ | ⟨h, -, rfl⟩ := asDefineRegion_ok e
  · rw [AddrSpace.nextRegion, if_pos h]
    exact ⟨rfl, rfl⟩
  · rw [AddrSpace.nextRegion, if_neg h]
    exact ⟨rfl, rfl⟩

/-- The pages of a segment cover it exactly when its size does not wrap while it is rounded up. -/
theorem as_define_region_covers_iff {as as' : AddrSpace} {vaddr sz : UInt32}
    (e : asDefineRegion as vaddr.toNat sz.toNat = (as', 0)) :
    as'.Covers as.nextRegion vaddr.toNat sz.toNat ↔
      vaddr.toNat % pageSize + sz.toNat + (pageSize - 1) < 2 ^ 32 := by
  obtain ⟨vbase, npages⟩ := asDefineRegion_nextRegion e
  rw [AddrSpace.Covers, vbase, npages, segmentPages_eq, and_pageFrame vaddr.toNat_lt]
  have lt := sz.toNat_lt
  simp only [pageSize] at lt ⊢
  constructor
  · intro cover
    -- the last byte of the segment would be in no page
    by_contra wrap
    have last := cover (vaddr.toNat + sz.toNat - 1) (by omega) (by omega)
    omega
  · intro fits a le top
    omega

/-- A segment of 100 bytes at the end of a page is covered by two pages. -/
theorem as_define_region_covers_two_pages :
    ∃ as', asDefineRegion ⟨0, 0, 0, 0, 0, 0, 0⟩ 0x400fd0 100 = (as', 0) ∧
      as'.Covers .one 0x400fd0 100 :=
  ⟨⟨0x400000, 0, 2, 0, 0, 0, 0⟩, by decide,
    (@as_define_region_covers_iff ⟨0, 0, 0, 0, 0, 0, 0⟩ _ 0x400fd0 100 (by decide)).2
      (by decide)⟩

/-- A segment with a `p_memsz` of `2 ^ 32 - 4095` is accepted and gets no page at all. -/
theorem as_define_region_covers_nothing :
    ∃ as', asDefineRegion ⟨0, 0, 0, 0, 0, 0, 0⟩ 0x400000 0xfffff001 = (as', 0) ∧ as'.npages .one = 0 ∧
      ¬ as'.Covers .one 0x400000 0xfffff001 := by
  refine ⟨⟨0x400000, 0, 0, 0, 0, 0, 0⟩, by decide, rfl, ?_⟩
  intro cover
  exact absurd (cover 0x400000 (by decide) (by decide)).2 (by decide)

/-- An address space in the first pass: nothing is in region 2 before region 1 is taken. -/
structure AddrSpace.Defined (as : AddrSpace) : Prop where
  aligned : ∀ r, as.vbase r &&& pageFrame = as.vbase r
  order : as.vbase1 = 0 → as.vbase2 = 0 ∧ as.npages2 = 0

/-- A new address space has no region. -/
lemma asCreate_defined {as : AddrSpace} (e : asCreate true = some as) : as.Defined := by
  cases e
  refine ⟨?_, fun _ => ⟨rfl, rfl⟩⟩
  rintro ⟨⟩
  exacts [rfl, rfl, (and_pageFrame_eq_iff (show userstack - vmStackpages * pageSize < 2 ^ 32 by decide)).2
    (by decide)]

/-- Regions are defined one after the other. -/
lemma asDefineRegion_defined {as as' : AddrSpace} {vaddr sz : Nat} (df : as.Defined)
    (e : asDefineRegion as vaddr sz = (as', 0)) : as'.Defined := by
  have al : vaddr &&& pageFrame &&& pageFrame = vaddr &&& pageFrame := by
    rw [Nat.and_assoc, Nat.and_self]
  obtain ⟨h₁, rfl⟩ | ⟨h₁, h₂, rfl⟩ := asDefineRegion_ok e
  · refine ⟨?_, fun _ => df.order h₁⟩
    rintro ⟨⟩
    exacts [al, df.aligned .two, df.aligned .stack]
  · refine ⟨?_, fun h => absurd h h₁⟩
    rintro ⟨⟩
    exacts [df.aligned .one, al, df.aligned .stack]

/-- Where the last segment of the first pass is. -/
def AddrSpace.EndsAt (as : AddrSpace) (ph : Phdr) : Prop :=
  (as.vbase2 = 0 ∧ as.npages2 = 0) ∨ (as.vbase1 ≠ 0 ∧ as.vbase2 = ph.vaddr.toNat &&& pageFrame)

/-- The first pass leaves the last segment in region 2, unless region 2 is empty. -/
lemma defineRegions_last {as as' : AddrSpace} {phs : List Phdr} (df : as.Defined)
    (e : defineRegions as phs = (as', 0)) :
    as'.Defined ∧ ((loads phs = [] ∧ as' = as) ∨
      ∃ last, (loads phs).getLast? = some last ∧ as'.EndsAt last) := by
  induction phs generalizing as with
  | nil =>
    cases e
    exact ⟨df, .inl ⟨rfl, rfl⟩⟩
  | cons ph phs ih =>
    cases kind : ph.kind with
    | skip =>
      rw [defineRegions, kind] at e
      rw [loads_skip kind]
      exact ih df e
    | unknown =>
      rw [defineRegions, kind] at e
      cases e
    | load =>
      obtain ⟨as₁, step, e⟩ := defineRegions_load kind e
      have df₁ := asDefineRegion_defined df step
      rw [loads_load kind]
      obtain ⟨df', ⟨none, rfl⟩ | ⟨last, hl, ends⟩⟩ := ih df₁ e
      · refine ⟨df', .inr ⟨ph, by rw [none]; rfl, ?_⟩⟩
        obtain ⟨h₁, rfl⟩ | ⟨h₁, h₂, rfl⟩ := asDefineRegion_ok step
        · exact .inl (df.order h₁)
        · exact .inr ⟨h₁, rfl⟩
      · refine ⟨df', .inr ⟨last, ?_, ends⟩⟩
        rw [List.getLast?_cons, hl]
        rfl

/-- After a load that succeeded, the address space is set up exactly when the last segment does not start
in page `0`. -/
lemma prepared_setUp_iff {ph ph' : Phys} {as₀ as as' : AddrSpace} {phs : List Phdr} (bt : ph.vm.Booted)
    (create : asCreate true = some as₀) (define : defineRegions as₀ phs = (as, 0))
    (prepare : asPrepareLoad ph as = .ok (ph', as', 0)) :
    as'.SetUp ↔ ∃ last, (loads phs).getLast? = some last ∧ pageSize ≤ last.vaddr.toNat := by
  obtain ⟨bk, vbase, npages, -⟩ := asPrepareLoad_ok bt prepare
  have vbase₁ : as'.vbase1 = as.vbase1 := congrFun vbase .one
  have vbase₂ : as'.vbase2 = as.vbase2 := congrFun vbase .two
  have npages₂ : as.npages2 ≠ 0 := by
    have h := bk.npages .two
    rwa [npages] at h
  obtain ⟨df, h⟩ := defineRegions_last (asCreate_defined create) define
  have al : ∀ r, as'.vbase r &&& pageFrame = as'.vbase r := by
    rw [vbase]
    exact df.aligned
  rw [bk.setUp_iff al, vbase₁, vbase₂]
  rcases h with ⟨-, rfl⟩ | ⟨last, hl, ⟨-, z⟩ | ⟨nz, eq⟩⟩
  · cases create
    exact absurd rfl npages₂
  · exact absurd z npages₂
  · rw [eq, and_pageFrame last.vaddr.toNat_lt]
    have page : last.vaddr.toNat / pageSize * pageSize ≠ 0 ↔ pageSize ≤ last.vaddr.toNat := by
      simp only [pageSize]
      omega
    rw [page]
    constructor
    · exact fun h => ⟨last, hl, h.2⟩
    · rintro ⟨last', hl', h⟩
      rw [hl] at hl'
      cases hl'
      exact ⟨nz, h⟩

/-- After a load that succeeded, no read or write fault panics exactly when the last segment does not
start in page `0`. -/
theorem vm_fault_returns_iff {ph ph' : Phys} {as₀ as as' : AddrSpace} {phs : List Phdr}
    (reach : ph.vm.Reachable) (create : asCreate true = some as₀) (define : defineRegions as₀ phs = (as, 0))
    (prepare : asPrepareLoad ph as = .ok (ph', as', 0)) :
    (∀ tlb faulttype va, faulttype = vmFaultRead ∨ faulttype = vmFaultWrite →
      ∃ r, vmFault (some as') tlb faulttype va = .ok r) ↔
    ∃ last, (loads phs).getLast? = some last ∧ pageSize ≤ last.vaddr.toNat := by
  rw [vmFault_returns_iff]
  exact prepared_setUp_iff reach.booted create define prepare

/-- A program header for a segment without file contents. -/
def bssSegment (vaddr memsz : UInt32) : Phdr := ⟨1, 0, vaddr, 0, memsz, 6⟩

/-- Two segments outside page `0`: no fault panics. -/
theorem vm_fault_returns_two_segments : ∃ vm ph' as', vmBoot smallBoot = .ok vm ∧
    asPrepareLoad ⟨vm, fun _ => 0⟩
      (defineRegions ⟨0, 0, 0, 0, 0, 0, 0⟩ [bssSegment 0x400000 4096, bssSegment 0x10000000 100]).1
        = .ok (ph', as', 0) ∧
    ∀ tlb faulttype va, faulttype = vmFaultRead ∨ faulttype = vmFaultWrite →
      ∃ r, vmFault (some as') tlb faulttype va = .ok r := by
  let phs := [bssSegment 0x400000 4096, bssSegment 0x10000000 100]
  have eval : (do
      let vm ← vmBoot smallBoot
      let r ← asPrepareLoad ⟨vm, fun _ => 0⟩ (defineRegions ⟨0, 0, 0, 0, 0, 0, 0⟩ phs).1
      Except.ok r.2.2).toOption = some 0 := by decide +kernel
  have eval := ok_of_toOption eval
  simp only [bind_ok_iff] at eval
  obtain ⟨vm, boot, ⟨ph', as', res⟩, prepare, eq⟩ := eval
  cases eq
  refine ⟨vm, ph', as', boot, prepare, ?_⟩
  have reach : (Phys.mk vm fun _ => 0).vm.Reachable := ⟨smallBoot, vm, [], boot, rfl⟩
  have define : defineRegions ⟨0, 0, 0, 0, 0, 0, 0⟩ phs
      = ((defineRegions ⟨0, 0, 0, 0, 0, 0, 0⟩ phs).1, 0) := by decide +kernel
  refine (vm_fault_returns_iff reach rfl define prepare).2 ?_
  exact ⟨bssSegment 0x10000000 100, by decide +kernel, by decide⟩

/-- The second of two segments starts in page `0`: the load succeeds, and every fault panics. -/
theorem vm_fault_panics_page_zero : ∃ vm ph' as as', vmBoot smallBoot = .ok vm ∧
    defineRegions ⟨0, 0, 0, 0, 0, 0, 0⟩ [bssSegment 0x400000 4096, bssSegment 0 4096] = (as, 0) ∧
    asPrepareLoad ⟨vm, fun _ => 0⟩ as = .ok (ph', as', 0) ∧
    ∀ tlb va, vmFault (some as') tlb vmFaultRead va = .error (.kassert "as->as_vbase2 != 0") := by
  let as : AddrSpace := ⟨0x400000, 0, 1, 0, 0, 1, 0⟩
  have define : defineRegions ⟨0, 0, 0, 0, 0, 0, 0⟩ [bssSegment 0x400000 4096, bssSegment 0 4096]
      = (as, 0) := by decide +kernel
  have eval : (do
      let vm ← vmBoot smallBoot
      let r ← asPrepareLoad ⟨vm, fun _ => 0⟩ as
      Except.ok r.2).toOption = some (⟨0x400000, 0x30000, 1, 0, 0x31000, 1, 0x32000⟩, 0) := by
    decide +kernel
  have eval := ok_of_toOption eval
  simp only [bind_ok_iff] at eval
  obtain ⟨vm, boot, ⟨ph', as', res⟩, prepare, eq⟩ := eval
  cases eq
  exact ⟨vm, ph', as, _, boot, define, prepare, fun tlb va => rfl⟩

end PDS.Kern
