import PDS.Kern.Addrspace

/-!
# Page faults

What `vm_fault` computes: the conditions that its assertions check (`SetUp`), the region that its `if`
chain picks for a page (`lookup_spec`), and the entry that it writes into the TLB (`translates_iff`).
-/

namespace PDS.Kern
open Word

/-- `PAGE_FRAME` rounds down to a page. -/
lemma and_pageFrame {x : Nat} (hx : x < 2 ^ 32) : x &&& pageFrame = x / pageSize * pageSize := by
  have e : pageFrame = 2 ^ 32 - 2 ^ 12 := by decide
  rw [e, and_highMask (by decide) hx]
  rfl

/-- It leaves exactly the multiples of a page. -/
lemma and_pageFrame_eq_iff {x : Nat} (hx : x < 2 ^ 32) : x &&& pageFrame = x ↔ pageSize ∣ x := by
  rw [and_pageFrame hx]
  exact ⟨fun h => Dvd.intro_left _ h, Nat.div_mul_cancel⟩

/-- It gives a 32-bit address. -/
lemma and_pageFrame_lt (x : Nat) : x &&& pageFrame < 2 ^ 32 :=
  lt_of_le_of_lt Nat.and_le_right (by decide)

/-- It gives the address of a page. -/
lemma pageSize_dvd_and_pageFrame (x : Nat) : pageSize ∣ x &&& pageFrame := by
  rw [← and_pageFrame_eq_iff (and_pageFrame_lt x), Nat.and_assoc, Nat.and_self]

namespace AddrSpace

variable {as : AddrSpace} {va pa : Nat}

/-- What `vm_fault` asserts about an address space. -/
structure SetUp (as : AddrSpace) : Prop where
  vbase : ∀ r, as.vbase r ≠ 0
  pbase : ∀ r, as.pbase r ≠ 0
  npages : ∀ r, as.npages r ≠ 0
  vbase_aligned : ∀ r, as.vbase r &&& pageFrame = as.vbase r
  pbase_aligned : ∀ r, as.pbase r &&& pageFrame = as.pbase r

/-- The assertions hold of a region that is set up. -/
lemma assertSetUp_ok_iff {u : Unit} : as.assertSetUp = .ok u ↔ as.SetUp := by
  simp only [assertSetUp, bind_ok_iff, kassert_ok_iff, exists_const]
  constructor
  · rintro ⟨v₁, p₁, n₁, v₂, p₂, n₂, ps, va₁, pa₁, va₂, pa₂, pas⟩
    refine ⟨?_, ?_, ?_, ?_, ?_⟩
    · rintro ⟨⟩
      exacts [v₁, v₂, show userstack - vmStackpages * pageSize ≠ 0 by decide]
    · rintro ⟨⟩
      exacts [p₁, p₂, ps]
    · rintro ⟨⟩
      exacts [n₁, n₂, show vmStackpages ≠ 0 by decide]
    · rintro ⟨⟩
      exacts [va₁, va₂, (and_pageFrame_eq_iff (show userstack - vmStackpages * pageSize < 2 ^ 32 by decide)).2
        (by decide)]
    · rintro ⟨⟩
      exacts [pa₁, pa₂, pas]
  · rintro ⟨v, p, n, va, pa⟩
    exact ⟨v .one, p .one, n .one, v .two, p .two, n .two, p .stack, va .one, pa .one, va .two, pa .two,
      pa .stack⟩

/-- The pages `[vbase, vtop)` of the source; the sum may wrap, and then there are none. -/
lemma region_range {fa vbase npages : Nat} (hfa : fa < 2 ^ 32)
    (h : vbase ≤ fa ∧ fa < wadd 32 vbase (wmul 32 npages pageSize)) :
    fa - vbase < npages * pageSize ∧ wsub 32 fa vbase = fa - vbase := by
  refine ⟨?_, wsub_of_le h.1 hfa⟩
  have le : wadd 32 vbase (wmul 32 npages pageSize) ≤ vbase + npages * pageSize :=
    (Nat.mod_le _ _).trans (Nat.add_le_add_left (Nat.mod_le _ _) _)
  omega

/-- A page that is found lies in a region, at the same offset as its frame in the region's memory. -/
lemma lookup_spec {fa} (hfa : fa < 2 ^ 32) (e : as.lookup fa = some pa) :
    ∃ r, as.vbase r ≤ fa ∧ fa - as.vbase r < as.npages r * pageSize ∧
      pa = wadd 32 (fa - as.vbase r) (as.pbase r) := by
  simp only [lookup] at e
  split_ifs at e with h₁ h₂ h₃
  · obtain ⟨lt, sub⟩ := region_range hfa h₁
    rw [sub] at e
    cases e
    exact ⟨.one, h₁.1, lt, rfl⟩
  · obtain ⟨lt, sub⟩ := region_range hfa h₂
    rw [sub] at e
    cases e
    exact ⟨.two, h₂.1, lt, rfl⟩
  · have base : wsub 32 userstack (wmul 32 vmStackpages pageSize)
        = userstack - vmStackpages * pageSize := by decide
    have top : userstack = userstack - vmStackpages * pageSize + vmStackpages * pageSize := by decide
    rw [base] at e h₃
    rw [wsub_of_le h₃.1 hfa] at e
    cases e
    refine ⟨.stack, h₃.1, ?_, rfl⟩
    simp only [vbase, npages]
    omega

/-- Some page fault at `va` makes the TLB map the page of `va` to the frame `pa`. -/
def Translates (as : AddrSpace) (va pa : Nat) : Prop :=
  ∃ faulttype tlb tlb' i, vmFault (some as) tlb faulttype va = .ok (tlb', 0) ∧ tlb.unused = some i ∧
    (tlb' i).ehi = va &&& pageFrame ∧ (tlb' i).elo &&& tlbloPpage = pa

/-- `vm_fault` reports an error and leaves the TLB alone, or enters the page. -/
lemma vmFault_ok {faulttype tlb tlb' result}
    (e : vmFault (some as) tlb faulttype va = .ok (tlb', result)) :
    (result ≠ 0 ∧ tlb' = tlb) ∨
    (result = 0 ∧ as.SetUp ∧ ∃ pa i, as.lookup (va &&& pageFrame) = some pa ∧ pa &&& pageFrame = pa ∧
      tlb.unused = some i ∧
      tlb' = Function.update tlb i ⟨va &&& pageFrame, pa ||| tlbloDirty ||| tlbloValid⟩) := by
  simp only [vmFault] at e
  split_ifs at e with ro ft
  swap
  · cases e
    exact .inl ⟨by decide, rfl⟩
  simp only [bind_ok_iff, assertSetUp_ok_iff, exists_const] at e
  obtain ⟨su, e⟩ := e
  cases look : as.lookup (va &&& pageFrame) with
  | none =>
    rw [look] at e
    cases e
    exact .inl ⟨by decide, rfl⟩
  | some pa =>
    simp only [look, bind_ok_iff, kassert_ok_iff, exists_const] at e
    obtain ⟨al, e⟩ := e
    cases un : tlb.unused with
    | none =>
      rw [un] at e
      cases e
      exact .inl ⟨by decide, rfl⟩
    | some i =>
      rw [un] at e
      cases e
      exact .inr ⟨rfl, su, pa, i, rfl, al, rfl, rfl⟩

/-- The frame is read back from the entry. -/
lemma tlb_entry_frame {pa : Nat} (al : pa &&& pageFrame = pa) :
    (pa ||| tlbloDirty ||| tlbloValid) &&& tlbloPpage = pa := by
  have d : tlbloDirty &&& tlbloPpage = 0 := by decide
  have v : tlbloValid &&& tlbloPpage = 0 := by decide
  rw [Nat.and_or_distrib_right, Nat.and_or_distrib_right, d, v, Nat.or_zero, Nat.or_zero]
  exact al

/-- What an address space translates, in terms of its fields. -/
lemma translates_iff :
    as.Translates va pa ↔ as.SetUp ∧ as.lookup (va &&& pageFrame) = some pa ∧ pa &&& pageFrame = pa := by
  constructor
  · rintro ⟨faulttype, tlb, tlb', i, e, un, -, rfl⟩
    obtain ⟨nz, -⟩ | ⟨-, su, pa, j, look, al, un', rfl⟩ := vmFault_ok e
    · exact absurd rfl nz
    rw [un] at un'
    cases un'
    rw [Function.update_self, tlb_entry_frame al]
    exact ⟨su, look, al⟩
  · rintro ⟨su, look, al⟩
    -- a TLB without valid entries has room for the page
    let tlb : Tlb := fun _ => ⟨0, 0⟩
    let i : Fin numTlb := ⟨0, by decide⟩
    have un : tlb.unused = some i := by decide
    refine ⟨vmFaultRead, tlb,
      Function.update tlb i ⟨va &&& pageFrame, pa ||| tlbloDirty ||| tlbloValid⟩, i, ?_, un, ?_, ?_⟩
    · have set : as.assertSetUp = .ok () := assertSetUp_ok_iff.2 su
      rw [vmFault, if_neg (by decide), if_neg (by decide)]
      simp only [set, ok_bind, look, kassert_pos al, un]
    · rw [Function.update_self]
    · rw [Function.update_self]
      exact tlb_entry_frame al

/-- A region has all of a page or nothing of it. -/
lemma SetUp.page_within {r : Region} (su : as.SetUp)
    (lt : (va &&& pageFrame) - as.vbase r < as.npages r * pageSize) :
    (va &&& pageFrame) - as.vbase r + pageSize ≤ as.npages r * pageSize := by
  have base : pageSize ∣ as.vbase r := by
    rw [← su.vbase_aligned r]
    exact pageSize_dvd_and_pageFrame _
  obtain ⟨k, hk⟩ := Nat.dvd_sub (pageSize_dvd_and_pageFrame va) base
  rw [hk] at lt ⊢
  rw [Nat.mul_comm pageSize k] at lt ⊢
  rw [← Nat.succ_mul]
  exact Nat.mul_le_mul_right _ (Nat.lt_of_mul_lt_mul_right lt)

/-- A frame is as far into the memory of its region as the page is into the region. -/
lemma Translates.frame (t : as.Translates va pa)
    (top : ∀ r, as.pbase r ≠ 0 → as.pbase r + as.npages r * pageSize ≤ kseg0) :
    ∃ r off, as.pbase r ≠ 0 ∧ va &&& pageFrame = as.vbase r + off ∧ pa = as.pbase r + off ∧
      off + pageSize ≤ as.npages r * pageSize := by
  obtain ⟨su, look, -⟩ := translates_iff.1 t
  obtain ⟨r, le, lt, rfl⟩ := lookup_spec (and_pageFrame_lt va) look
  have top := top r (su.pbase r)
  have small : kseg0 < 2 ^ 32 := by decide
  refine ⟨r, (va &&& pageFrame) - as.vbase r, su.pbase r, by omega, ?_, su.page_within lt⟩
  rw [wadd_of_lt (by omega), Nat.add_comm]

end AddrSpace

end PDS.Kern
