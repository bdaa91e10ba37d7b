import PDS.Kern.KmallocInv
import PDS.Kern.PpagesRun

/-!
# Running out of memory

How a failure of `alloc_ppages` travels up to the caller of `kmalloc`. `alloc_ppages` reports it by the
physical address `0`; `alloc_kpages` translates that address like any other, so its callers see
`MIPS_KSEG0`, which they do not take for a failure. The failure therefore propagates only for requests
that do not run into it (`kmalloc_propagates_iff`).
-/

namespace PDS.Kern
open Word Links

/-- The number of pages `kmalloc(sz)` needs when it needs new pages. -/
def pagesAsked (sz : Nat) : Nat := if sz ≥ largestSubpageSize then npagesFor sz else 1

/-- `kmalloc(sz)` calls `alloc_ppages`: the request is for whole pages, or no page of the right block
size has a free block. -/
def Km.Asks (k : Km) (sz : Nat) : Prop :=
  sz ≥ largestSubpageSize ∨ subpageKmalloc1 k sz = .ok none

/-- If `kmalloc(sz)` runs into a failure of `alloc_ppages`, then `alloc_kpages` returns `0` and `kmalloc`
returns `NULL` with the state of both allocators unchanged. -/
def Propagates (v : Vm) (k : Km) (sz : Nat) : Prop :=
  k.Asks sz → ∀ v', allocPpages v (pagesAsked sz) = .ok (v', 0) →
    allocKpages v (pagesAsked sz) = .ok (v', 0) ∧ kmalloc v k sz = .ok (v, k, 0)

/-- `l` is the list of the pages of block size `t`. -/
structure Km.SizeList (k : Km) (t : Nat) (l : List Nat) : Prop where
  chain : Chain k.nextSamesize (k.sizebases t) l
  length : l.length ≤ npagerefs
  types : ∀ i ∈ l, (k.pagerefs i).blocktype = t

variable {v : Vm} {k : Km} {fl ul lk : List Nat} {sl : Nat → List Nat} {sz n : Nat}

/-- `alloc_ppages` fails exactly when it is asked for no pages or no free block is large enough. -/
lemma Vm.Ok.alloc_fails_iff (ok : v.Ok fl ul lk) :
    (∃ v', allocPpages v n = .ok (v', 0)) ↔ ¬ (0 < n ∧ ∃ f ∈ fl, n ≤ (v.slots f).pages) := by
  rcases ok.alloc n with ⟨e, small⟩ | ⟨e, hz, -, f, hf, le⟩ |
      ⟨v', p, s, q, q', a, b, u, rfl, -, hz, le, e, inv, bu, -⟩
  · refine ⟨?_, fun _ => ⟨v, e⟩⟩
    rintro - ⟨pos, f, hf, le⟩
    cases small with
    | inl z => omega
    | inr small =>
      have := small f hf
      omega
  · constructor
    · rintro ⟨v', e'⟩
      rw [e] at e'
      cases e'
    · intro h
      exact absurd ⟨Nat.pos_of_ne_zero hz, f, hf, le⟩ h
  · constructor
    · rintro ⟨v'', e'⟩
      -- the address of a block is not `0`
      have pos := (inv.within (i := u) (by simp)).2.1
      have start := inv.start_pos
      have addr : (v'.slots u).addr = (v.slots s).addr := congrArg Extent.Block.start bu
      rw [e] at e'
      simp only [Except.ok.injEq, Prod.mk.injEq] at e'
      omega
    · intro h
      exact absurd ⟨Nat.pos_of_ne_zero hz, s, by simp, le⟩ h

/-- The first part of `subpage_kmalloc` finds nothing exactly when no page of the size list has a free
block. -/
lemma Km.asks_iff (lists : ∀ t < nsizes, k.SizeList t (sl t)) :
    k.Asks sz ↔ ¬ (sz < largestSubpageSize ∧
      ∃ t i, blocktype sz = .ok t ∧ i ∈ sl t ∧ 0 < (k.pagerefs i).nfree) := by
  by_cases h : sz ≥ largestSubpageSize
  · constructor
    · rintro - ⟨lt, -⟩
      omega
    · exact fun _ => .inl h
  · obtain ⟨t, et, ht, -⟩ := blocktype_spec (Nat.lt_of_not_le h)
    obtain ⟨chain, len, types⟩ := lists t ht
    constructor
    · rintro (h' | none) ⟨-, t', i, et', hi, free⟩
      · exact h h'
      · rw [et] at et'
        cases et'
        cases scanSize_spec chain (Nat.lt_succ_of_le len) types with
        | inl h0 =>
          have := h0.2 i hi
          omega
        | inr found =>
          obtain ⟨j, -, -, e⟩ := found
          simp only [subpageKmalloc1, et, ok_bind] at none
          rw [show Km.fuel = npagerefs.succ from rfl, e, ok_bind] at none
          simp only at none
          cases hd : k.doalloc j with
          | error x => rw [hd] at none; cases none
          | ok x => rw [hd] at none; cases none
    · intro full
      right
      cases scanSize_spec chain (Nat.lt_succ_of_le len) types with
      | inl h0 =>
        simp only [subpageKmalloc1, et, ok_bind]
        rw [show Km.fuel = npagerefs.succ from rfl, h0.1, ok_bind]
      | inr found =>
        obtain ⟨j, hj, free, -⟩ := found
        exact absurd ⟨Nat.lt_of_not_le h, t, j, et, hj, free⟩ full

/-- The failure of `alloc_ppages` reaches the caller of `kmalloc` as a failure exactly for the requests
that do not meet it: a page of the right block size has a free block, or a free block of physical memory
is large enough. -/
theorem kmalloc_propagates_iff (ok : v.Ok fl ul lk) (lists : ∀ t < nsizes, k.SizeList t (sl t)) :
    Propagates v k sz ↔
      (sz < largestSubpageSize ∧ ∃ t i, blocktype sz = .ok t ∧ i ∈ sl t ∧ 0 < (k.pagerefs i).nfree) ∨
      (0 < pagesAsked sz ∧ ∃ f ∈ fl, pagesAsked sz ≤ (v.slots f).pages) := by
  constructor
  · intro prop
    by_contra h
    rw [not_or, ← Km.asks_iff lists, ← ok.alloc_fails_iff] at h
    obtain ⟨asks, v', fails⟩ := h
    have kp := (prop asks v' fails).1
    -- the address `0` has become the start of the kernel segment
    simp only [allocKpages, fails, ok_bind, Except.ok.injEq, Prod.mk.injEq] at kp
    exact absurd kp.2 (by decide)
  · intro h asks v' fails
    rw [Km.asks_iff lists] at asks
    exact absurd ((ok.alloc_fails_iff).1 ⟨v', fails⟩) (not_not.2 (h.resolve_left asks))

/-- With 16 free pages, a request for 100 bytes on an empty heap meets no failure. -/
theorem kmalloc_propagates_small : ∃ v₀, vmBoot smallBoot = .ok v₀ ∧
    Propagates v₀ (Km.init fun _ => 0) 100 := by
  obtain ⟨v₀, boot, ok⟩ := vmBoot_ok smallBoot
  have pages : (vmBoot smallBoot).toOption.map (fun v => (v.slots 0).pages) = some 16 := by
    decide +kernel
  rw [boot] at pages
  have pages : (v₀.slots 0).pages = 16 := by simpa [Except.toOption] using pages
  let sl : Nat → List Nat := fun _ => []
  have lists : ∀ t < nsizes, (Km.init fun _ => 0).SizeList t (sl t) := by
    intro t _
    exact ⟨rfl, by simp [sl], by simp [sl]⟩
  refine ⟨v₀, boot, (kmalloc_propagates_iff ok lists).2 (.inr ⟨by decide, 0, by simp, ?_⟩)⟩
  rw [pages]
  decide

/-- A request of `0xffffffff` bytes wraps to 0 pages; `kmalloc` returns the address of the exception
handlers for it. -/
theorem kmalloc_failure_lost : ∃ v₀, vmBoot smallBoot = .ok v₀ ∧
    allocPpages v₀ (pagesAsked 0xffffffff) = .ok (v₀, 0) ∧
    kmalloc v₀ (Km.init fun _ => 0) 0xffffffff = .ok (v₀, Km.init fun _ => 0, 0x80000000) ∧
    ¬ Propagates v₀ (Km.init fun _ => 0) 0xffffffff := by
  obtain ⟨v₀, boot, -⟩ := vmBoot_ok smallBoot
  have none : pagesAsked 0xffffffff = 0 := by decide
  have fails : allocPpages v₀ (pagesAsked 0xffffffff) = .ok (v₀, 0) := by
    rw [none, allocPpages, if_pos rfl]
  have addr : allocKpages v₀ (npagesFor 0xffffffff) = .ok (v₀, 0x80000000) := by
    rw [show npagesFor 0xffffffff = pagesAsked 0xffffffff by decide, allocKpages, fails]
    rfl
  have ret : kmalloc v₀ (Km.init fun _ => 0) 0xffffffff
      = .ok (v₀, Km.init fun _ => 0, 0x80000000) := by
    rw [kmalloc, if_pos (by decide), addr]
    rfl
  refine ⟨v₀, boot, fails, ret, ?_⟩
  intro prop
  have lost := (prop (.inl (by decide)) v₀ fails).2
  rw [ret] at lost
  simp at lost

end PDS.Kern
