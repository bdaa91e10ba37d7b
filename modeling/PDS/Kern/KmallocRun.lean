import PDS.Kern.KmallocInv
import PDS.Lib.Extent
import PDS.Lib.Owned

/-!
# Threads on the kernel heap

Any number of threads call `kmalloc` and `kfree`. A thread is between two critical sections in three
places: before and after `subpage_kmalloc` calls `alloc_kpages` with the lock dropped, and before
`free_kpages` (`Pc`). `KStep` is one critical section, one call of the page allocator, or one store by
the rest of the kernel, into a block it owns or outside the pages of the heap.

`alloc_kpages` enters as an assumption (`KSys.Fresh`): it returns `0`, always so for `0` pages, or a
page-aligned range disjoint from those in circulation. Each range in circulation is owned by a pageref,
by a thread, or by a client of a large allocation; `KSys.Inv` carries this ownership and the invariant of
the tables through every step.
-/

namespace PDS.Kern
open Word Links Extent

/-- Where a thread is in `kmalloc` or `kfree`. -/
inductive Pc where
  | idle
  /-- `subpage_kmalloc` has dropped the lock to call `alloc_kpages(1)` -/
  | needPage (sz : Nat)
  /-- it has the page and is about to take the lock again -/
  | gotPage (sz prpage : Nat)
  /-- about to call `free_kpages` -/
  | givePage (page : Nat)
deriving DecidableEq, Repr

/-- The page range a thread holds between two steps. -/
def Pc.hand : Pc → Option Nat
  | .idle => none
  | .needPage _ => none
  | .gotPage _ prpage => some prpage
  | .givePage page => some page

/-- A pointer returned by `kmalloc(sz)` and not yet passed to `kfree`. -/
structure Live where
  ptr : Nat
  sz : Nat
deriving DecidableEq, Repr

/-- The number of bytes `kmalloc(sz)` sets aside. -/
def allotted (sz : Nat) : Nat :=
  if sz ≥ largestSubpageSize then npagesFor sz * pageSize
  else
    match blocktype sz with
    | .ok t => sizes t
    | .error _ => 0

/-- The bytes set aside for a pointer. -/
def Live.extent (b : Live) : Block := ⟨b.ptr, allotted b.sz⟩

/-- The heap, its threads and its clients. -/
structure KSys where
  km : Km
  pc : Nat → Pc
  live : List Live
  /-- the ranges obtained from `alloc_kpages` and not given back -/
  held : List Block

/-- No thread has called anything yet. -/
def KSys.init (mem : Nat → Nat) : KSys := ⟨Km.init mem, fun _ => .idle, [], []⟩

/-- What `alloc_kpages(n)` may return when it succeeds: `n > 0` page-aligned pages, below the top of
the address space and disjoint from all ranges in circulation. -/
structure KSys.Fresh (s : KSys) (n a : Nat) : Prop where
  pos : 0 < n
  aligned : pageSize ∣ a
  low : 0 < a
  high : a + n * pageSize < 2 ^ 32
  apart : ∀ b ∈ s.held, b.Apart ⟨a, n * pageSize⟩

/-- The addresses the rest of the kernel writes: its own blocks, and memory outside the heap. -/
def KSys.MayStore (s : KSys) (a : Nat) : Prop :=
  (∃ b ∈ s.live, b.extent.Has a) ∨ ∀ b ∈ s.held, ¬ b.Has a

/-- One step of one thread. -/
inductive KStep : KSys → KSys → Prop
  /-- `kmalloc(sz)` for whole pages -/
  | big {s t sz a} : s.pc t = .idle → largestSubpageSize ≤ sz → sz < 2 ^ 32 →
      s.Fresh (npagesFor sz) a →
      KStep s { s with live := ⟨a, sz⟩ :: s.live, held := ⟨a, npagesFor sz * pageSize⟩ :: s.held }
  /-- `kmalloc(sz)` for whole pages, out of memory -/
  | bigFail {s t sz} : s.pc t = .idle → largestSubpageSize ≤ sz → sz < 2 ^ 32 → KStep s s
  /-- `kmalloc(sz)` from an existing page -/
  | hit {s t sz km p} : s.pc t = .idle → sz < largestSubpageSize →
      subpageKmalloc1 s.km sz = .ok (some (km, p)) →
      KStep s { s with km := km, live := ⟨p, sz⟩ :: s.live }
  /-- `kmalloc(sz)` that needs a new page -/
  | miss {s t sz} : s.pc t = .idle → sz < largestSubpageSize → subpageKmalloc1 s.km sz = .ok none →
      KStep s { s with pc := Function.update s.pc t (.needPage sz) }
  /-- `alloc_kpages(1)` without the lock -/
  | page {s t sz a} : s.pc t = .needPage sz → s.Fresh 1 a →
      KStep s { s with pc := Function.update s.pc t (.gotPage sz a), held := ⟨a, pageSize⟩ :: s.held }
  /-- `alloc_kpages(1)`, out of memory -/
  | pageFail {s t sz} : s.pc t = .needPage sz → KStep s { s with pc := Function.update s.pc t .idle }
  /-- entering the new page -/
  | enter {s t sz a km p} : s.pc t = .gotPage sz a → subpageKmalloc2 s.km sz a = .ok (km, some p) →
      KStep s { s with km := km, pc := Function.update s.pc t .idle, live := ⟨p, sz⟩ :: s.live }
  /-- no pageref for the new page -/
  | enterFail {s t sz a km} : s.pc t = .gotPage sz a → subpageKmalloc2 s.km sz a = .ok (km, none) →
      KStep s { s with km := km, pc := Function.update s.pc t (.givePage a) }
  /-- `kfree` of a pointer -/
  | free {s t b km} : s.pc t = .idle → b ∈ s.live → kfree s.km b.ptr = .ok (km, none) →
      KStep s { s with km := km, live := s.live.erase b }
  /-- `kfree` of a pointer, with pages to give back -/
  | freePages {s t b km a} : s.pc t = .idle → b ∈ s.live → kfree s.km b.ptr = .ok (km, some a) →
      KStep s { s with km := km, live := s.live.erase b, pc := Function.update s.pc t (.givePage a) }
  /-- `free_kpages` -/
  | give {s t a} : s.pc t = .givePage a →
      KStep s { s with pc := Function.update s.pc t .idle, held := s.held.filter (fun b => b.start != a) }
  /-- a store by the rest of the kernel -/
  | store {s a w} : s.MayStore a → KStep s { s with km := { s.km with mem := Function.update s.km.mem a w } }

/-- The possible owners of a range. -/
inductive Owner where
  | page (i : Nat)
  | thread (t : Nat)
  | client (ptr : Nat)
deriving DecidableEq, Repr

/-- Which range each owner has. -/
def KSys.Owns (s : KSys) (al : List Nat) : Owner → Nat → Prop
  | .page i, a => i ∈ al ∧ (s.km.pagerefs i).pageaddr = a
  | .thread t, a => (s.pc t).hand = some a
  | .client p, a => p = a ∧ ∃ b ∈ s.live, b.ptr = a ∧ largestSubpageSize ≤ b.sz

/-- The ranges in circulation, by address. -/
def KSys.Holds (s : KSys) (a : Nat) : Prop := ∃ b ∈ s.held, b.start = a

namespace KSys

/-- The invariant of the system. -/
structure Inv (s : KSys) (al : List Nat) (fls : Nat → List Nat) : Prop where
  km : s.km.Inv al fls
  held_ok : ∀ b ∈ s.held, pageSize ∣ b.start ∧ 0 < b.start ∧ b.stop < 2 ^ 32 ∧ 0 < b.size
  held_apart : s.held.Pairwise Block.Apart
  owned : Owned (s.Owns al) s.Holds
  page_held : ∀ i ∈ al, ⟨(s.km.pagerefs i).pageaddr, pageSize⟩ ∈ s.held
  got_held : ∀ t sz a, s.pc t = .gotPage sz a → ⟨a, pageSize⟩ ∈ s.held
  big_held : ∀ b ∈ s.live, largestSubpageSize ≤ b.sz → ⟨b.ptr, npagesFor b.sz * pageSize⟩ ∈ s.held
  big_size : ∀ b ∈ s.live, largestSubpageSize ≤ b.sz → b.sz < 2 ^ 32
  small : ∀ b ∈ s.live, b.sz < largestSubpageSize → ∃ i ∈ al,
    blocktype b.sz = .ok (s.km.pagerefs i).blocktype ∧ (s.km.pagerefs i).Blk b.ptr ∧ b.ptr ∉ fls i
  nodup : (s.live.map Live.ptr).Nodup
  needs : ∀ t sz, s.pc t = .needPage sz → sz < largestSubpageSize
  gots : ∀ t sz a, s.pc t = .gotPage sz a → sz < largestSubpageSize

variable {s : KSys} {al : List Nat} {fls : Nat → List Nat}

/-- Nothing is allocated at the start. -/
lemma init_inv (mem : Nat → Nat) (fls : Nat → List Nat) : (init mem).Inv [] fls where
  km := Km.init_inv mem fls
  held_ok := by simp [init]
  held_apart := List.Pairwise.nil
  owned := by
    refine ⟨?_, ?_, ?_, ?_⟩
    · intro o a h
      cases o <;> simp [Owns, init, Pc.hand] at h
    · intro o o' a h
      cases o <;> simp [Owns, init, Pc.hand] at h
    · intro o a b h
      cases o <;> simp [Owns, init, Pc.hand] at h
    · intro a h
      simp [Holds, init] at h
  page_held := by simp
  got_held := by simp [init]
  big_held := by simp [init]
  big_size := by simp [init]
  small := by simp [init]
  nodup := List.nodup_nil
  needs := by simp [init]
  gots := by simp [init]

/-- An address belongs to at most one range in circulation. -/
lemma Inv.held_unique (inv : s.Inv al fls) {b c : Block} {x : Nat} (hb : b ∈ s.held) (hc : c ∈ s.held)
    (xb : b.Has x) (xc : c.Has x) : b = c := by
  by_contra ne
  have ap := inv.held_apart.forall hb hc ne
  simp only [Block.Has] at xb xc
  cases ap with
  | inl h => omega
  | inr h => omega

/-- What a small request gets. -/
lemma allotted_small {sz t : Nat} (h : sz < largestSubpageSize) (e : blocktype sz = .ok t) :
    allotted sz = sizes t := by
  rw [allotted, if_neg (by omega), e]

/-- What a big request gets. -/
lemma allotted_big {sz : Nat} (h : largestSubpageSize ≤ sz) :
    allotted sz = npagesFor sz * pageSize := if_pos h

/-- Every pointer has bytes set aside. -/
lemma Inv.extent_pos (inv : s.Inv al fls) {b : Live} (hb : b ∈ s.live) : 0 < b.extent.size := by
  by_cases h : b.sz < largestSubpageSize
  · obtain ⟨i, hi, bt, -, -⟩ := inv.small b hb h
    have ge := (sizes_spec (inv.km.page i hi).type).ge
    rw [Live.extent, allotted_small h bt]
    exact lt_of_lt_of_le (by decide) ge
  · have big : largestSubpageSize ≤ b.sz := by omega
    rw [Live.extent, allotted_big big]
    exact (inv.held_ok _ (inv.big_held b hb big)).2.2.2

/-- A range that contains an address of a live block is the page of the block, or the pages of a large
allocation. -/
lemma Inv.live_cases (inv : s.Inv al fls) {b : Live} (hb : b ∈ s.live) {r : Block} (hr : r ∈ s.held)
    {x : Nat} (hx : b.extent.Has x) (rx : r.Has x) :
    (∃ i ∈ al, r = ⟨(s.km.pagerefs i).pageaddr, pageSize⟩ ∧ (s.km.pagerefs i).Blk b.ptr ∧
        b.ptr ∉ fls i ∧ b.sz < largestSubpageSize ∧
        b.extent = ⟨b.ptr, sizes (s.km.pagerefs i).blocktype⟩) ∨
      (largestSubpageSize ≤ b.sz ∧ r = b.extent) := by
  by_cases h : b.sz < largestSubpageSize
  · obtain ⟨i, hi, bt, blk, nf⟩ := inv.small b hb h
    have ext : b.extent = ⟨b.ptr, sizes (s.km.pagerefs i).blocktype⟩ := by
      rw [Live.extent, allotted_small h bt]
    refine .inl ⟨i, hi, ?_, blk, nf, h, ext⟩
    refine inv.held_unique hr (inv.page_held i hi) rx ?_
    have ge := blk.ge
    have stop := blk.stop_le (inv.km.page i hi).type
    rw [ext] at hx
    simp only [Block.Has, Block.stop] at hx ⊢
    omega
  · have big : largestSubpageSize ≤ b.sz := by omega
    have ext : b.extent = ⟨b.ptr, npagesFor b.sz * pageSize⟩ := by rw [Live.extent, allotted_big big]
    refine .inr ⟨big, ?_⟩
    refine inv.held_unique hr ?_ rx hx
    rw [ext]
    exact inv.big_held b hb big

/-- A page of the tables is no large allocation. -/
lemma Inv.page_not_big (inv : s.Inv al fls) {i} (hi : i ∈ al) {b : Live} (hb : b ∈ s.live)
    (big : largestSubpageSize ≤ b.sz) : (s.km.pagerefs i).pageaddr ≠ b.ptr := by
  intro e
  have h1 : s.Owns al (.page i) b.ptr := ⟨hi, e⟩
  have h2 : s.Owns al (.client b.ptr) b.ptr := ⟨rfl, b, hb, rfl, big⟩
  cases inv.owned.inj h1 h2

/-- Pagerefs of one range are the same. -/
lemma Inv.page_inj (inv : s.Inv al fls) {i j} (hi : i ∈ al) (hj : j ∈ al)
    (e : (s.km.pagerefs i).pageaddr = (s.km.pagerefs j).pageaddr) : i = j :=
  inv.km.inj i hi j hj e

/-- A live block and a free block have no byte in common. -/
lemma Inv.live_free_apart (inv : s.Inv al fls) {b : Live} (hb : b ∈ s.live) {i a} (hi : i ∈ al)
    (ha : a ∈ fls i) : b.extent.Apart ⟨a, sizes (s.km.pagerefs i).blocktype⟩ := by
  have page := inv.km.page i hi
  have blk := page.blks a ha
  have stop := blk.stop_le page.type
  have ge := blk.ge
  have pos := inv.extent_pos hb
  have ge16 := (sizes_spec page.type).ge
  by_contra ap
  simp only [Block.Apart, not_or, not_le] at ap
  -- a common byte lies in the page of the free block
  obtain ⟨x, hx, hx'⟩ : ∃ x, b.extent.Has x ∧ a ≤ x ∧ x < a + sizes (s.km.pagerefs i).blocktype := by
    refine ⟨max a b.extent.start, ?_⟩
    simp only [Block.Has, Block.stop] at ap ⊢
    omega
  have rx : Block.Has ⟨(s.km.pagerefs i).pageaddr, pageSize⟩ x := by
    simp only [Block.Has, Block.stop]
    omega
  cases inv.live_cases hb (inv.page_held i hi) hx rx with
  | inl h =>
    obtain ⟨j, hj, e, blk', nf, -, ext⟩ := h
    have ij := inv.page_inj hi hj (congrArg Block.start e)
    subst ij
    have ne : b.ptr ≠ a := fun h => nf (h ▸ ha)
    have := blk'.apart blk ne
    rw [ext] at hx
    simp only [Block.Has, Block.stop] at hx
    omega
  | inr h => exact inv.page_not_big hi hb h.1 (congrArg Block.start h.2)

/-- The bytes set aside are at least those asked for. -/
lemma npagesFor_le {sz : Nat} (h : sz < 2 ^ 32) (pos : 0 < npagesFor sz) : sz ≤ npagesFor sz * pageSize := by
  unfold npagesFor at pos ⊢
  by_cases w : sz + pageSize < 2 ^ 32
  · rw [wadd_of_lt w, wsub_of_le (by simp only [pageSize]; omega) w]
    simp only [pageSize]
    omega
  · -- the sum wraps to less than a page
    have e : wadd 32 sz pageSize = sz + pageSize - 2 ^ 32 := by
      rw [wadd, Nat.mod_eq_sub_mod (by omega), Nat.mod_eq_of_lt (by simp only [pageSize]; omega)]
    rw [e] at pos ⊢
    by_cases z : sz + pageSize = 2 ^ 32
    · -- exactly one full page short: the decrement wraps back
      have e2 : wsub 32 (sz + pageSize - 2 ^ 32) 1 = 2 ^ 32 - 1 := by rw [z]; decide
      rw [e2]
      simp only [pageSize] at z ⊢
      omega
    · rw [wsub_of_le (by omega) (by simp only [pageSize]; omega)] at pos ⊢
      have z0 : (sz + pageSize - 2 ^ 32 - 1) / pageSize = 0 :=
        Nat.div_eq_of_lt (by simp only [pageSize]; omega)
      omega

/-- Live blocks have no byte in common. -/
lemma Inv.live_apart (inv : s.Inv al fls) {b c : Live} (hb : b ∈ s.live) (hc : c ∈ s.live)
    (ne : b.ptr ≠ c.ptr) : b.extent.Apart c.extent := by
  have posb := inv.extent_pos hb
  have posc := inv.extent_pos hc
  by_contra ap
  simp only [Block.Apart, not_or, not_le] at ap
  obtain ⟨x, hx, hx'⟩ : ∃ x, b.extent.Has x ∧ c.extent.Has x := by
    refine ⟨max b.extent.start c.extent.start, ?_⟩
    simp only [Block.Has, Block.stop] at ap ⊢
    omega
  have self : ∀ {d : Live}, d ∈ s.live → d.extent.Has x → ∃ r ∈ s.held, r.Has x := by
    intro d hd dx
    by_cases h : d.sz < largestSubpageSize
    · obtain ⟨i, hi, bt, blk, -⟩ := inv.small d hd h
      refine ⟨_, inv.page_held i hi, ?_⟩
      have ge := blk.ge
      have stop := blk.stop_le (inv.km.page i hi).type
      rw [Live.extent, allotted_small h bt] at dx
      simp only [Block.Has, Block.stop] at dx ⊢
      omega
    · have big : largestSubpageSize ≤ d.sz := by omega
      rw [Live.extent, allotted_big big] at dx
      exact ⟨_, inv.big_held d hd big, dx⟩
  obtain ⟨r, hr, rx⟩ := self hb hx
  cases inv.live_cases hb hr hx rx with
  | inl h =>
    obtain ⟨i, hi, ei, blk, -, -, ext⟩ := h
    cases inv.live_cases hc hr hx' rx with
    | inl h' =>
      obtain ⟨j, hj, ej, blk', -, -, ext'⟩ := h'
      have ij := inv.page_inj hi hj (congrArg Block.start (ei.symm.trans ej))
      subst ij
      have := blk.apart blk' ne
      rw [ext] at hx
      rw [ext'] at hx'
      simp only [Block.Has, Block.stop] at hx hx'
      omega
    | inr h' => exact inv.page_not_big hi hc h'.1 (congrArg Block.start (ei.symm.trans h'.2))
  | inr h =>
    cases inv.live_cases hc hr hx' rx with
    | inl h' =>
      obtain ⟨j, hj, ej, -⟩ := h'
      exact inv.page_not_big hj hb h.1 (congrArg Block.start (ej.symm.trans h.2))
    | inr h' => exact ne (congrArg Block.start (h.2.symm.trans h'.2))

/-- A range obtained from `alloc_kpages` is not in circulation yet. -/
lemma Fresh.not_holds {n a} (fr : s.Fresh n a) (inv : s.Inv al fls) : ¬ s.Holds a := by
  rintro ⟨b, hb, e⟩
  have pos := (inv.held_ok b hb).2.2.2
  have ap := fr.apart b hb
  have n0 := Nat.mul_pos fr.pos (show 0 < pageSize by decide)
  simp only [Block.Apart, Block.stop] at ap
  omega

/-- No live pointer points into a range that nothing owns yet, or that a thread owns. -/
lemma Inv.ptr_not_in (inv : s.Inv al fls) {b : Live} (hb : b ∈ s.live) {r : Block} (hr : r ∈ s.held)
    (np : ∀ i ∈ al, (s.km.pagerefs i).pageaddr ≠ r.start) (nc : ∀ c ∈ s.live,
      largestSubpageSize ≤ c.sz → c.ptr ≠ r.start) : ¬ r.Has b.ptr := by
  intro rx
  have pos := inv.extent_pos hb
  have hx : b.extent.Has b.ptr := by
    simp only [Block.Has, Block.stop, Live.extent] at pos ⊢
    omega
  cases inv.live_cases hb hr hx rx with
  | inl h =>
    obtain ⟨i, hi, e, -⟩ := h
    exact np i hi (congrArg Block.start e).symm
  | inr h => exact nc b hb h.1 (congrArg Block.start h.2).symm

/-- Whole pages go to a client. -/
lemma Inv.big (inv : s.Inv al fls) {sz a} (big : largestSubpageSize ≤ sz) (h32 : sz < 2 ^ 32)
    (fr : s.Fresh (npagesFor sz) a) :
    Inv { s with live := ⟨a, sz⟩ :: s.live, held := ⟨a, npagesFor sz * pageSize⟩ :: s.held } al fls := by
  have new := fr.not_holds inv
  have n0 := Nat.mul_pos fr.pos (show 0 < pageSize by decide)
  refine ⟨inv.km, ?_, ?_, ?_, ?_, ?_, ?_, ?_, ?_, ?_, inv.needs, inv.gots⟩
  · intro b hb
    cases List.mem_cons.1 hb with
    | inl e => rw [e]; exact ⟨fr.aligned, fr.low, fr.high, n0⟩
    | inr hb => exact inv.held_ok b hb
  · exact List.pairwise_cons.2 ⟨fun b hb => (fr.apart b hb).symm, inv.held_apart⟩
  · refine inv.owned.add (a := a) (c := .client a) new ?_ ?_ ?_
    · intro x h
      exact new (h.1 ▸ inv.owned.sound h)
    · intro o x
      cases o with
      | page i => simp [Owns]
      | thread t => simp [Owns]
      | client p =>
        simp only [Owns, List.mem_cons, Owner.client.injEq]
        constructor
        · rintro ⟨rfl, b, rfl | hb, e, hbig⟩
          · exact .inr ⟨e.symm, e.symm⟩
          · exact .inl ⟨rfl, b, hb, e, hbig⟩
        · rintro (⟨rfl, b, hb, e, hbig⟩ | ⟨rfl, rfl⟩)
          · exact ⟨rfl, b, .inr hb, e, hbig⟩
          · exact ⟨rfl, ⟨_, sz⟩, .inl rfl, rfl, big⟩
    · intro x
      simp only [Holds, List.mem_cons, exists_eq_or_imp]
      rw [or_comm, eq_comm (a := a)]
  · exact fun i hi => List.mem_cons_of_mem _ (inv.page_held i hi)
  · exact fun t sz a h => List.mem_cons_of_mem _ (inv.got_held t sz a h)
  · intro b hb hbig
    cases List.mem_cons.1 hb with
    | inl e => rw [e]; exact List.mem_cons_self
    | inr hb => exact List.mem_cons_of_mem _ (inv.big_held b hb hbig)
  · intro b hb hbig
    cases List.mem_cons.1 hb with
    | inl e => rw [e]; exact h32
    | inr hb => exact inv.big_size b hb hbig
  · intro b hb hs
    cases List.mem_cons.1 hb with
    | inl e => rw [e] at hs; exact absurd hs (by simp only; omega)
    | inr hb => exact inv.small b hb hs
  · refine List.nodup_cons.2 ⟨?_, inv.nodup⟩
    -- a live pointer lies in a range in circulation
    intro h
    obtain ⟨b, hb, e⟩ := List.mem_map.1 h
    have e : b.ptr = a := e
    by_cases hs : b.sz < largestSubpageSize
    · obtain ⟨i, hi, -, blk, -⟩ := inv.small b hb hs
      have ap := fr.apart _ (inv.page_held i hi)
      have ge := blk.ge
      have lt := blk.lt
      simp only [Block.Apart, Block.stop] at ap
      omega
    · exact new ⟨_, inv.big_held b hb (by omega), e⟩

/-- A block of a page depends on its address and type only. -/
lemma blk_congr {r r' : PageRef} (pab : r'.pageaddrAndBlocktype = r.pageaddrAndBlocktype) {p : Nat}
    (blk : r.Blk p) : r'.Blk p := by
  have pa : r'.pageaddr = r.pageaddr := by rw [PageRef.pageaddr, pab]; rfl
  have bt : r'.blocktype = r.blocktype := by rw [PageRef.blocktype, pab]; rfl
  exact ⟨pa ▸ blk.ge, pa ▸ blk.lt, by rw [bt, pa]; exact blk.dvd⟩

/-- A critical section that keeps the pages and the large allocations. -/
lemma Inv.retable (inv : s.Inv al fls) {km : Km} {fls' : Nat → List Nat} {live : List Live}
    (hk : km.Inv al fls')
    (pab : ∀ i ∈ al, (km.pagerefs i).pageaddrAndBlocktype = (s.km.pagerefs i).pageaddrAndBlocktype)
    (big : ∀ b : Live, largestSubpageSize ≤ b.sz → (b ∈ live ↔ b ∈ s.live))
    (small : ∀ b ∈ live, b.sz < largestSubpageSize → ∃ i ∈ al,
      blocktype b.sz = .ok (s.km.pagerefs i).blocktype ∧ (s.km.pagerefs i).Blk b.ptr ∧ b.ptr ∉ fls' i)
    (nodup : (live.map Live.ptr).Nodup) : Inv { s with km := km, live := live } al fls' := by
  have pa : ∀ i ∈ al, (km.pagerefs i).pageaddr = (s.km.pagerefs i).pageaddr := by
    intro i hi
    rw [PageRef.pageaddr, pab i hi]
    rfl
  refine ⟨hk, inv.held_ok, inv.held_apart, ?_, ?_, inv.got_held, ?_, ?_, ?_, nodup, inv.needs, inv.gots⟩
  · refine inv.owned.congr ?_ (fun x => Iff.rfl)
    intro o x
    cases o with
    | page i =>
      refine and_congr_right ?_
      intro hi
      rw [← pa i hi]
    | thread t => exact Iff.rfl
    | client p =>
      refine and_congr_right ?_
      rintro -
      constructor
      · rintro ⟨b, hb, e, hbig⟩
        exact ⟨b, (big b hbig).1 hb, e, hbig⟩
      · rintro ⟨b, hb, e, hbig⟩
        exact ⟨b, (big b hbig).2 hb, e, hbig⟩
  · intro i hi
    show ⟨(km.pagerefs i).pageaddr, pageSize⟩ ∈ s.held
    rw [pa i hi]
    exact inv.page_held i hi
  · exact fun b hb hbig => inv.big_held b ((big b hbig).1 hb) hbig
  · exact fun b hb hbig => inv.big_size b ((big b hbig).1 hb) hbig
  · intro b hb hs
    obtain ⟨i, hi, bt, blk, nf⟩ := small b hb hs
    refine ⟨i, hi, ?_, blk_congr (pab i hi) blk, nf⟩
    rw [bt, PageRef.blocktype, PageRef.blocktype, pab i hi]

/-- A thread moves on without taking or giving up a page. -/
lemma Inv.setPc (inv : s.Inv al fls) {t : Nat} {x : Pc} (hand : x.hand = (s.pc t).hand)
    (needs : ∀ sz, x = .needPage sz → sz < largestSubpageSize)
    (gots : ∀ sz a, x = .gotPage sz a → False) :
    Inv { s with pc := Function.update s.pc t x } al fls := by
  refine ⟨inv.km, inv.held_ok, inv.held_apart, ?_, inv.page_held, ?_, inv.big_held, inv.big_size,
    inv.small, inv.nodup, ?_, ?_⟩
  · refine inv.owned.congr ?_ (fun x => Iff.rfl)
    intro o a
    cases o with
    | page i => exact Iff.rfl
    | thread u =>
      simp only [Owns]
      by_cases e : u = t
      · rw [e, Function.update_self, hand]
      · rw [Function.update_of_ne e]
    | client p => exact Iff.rfl
  · intro u sz a h
    by_cases e : u = t
    · simp only [e, Function.update_self] at h
      exact absurd (gots sz a h) id
    · simp only [Function.update_of_ne e] at h
      exact inv.got_held u sz a h
  · intro u sz h
    by_cases e : u = t
    · simp only [e, Function.update_self] at h
      exact needs sz h
    · simp only [Function.update_of_ne e] at h
      exact inv.needs u sz h
  · intro u sz a h
    by_cases e : u = t
    · simp only [e, Function.update_self] at h
      exact absurd (gots sz a h) id
    · simp only [Function.update_of_ne e] at h
      exact inv.gots u sz a h

/-- A block of an existing page goes to a client. -/
lemma Inv.hit (inv : s.Inv al fls) {sz km p} (hsz : sz < largestSubpageSize)
    (e : subpageKmalloc1 s.km sz = .ok (some (km, p))) :
    ∃ fls', Inv { s with km := km, live := ⟨p, sz⟩ :: s.live } al fls' := by
  obtain ⟨t, et, ht, -, none | ⟨i, a, fl, k', hi, bt, efl, e', inv', pab⟩⟩ := inv.km.kmalloc1 hsz
  · rw [none.1] at e
    cases e
  · rw [e'] at e
    cases e
    have page := inv.km.page i hi
    have free : p ∈ fls i := by simp [efl]
    have nd := page.nodup
    rw [efl] at nd
    refine ⟨Function.update fls i fl, inv.retable inv' (fun j _ => pab j) ?_ ?_ ?_⟩
    · intro b hbig
      rw [List.mem_cons]
      constructor
      · rintro (rfl | hb)
        · exact absurd hsz (by simp only at hbig; omega)
        · exact hb
      · exact .inr
    · intro b hb hs
      cases List.mem_cons.1 hb with
      | inl eb =>
        rw [eb]
        refine ⟨i, hi, by rw [et, bt], page.blks p free, ?_⟩
        rw [Function.update_self]
        exact (List.nodup_cons.1 nd).1
      | inr hb =>
        obtain ⟨j, hj, bj, blk, nf⟩ := inv.small b hb hs
        refine ⟨j, hj, bj, blk, ?_⟩
        by_cases ej : j = i
        · subst ej
          rw [Function.update_self]
          rw [efl] at nf
          exact fun h => nf (List.mem_cons_of_mem _ h)
        · rwa [Function.update_of_ne ej]
    · refine List.nodup_cons.2 ⟨?_, inv.nodup⟩
      intro h
      obtain ⟨b, hb, eb⟩ := List.mem_map.1 h
      have eb : b.ptr = p := eb
      have ap := inv.live_free_apart hb hi free
      have pos := inv.extent_pos hb
      have ge := (sizes_spec page.type).ge
      simp only [Block.Apart, Block.stop, Live.extent] at ap pos
      omega

/-- A store outside the free blocks. -/
lemma Inv.store (inv : s.Inv al fls) {a w : Nat} (may : s.MayStore a) :
    Inv { s with km := { s.km with mem := Function.update s.km.mem a w } } al fls := by
  have out : ∀ i ∈ al, a ∉ fls i := by
    intro i hi ha
    have page := inv.km.page i hi
    have blk := page.blks a ha
    have ge := (sizes_spec page.type).ge
    cases may with
    | inl h =>
      obtain ⟨b, hb, hx⟩ := h
      have ap := inv.live_free_apart hb hi ha
      simp only [Block.Apart, Block.Has, Block.stop] at ap hx
      omega
    | inr h =>
      refine h _ (inv.page_held i hi) ?_
      have lo := blk.ge
      have lt := blk.lt
      simp only [Block.Has, Block.stop]
      omega
  have hk : Km.Inv { s.km with mem := Function.update s.km.mem a w } al fls := by
    refine ⟨⟨inv.km.all, inv.km.nodup, inv.km.size, inv.km.bound, inv.km.inuse, ?_, inv.km.inj⟩,
      inv.km.busy⟩
    intro i hi
    refine (inv.km.page i hi).frame ?_
    intro x hx
    apply Function.update_of_ne
    rintro rfl
    exact out i hi hx
  exact inv.retable hk (fun _ _ => rfl) (fun _ _ => Iff.rfl) inv.small inv.nodup

/-- A page goes to a thread. -/
lemma Inv.page (inv : s.Inv al fls) {t sz a} (pc : s.pc t = .needPage sz) (fr : s.Fresh 1 a) :
    Inv { s with pc := Function.update s.pc t (.gotPage sz a), held := ⟨a, pageSize⟩ :: s.held } al
      fls := by
  have new := fr.not_holds inv
  have high := fr.high
  have ap := fr.apart
  rw [Nat.one_mul] at high ap
  refine ⟨inv.km, ?_, ?_, ?_, ?_, ?_, ?_, inv.big_size, inv.small, inv.nodup, ?_, ?_⟩
  · intro b hb
    cases List.mem_cons.1 hb with
    | inl e => rw [e]; exact ⟨fr.aligned, fr.low, high, (by decide : 0 < pageSize)⟩
    | inr hb => exact inv.held_ok b hb
  · exact List.pairwise_cons.2 ⟨fun b hb => (ap b hb).symm, inv.held_apart⟩
  · refine inv.owned.add (a := a) (c := .thread t) new ?_ ?_ ?_
    · intro x h
      simp [Owns, pc, Pc.hand] at h
    · intro o x
      cases o with
      | page i => simp [Owns]
      | client p => simp [Owns]
      | thread u =>
        simp only [Owns, Owner.thread.injEq]
        by_cases e : u = t
        · subst e
          rw [Function.update_self, pc]
          simp [Pc.hand, eq_comm]
        · rw [Function.update_of_ne e]
          simp [e]
    · intro x
      simp only [Holds, List.mem_cons, exists_eq_or_imp]
      rw [or_comm, eq_comm (a := a)]
  · exact fun i hi => List.mem_cons_of_mem _ (inv.page_held i hi)
  · intro u sz' a' h
    by_cases e : u = t
    · simp only [e, Function.update_self, Pc.gotPage.injEq] at h
      rw [← h.2]
      exact List.mem_cons_self
    · simp only [Function.update_of_ne e] at h
      exact List.mem_cons_of_mem _ (inv.got_held u sz' a' h)
  · exact fun b hb hbig => List.mem_cons_of_mem _ (inv.big_held b hb hbig)
  · intro u sz' h
    by_cases e : u = t
    · simp [e] at h
    · simp only [Function.update_of_ne e] at h
      exact inv.needs u sz' h
  · intro u sz' a' h
    by_cases e : u = t
    · simp only [e, Function.update_self, Pc.gotPage.injEq] at h
      rw [← h.1]
      exact inv.needs t sz pc
    · simp only [Function.update_of_ne e] at h
      exact inv.gots u sz' a' h

/-- The page of a thread enters the tables, and its first block goes to a client. -/
lemma Inv.enter (inv : s.Inv al fls) {t sz a km p} (pc : s.pc t = .gotPage sz a)
    (e : subpageKmalloc2 s.km sz a = .ok (km, some p)) :
    ∃ al' fls', Inv { s with km := km, pc := Function.update s.pc t .idle, live := ⟨p, sz⟩ :: s.live }
      al' fls' := by
  have hsz := inv.gots t sz a pc
  have held := inv.got_held t sz a pc
  obtain ⟨alg, low, high, -⟩ := inv.held_ok _ held
  have own : s.Owns al (.thread t) a := by simp [Owns, pc, Pc.hand]
  have fresh : ∀ i ∈ al, (s.km.pagerefs i).pageaddr ≠ a := by
    intro i hi h
    cases inv.owned.inj own (show s.Owns al (.page i) a from ⟨hi, h⟩)
  have noclient : ∀ c ∈ s.live, largestSubpageSize ≤ c.sz → c.ptr ≠ a := by
    intro c hc hbig h
    cases inv.owned.inj own (show s.Owns al (.client a) a from ⟨rfl, c, hc, h, hbig⟩)
  obtain ⟨bt, et, ht, -⟩ := blocktype_spec hsz
  cases inv.km.kmalloc2 et ht alg low high fresh with
  | inl none =>
    rw [none] at e
    cases e
  | inr got =>
    obtain ⟨i, q, fl, k', ni, e', inv', pa, ebt, blk, nf, pab⟩ := got
    rw [e'] at e
    cases e
    have pa' : ∀ j ∈ al, (km.pagerefs j).pageaddr = (s.km.pagerefs j).pageaddr := by
      intro j hj
      rw [PageRef.pageaddr, pab j hj]
      rfl
    refine ⟨i :: al, Function.update fls i fl, inv', inv.held_ok, inv.held_apart, ?_, ?_, ?_, ?_, ?_, ?_,
      ?_, ?_, ?_⟩
    · refine inv.owned.transfer own (d := .page i) (fun x h => ni h.1) ?_ (fun x => Iff.rfl)
      intro o x
      cases o with
      | page j =>
        simp only [Owns, List.mem_cons, Owner.page.injEq]
        by_cases ej : j = i
        · subst ej
          simp [pa, ni, eq_comm]
        · constructor
          · rintro ⟨h | h, hx⟩
            · exact absurd h ej
            · exact .inl ⟨⟨h, (pa' j h).symm.trans hx⟩, by simp⟩
          · rintro (⟨⟨h, hx⟩, -⟩ | ⟨h, -⟩)
            · exact ⟨.inr h, (pa' j h).trans hx⟩
            · exact absurd h ej
      | thread u =>
        simp only [Owns]
        by_cases eu : u = t
        · subst eu
          simp [Pc.hand]
        · rw [Function.update_of_ne eu]
          simp [eu]
      | client c =>
        simp only [Owns, List.mem_cons]
        constructor
        · rintro ⟨rfl, b, rfl | hb, eb, hbig⟩
          · exact absurd hsz (by simp only at hbig; omega)
          · exact .inl ⟨⟨rfl, b, hb, eb, hbig⟩, by simp⟩
        · rintro (⟨⟨rfl, b, hb, eb, hbig⟩, -⟩ | ⟨h, -⟩)
          · exact ⟨rfl, b, .inr hb, eb, hbig⟩
          · cases h
    · intro j hj
      show ⟨(km.pagerefs j).pageaddr, pageSize⟩ ∈ s.held
      cases List.mem_cons.1 hj with
      | inl ej => rw [ej, pa]; exact held
      | inr hj => rw [pa' j hj]; exact inv.page_held j hj
    · intro u sz' a' h
      by_cases eu : u = t
      · simp [eu] at h
      · simp only [Function.update_of_ne eu] at h
        exact inv.got_held u sz' a' h
    · intro b hb hbig
      cases List.mem_cons.1 hb with
      | inl eb => rw [eb] at hbig; exact absurd hsz (by simp only at hbig; omega)
      | inr hb => exact inv.big_held b hb hbig
    · intro b hb hbig
      cases List.mem_cons.1 hb with
      | inl eb => rw [eb] at hbig; exact absurd hsz (by simp only at hbig; omega)
      | inr hb => exact inv.big_size b hb hbig
    · intro b hb hs
      cases List.mem_cons.1 hb with
      | inl eb =>
        rw [eb]
        refine ⟨i, by simp, by rw [et, ebt], blk, ?_⟩
        rw [Function.update_self]
        exact nf
      | inr hb =>
        obtain ⟨j, hj, bj, blkj, nfj⟩ := inv.small b hb hs
        have ne : j ≠ i := fun h => ni (h ▸ hj)
        refine ⟨j, List.mem_cons_of_mem _ hj, ?_, blk_congr (pab j hj) blkj, ?_⟩
        · rw [bj, PageRef.blocktype, PageRef.blocktype, pab j hj]
        · rwa [Function.update_of_ne ne]
    · refine List.nodup_cons.2 ⟨?_, inv.nodup⟩
      intro h
      obtain ⟨b, hb, eb⟩ := List.mem_map.1 h
      have eb : b.ptr = p := eb
      refine inv.ptr_not_in hb held fresh noclient ?_
      have ge := blk.ge
      have lt := blk.lt
      rw [pa] at ge lt
      rw [eb]
      exact ⟨ge, lt⟩
    · intro u sz' h
      by_cases eu : u = t
      · simp [eu] at h
      · simp only [Function.update_of_ne eu] at h
        exact inv.needs u sz' h
    · intro u sz' a' h
      by_cases eu : u = t
      · simp [eu] at h
      · simp only [Function.update_of_ne eu] at h
        exact inv.gots u sz' a' h

/-- Without a pageref the tables stay as they are. -/
lemma Inv.enterFail (inv : s.Inv al fls) {t sz a km} (pc : s.pc t = .gotPage sz a)
    (e : subpageKmalloc2 s.km sz a = .ok (km, none)) :
    Inv { s with km := km, pc := Function.update s.pc t (.givePage a) } al fls := by
  have hsz := inv.gots t sz a pc
  obtain ⟨alg, low, high, -⟩ := inv.held_ok _ (inv.got_held t sz a pc)
  have own : s.Owns al (.thread t) a := by simp [Owns, pc, Pc.hand]
  have fresh : ∀ i ∈ al, (s.km.pagerefs i).pageaddr ≠ a := by
    intro i hi h
    cases inv.owned.inj own (show s.Owns al (.page i) a from ⟨hi, h⟩)
  obtain ⟨bt, et, ht, -⟩ := blocktype_spec hsz
  cases inv.km.kmalloc2 et ht alg low high fresh with
  | inl none =>
    rw [none] at e
    cases e
    exact inv.setPc (by simp [pc, Pc.hand]) (by simp) (by simp)
  | inr got =>
    obtain ⟨i, q, fl, k', -, e', -⟩ := got
    rw [e'] at e
    cases e

/-- The pointers that stay live when one is freed. -/
lemma Inv.mem_erase (inv : s.Inv al fls) {b c : Live} :
    c ∈ s.live.erase b ↔ c ≠ b ∧ c ∈ s.live :=
  (List.Nodup.of_map _ inv.nodup).mem_erase_iff

/-- Live blocks have pointers of their own. -/
lemma Inv.ptr_inj (inv : s.Inv al fls) {b c : Live} (hb : b ∈ s.live) (hc : c ∈ s.live)
    (e : b.ptr = c.ptr) : b = c :=
  List.inj_on_of_nodup_map inv.nodup hb hc e

/-- `kfree` of a live pointer returns: a block goes back to its page, or pages to `free_kpages`. -/
lemma Inv.kfree_cases (inv : s.Inv al fls) {b : Live} (hb : b ∈ s.live) :
    (∃ i k', b.sz < largestSubpageSize ∧ i ∈ al ∧ (s.km.pagerefs i).Blk b.ptr ∧ b.ptr ∉ fls i ∧
      (∀ j, (k'.pagerefs j).pageaddrAndBlocktype = (s.km.pagerefs j).pageaddrAndBlocktype) ∧
      (((fls i).length + 1 < pageSize / sizes (s.km.pagerefs i).blocktype ∧
          kfree s.km b.ptr = .ok (k', none) ∧ k'.Inv al (Function.update fls i (b.ptr :: fls i))) ∨
        ((fls i).length + 1 = pageSize / sizes (s.km.pagerefs i).blocktype ∧
          kfree s.km b.ptr = .ok (k', some (s.km.pagerefs i).pageaddr) ∧ k'.Inv (al.erase i) fls))) ∨
    (largestSubpageSize ≤ b.sz ∧ kfree s.km b.ptr = .ok (s.km, some b.ptr)) := by
  by_cases h : b.sz < largestSubpageSize
  · obtain ⟨i, hi, -, blk, nf⟩ := inv.small b hb h
    obtain ⟨k', pab, spec⟩ := inv.km.kfree_blk hi blk nf
    exact .inl ⟨i, k', h, hi, blk, nf, pab, spec⟩
  · have big : largestSubpageSize ≤ b.sz := by omega
    have held := inv.big_held b hb big
    obtain ⟨alg, low, -, pos⟩ := inv.held_ok _ held
    refine .inr ⟨big, inv.km.kfree_pages low.ne' alg ?_⟩
    rintro i hi ⟨ge, lt⟩
    refine inv.page_not_big hi hb big ?_
    have e := inv.held_unique (x := b.ptr) (inv.page_held i hi) held ⟨ge, lt⟩
      ⟨le_refl _, by simp only [Block.stop] at *; omega⟩
    exact congrArg Block.start e

/-- A freed block stays on its page. -/
lemma Inv.free (inv : s.Inv al fls) {b km} (hb : b ∈ s.live)
    (e : kfree s.km b.ptr = .ok (km, none)) :
    ∃ fls', Inv { s with km := km, live := s.live.erase b } al fls' := by
  cases inv.kfree_cases hb with
  | inl h =>
    obtain ⟨i, k', hs, hi, blk, nf, pab, ⟨-, e', inv'⟩ | ⟨-, e', -⟩⟩ := h
    · rw [e'] at e
      cases e
      refine ⟨Function.update fls i (b.ptr :: fls i), inv.retable inv' (fun j _ => pab j) ?_ ?_ ?_⟩
      · intro c hbig
        rw [inv.mem_erase]
        refine ⟨fun h => h.2, fun h => ⟨?_, h⟩⟩
        rintro rfl
        omega
      · intro c hc hcs
        obtain ⟨ne, hc⟩ := inv.mem_erase.1 hc
        obtain ⟨j, hj, bj, blkj, nfj⟩ := inv.small c hc hcs
        refine ⟨j, hj, bj, blkj, ?_⟩
        by_cases ej : j = i
        · subst ej
          rw [Function.update_self, List.mem_cons, not_or]
          exact ⟨fun h => ne (inv.ptr_inj hc hb h), nfj⟩
        · rwa [Function.update_of_ne ej]
      · exact inv.nodup.sublist ((List.erase_sublist).map _)
    · rw [e'] at e
      cases e
  | inr h =>
    rw [h.2] at e
    cases e

/-- The page of the last block in use, or the pages of a large allocation, go to the thread that frees
them. -/
lemma Inv.freePages (inv : s.Inv al fls) {t b km a} (pc : s.pc t = .idle) (hb : b ∈ s.live)
    (e : kfree s.km b.ptr = .ok (km, some a)) :
    ∃ al', Inv { s with km := km, live := s.live.erase b, pc := Function.update s.pc t (.givePage a) }
      al' fls := by
  have idle : ∀ x, ¬ s.Owns al (.thread t) x := by
    intro x h
    simp [Owns, pc, Pc.hand] at h
  have got : ∀ u sz' a', Function.update s.pc t (.givePage a) u = .gotPage sz' a' →
      s.pc u = .gotPage sz' a' := by
    intro u sz' a' h
    by_cases eu : u = t
    · simp [eu] at h
    · rwa [Function.update_of_ne eu] at h
  have need : ∀ u sz', Function.update s.pc t (.givePage a) u = .needPage sz' →
      s.pc u = .needPage sz' := by
    intro u sz' h
    by_cases eu : u = t
    · simp [eu] at h
    · rwa [Function.update_of_ne eu] at h
  have nd : ((s.live.erase b).map Live.ptr).Nodup := inv.nodup.sublist ((List.erase_sublist).map _)
  have thread : ∀ u x, (Function.update s.pc t (.givePage a) u).hand = some x ↔
      (s.pc u).hand = some x ∨ (u = t ∧ x = a) := by
    intro u x
    by_cases eu : u = t
    · subst eu
      simp [Pc.hand, pc, eq_comm]
    · rw [Function.update_of_ne eu]
      simp [eu]
  cases inv.kfree_cases hb with
  | inl h =>
    obtain ⟨i, k', hs, hi, blk, nf, pab, ⟨-, e', -⟩ | ⟨full, e', inv'⟩⟩ := h
    · rw [e'] at e
      cases e
    · rw [e'] at e
      cases e
      have pa : ∀ j, (km.pagerefs j).pageaddr = (s.km.pagerefs j).pageaddr := by
        intro j
        rw [PageRef.pageaddr, pab j]
        rfl
      have bigs : ∀ c : Live, largestSubpageSize ≤ c.sz → (c ∈ s.live.erase b ↔ c ∈ s.live) := by
        intro c hbig
        rw [inv.mem_erase]
        refine ⟨fun h => h.2, fun h => ⟨?_, h⟩⟩
        rintro rfl
        omega
      refine ⟨al.erase i, inv', inv.held_ok, inv.held_apart, ?_, ?_,
        fun u sz' a' h => inv.got_held u sz' a' (got u sz' a' h), ?_, ?_, ?_, nd,
        fun u sz' h => inv.needs u sz' (need u sz' h), fun u sz' a' h => inv.gots u sz' a' (got u sz' a' h)⟩
      · refine inv.owned.transfer (c := .page i) (d := .thread t) ⟨hi, rfl⟩ idle ?_ (fun x => Iff.rfl)
        intro o x
        cases o with
        | page j =>
          simp only [Owns, inv.km.nodup.mem_erase_iff, pa]
          constructor
          · rintro ⟨⟨ne, hj⟩, hx⟩
            exact .inl ⟨⟨hj, hx⟩, by simpa using ne⟩
          · rintro (⟨⟨hj, hx⟩, ne⟩ | ⟨h, -⟩)
            · exact ⟨⟨by simpa using ne, hj⟩, hx⟩
            · cases h
        | thread u => simpa [Owns] using thread u x
        | client c =>
          simp only [Owns]
          constructor
          · rintro ⟨rfl, d, hd, ed, hbig⟩
            exact .inl ⟨⟨rfl, d, (bigs d hbig).1 hd, ed, hbig⟩, by simp⟩
          · rintro (⟨⟨rfl, d, hd, ed, hbig⟩, -⟩ | ⟨h, -⟩)
            · exact ⟨rfl, d, (bigs d hbig).2 hd, ed, hbig⟩
            · cases h
      · intro j hj
        show ⟨(km.pagerefs j).pageaddr, pageSize⟩ ∈ s.held
        rw [pa]
        exact inv.page_held j (List.mem_of_mem_erase hj)
      · exact fun c hc hbig => inv.big_held c ((bigs c hbig).1 hc) hbig
      · exact fun c hc hbig => inv.big_size c ((bigs c hbig).1 hc) hbig
      · -- a live block on the removed page would keep it in use
        intro c hc hcs
        obtain ⟨ne, old⟩ := inv.mem_erase.1 hc
        obtain ⟨j, hj, bj, blkj, nfj⟩ := inv.small c old hcs
        have ji : j ≠ i := by
          rintro rfl
          have page := inv.km.page j hj
          have le := blks_length_le (l := c.ptr :: b.ptr :: fls j) page.type ?_ ?_
          · simp only [List.length_cons] at le
            omega
          · have cb : c.ptr ≠ b.ptr := fun h => ne (inv.ptr_inj old hb h)
            exact List.nodup_cons.2 ⟨by simp [cb, nfj], List.nodup_cons.2 ⟨nf, page.nodup⟩⟩
          · intro x hx
            rcases List.mem_cons.1 hx with rfl | hx
            · exact blkj
            · rcases List.mem_cons.1 hx with rfl | hx
              · exact blk
              · exact page.blks x hx
        refine ⟨j, inv.km.nodup.mem_erase_iff.2 ⟨ji, hj⟩, ?_, blk_congr (pab j) blkj, nfj⟩
        rw [bj, PageRef.blocktype, PageRef.blocktype, pab j]
  | inr h =>
    obtain ⟨big, e'⟩ := h
    rw [e'] at e
    cases e
    have own : s.Owns al (.client b.ptr) b.ptr := ⟨rfl, b, hb, rfl, big⟩
    refine ⟨al, inv.km, inv.held_ok, inv.held_apart, ?_, inv.page_held,
      fun u sz' a' h => inv.got_held u sz' a' (got u sz' a' h),
      fun c hc hbig => inv.big_held c (List.mem_of_mem_erase hc) hbig,
      fun c hc hbig => inv.big_size c (List.mem_of_mem_erase hc) hbig,
      fun c hc hcs => inv.small c (List.mem_of_mem_erase hc) hcs, nd,
      fun u sz' h => inv.needs u sz' (need u sz' h), fun u sz' a' h => inv.gots u sz' a' (got u sz' a' h)⟩
    refine inv.owned.transfer own idle ?_ (fun x => Iff.rfl)
    intro o x
    cases o with
    | page j => simp [Owns]
    | thread u => simpa [Owns] using thread u x
    | client c =>
      simp only [Owns]
      constructor
      · rintro ⟨rfl, d, hd, ed, hbig⟩
        obtain ⟨ne, hd⟩ := inv.mem_erase.1 hd
        refine .inl ⟨⟨rfl, d, hd, ed, hbig⟩, ?_⟩
        intro h
        exact ne (inv.ptr_inj hd hb (ed.trans (Owner.client.inj h)))
      · rintro (⟨⟨rfl, d, hd, ed, hbig⟩, ne⟩ | ⟨h, -⟩)
        · refine ⟨rfl, d, inv.mem_erase.2 ⟨?_, hd⟩, ed, hbig⟩
          rintro rfl
          exact ne (by rw [ed])
        · cases h

/-- A range goes back to `free_kpages`. -/
lemma Inv.give (inv : s.Inv al fls) {t a} (pc : s.pc t = .givePage a) :
    Inv { s with pc := Function.update s.pc t .idle, held := s.held.filter (fun b => b.start != a) }
      al fls := by
  have own : s.Owns al (.thread t) a := by simp [Owns, pc, Pc.hand]
  have keep : ∀ {b : Block}, b ∈ s.held → b.start ≠ a → b ∈ s.held.filter (fun b => b.start != a) :=
    fun hb ne => List.mem_filter.2 ⟨hb, by simpa using ne⟩
  have other : ∀ u x, Function.update s.pc t .idle u = x → x ≠ .idle → s.pc u = x ∧ u ≠ t := by
    intro u x h ne
    by_cases eu : u = t
    · rw [eu, Function.update_self] at h
      exact absurd h.symm ne
    · rw [Function.update_of_ne eu] at h
      exact ⟨h, eu⟩
  refine ⟨inv.km, fun b hb => inv.held_ok b (List.mem_filter.1 hb).1,
    inv.held_apart.filter _, ?_, ?_, ?_, ?_, inv.big_size, inv.small, inv.nodup, ?_, ?_⟩
  · refine inv.owned.drop own ?_ ?_
    · intro o x
      cases o with
      | page i => simp [Owns]
      | client p => simp [Owns]
      | thread u =>
        simp only [Owns, ne_eq, Owner.thread.injEq]
        by_cases eu : u = t
        · subst eu
          simp [Pc.hand]
        · rw [Function.update_of_ne eu]
          simp [eu]
    · intro x
      simp only [Holds, List.mem_filter, bne_iff_ne]
      constructor
      · rintro ⟨b, ⟨hb, ne⟩, rfl⟩
        exact ⟨⟨b, hb, rfl⟩, ne⟩
      · rintro ⟨⟨b, hb, rfl⟩, ne⟩
        exact ⟨b, ⟨hb, ne⟩, rfl⟩
  · intro i hi
    refine keep (inv.page_held i hi) ?_
    intro h
    cases inv.owned.inj own (show s.Owns al (.page i) a from ⟨hi, h⟩)
  · intro u sz' a' h
    obtain ⟨h, ne⟩ := other u _ h (by simp)
    refine keep (inv.got_held u sz' a' h) ?_
    intro ea
    have ea : a' = a := ea
    have own' : s.Owns al (.thread u) a := by simp [Owns, h, Pc.hand, ea]
    exact ne (Owner.thread.inj (inv.owned.inj own' own))
  · intro b hb hbig
    refine keep (inv.big_held b hb hbig) ?_
    intro h
    cases inv.owned.inj own (show s.Owns al (.client a) a from ⟨rfl, b, hb, h, hbig⟩)
  · intro u sz' h
    exact inv.needs u sz' (other u _ h (by simp)).1
  · intro u sz' a' h
    exact inv.gots u sz' a' (other u _ h (by simp)).1

/-- Every step keeps the invariant. -/
lemma Inv.step (inv : s.Inv al fls) {s' : KSys} (st : KStep s s') : ∃ al' fls', s'.Inv al' fls' := by
  cases st with
  | big pc hbig h32 fr => exact ⟨al, fls, inv.big hbig h32 fr⟩
  | bigFail => exact ⟨al, fls, inv⟩
  | hit pc hsz e => exact ⟨al, inv.hit hsz e⟩
  | miss pc hsz e =>
    refine ⟨al, fls, inv.setPc (by simp [pc, Pc.hand]) ?_ (by simp)⟩
    rintro _ ⟨⟩
    exact hsz
  | page pc fr => exact ⟨al, fls, inv.page pc fr⟩
  | pageFail pc => exact ⟨al, fls, inv.setPc (by simp [pc, Pc.hand]) (by simp) (by simp)⟩
  | enter pc e => exact inv.enter pc e
  | enterFail pc e => exact ⟨al, fls, inv.enterFail pc e⟩
  | free pc hb e => exact ⟨al, inv.free hb e⟩
  | freePages pc hb e =>
    obtain ⟨al', inv'⟩ := inv.freePages pc hb e
    exact ⟨al', fls, inv'⟩
  | give pc => exact ⟨al, fls, inv.give pc⟩
  | store may => exact ⟨al, fls, inv.store may⟩

/-- Every run keeps the invariant. -/
lemma Inv.run {s s' : KSys} (run : Relation.ReflTransGen KStep s s')
    (inv : ∃ al fls, s.Inv al fls) : ∃ al fls, s'.Inv al fls := by
  induction run with
  | refl => exact inv
  | tail _ st ih =>
    obtain ⟨al, fls, inv⟩ := ih
    exact inv.step st

/-- What the heap looks like between two steps, given its list of pages `al`, its lists by block size
`sl` and the free blocks `fls` of each page. -/
structure Spec (s : KSys) (al : List Nat) (sl fls : Nat → List Nat) : Prop where
  all : Chain s.km.nextAll s.km.allbase al
  all_nodup : al.Nodup
  size : ∀ t < nsizes, Chain s.km.nextSamesize (s.km.sizebases t) (sl t) ∧ (sl t).Nodup
  active : ∀ i, i ∈ al ↔ i < npagerefs ∧ s.km.bit i = true
  own_size : ∀ i ∈ al, (s.km.pagerefs i).blocktype < nsizes
  on_size : ∀ t < nsizes, ∀ i, i ∈ sl t ↔ i ∈ al ∧ (s.km.pagerefs i).blocktype = t
  chain : ∀ i ∈ al, Chain (linkOf s.km.mem) (s.km.pagerefs i).head (fls i)
  nfree : ∀ i ∈ al, (s.km.pagerefs i).nfree = (fls i).length
  entries : ∀ i ∈ al, (fls i).Nodup ∧ ∀ a ∈ fls i, (s.km.pagerefs i).Blk a
  invalid : ∀ i ∈ al, (s.km.pagerefs i).freelistOffset = invalidOffset ↔ (s.km.pagerefs i).nfree = 0
  live_apart : s.live.Pairwise (fun b c => b.extent.Apart c.extent)
  live_size : ∀ b ∈ s.live, b.sz ≤ b.extent.size
  live_not_free : ∀ b ∈ s.live, ∀ i ∈ al, ∀ a ∈ fls i,
    b.extent.Apart ⟨a, sizes (s.km.pagerefs i).blocktype⟩
  /-- no page stays in the tables with all its blocks free -/
  in_use : ∀ i ∈ al, (s.km.pagerefs i).nfree < pageSize / sizes (s.km.pagerefs i).blocktype
  /-- a range that is not given back is a page of the tables, in the hands of a thread, or live -/
  accounted : ∀ r ∈ s.held, (∃ i ∈ al, (s.km.pagerefs i).pageaddr = r.start) ∨
    (∃ t, (s.pc t).hand = some r.start) ∨ ∃ b ∈ s.live, b.extent = r

/-- `kfree` of the last block in use of a page takes the page out of the tables and leads to
`free_kpages` on it. -/
def Drains (s : KSys) (al : List Nat) (sl : Nat → List Nat) : Prop :=
  ∀ b ∈ s.live, ∀ i ∈ al, (s.km.pagerefs i).Blk b.ptr →
    (s.km.pagerefs i).nfree + 1 = pageSize / sizes (s.km.pagerefs i).blocktype →
    ∃ km, kfree s.km b.ptr = .ok (km, some (s.km.pagerefs i).pageaddr) ∧ km.bit i = false ∧
      Chain km.nextAll km.allbase (al.erase i) ∧
      ∀ t < nsizes, Chain km.nextSamesize (km.sizebases t) ((sl t).erase i)

/-- No critical section that a thread can run next halts. -/
def Returns (s : KSys) : Prop :=
  (∀ sz < largestSubpageSize, ∃ r, subpageKmalloc1 s.km sz = .ok r) ∧
  (∀ t sz a, s.pc t = .gotPage sz a → ∃ r, subpageKmalloc2 s.km sz a = .ok r) ∧
  ∀ b ∈ s.live, ∃ r, kfree s.km b.ptr = .ok r

/-- The size lists of the tables. -/
def sizeList (s : KSys) (al : List Nat) (t : Nat) : List Nat :=
  al.filter (fun i => (s.km.pagerefs i).blocktype = t)

/-- The invariant says what is to be kept. -/
lemma Inv.spec (inv : s.Inv al fls) : s.Spec al (s.sizeList al) fls where
  all := inv.km.all
  all_nodup := inv.km.nodup
  size t ht := ⟨inv.km.size t ht, inv.km.nodup.filter _⟩
  active i := by
    constructor
    · exact fun hi => ⟨inv.km.bound i hi, (inv.km.inuse i (inv.km.bound i hi)).2 hi⟩
    · exact fun h => (inv.km.inuse i h.1).1 h.2
  own_size i hi := (inv.km.page i hi).type
  on_size t _ i := by simp [sizeList]
  chain i hi := (inv.km.page i hi).chain
  nfree i hi := (inv.km.page i hi).nfree
  entries i hi := ⟨(inv.km.page i hi).nodup, (inv.km.page i hi).blks⟩
  invalid i hi := (inv.km.page i hi).invalid_iff
  live_apart := by
    have nd : s.live.Pairwise (fun b c => b.ptr ≠ c.ptr) := List.pairwise_map.1 inv.nodup
    exact nd.imp_of_mem (fun hb hc ne => inv.live_apart hb hc ne)
  live_size b hb := by
    by_cases h : b.sz < largestSubpageSize
    · obtain ⟨i, -, bt, -, -⟩ := inv.small b hb h
      obtain ⟨t, et, -, le⟩ := blocktype_spec h
      rw [Live.extent, allotted_small h et]
      exact le
    · have big : largestSubpageSize ≤ b.sz := by omega
      have pos := inv.extent_pos hb
      rw [Live.extent, allotted_big big] at pos ⊢
      exact npagesFor_le (inv.big_size b hb big) (Nat.pos_of_mul_pos_right pos)
  live_not_free b hb i hi a ha := inv.live_free_apart hb hi ha
  in_use i hi := by
    rw [(inv.km.page i hi).nfree]
    exact inv.km.busy i hi
  accounted r hr := by
    obtain ⟨o, ho⟩ := inv.owned.total (show s.Holds r.start from ⟨r, hr, rfl⟩)
    cases o with
    | page i => exact .inl ⟨i, ho.1, ho.2⟩
    | thread t => exact .inr (.inl ⟨t, ho⟩)
    | client p =>
      obtain ⟨-, b, hb, e, big⟩ := ho
      have held := inv.big_held b hb big
      have pos := (inv.held_ok _ held).2.2.2
      have rpos := (inv.held_ok _ hr).2.2.2
      have ext : b.extent = ⟨b.ptr, npagesFor b.sz * pageSize⟩ := by rw [Live.extent, allotted_big big]
      refine .inr (.inr ⟨b, hb, ?_⟩)
      rw [ext]
      refine inv.held_unique (x := r.start) held hr ?_ ?_
      · simp only [Block.Has, Block.stop] at pos ⊢
        omega
      · simp only [Block.Has, Block.stop]
        omega

/-- Everything that is live can be freed. -/
lemma Inv.drains (inv : s.Inv al fls) : s.Drains al (s.sizeList al) := by
  intro b hb i hi blk full
  have page := inv.km.page i hi
  have lt := blk.lt
  have ge := blk.ge
  cases inv.kfree_cases hb with
  | inl h =>
    obtain ⟨j, k', hs, hj, blkj, nf, pab, spec⟩ := h
    have ij : i = j := by
      by_contra ne
      have := inv.km.pages_apart hi hj ne
      have gj := blkj.ge
      have lj := blkj.lt
      omega
    subst ij
    rw [page.nfree] at full
    cases spec with
    | inl h => omega
    | inr h =>
      obtain ⟨-, e, inv'⟩ := h
      refine ⟨k', e, ?_, inv'.all, ?_⟩
      · by_contra hbit
        have mem := (inv'.inuse i (inv.km.bound i hi)).1 (by simpa using hbit)
        exact (inv.km.nodup.mem_erase_iff.1 mem).1 rfl
      · intro t ht
        have c := inv'.size t ht
        have er : (al.erase i).filter (fun j => (k'.pagerefs j).blocktype = t)
            = (s.sizeList al t).erase i := by
          have bts : ∀ j, (k'.pagerefs j).blocktype = (s.km.pagerefs j).blocktype := by
            intro j
            rw [PageRef.blocktype, pab j]
            rfl
          simp only [bts, sizeList]
          rw [inv.km.nodup.erase_eq_filter, (inv.km.nodup.filter _).erase_eq_filter,
            List.filter_filter, List.filter_filter]
          congr 1
          funext j
          exact Bool.and_comm _ _
        rwa [er] at c
  | inr h =>
    -- a large allocation does not start inside a page of the tables
    have held := inv.big_held b hb h.1
    have pos := (inv.held_ok _ held).2.2.2
    have e := inv.held_unique (x := b.ptr) (inv.page_held i hi) held ⟨ge, lt⟩
      ⟨le_refl _, by simp only [Block.stop] at *; omega⟩
    exact absurd (congrArg Block.start e) (inv.page_not_big hi hb h.1)

/-- Every call returns. -/
lemma Inv.returns (inv : s.Inv al fls) : s.Returns := by
  refine ⟨?_, ?_, ?_⟩
  · intro sz hsz
    obtain ⟨t, -, -, -, none | ⟨i, a, fl, k', -, -, -, e, -⟩⟩ := inv.km.kmalloc1 hsz
    · exact ⟨_, none.1⟩
    · exact ⟨_, e⟩
  · intro t sz a pc
    obtain ⟨alg, low, high, -⟩ := inv.held_ok _ (inv.got_held t sz a pc)
    have own : s.Owns al (.thread t) a := by simp [Owns, pc, Pc.hand]
    have fresh : ∀ i ∈ al, (s.km.pagerefs i).pageaddr ≠ a := by
      intro i hi h
      cases inv.owned.inj own (show s.Owns al (.page i) a from ⟨hi, h⟩)
    obtain ⟨bt, et, ht, -⟩ := blocktype_spec (inv.gots t sz a pc)
    obtain e | ⟨i, p, fl, k', -, e, -⟩ := inv.km.kmalloc2 et ht alg low high fresh
    · exact ⟨_, e⟩
    · exact ⟨_, e⟩
  · intro b hb
    obtain ⟨i, k', -, -, -, -, -, ⟨-, e, -⟩ | ⟨-, e, -⟩⟩ | ⟨-, e⟩ := inv.kfree_cases hb
    · exact ⟨_, e⟩
    · exact ⟨_, e⟩
    · exact ⟨_, e⟩

end KSys

/-- In every state that any interleaving of threads reaches, the tables of the kernel heap are
consistent, live blocks are apart from each other and from the free blocks, a page whose last block is
freed leaves the tables for `free_kpages`, and no critical section halts. -/
theorem kmalloc_heap_consistent {mem : Nat → Nat} {s : KSys}
    (run : Relation.ReflTransGen KStep (KSys.init mem) s) :
    ∃ al sl fls, s.Spec al sl fls ∧ s.Drains al sl ∧ s.Returns := by
  obtain ⟨al, fls, inv⟩ := KSys.Inv.run run ⟨[], fun _ => [], KSys.init_inv mem _⟩
  exact ⟨al, s.sizeList al, fls, inv.spec, inv.drains, inv.returns⟩

/-- Thread 1 allocates two pages while thread 0 is between the two critical sections of
`subpage_kmalloc(100)`. -/
theorem kmalloc_heap_consistent_window : ∃ s, Relation.ReflTransGen KStep (KSys.init fun _ => 0) s ∧
    s.live.map Live.sz = [100, 5000] ∧ ∃ al sl fls, s.Spec al sl fls ∧ s.Drains al sl ∧ s.Returns := by
  let s₀ := KSys.init fun _ => 0
  let s₁ : KSys := { s₀ with pc := Function.update s₀.pc 0 (.needPage 100) }
  let s₂ : KSys := { s₁ with
    live := ⟨0x80050000, 5000⟩ :: s₁.live
    held := ⟨0x80050000, npagesFor 5000 * pageSize⟩ :: s₁.held }
  let s₃ : KSys := { s₂ with
    pc := Function.update s₂.pc 0 (.gotPage 100 0x80040000)
    held := ⟨0x80040000, pageSize⟩ :: s₂.held }
  have st₁ : KStep s₀ s₁ := .miss (t := 0) rfl (by decide) rfl
  have st₂ : KStep s₁ s₂ := by
    refine .big (t := 1) rfl (by decide) (by decide) ⟨by decide, by decide, by decide, by decide, ?_⟩
    intro b hb
    cases hb
  have st₃ : KStep s₂ s₃ := by
    refine .page (t := 0) rfl ⟨by decide, by decide, by decide, by decide, ?_⟩
    intro b hb
    cases List.mem_singleton.1 hb
    exact .inr (by decide)
  have run₃ : Relation.ReflTransGen KStep s₀ s₃ := .tail (.tail (.tail .refl st₁) st₂) st₃
  have gives : ((subpageKmalloc2 s₃.km 100 0x80040000).toOption.bind Prod.snd) = some 0x80040f80 := by
    decide +kernel
  cases e : subpageKmalloc2 s₃.km 100 0x80040000 with
  | error h =>
    rw [e] at gives
    cases gives
  | ok r =>
    obtain ⟨km, p⟩ := r
    rw [e] at gives
    have ep : p = some 0x80040f80 := gives
    rw [ep] at e
    have run₄ := run₃.tail (.enter (t := 0) rfl e)
    exact ⟨_, run₄, rfl, kmalloc_heap_consistent run₄⟩

end PDS.Kern
