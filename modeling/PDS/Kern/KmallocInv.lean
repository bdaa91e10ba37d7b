import PDS.Kern.Kmalloc

/-!
# The invariant of the kernel heap

`Page mem r fl` says that a pageref `r` describes a page whose free blocks are
`fl`, linked through the words of `mem`. `Km.Inv k al fls` is the invariant of the tables at the
boundaries of the critical sections: `al` is the list of all pages, the list of each block size is `al`
filtered by it, the bitmap marks exactly the pagerefs of `al`, and every page of `al` has a block in
use. For each critical section there is one lemma that says that it returns, and what it does to `al`
and to the free lists `fls`.
-/

namespace PDS.Kern
open Word Links

/-- What the size table guarantees. -/
structure BlockSize (n : Nat) : Prop where
  ge : 16 ≤ n
  le : n ≤ 2048
  dvd : n * (pageSize / n) = pageSize
  word : 4 ∣ n

/-- The sizes of the table are sizes of blocks. -/
lemma sizes_spec {t : Nat} (ht : t < nsizes) : BlockSize (sizes t) := by
  have all : ∀ t < 8, 16 ≤ sizes t ∧ sizes t ≤ 2048 ∧ sizes t * (pageSize / sizes t) = pageSize ∧
      4 ∣ sizes t := by decide
  obtain ⟨h1, h2, h3, h4⟩ := all t ht
  exact ⟨h1, h2, h3, h4⟩

/-- A page has at least two blocks and at most 256. -/
lemma BlockSize.count {n : Nat} (bs : BlockSize n) : 2 ≤ pageSize / n ∧ pageSize / n ≤ 256 := by
  have h0 : 0 < n := by have := bs.ge; omega
  refine ⟨(Nat.le_div_iff_mul_le h0).2 ?_, ?_⟩
  · have := bs.le
    simp only [pageSize]
    omega
  · exact (Nat.div_le_div_left bs.ge (by decide)).trans (by decide)

/-- Every small request has a block size. -/
lemma blocktype_spec {sz : Nat} (h : sz < largestSubpageSize) :
    ∃ t, blocktype sz = .ok t ∧ t < nsizes ∧ sz ≤ sizes t := by
  unfold blocktype
  cases e : (List.range nsizes).find? (fun i => sz ≤ sizes i) with
  | none =>
    have last := List.find?_eq_none.1 e 7 (by decide)
    have e7 : sizes 7 = 2048 := by decide
    simp only [e7, decide_eq_true_eq] at last
    simp only [largestSubpageSize] at h
    omega
  | some t =>
    have mem := List.mem_of_find?_eq_some e
    have le := List.find?_some e
    exact ⟨t, rfl, List.mem_range.1 mem, by simpa using le⟩

/-- The page address of a packed page address and block type. -/
lemma pageaddr_mkpab {pa blk : Nat} (al : pageSize ∣ pa) (lt : pa < 2 ^ 32) (hb : blk < pageSize) :
    mkpab pa blk &&& pageFrame = pa ∧ mkpab pa blk &&& (2 ^ 32 - 1 - pageFrame) = blk := by
  obtain ⟨c, rfl⟩ := al
  have e1 : pageFrame = 2 ^ 32 - 2 ^ 12 := by decide
  have e2 : 2 ^ 32 - 1 - pageFrame = 2 ^ 12 - 1 := by decide
  have ps : pageSize = 2 ^ 12 := by decide
  rw [ps] at lt hb ⊢
  have h1 : 2 ^ 12 * c &&& pageFrame = 2 ^ 12 * c := by
    rw [e1, and_highMask (by decide) lt, Nat.mul_div_cancel_left c (by decide), Nat.mul_comm]
  have h2 : blk &&& (2 ^ 32 - 1 - pageFrame) = blk := by
    rw [e2, Nat.and_two_pow_sub_one_eq_mod, Nat.mod_eq_of_lt hb]
  have h3 : mkpab (2 ^ 12 * c) blk = 2 ^ 12 * c + blk := by
    rw [mkpab, h1, h2, Nat.two_pow_add_eq_or_of_lt hb]
  rw [h3]
  constructor
  · rw [e1, and_highMask (by decide) (by omega)]
    omega
  · rw [e2, Nat.and_two_pow_sub_one_eq_mod]
    omega

/-- `a` is the address of a block of the page. -/
structure PageRef.Blk (r : PageRef) (a : Nat) : Prop where
  ge : r.pageaddr ≤ a
  lt : a < r.pageaddr + pageSize
  dvd : sizes r.blocktype ∣ a - r.pageaddr

/-- The address of the first free block, if any. -/
def PageRef.head (r : PageRef) : Option Nat :=
  if r.freelistOffset = invalidOffset then none else some (r.pageaddr + r.freelistOffset)

/-- `fl->next`. -/
def linkOf (mem : Nat → Nat) (a : Nat) : Option Nat := if mem a = 0 then none else some (mem a)

/-- A pageref, the words of memory and the free blocks of the page fit together. -/
structure Page (mem : Nat → Nat) (r : PageRef) (fl : List Nat) : Prop where
  type : r.blocktype < nsizes
  aligned : pageSize ∣ r.pageaddr
  low : 0 < r.pageaddr
  high : r.pageaddr + pageSize < 2 ^ 32
  chain : Chain (linkOf mem) r.head fl
  nodup : fl.Nodup
  blks : ∀ a ∈ fl, r.Blk a
  nfree : r.nfree = fl.length

section Page

variable {mem mem' : Nat → Nat} {r r' : PageRef} {fl : List Nat}

/-- Blocks of a page are apart. -/
lemma PageRef.Blk.apart {a b} (ha : r.Blk a) (hb : r.Blk b) (ne : a ≠ b) :
    a + sizes r.blocktype ≤ b ∨ b + sizes r.blocktype ≤ a := by
  obtain ⟨c, hc⟩ := ha.dvd
  obtain ⟨d, hd⟩ := hb.dvd
  have ga := ha.ge
  have gb := hb.ge
  have cd : c ≠ d := by
    rintro rfl
    omega
  rcases Nat.lt_or_gt_of_ne cd with h | h
  · have := Nat.mul_le_mul_left (sizes r.blocktype) (show c + 1 ≤ d from h)
    rw [Nat.mul_add, Nat.mul_one] at this
    omega
  · have := Nat.mul_le_mul_left (sizes r.blocktype) (show d + 1 ≤ c from h)
    rw [Nat.mul_add, Nat.mul_one] at this
    omega

/-- A block ends inside its page. -/
lemma PageRef.Blk.stop_le {a} (ht : r.blocktype < nsizes) (ha : r.Blk a) :
    a + sizes r.blocktype ≤ r.pageaddr + pageSize := by
  obtain ⟨c, hc⟩ := ha.dvd
  have ga := ha.ge
  have la := ha.lt
  have bs := sizes_spec ht
  have h0 : 0 < sizes r.blocktype := by have := bs.ge; omega
  have hcl : c < pageSize / sizes r.blocktype := by
    apply Nat.lt_of_mul_lt_mul_left (a := sizes r.blocktype)
    rw [bs.dvd]
    omega
  have := Nat.mul_le_mul_left (sizes r.blocktype) (show c + 1 ≤ pageSize / sizes r.blocktype from hcl)
  rw [bs.dvd, Nat.mul_add, Nat.mul_one] at this
  omega

/-- A page has no more blocks than fit. -/
lemma blks_length_le {l : List Nat} (ht : r.blocktype < nsizes) (nd : l.Nodup)
    (hl : ∀ a ∈ l, r.Blk a) : l.length ≤ pageSize / sizes r.blocktype := by
  have bs := sizes_spec ht
  have h0 : 0 < sizes r.blocktype := by have := bs.ge; omega
  have inj : (l.map (fun a => (a - r.pageaddr) / sizes r.blocktype)).Nodup := by
    refine nd.map_on ?_
    intro a ha b hb e
    have e1 := Nat.div_mul_cancel (hl a ha).dvd
    have e2 := Nat.div_mul_cancel (hl b hb).dvd
    have ga := (hl a ha).ge
    have gb := (hl b hb).ge
    rw [e, e2] at e1
    omega
  have sub : l.map (fun a => (a - r.pageaddr) / sizes r.blocktype)
      ⊆ List.range (pageSize / sizes r.blocktype) := by
    intro x hx
    obtain ⟨a, ha, rfl⟩ := List.mem_map.1 hx
    have ga := (hl a ha).ge
    have la := (hl a ha).lt
    refine List.mem_range.2 (Nat.div_lt_div_of_lt_of_dvd ?_ (by omega))
    exact Dvd.intro _ bs.dvd
  simpa using (inj.subperm sub).length_le

/-- `freelist_offset` is invalid exactly when no block is free. -/
lemma Page.invalid_iff (pg : Page mem r fl) : r.freelistOffset = invalidOffset ↔ r.nfree = 0 := by
  have hd : r.head = fl.head? := pg.chain.head_eq
  rw [pg.nfree, List.length_eq_zero_iff]
  unfold PageRef.head at hd
  constructor
  · intro e
    rw [if_pos e] at hd
    exact List.head?_eq_none_iff.1 hd.symm
  · rintro rfl
    by_contra ne
    rw [if_neg ne] at hd
    cases hd

/-- A page only depends on the words at its free blocks. -/
lemma Page.frame (pg : Page mem r fl) (eq : ∀ a ∈ fl, mem' a = mem a) : Page mem' r fl := by
  refine ⟨pg.type, pg.aligned, pg.low, pg.high, pg.chain.frame ?_, pg.nodup, pg.blks, pg.nfree⟩
  intro a ha
  rw [linkOf, linkOf, eq a ha]

/-- The links of a pageref are not part of its page. -/
lemma Page.congr (pg : Page mem r fl) (pab : r'.pageaddrAndBlocktype = r.pageaddrAndBlocktype)
    (off : r'.freelistOffset = r.freelistOffset) (nfree : r'.nfree = r.nfree) : Page mem r' fl := by
  have pa : r'.pageaddr = r.pageaddr := by rw [PageRef.pageaddr, pab]; rfl
  have bt : r'.blocktype = r.blocktype := by rw [PageRef.blocktype, pab]; rfl
  refine ⟨bt ▸ pg.type, pa ▸ pg.aligned, pa ▸ pg.low, pa ▸ pg.high, ?_, pg.nodup, ?_, ?_⟩
  · rw [PageRef.head, off, pa]
    exact pg.chain
  · intro a ha
    have b := pg.blks a ha
    exact ⟨pa ▸ b.ge, pa ▸ b.lt, by rw [bt, pa]; exact b.dvd⟩
  · rw [nfree, pg.nfree]

end Page

namespace Km

/-- The tables describe the pages of `al` and their free blocks `fls`. -/
structure Tables (k : Km) (al : List Nat) (fls : Nat → List Nat) : Prop where
  all : Chain k.nextAll k.allbase al
  nodup : al.Nodup
  size : ∀ t < nsizes,
    Chain k.nextSamesize (k.sizebases t) (al.filter (fun i => (k.pagerefs i).blocktype = t))
  bound : ∀ i ∈ al, i < npagerefs
  inuse : ∀ i < npagerefs, k.bit i = true ↔ i ∈ al
  page : ∀ i ∈ al, Page k.mem (k.pagerefs i) (fls i)
  inj : ∀ i ∈ al, ∀ j ∈ al, (k.pagerefs i).pageaddr = (k.pagerefs j).pageaddr → i = j

/-- The invariant between critical sections: every page has a block in use. -/
structure Inv (k : Km) (al : List Nat) (fls : Nat → List Nat) : Prop extends Tables k al fls where
  busy : ∀ i ∈ al, (fls i).length < pageSize / sizes (k.pagerefs i).blocktype

variable {k k' : Km} {al : List Nat} {fls : Nat → List Nat}

/-- There are no pages at the start. -/
lemma init_inv (mem : Nat → Nat) (fls : Nat → List Nat) : (Km.init mem).Inv [] fls where
  all := rfl
  nodup := List.nodup_nil
  size t _ := rfl
  bound := by simp
  inuse i _ := by simp [bit, init]
  page := by simp
  inj := by simp
  busy := by simp

/-- The lists are shorter than the fuel of the loops over them. -/
lemma Tables.fuel (inv : k.Tables al fls) : al.length < Km.fuel := by
  have sub : al ⊆ List.range npagerefs := fun i hi => List.mem_range.2 (inv.bound i hi)
  have le := (inv.nodup.subperm sub).length_le
  rw [List.length_range] at le
  exact Nat.lt_succ_of_le le

/-- Pages of different pagerefs have no address in common. -/
lemma Tables.pages_apart (inv : k.Tables al fls) {i j} (hi : i ∈ al) (hj : j ∈ al) (ne : i ≠ j) :
    (k.pagerefs i).pageaddr + pageSize ≤ (k.pagerefs j).pageaddr ∨
      (k.pagerefs j).pageaddr + pageSize ≤ (k.pagerefs i).pageaddr := by
  obtain ⟨c, hc⟩ := (inv.page i hi).aligned
  obtain ⟨d, hd⟩ := (inv.page j hj).aligned
  have cd : (k.pagerefs i).pageaddr ≠ (k.pagerefs j).pageaddr := fun e => ne (inv.inj i hi j hj e)
  simp only [pageSize] at hc hd ⊢
  omega

/-- Rewriting the free list of one page. -/
lemma Tables.setPage (inv : k.Tables al fls) {i r mem fl}
    (samesize : r.nextSamesize = k.nextSamesize i) (all : r.nextAll = k.nextAll i)
    (pab : r.pageaddrAndBlocktype = (k.pagerefs i).pageaddrAndBlocktype)
    (page : Page mem r fl) (frame : ∀ j ∈ al, j ≠ i → ∀ a ∈ fls j, mem a = k.mem a) :
    Tables { k.setRef i r with mem := mem } al (Function.update fls i fl) := by
  have self : ({ k.setRef i r with mem := mem } : Km).pagerefs i = r := Function.update_self _ _ _
  have other : ∀ j, j ≠ i → ({ k.setRef i r with mem := mem } : Km).pagerefs j = k.pagerefs j :=
    fun j hj => Function.update_of_ne hj _ _
  have hp : ∀ j, (({ k.setRef i r with mem := mem } : Km).pagerefs j).pageaddrAndBlocktype
      = (k.pagerefs j).pageaddrAndBlocktype := by
    intro j
    by_cases e : j = i
    · rw [e, self, pab]
    · rw [other j e]
  have hs : ({ k.setRef i r with mem := mem } : Km).nextSamesize = k.nextSamesize := by
    funext j
    by_cases e : j = i
    · rw [nextSamesize, e, self, samesize]
    · rw [nextSamesize, other j e]
      rfl
  have ha : ({ k.setRef i r with mem := mem } : Km).nextAll = k.nextAll := by
    funext j
    by_cases e : j = i
    · rw [nextAll, e, self, all]
    · rw [nextAll, other j e]
      rfl
  generalize ke : ({ k.setRef i r with mem := mem } : Km) = k' at *
  have eb : k'.allbase = k.allbase ∧ k'.sizebases = k.sizebases ∧ k'.inuse = k.inuse ∧
      k'.mem = mem := by
    rw [← ke]
    exact ⟨rfl, rfl, rfl, rfl⟩
  have hbt : ∀ j, (k'.pagerefs j).blocktype = (k.pagerefs j).blocktype := by
    intro j
    rw [PageRef.blocktype, hp]
    rfl
  have hpa : ∀ j, (k'.pagerefs j).pageaddr = (k.pagerefs j).pageaddr := by
    intro j
    rw [PageRef.pageaddr, hp]
    rfl
  refine ⟨?_, inv.nodup, ?_, inv.bound, ?_, ?_, ?_⟩
  · rw [ha, eb.1]
    exact inv.all
  · intro t ht
    simp only [hbt]
    rw [hs, eb.2.1]
    exact inv.size t ht
  · intro j hj
    rw [bit, eb.2.2.1]
    exact inv.inuse j hj
  · intro j hj
    rw [eb.2.2.2]
    by_cases e : j = i
    · rw [e, self, Function.update_self]
      exact page
    · rw [other j e, Function.update_of_ne e]
      exact (inv.page j hj).frame (frame j hj e)
  · intro i hi j hj
    rw [hpa, hpa]
    exact inv.inj i hi j hj

/-- The same when the page keeps a block in use. -/
lemma Inv.setPage (inv : k.Inv al fls) {i r mem fl}
    (samesize : r.nextSamesize = k.nextSamesize i) (all : r.nextAll = k.nextAll i)
    (pab : r.pageaddrAndBlocktype = (k.pagerefs i).pageaddrAndBlocktype)
    (page : Page mem r fl) (frame : ∀ j ∈ al, j ≠ i → ∀ a ∈ fls j, mem a = k.mem a)
    (busy : fl.length < pageSize / sizes r.blocktype) :
    Inv { k.setRef i r with mem := mem } al (Function.update fls i fl) := by
  refine ⟨inv.toTables.setPage samesize all pab page frame, ?_⟩
  intro j hj
  show _ < pageSize / sizes (Function.update k.pagerefs i r j).blocktype
  by_cases e : j = i
  · rw [e, Function.update_self, Function.update_self]
    exact busy
  · rw [Function.update_of_ne e, Function.update_of_ne e]
    exact inv.busy j hj

/-! ## Taking a block -/

/-- The first free block of a page is handed out. -/
lemma doalloc_spec {i a fl} (page : Page k.mem (k.pagerefs i) (a :: fl)) :
    ∃ r, k.doalloc i = .ok (k.setRef i r, a) ∧ r.nextSamesize = k.nextSamesize i ∧
      r.nextAll = k.nextAll i ∧ r.pageaddrAndBlocktype = (k.pagerefs i).pageaddrAndBlocktype ∧
      Page k.mem r fl := by
  obtain ⟨hd, tl⟩ := page.chain
  have low := page.low
  have high := page.high
  have ba := page.blks a (by simp)
  have nf := page.nfree
  have nd := List.nodup_cons.1 page.nodup
  have lim : (a :: fl).length ≤ 256 :=
    (blks_length_le page.type page.nodup page.blks).trans (sizes_spec page.type).count.2
  simp only [pageSize] at high
  have off : (k.pagerefs i).pageaddr + (k.pagerefs i).freelistOffset = a := by
    unfold PageRef.head at hd
    split at hd
    · cases hd
    · exact Option.some.inj hd
  have offlt : (k.pagerefs i).freelistOffset < pageSize := by
    have := ba.lt
    omega
  have ret : wadd 32 (k.pagerefs i).pageaddr (k.pagerefs i).freelistOffset = a := by
    rw [wadd_of_lt, off]
    simp only [pageSize] at offlt
    omega
  have dec : wsub 16 (k.pagerefs i).nfree 1 = fl.length := by
    rw [nf, wsub_of_le (by simp) (by omega)]
    simp
  unfold doalloc
  simp only [kassert_pos offlt, ok_bind, ret, dec]
  have step : ∀ r : PageRef, r.pageaddrAndBlocktype = (k.pagerefs i).pageaddrAndBlocktype →
      r.nfree = fl.length → r.head = linkOf k.mem a → Page k.mem r fl := by
    intro r pab nfree head
    have pa : r.pageaddr = (k.pagerefs i).pageaddr := by rw [PageRef.pageaddr, pab]; rfl
    have bt : r.blocktype = (k.pagerefs i).blocktype := by rw [PageRef.blocktype, pab]; rfl
    refine ⟨bt ▸ page.type, pa ▸ page.aligned, pa ▸ page.low, pa ▸ page.high, head ▸ tl, nd.2, ?_, nfree⟩
    intro b hb
    have h := page.blks b (by simp [hb])
    exact ⟨pa ▸ h.ge, pa ▸ h.lt, by rw [bt, pa]; exact h.dvd⟩
  cases fl with
  | nil =>
    have z : k.mem a = 0 := by
      by_contra ne
      rw [linkOf, if_neg ne] at tl
      cases tl
    simp only [z, ne_eq, not_true, if_false, kassert_pos, List.length_nil, ok_bind]
    refine ⟨_, rfl, rfl, rfl, rfl, step _ rfl rfl ?_⟩
    simp [PageRef.head, linkOf, z]
  | cons b fl =>
    have bb := page.blks b (by simp)
    have gb := bb.ge
    have lb := bb.lt
    simp only [pageSize] at lb
    have eq : k.mem a = b := by
      have h := tl.1
      unfold linkOf at h
      split at h
      · cases h
      · exact Option.some.inj h
    have nz : b ≠ 0 := by omega
    have sub : wsub 32 b (k.pagerefs i).pageaddr = b - (k.pagerefs i).pageaddr :=
      wsub_of_le gb (by omega)
    have small : b - (k.pagerefs i).pageaddr < pageSize := by
      simp only [pageSize]
      omega
    have md : (b - (k.pagerefs i).pageaddr) % 2 ^ 16 = b - (k.pagerefs i).pageaddr :=
      Nat.mod_eq_of_lt (by simp only [pageSize] at small; omega)
    have pos : (b :: fl).length > 0 := by simp
    rw [eq, if_pos nz, kassert_pos pos, ok_bind, sub, kassert_pos small, ok_bind, md]
    refine ⟨_, rfl, rfl, rfl, rfl, step _ rfl rfl ?_⟩
    have e1 : b - (k.pagerefs i).pageaddr ≠ invalidOffset := by
      simp only [invalidOffset]
      simp only [pageSize] at small
      omega
    rw [PageRef.head, if_neg e1, linkOf, eq, if_neg nz]
    show some ((k.pagerefs i).pageaddr + (b - (k.pagerefs i).pageaddr)) = some b
    rw [Nat.add_sub_cancel' gb]

/-- The scan of a size list ends at the first page with a free block, if there is one. -/
lemma scanSize_spec {t n h l} (c : Chain k.nextSamesize h l) (hn : l.length < n)
    (ht : ∀ i ∈ l, (k.pagerefs i).blocktype = t) :
    (k.scanSize t n h = .ok none ∧ ∀ i ∈ l, (k.pagerefs i).nfree = 0) ∨
    ∃ i ∈ l, 0 < (k.pagerefs i).nfree ∧ k.scanSize t n h = .ok (some i) := by
  induction n generalizing h l with
  | zero => omega
  | succ n ih =>
    cases l with
    | nil =>
      have e : h = none := c
      rw [e]
      exact .inl ⟨rfl, by simp⟩
    | cons i l =>
      obtain ⟨rfl, c⟩ := c
      have bt := ht i (by simp)
      by_cases free : (k.pagerefs i).nfree > 0
      · exact .inr ⟨i, by simp, free, by simp [scanSize, kassert_pos bt, free]⟩
      · have e : k.scanSize t (n + 1) (some i) = k.scanSize t n (k.nextSamesize i) := by
          simp [scanSize, kassert_pos bt, free]
        rw [e]
        cases ih c (by simpa using hn) (fun j hj => ht j (by simp [hj])) with
        | inl none =>
          refine .inl ⟨none.1, ?_⟩
          intro j hj
          cases List.mem_cons.1 hj with
          | inl e => rw [e]; omega
          | inr hj => exact none.2 j hj
        | inr found =>
          obtain ⟨j, hj, nf, e'⟩ := found
          exact .inr ⟨j, by simp [hj], nf, e'⟩

/-- The first part of `subpage_kmalloc` returns: it takes a block off a page of the right size, or
there is none. -/
lemma Inv.kmalloc1 (inv : k.Inv al fls) {sz} (hsz : sz < largestSubpageSize) :
    ∃ t, blocktype sz = .ok t ∧ t < nsizes ∧ sz ≤ sizes t ∧
      ((subpageKmalloc1 k sz = .ok none ∧
          ∀ i ∈ al, (k.pagerefs i).blocktype = t → (k.pagerefs i).nfree = 0) ∨
        ∃ i a fl k', i ∈ al ∧ (k.pagerefs i).blocktype = t ∧ fls i = a :: fl ∧
          subpageKmalloc1 k sz = .ok (some (k', a)) ∧ k'.Inv al (Function.update fls i fl) ∧
          ∀ j, (k'.pagerefs j).pageaddrAndBlocktype = (k.pagerefs j).pageaddrAndBlocktype) := by
  obtain ⟨t, et, ht, le⟩ := blocktype_spec hsz
  refine ⟨t, et, ht, le, ?_⟩
  have len : (al.filter (fun i => (k.pagerefs i).blocktype = t)).length < Km.fuel :=
    lt_of_le_of_lt (List.length_filter_le _ _) inv.fuel
  have types : ∀ i ∈ al.filter (fun i => (k.pagerefs i).blocktype = t),
      (k.pagerefs i).blocktype = t := by
    intro i hi
    simpa using (List.mem_filter.1 hi).2
  cases scanSize_spec (inv.size t ht) len types with
  | inl none =>
    refine .inl ⟨by simp [subpageKmalloc1, et, none.1], ?_⟩
    intro i hi hit
    exact none.2 i (List.mem_filter.2 ⟨hi, by simpa using hit⟩)
  | inr found =>
    obtain ⟨i, hi, nf, e⟩ := found
    have mem := (List.mem_filter.1 hi).1
    have pg := inv.page i mem
    cases efl : fls i with
    | nil =>
      rw [pg.nfree, efl] at nf
      cases nf
    | cons a fl =>
      rw [efl] at pg
      obtain ⟨r, ed, ss, ha, pab, page⟩ := doalloc_spec pg
      have bt : r.blocktype = (k.pagerefs i).blocktype := by rw [PageRef.blocktype, pab]; rfl
      have busy : fl.length < pageSize / sizes r.blocktype := by
        have := inv.busy i mem
        rw [efl, List.length_cons] at this
        rw [bt]
        omega
      refine .inr ⟨i, a, fl, k.setRef i r, mem, types i hi, efl,
        by simp [subpageKmalloc1, et, e, ed, Except.map], inv.setPage ss ha pab page (fun _ _ _ _ _ => rfl) busy, ?_⟩
      intro j
      by_cases ej : j = i
      · rw [ej]
        simpa [setRef] using pab
      · simp [setRef, ej]

/-- The test of one bit. -/
lemma and_bit_eq_zero {w : BitVec 32} {j : Nat} (hj : j < 32) :
    w &&& (1#32 <<< j) = 0#32 ↔ w.getLsbD j = false := by
  constructor
  · intro h
    have hb := congrArg (fun x : BitVec 32 => x.getLsbD j) h
    simpa [hj] using hb
  · intro h
    apply BitVec.eq_of_getLsbD_eq
    intro m hm
    by_cases e : m = j
    · rw [e]
      simp [h]
    · have : m - j = 0 → m < j := by omega
      simp only [BitVec.getLsbD_and, BitVec.getLsbD_shiftLeft, BitVec.getLsbD_one, BitVec.getLsbD_zero]
      by_cases lt : m < j
      · simp [lt]
      · have : m - j ≠ 0 := by omega
        simp [this]

/-- The bits after one has been set. -/
lemma getLsbD_or_bit {w : BitVec 32} {j m : Nat} (hj : j < 32) :
    (w ||| (1#32 <<< j)).getLsbD m = (w.getLsbD m || decide (m = j)) := by
  simp only [BitVec.getLsbD_or, BitVec.getLsbD_shiftLeft, BitVec.getLsbD_one]
  congr 1
  by_cases e : m = j
  · simp [e, hj]
  · by_cases lt : m < j
    · simp [lt, e]
    · have : m - j ≠ 0 := by omega
      simp [this, e]

/-- The bits after one has been cleared. -/
lemma getLsbD_clear_bit {w : BitVec 32} {j m : Nat} (hj : j < 32) :
    (w &&& ~~~ (1#32 <<< j)).getLsbD m = (w.getLsbD m && decide (m ≠ j)) := by
  by_cases hm : m < 32
  · simp only [BitVec.getLsbD_and, BitVec.getLsbD_not, BitVec.getLsbD_shiftLeft, BitVec.getLsbD_one]
    congr 1
    by_cases e : m = j
    · simp [e, hj]
    · by_cases lt : m < j
      · simp [lt, e, hm]
      · have : m - j ≠ 0 := by omega
        simp [this, e, hm]
  · have : w.getLsbD m = false := BitVec.getLsbD_of_ge _ _ (by omega)
    simp [this]

/-- `allocpageref` returns a pageref that was not in use and marks it; without one, all are in use. -/
lemma allocpageref_spec (k : Km) :
    (allocpageref k = .ok (k, none) ∧ ∀ i < npagerefs, k.bit i = true) ∨
    ∃ i inuse, i < npagerefs ∧ k.bit i = false ∧
      allocpageref k = .ok ({ k with inuse := inuse }, some i) ∧
      ∀ j, ({ k with inuse := inuse } : Km).bit j = (k.bit j || decide (j = i)) := by
  unfold allocpageref
  have ones : ∀ j < 32, (0xffffffff#32).getLsbD j = true := by decide
  have full : ∀ w : BitVec 32, (∀ j < 32, w.getLsbD j = true) → w = 0xffffffff#32 := by
    intro w h
    apply BitVec.eq_of_getLsbD_eq
    intro j hj
    rw [h j hj, ones j hj]
  have nw : npagerefs = inuseWords * 32 := by decide
  cases e : (List.range inuseWords).find? (fun i => k.inuse i != 0xffffffff#32) with
  | none =>
    refine .inl ⟨rfl, ?_⟩
    intro i hi
    have h := List.find?_eq_none.1 e (i / 32) (List.mem_range.2 (by omega))
    rw [bne_iff_ne, not_not] at h
    rw [bit, h]
    exact ones _ (Nat.mod_lt _ (by decide))
  | some i =>
    have hi : i < inuseWords := List.mem_range.1 (List.mem_of_find?_eq_some e)
    have ne : k.inuse i ≠ 0xffffffff#32 := by simpa using List.find?_some e
    cases e' : (List.range 32).find? (fun j => k.inuse i &&& (1#32 <<< j) == 0#32) with
    | none =>
      refine absurd (full _ ?_) ne
      intro j hj
      have h := List.find?_eq_none.1 e' j (List.mem_range.2 hj)
      rw [beq_iff_eq, and_bit_eq_zero hj] at h
      simpa using h
    | some j =>
      have hj : j < 32 := List.mem_range.1 (List.mem_of_find?_eq_some e')
      have free : (k.inuse i).getLsbD j = false := by
        have h := List.find?_some e'
        rwa [beq_iff_eq, and_bit_eq_zero hj] at h
      have ed : (i * 32 + j) / 32 = i := by omega
      have em : (i * 32 + j) % 32 = j := by omega
      refine .inr ⟨i * 32 + j, Function.update k.inuse i (k.inuse i ||| (1#32 <<< j)), by omega,
        by rw [bit, ed, em, free], by simp only [e'], ?_⟩
      intro m
      simp only [bit]
      by_cases ei : m / 32 = i
      · rw [ei, Function.update_self, getLsbD_or_bit hj]
        congr 1
        simp only [decide_eq_decide]
        omega
      · rw [Function.update_of_ne ei]
        have : m ≠ i * 32 + j := by
          rintro rfl
          exact ei ed
        simp [this]

/-- `freepageref` clears the bit of a pageref in use. -/
lemma freepageref_spec {i} (hi : i < npagerefs) (hb : k.bit i = true) :
    ∃ inuse, freepageref k i = .ok { k with inuse := inuse } ∧
      ∀ j, ({ k with inuse := inuse } : Km).bit j = (k.bit j && decide (j ≠ i)) := by
  have hm : i % 32 < 32 := Nat.mod_lt _ (by decide)
  have set : k.inuse (i / 32) &&& (1#32 <<< (i % 32)) ≠ 0#32 := by
    intro h
    have clear := (and_bit_eq_zero hm).1 h
    rw [bit] at hb
    rw [hb] at clear
    cases clear
  refine ⟨_, by rw [freepageref, kassert_pos hi, ok_bind, kassert_pos set, ok_bind], ?_⟩
  intro j
  simp only [bit]
  by_cases e : j / 32 = i / 32
  · rw [e, Function.update_self, getLsbD_clear_bit hm]
    congr 1
    simp only [decide_eq_decide]
    omega
  · rw [Function.update_of_ne e]
    have : j ≠ i := by
      rintro rfl
      exact e rfl
    simp [this]

/-- The blocks of a new page, in the order in which they are linked. -/
def blocks (page size n : Nat) : List Nat := (List.range n).reverse.map (fun j => page + j * size)

/-- The blocks of a page, from the last one on. -/
lemma blocks_succ (page size n : Nat) :
    blocks page size (n + 1) = (page + n * size) :: blocks page size n := by
  simp [blocks, List.range_succ]

/-- A block of a page is one of its places. -/
lemma mem_blocks {page size n a : Nat} : a ∈ blocks page size n ↔ ∃ j < n, page + j * size = a := by
  simp [blocks]

/-- The loop of `addPage` links each block to the one before it and writes nothing else. -/
lemma linkBlocks_spec {page size n i fl} (mem : Nat → Nat) (h0 : 0 < size) (hi : 1 ≤ i)
    (hfl : fl = page + (i - 1) * size) (fit : page + (i + n) * size ≤ 2 ^ 32) :
    ∃ mem', linkBlocks page size n i fl mem = .ok (page + (i - 1 + n) * size, mem') ∧
      (∀ j, i ≤ j → j < i + n → mem' (page + j * size) = page + (j - 1) * size) ∧
      ∀ a, (∀ j, i ≤ j → j < i + n → a ≠ page + j * size) → mem' a = mem a := by
  induction n generalizing i fl mem with
  | zero => exact ⟨mem, by simp [linkBlocks, hfl], by omega, fun _ _ => rfl⟩
  | succ n ih =>
    have lt : i * size < (i + (n + 1)) * size := Nat.mul_lt_mul_of_pos_right (by omega) h0
    have prev : (i - 1) * size < i * size := Nat.mul_lt_mul_of_pos_right (by omega) h0
    have e1 : wadd 32 page (wmul 32 i size) = page + i * size := by
      rw [wmul_of_lt (by omega), wadd_of_lt (by omega)]
    have e2 : wadd 32 page (wmul 32 (i - 1) size) = page + (i - 1) * size := by
      rw [wmul_of_lt (by omega), wadd_of_lt (by omega)]
    have ne : page + i * size ≠
        Function.update mem (page + i * size) (page + (i - 1) * size) (page + i * size) := by
      rw [Function.update_self]
      omega
    obtain ⟨mem', e, hin, hout⟩ := ih (i := i + 1)
      (Function.update mem (page + i * size) (page + (i - 1) * size)) (by omega)
      (show page + i * size = page + (i + 1 - 1) * size by simp) (by rw [show i + 1 + n = i + (n + 1) by omega]; exact fit)
    refine ⟨mem', ?_, ?_, ?_⟩
    · simp only [linkBlocks, e1, e2]
      rw [kassert_pos ne, ok_bind, e]
      congr 4
      omega
    · intro j hj hj'
      by_cases ej : j = i
      · -- later iterations write above block `i`
        have other : ∀ m, i + 1 ≤ m → m < i + 1 + n → page + i * size ≠ page + m * size := by
          intro m hm _ h
          have := Nat.mul_lt_mul_of_pos_right (show i < m by omega) h0
          omega
        rw [ej, hout _ other, Function.update_self]
      · exact hin j (by omega) (by omega)
    · intro a ha
      rw [hout a (fun j hj hj' => ha j (by omega) (by omega))]
      exact Function.update_of_ne (ha i (by omega) (by omega)) _ _

/-- Blocks linked that way are a chain. -/
lemma blocks_chain {mem page size n} (pos : 0 < page) (zero : mem page = 0)
    (link : ∀ j, 1 ≤ j → j < n → mem (page + j * size) = page + (j - 1) * size) :
    Chain (linkOf mem) (blocks page size n).head? (blocks page size n) := by
  induction n with
  | zero => rfl
  | succ n ih =>
    have ih := ih (fun j h1 h2 => link j h1 (by omega))
    rw [blocks_succ]
    refine ⟨rfl, ?_⟩
    cases n with
    | zero =>
      show linkOf mem (page + 0 * size) = none
      simp [linkOf, zero]
    | succ n =>
      have e : linkOf mem (page + (n + 1) * size) = (blocks page size (n + 1)).head? := by
        have h := link (n + 1) (by omega) (by omega)
        rw [Nat.add_sub_cancel] at h
        rw [linkOf, h, if_neg (by omega), blocks_succ]
        rfl
      rw [e]
      exact ih

/-- Entering a page makes all its blocks free. -/
lemma addPage_spec {t prpage} (k : Km) (i : Nat) (ht : t < nsizes) (al : pageSize ∣ prpage)
    (low : 0 < prpage) (high : prpage + pageSize < 2 ^ 32) :
    ∃ mem r, k.addPage i t prpage = .ok { k with
          mem := mem
          pagerefs := Function.update k.pagerefs i r
          sizebases := Function.update k.sizebases t (some i)
          allbase := some i } ∧
      r.nextSamesize = k.sizebases t ∧ r.nextAll = k.allbase ∧ r.pageaddr = prpage ∧ r.blocktype = t ∧
      Page mem r (blocks prpage (sizes t) (pageSize / sizes t)) ∧
      ∀ a, a < prpage ∨ prpage + pageSize ≤ a → mem a = k.mem a := by
  have bs := sizes_spec ht
  obtain ⟨two, many⟩ := bs.count
  have h0 : 0 < sizes t := by have := bs.ge; omega
  have dvd := bs.dvd
  have high' := high
  simp only [pageSize] at high'
  generalize hn : pageSize / sizes t = n at two many dvd
  obtain ⟨n, rfl⟩ : ∃ m, n = m + 1 := ⟨n - 1, by omega⟩
  rw [Nat.mul_comm] at dvd
  have last : n * sizes t < pageSize := by
    rw [← dvd]
    exact Nat.mul_lt_mul_of_pos_right (Nat.lt_succ_self n) h0
  obtain ⟨mem, e, hin, hout⟩ := linkBlocks_spec (n := n) (i := 1)
    (Function.update k.mem prpage 0) h0 (le_refl 1) (show prpage = prpage + (1 - 1) * sizes t by simp)
    (by rw [Nat.add_comm 1 n, dvd]; simp only [pageSize]; omega)
  rw [show 1 - 1 + n = n by omega] at e
  have sub : wsub 32 (prpage + n * sizes t) prpage = n * sizes t := by
    rw [wsub_of_le (by omega) (by simp only [pageSize] at last; omega)]
    omega
  have md : n * sizes t % 2 ^ 16 = n * sizes t :=
    Nat.mod_eq_of_lt (by simp only [pageSize] at last; omega)
  have zero : mem prpage = 0 := by
    rw [hout prpage, Function.update_self]
    intro j hj _ h
    have := Nat.mul_le_mul_right (sizes t) hj
    omega
  obtain ⟨pa, bt⟩ := pageaddr_mkpab al (show prpage < 2 ^ 32 by omega)
    (show t < pageSize from lt_of_lt_of_le ht (by decide))
  let r : PageRef := ⟨k.sizebases t, k.allbase, mkpab prpage t, n * sizes t, n + 1⟩
  have rpa : r.pageaddr = prpage := pa
  have rbt : r.blocktype = t := bt
  refine ⟨mem, r, ?_, rfl, rfl, rpa, rbt, ?_, ?_⟩
  · rw [addPage, hn]
    simp only [Nat.add_sub_cancel]
    rw [e, ok_bind]
    simp only [sub, md]
    rw [kassert_pos trivial, ok_bind]
  · have head : r.head = (blocks prpage (sizes t) (n + 1)).head? := by
      have ne : r.freelistOffset ≠ invalidOffset := by
        show n * sizes t ≠ 0xffff
        simp only [pageSize] at last
        omega
      rw [PageRef.head, if_neg ne, rpa, blocks_succ]
      rfl
    refine ⟨rbt ▸ ht, rpa ▸ al, rpa ▸ low, rpa ▸ high, ?_, ?_, ?_, by simp [r, blocks]⟩
    · rw [head]
      refine blocks_chain (by omega) zero ?_
      intro j h1 h2
      exact hin j h1 (by omega)
    · refine List.Nodup.map ?_ (List.nodup_reverse.2 List.nodup_range)
      intro x y h
      have : x * sizes t = y * sizes t := by simpa using h
      exact Nat.eq_of_mul_eq_mul_right h0 this
    · intro a ha
      obtain ⟨j, hj, rfl⟩ := mem_blocks.1 ha
      have := Nat.mul_le_mul_right (sizes t) (Nat.lt_succ_iff.1 hj)
      refine ⟨by rw [rpa]; omega, by rw [rpa]; omega, ?_⟩
      rw [rpa, rbt, Nat.add_sub_cancel_left]
      exact Dvd.intro_left j rfl
  · intro a ha
    have ne : ∀ j ≤ n, a ≠ prpage + j * sizes t := by
      intro j hj h
      have := Nat.mul_le_mul_right (sizes t) hj
      omega
    rw [hout a (fun j _ hj => ne j (by omega))]
    exact Function.update_of_ne (by simpa using ne 0 (Nat.zero_le _)) _ _

/-- The second part of `subpage_kmalloc` returns: it enters the page into the tables and takes its
first block, or there is no pageref left and it changes nothing. -/
lemma Inv.kmalloc2 (inv : k.Inv al fls) {sz t prpage} (et : blocktype sz = .ok t) (ht : t < nsizes)
    (alg : pageSize ∣ prpage) (low : 0 < prpage) (high : prpage + pageSize < 2 ^ 32)
    (fresh : ∀ i ∈ al, (k.pagerefs i).pageaddr ≠ prpage) :
    subpageKmalloc2 k sz prpage = .ok (k, none) ∨
    ∃ i a fl k', i ∉ al ∧ subpageKmalloc2 k sz prpage = .ok (k', some a) ∧
      k'.Inv (i :: al) (Function.update fls i fl) ∧ (k'.pagerefs i).pageaddr = prpage ∧
      (k'.pagerefs i).blocktype = t ∧ (k'.pagerefs i).Blk a ∧ a ∉ fl ∧
      ∀ j ∈ al, (k'.pagerefs j).pageaddrAndBlocktype = (k.pagerefs j).pageaddrAndBlocktype := by
  cases allocpageref_spec k with
  | inl none => exact .inl (by simp [subpageKmalloc2, et, none.1])
  | inr got =>
    obtain ⟨i, inuse, hi, bit₀, e₁, bits⟩ := got
    have ni : i ∉ al := by
      intro h
      rw [(inv.inuse i hi).2 h] at bit₀
      cases bit₀
    obtain ⟨mem, r, e₂, rs, ra, rpa, rbt, page, keep⟩ :=
      addPage_spec { k with inuse := inuse } i ht alg low high
    obtain ⟨n, hn⟩ : ∃ n, pageSize / sizes t = n + 1 := by
      have := (sizes_spec ht).count.1
      exact ⟨pageSize / sizes t - 1, by omega⟩
    rw [hn, blocks_succ] at page
    simp only at e₂ rs ra keep
    generalize k₂e : Km.mk (Function.update k.pagerefs i r) inuse
      (Function.update k.sizebases t (some i)) (some i) mem = k₂ at e₂
    have mem₂ : k₂.mem = mem := by rw [← k₂e]
    have ref₂ : k₂.pagerefs i = r := by rw [← k₂e]; exact Function.update_self _ _ _
    have other₂ : ∀ j, j ≠ i → k₂.pagerefs j = k.pagerefs j := by
      intro j hj
      rw [← k₂e]
      exact Function.update_of_ne hj _ _
    rw [← mem₂, ← ref₂] at page
    obtain ⟨r', e₃, rs', ra', pab, page'⟩ := doalloc_spec page
    have res : subpageKmalloc2 k sz prpage
        = .ok (k₂.setRef i r', some (prpage + n * sizes t)) := by
      simp [subpageKmalloc2, et, e₁, e₂, e₃]
    have ref₃ : (k₂.setRef i r').pagerefs i = r' := Function.update_self _ _ _
    have other₃ : ∀ j ∈ al, (k₂.setRef i r').pagerefs j = k.pagerefs j := by
      intro j hj
      have ne : j ≠ i := fun h => ni (h ▸ hj)
      exact (Function.update_of_ne ne _ _).trans (other₂ j ne)
    rw [ref₂] at pab
    have pa : r'.pageaddr = prpage := by rw [PageRef.pageaddr, pab]; exact rpa
    have bt : r'.blocktype = t := by rw [PageRef.blocktype, pab]; exact rbt
    have blk : r'.Blk (prpage + n * sizes t) := by
      have b := page.blks _ (List.mem_cons_self)
      have lt := b.lt
      rw [ref₂, rpa] at lt
      refine ⟨by rw [pa]; omega, by rw [pa]; exact lt, ?_⟩
      rw [bt, pa, Nat.add_sub_cancel_left]
      exact Dvd.intro_left n rfl
    refine .inr ⟨i, prpage + n * sizes t, blocks prpage (sizes t) n, k₂.setRef i r', ni, res, ?_,
      by rw [ref₃, pa], by rw [ref₃, bt], by rw [ref₃]; exact blk, (List.nodup_cons.1 page.nodup).1,
      fun j hj => by rw [other₃ j hj]⟩
    refine ⟨⟨⟨?_, ?_⟩, List.nodup_cons.2 ⟨ni, inv.nodup⟩, ?_, ?_, ?_, ?_, ?_⟩, ?_⟩
    · rw [← k₂e]
      rfl
    · rw [nextAll, ref₃, ra', nextAll, ref₂, ra]
      refine inv.all.frame ?_
      intro j hj
      rw [nextAll, other₃ j hj]
      rfl
    · intro t' ht'
      have tail : Chain (k₂.setRef i r').nextSamesize (k.sizebases t')
          (al.filter (fun j => ((k₂.setRef i r').pagerefs j).blocktype = t')) := by
        rw [List.filter_congr (fun j hj => by rw [other₃ j hj] :
          ∀ j ∈ al, _ = decide ((k.pagerefs j).blocktype = t'))]
        refine (inv.size t' ht').frame ?_
        intro j hj
        rw [nextSamesize, other₃ j (List.mem_filter.1 hj).1]
        rfl
      have base : (k₂.setRef i r').sizebases = Function.update k.sizebases t (some i) := by
        rw [← k₂e]
        rfl
      rw [base]
      by_cases e : t' = t
      · subst e
        rw [List.filter_cons_of_pos (by simp [ref₃, bt]), Function.update_self]
        refine ⟨rfl, ?_⟩
        rw [nextSamesize, ref₃, rs', nextSamesize, ref₂, rs]
        exact tail
      · rw [List.filter_cons_of_neg (by simp [ref₃, bt, Ne.symm e]), Function.update_of_ne e]
        exact tail
    · intro j hj
      cases List.mem_cons.1 hj with
      | inl e => rw [e]; exact hi
      | inr hj => exact inv.bound j hj
    · intro j hj
      have hb : (k₂.setRef i r').bit j = (k.bit j || decide (j = i)) := by
        rw [← bits j, ← k₂e]
        rfl
      rw [hb, Bool.or_eq_true, inv.inuse j hj, decide_eq_true_eq, List.mem_cons, or_comm]
    · intro j hj
      have em : (k₂.setRef i r').mem = k₂.mem := rfl
      rw [em]
      cases List.mem_cons.1 hj with
      | inl e =>
        rw [e, ref₃, Function.update_self]
        exact page'
      | inr hj =>
        have ne : j ≠ i := fun h => ni (h ▸ hj)
        rw [other₃ j hj, Function.update_of_ne ne, mem₂]
        refine (inv.page j hj).frame ?_
        -- the blocks of the other pages are outside the new page
        intro a ha
        have b := (inv.page j hj).blks a ha
        obtain ⟨c, hc⟩ := (inv.page j hj).aligned
        obtain ⟨d, hd⟩ := alg
        have ge := b.ge
        have lt := b.lt
        have np := fresh j hj
        refine keep a ?_
        simp only [pageSize] at *
        omega
    · intro j hj m hm
      cases List.mem_cons.1 hj with
      | inl e =>
        cases List.mem_cons.1 hm with
        | inl e' => rw [e, e']; exact fun _ => rfl
        | inr hm =>
          rw [e, ref₃, pa, other₃ m hm]
          exact fun h => absurd h.symm (fresh m hm)
      | inr hj =>
        cases List.mem_cons.1 hm with
        | inl e' =>
          rw [e', ref₃, pa, other₃ j hj]
          exact fun h => absurd h (fresh j hj)
        | inr hm =>
          rw [other₃ j hj, other₃ m hm]
          exact inv.inj j hj m hm
    · intro j hj
      cases List.mem_cons.1 hj with
      | inl e =>
        rw [e, ref₃, Function.update_self, bt, hn]
        simp [blocks]
      | inr hj =>
        have ne : j ≠ i := fun h => ni (h ▸ hj)
        rw [other₃ j hj, Function.update_of_ne ne]
        exact inv.busy j hj

/-! ## Giving a block back -/

/-- The scan of all pages ends at the page that contains the address, if there is one. -/
lemma scanAll_spec {p n h l} (c : Chain k.nextAll h l) (hn : l.length < n)
    (pages : ∀ i ∈ l, ∃ fl, Page k.mem (k.pagerefs i) fl) :
    (k.scanAll p n h = .ok none ∧ ∀ i ∈ l, ¬ ((k.pagerefs i).pageaddr ≤ p ∧
      p < (k.pagerefs i).pageaddr + pageSize)) ∨
    ∃ i ∈ l, (k.pagerefs i).pageaddr ≤ p ∧ p < (k.pagerefs i).pageaddr + pageSize ∧
      k.scanAll p n h = .ok (some i) := by
  induction n generalizing h l with
  | zero => omega
  | succ n ih =>
    cases l with
    | nil =>
      have e : h = none := c
      rw [e]
      exact .inl ⟨rfl, by simp⟩
    | cons i l =>
      obtain ⟨rfl, c⟩ := c
      obtain ⟨fl, page⟩ := pages i (by simp)
      have high := page.high
      have top : wadd 32 (k.pagerefs i).pageaddr pageSize = (k.pagerefs i).pageaddr + pageSize :=
        wadd_of_lt high
      by_cases here : (k.pagerefs i).pageaddr ≤ p ∧ p < (k.pagerefs i).pageaddr + pageSize
      · exact .inr ⟨i, by simp, here.1, here.2, by simp [scanAll, kassert_pos page.type, top, here]⟩
      · have e : k.scanAll p (n + 1) (some i) = k.scanAll p n (k.nextAll i) := by
          simp [scanAll, kassert_pos page.type, top, here]
        rw [e]
        cases ih c (by simpa using hn) (fun j hj => pages j (by simp [hj])) with
        | inl none =>
          refine .inl ⟨none.1, ?_⟩
          intro j hj
          cases List.mem_cons.1 hj with
          | inl e => rw [e]; exact here
          | inr hj => exact none.2 j hj
        | inr found =>
          obtain ⟨j, hj, rest⟩ := found
          exact .inr ⟨j, by simp [hj], rest⟩

/-- A block that is not free joins the free blocks of its page; no other block is written. -/
lemma push_spec {i p fl} (page : Page k.mem (k.pagerefs i) fl) (blk : (k.pagerefs i).Blk p)
    (np : p ∉ fl) :
    ∃ r mem, k.push i (p - (k.pagerefs i).pageaddr) = { k.setRef i r with mem := mem } ∧
      r.nextSamesize = k.nextSamesize i ∧ r.nextAll = k.nextAll i ∧
      r.pageaddrAndBlocktype = (k.pagerefs i).pageaddrAndBlocktype ∧ Page mem r (p :: fl) ∧
      ∀ a, a < p ∨ p + sizes (k.pagerefs i).blocktype ≤ a → mem a = k.mem a := by
  have low := page.low
  have high := page.high
  have ge := blk.ge
  have lt := blk.lt
  have bs := sizes_spec page.type
  have lim : (p :: fl).length ≤ 256 := by
    refine (blks_length_le (r := k.pagerefs i) page.type (List.nodup_cons.2 ⟨np, page.nodup⟩) ?_).trans
      bs.count.2
    intro a ha
    cases List.mem_cons.1 ha with
    | inl e => exact e ▸ blk
    | inr ha => exact page.blks a ha
  have fla : wadd 32 (k.pagerefs i).pageaddr (p - (k.pagerefs i).pageaddr) = p := by
    rw [wadd_of_lt (by omega)]
    omega
  have md : (p - (k.pagerefs i).pageaddr) % 2 ^ 16 = p - (k.pagerefs i).pageaddr :=
    Nat.mod_eq_of_lt (by simp only [pageSize] at lt; omega)
  have inc : wadd 16 (k.pagerefs i).nfree 1 = (p :: fl).length := by
    rw [page.nfree, wadd_of_lt]
    · rfl
    · simp only [List.length_cons] at lim
      omega
  -- the link of the block leads to the old first block
  have next : linkOf (Function.update (fillDeadbeef k.mem p (sizes (k.pagerefs i).blocktype)) p
      (if (k.pagerefs i).freelistOffset = invalidOffset then 0
        else wadd 32 (k.pagerefs i).pageaddr (k.pagerefs i).freelistOffset)) p
      = (k.pagerefs i).head := by
    rw [linkOf, Function.update_self, PageRef.head]
    by_cases e : (k.pagerefs i).freelistOffset = invalidOffset
    · simp [e]
    · have small : (k.pagerefs i).pageaddr + (k.pagerefs i).freelistOffset
          < (k.pagerefs i).pageaddr + pageSize := by
        have hd : (k.pagerefs i).head = fl.head? := page.chain.head_eq
        rw [PageRef.head, if_neg e] at hd
        exact (page.blks _ (List.mem_of_head? hd.symm)).lt
      rw [if_neg e, if_neg e, wadd_of_lt (by omega), if_neg (by omega)]
  have keep : ∀ a, a < p ∨ p + sizes (k.pagerefs i).blocktype ≤ a →
      Function.update (fillDeadbeef k.mem p (sizes (k.pagerefs i).blocktype)) p
        (if (k.pagerefs i).freelistOffset = invalidOffset then 0
          else wadd 32 (k.pagerefs i).pageaddr (k.pagerefs i).freelistOffset) a = k.mem a := by
    intro a ha
    have hs := bs.ge
    rw [Function.update_of_ne (by omega), fillDeadbeef, if_neg]
    omega
  unfold push
  simp only [fla, md, inc]
  generalize Function.update (fillDeadbeef k.mem p (sizes (k.pagerefs i).blocktype)) p
    (if (k.pagerefs i).freelistOffset = invalidOffset then 0
      else wadd 32 (k.pagerefs i).pageaddr (k.pagerefs i).freelistOffset) = mem at next keep
  refine ⟨_, mem, rfl, rfl, rfl, rfl, ?_, keep⟩
  have ne : p - (k.pagerefs i).pageaddr ≠ invalidOffset := by
    simp only [invalidOffset]
    simp only [pageSize] at lt
    omega
  refine ⟨page.type, page.aligned, page.low, page.high, ⟨?_, ?_⟩, List.nodup_cons.2 ⟨np, page.nodup⟩,
    ?_, rfl⟩
  · rw [PageRef.head, if_neg ne]
    show some ((k.pagerefs i).pageaddr + (p - (k.pagerefs i).pageaddr)) = some p
    rw [Nat.add_sub_cancel' ge]
  · rw [next]
    refine page.chain.frame ?_
    intro a ha
    have ne : a ≠ p := fun h => np (h ▸ ha)
    have ap := (page.blks a ha).apart blk ne
    have hs := bs.ge
    rw [linkOf, linkOf, keep a (by omega)]
  · intro a ha
    cases List.mem_cons.1 ha with
    | inl e => rw [e]; exact ⟨blk.ge, blk.lt, blk.dvd⟩
    | inr ha =>
      have b := page.blks a ha
      exact ⟨b.ge, b.lt, b.dvd⟩

/-- Two table states whose pagerefs differ in their links only. -/
structure SamePages (k k' : Km) : Prop where
  inuse : k'.inuse = k.inuse
  mem : k'.mem = k.mem
  pab : ∀ i, (k'.pagerefs i).pageaddrAndBlocktype = (k.pagerefs i).pageaddrAndBlocktype
  offset : ∀ i, (k'.pagerefs i).freelistOffset = (k.pagerefs i).freelistOffset
  nfree : ∀ i, (k'.pagerefs i).nfree = (k.pagerefs i).nfree

/-- The pages are the same over two steps. -/
lemma SamePages.trans {k k' k'' : Km} (s : SamePages k k') (s' : SamePages k' k'') :
    SamePages k k'' where
  inuse := s'.inuse.trans s.inuse
  mem := s'.mem.trans s.mem
  pab i := (s'.pab i).trans (s.pab i)
  offset i := (s'.offset i).trans (s.offset i)
  nfree i := (s'.nfree i).trans (s.nfree i)

/-- The same pages have the same block types. -/
lemma SamePages.blocktype (s : SamePages k k') (i : Nat) :
    (k'.pagerefs i).blocktype = (k.pagerefs i).blocktype := by
  rw [PageRef.blocktype, s.pab]
  rfl

/-- The same pages have the same addresses. -/
lemma SamePages.pageaddr (s : SamePages k k') (i : Nat) :
    (k'.pagerefs i).pageaddr = (k.pagerefs i).pageaddr := by
  rw [PageRef.pageaddr, s.pab]
  rfl

/-- Unlinking from a size list. -/
lemma removeSamesize_spec {i t l} (c : Chain k.nextSamesize (k.sizebases t) l) (nd : l.Nodup)
    (hi : i ∈ l) (hn : l.length < Km.fuel) :
    ∃ k', k.removeSamesize i t = some k' ∧ Chain k'.nextSamesize (k'.sizebases t) (l.erase i) ∧
      (∀ t', t' ≠ t → k'.sizebases t' = k.sizebases t') ∧
      (∀ j ∉ l, k'.nextSamesize j = k.nextSamesize j) ∧ k'.nextAll = k.nextAll ∧
      k'.allbase = k.allbase ∧ SamePages k k' := by
  obtain ⟨a, b, rfl, e, ch⟩ := c.unlink nd hi hn
  cases ea : a.getLast? with
  | none =>
    rw [ea] at e ch
    refine ⟨{ k with sizebases := Function.update k.sizebases t (k.nextSamesize i) },
      by simp [removeSamesize, e], ?_, ?_, fun _ _ => rfl, rfl, rfl,
      ⟨rfl, rfl, fun _ => rfl, fun _ => rfl, fun _ => rfl⟩⟩
    · simp only [Function.update_self]
      exact ch
    · intro t' ht'
      exact Function.update_of_ne ht' _ _
  | some p =>
    rw [ea] at e ch
    have nx : (k.setRef p { k.pagerefs p with nextSamesize := k.nextSamesize i }).nextSamesize
        = Function.update k.nextSamesize p (k.nextSamesize i) := by
      funext j
      by_cases ej : j = p
      · subst ej; simp [nextSamesize, setRef]
      · simp [nextSamesize, setRef, ej]
    have na : (k.setRef p { k.pagerefs p with nextSamesize := k.nextSamesize i }).nextAll
        = k.nextAll := by
      funext j
      by_cases ej : j = p
      · subst ej; simp [nextAll, setRef]
      · simp [nextAll, setRef, ej]
    refine ⟨k.setRef p { k.pagerefs p with nextSamesize := k.nextSamesize i },
      by simp [removeSamesize, e], ?_, fun _ _ => rfl, ?_, na, rfl, ⟨rfl, rfl, ?_, ?_, ?_⟩⟩
    · rw [nx]
      exact ch
    · intro j hj
      rw [nx]
      apply Function.update_of_ne
      rintro rfl
      exact hj (List.mem_append_left _ (List.mem_of_getLast? ea))
    all_goals
      intro j
      by_cases ej : j = p
      · subst ej; simp [setRef]
      · simp [setRef, ej]

/-- Unlinking from the list of all pages. -/
lemma removeAll_spec {i l} (c : Chain k.nextAll k.allbase l) (nd : l.Nodup)
    (hi : i ∈ l) (hn : l.length < Km.fuel) :
    ∃ k', k.removeAll i = some k' ∧ Chain k'.nextAll k'.allbase (l.erase i) ∧
      k'.nextSamesize = k.nextSamesize ∧ k'.sizebases = k.sizebases ∧ SamePages k k' := by
  obtain ⟨a, b, rfl, e, ch⟩ := c.unlink nd hi hn
  cases ea : a.getLast? with
  | none =>
    rw [ea] at e ch
    exact ⟨{ k with allbase := k.nextAll i }, by simp [removeAll, e], ch, rfl, rfl,
      ⟨rfl, rfl, fun _ => rfl, fun _ => rfl, fun _ => rfl⟩⟩
  | some p =>
    rw [ea] at e ch
    have nx : (k.setRef p { k.pagerefs p with nextAll := k.nextAll i }).nextAll
        = Function.update k.nextAll p (k.nextAll i) := by
      funext j
      by_cases ej : j = p
      · subst ej; simp [nextAll, setRef]
      · simp [nextAll, setRef, ej]
    have na : (k.setRef p { k.pagerefs p with nextAll := k.nextAll i }).nextSamesize
        = k.nextSamesize := by
      funext j
      by_cases ej : j = p
      · subst ej; simp [nextSamesize, setRef]
      · simp [nextSamesize, setRef, ej]
    refine ⟨k.setRef p { k.pagerefs p with nextAll := k.nextAll i }, by simp [removeAll, e], ?_, na, rfl,
      ⟨rfl, rfl, ?_, ?_, ?_⟩⟩
    · rw [nx]
      exact ch
    all_goals
      intro j
      by_cases ej : j = p
      · subst ej; simp [setRef]
      · simp [setRef, ej]

/-- Removing a page from its lists and from the bitmap removes it from the tables. -/
lemma Tables.remove (tb : k.Tables al fls) {i} (hi : i ∈ al) :
    ∃ k₁ k₂, removeLists k i (k.pagerefs i).blocktype = .ok k₁ ∧ freepageref k₁ i = .ok k₂ ∧
      k₂.Tables (al.erase i) fls ∧
      ∀ j, (k₂.pagerefs j).pageaddrAndBlocktype = (k.pagerefs j).pageaddrAndBlocktype := by
  have ht := (tb.page i hi).type
  have len : (al.filter (fun j => (k.pagerefs j).blocktype = (k.pagerefs i).blocktype)).length
      < Km.fuel := lt_of_le_of_lt (List.length_filter_le _ _) tb.fuel
  obtain ⟨k₁, e₁, c₁, base₁, keep₁, all₁, allb₁, same₁⟩ :=
    removeSamesize_spec (tb.size _ ht) (tb.nodup.filter _)
      (List.mem_filter.2 ⟨hi, by simp⟩ : i ∈ _) len
  have call : Chain k₁.nextAll k₁.allbase al := by
    rw [all₁, allb₁]
    exact tb.all
  obtain ⟨k₂, e₂, c₂, ss₂, base₂, same₂⟩ := removeAll_spec call tb.nodup hi tb.fuel
  have same := same₁.trans same₂
  have bit : k₂.bit i = true := by
    rw [Km.bit, same.inuse]
    exact (tb.inuse i (tb.bound i hi)).2 hi
  obtain ⟨inuse, e₃, bits⟩ := freepageref_spec (tb.bound i hi) bit
  refine ⟨k₂, { k₂ with inuse := inuse }, ?_, e₃, ⟨c₂, tb.nodup.erase i, ?_, ?_, ?_, ?_, ?_⟩, same.pab⟩
  · simp [removeLists, kassert_pos ht, e₁, e₂]
  · intro t ht'
    show Chain k₂.nextSamesize (k₂.sizebases t)
      ((al.erase i).filter (fun j => (k₂.pagerefs j).blocktype = t))
    simp only [same.blocktype, ss₂, base₂]
    have er : (al.erase i).filter (fun j => (k.pagerefs j).blocktype = t)
        = (al.filter (fun j => (k.pagerefs j).blocktype = t)).erase i := by
      rw [tb.nodup.erase_eq_filter, (tb.nodup.filter _).erase_eq_filter, List.filter_filter,
        List.filter_filter]
      congr 1
      funext j
      exact Bool.and_comm _ _
    rw [er]
    by_cases e : t = (k.pagerefs i).blocktype
    · subst e
      exact c₁
    · have out : i ∉ al.filter (fun j => (k.pagerefs j).blocktype = t) := by
        intro h
        have h' : (k.pagerefs i).blocktype = t := by simpa using (List.mem_filter.1 h).2
        exact e h'.symm
      rw [List.erase_of_not_mem out, base₁ t e]
      refine (tb.size t ht').frame ?_
      intro j hj
      refine keep₁ j ?_
      intro hj'
      have h1 : (k.pagerefs j).blocktype = t := by simpa using (List.mem_filter.1 hj).2
      have h2 : (k.pagerefs j).blocktype = (k.pagerefs i).blocktype := by
        simpa using (List.mem_filter.1 hj').2
      exact e (h1.symm.trans h2)
  · exact fun j hj => tb.bound j (List.mem_of_mem_erase hj)
  · intro j hj
    have old : k₂.bit j = k.bit j := by rw [Km.bit, same.inuse]; rfl
    rw [bits j, old, Bool.and_eq_true, tb.inuse j hj, tb.nodup.mem_erase_iff, decide_eq_true_eq,
      and_comm]
  · intro j hj
    have pg := tb.page j (List.mem_of_mem_erase hj)
    rw [show ({ k₂ with inuse := inuse } : Km).mem = k.mem from same.mem]
    exact pg.congr (same.pab j) (same.offset j) (same.nfree j)
  · intro j hj m hm
    show (k₂.pagerefs j).pageaddr = (k₂.pagerefs m).pageaddr → _
    rw [same.pageaddr, same.pageaddr]
    exact tb.inj j (List.mem_of_mem_erase hj) m (List.mem_of_mem_erase hm)

/-- `kfree` of a block in use returns. The block becomes free; a page with no block left in use leaves
the tables and is handed to `free_kpages`. -/
lemma Inv.kfree_blk (inv : k.Inv al fls) {i p} (hi : i ∈ al) (blk : (k.pagerefs i).Blk p)
    (np : p ∉ fls i) :
    ∃ k', (∀ j, (k'.pagerefs j).pageaddrAndBlocktype = (k.pagerefs j).pageaddrAndBlocktype) ∧
      (((fls i).length + 1 < pageSize / sizes (k.pagerefs i).blocktype ∧ kfree k p = .ok (k', none) ∧
          k'.Inv al (Function.update fls i (p :: fls i))) ∨
        ((fls i).length + 1 = pageSize / sizes (k.pagerefs i).blocktype ∧
          kfree k p = .ok (k', some (k.pagerefs i).pageaddr) ∧ k'.Inv (al.erase i) fls)) := by
  have page := inv.page i hi
  have low := page.low
  have high := page.high
  have ge := blk.ge
  have lt := blk.lt
  have scan : k.scanAll p Km.fuel k.allbase = .ok (some i) := by
    cases scanAll_spec inv.all inv.fuel (fun j hj => ⟨_, inv.page j hj⟩) with
    | inl none => exact absurd ⟨ge, lt⟩ (none.2 i hi)
    | inr found =>
      obtain ⟨j, hj, gj, lj, e⟩ := found
      by_cases ne : i = j
      · rw [ne]
        exact e
      · have := inv.pages_apart hi hj ne
        omega
  have off : wsub 32 p (k.pagerefs i).pageaddr = p - (k.pagerefs i).pageaddr :=
    wsub_of_le ge (by omega)
  have good : ¬ (p - (k.pagerefs i).pageaddr ≥ pageSize ∨
      (p - (k.pagerefs i).pageaddr) % sizes (k.pagerefs i).blocktype ≠ 0) := by
    have := Nat.mod_eq_zero_of_dvd blk.dvd
    omega
  obtain ⟨r, mem, ep, ss, ra, pab, page', keep⟩ := push_spec page blk np
  have bt : r.blocktype = (k.pagerefs i).blocktype := by rw [PageRef.blocktype, pab]; rfl
  have frame : ∀ j ∈ al, j ≠ i → ∀ a ∈ fls j, mem a = k.mem a := by
    intro j hj ne a ha
    have b := (inv.page j hj).blks a ha
    have := inv.pages_apart hi hj ne.symm
    have gb := b.ge
    have lb := b.lt
    have stop := blk.stop_le page.type
    exact keep a (by omega)
  have tb := inv.toTables.setPage ss ra pab page' frame
  have le := blks_length_le (r := r) (bt ▸ page.type) page'.nodup page'.blks
  rw [bt] at le
  have pabs : ∀ j, (({ k.setRef i r with mem := mem } : Km).pagerefs j).pageaddrAndBlocktype
      = (k.pagerefs j).pageaddrAndBlocktype := by
    intro j
    show (Function.update k.pagerefs i r j).pageaddrAndBlocktype = _
    by_cases e : j = i
    · rw [e, Function.update_self, pab]
    · rw [Function.update_of_ne e]
  have ref : ({ k.setRef i r with mem := mem } : Km).pagerefs i = r := Function.update_self _ _ _
  have nf : r.nfree = (p :: fls i).length := page'.nfree
  have p0 : p ≠ 0 := by omega
  by_cases full : (p :: fls i).length = pageSize / sizes (k.pagerefs i).blocktype
  · obtain ⟨k₁, k₂, e₁, e₂, tb₂, pab₂⟩ := tb.remove hi
    rw [ref, bt] at e₁
    refine ⟨k₂, fun j => (pab₂ j).trans (pabs j), .inr ⟨full, ?_, ?_, ?_⟩⟩
    · have sub : subpageKfree k p = .ok (k₂, .drained (k.pagerefs i).pageaddr) := by
        simp only [subpageKfree, scan, ok_bind, off]
        rw [if_neg good, ep, ref, nf, kassert_pos le, ok_bind, if_pos full, e₁, ok_bind, e₂, ok_bind]
      simp [kfree, p0, sub]
    · -- the free list of the removed page is no longer read
      refine ⟨tb₂.all, tb₂.nodup, tb₂.size, tb₂.bound, tb₂.inuse, ?_, tb₂.inj⟩
      intro j hj
      have ne : j ≠ i := fun h => (inv.nodup.mem_erase_iff.1 hj).1 h
      have pg := tb₂.page j hj
      rwa [Function.update_of_ne ne] at pg
    · intro j hj
      have bj : (k₂.pagerefs j).blocktype = (k.pagerefs j).blocktype := by
        rw [PageRef.blocktype, pab₂, pabs]
        rfl
      rw [bj]
      exact inv.busy j (List.mem_of_mem_erase hj)
  · have lt' : (p :: fls i).length < pageSize / sizes (k.pagerefs i).blocktype :=
      lt_of_le_of_ne le full
    refine ⟨{ k.setRef i r with mem := mem }, pabs, .inl ⟨lt', ?_, ?_⟩⟩
    · have sub : subpageKfree k p = .ok ({ k.setRef i r with mem := mem }, .done) := by
        simp only [subpageKfree, scan, ok_bind, off]
        rw [if_neg good, ep, ref, nf, kassert_pos le, ok_bind, if_neg full]
      simp [kfree, p0, sub]
    · exact inv.setPage ss ra pab page' frame (by rw [bt]; exact lt')

/-- `kfree` of a page address outside the tables passes it on to `free_kpages`. -/
lemma Inv.kfree_pages (inv : k.Inv al fls) {p} (pos : p ≠ 0) (alg : pageSize ∣ p)
    (out : ∀ i ∈ al, ¬ ((k.pagerefs i).pageaddr ≤ p ∧ p < (k.pagerefs i).pageaddr + pageSize)) :
    kfree k p = .ok (k, some p) := by
  have scan : k.scanAll p Km.fuel k.allbase = .ok none := by
    cases scanAll_spec inv.all inv.fuel (fun j hj => ⟨_, inv.page j hj⟩) with
    | inl none => exact none.1
    | inr found =>
      obtain ⟨i, hi, ge, lt, -⟩ := found
      exact absurd ⟨ge, lt⟩ (out i hi)
  have al0 : p % pageSize = 0 := Nat.mod_eq_zero_of_dvd alg
  simp [kfree, pos, subpageKfree, scan, kassert_pos al0]

end Km

end PDS.Kern
