import Mathlib.Tactic
import Mathlib.Algebra.BigOperators.Group.List.Basic
import Mathlib.Order.Interval.Finset.Nat
import Mathlib.Data.Finset.Card

/-!
# Extents

Contiguous-memory bookkeeping in its own terms. A `Block` is a half-open range of addresses;
`Layout lo hi free used` says that two address-ordered lists of non-empty blocks share out `[lo, hi)`
between them. The invariant is stated with a total instead of a covering condition, so that each
operation on the lists is a rearrangement of a sum:
* `Layout.split` cuts a free block in two, `Layout.take` moves a whole one to the used list;
* `Layout.release` moves a used block to the free list, `Layout.join` merges two touching free blocks;
* `Layout.pack` pushes all used blocks to the front.

`Separated` is the coalescing condition (no two free blocks touch); it makes a layout the only one with its
used blocks (`Layout.ext`). `Layout.tiles` recovers the geometric reading: every address of `[lo, hi)` lies in
exactly one block.
-/

namespace PDS.Extent

/-- The addresses `start, ..., start + size - 1`. -/
structure Block where
  start : Nat
  size : Nat
deriving DecidableEq, Repr

/-- One past the last address of a block. -/
def Block.stop (b : Block) : Nat := b.start + b.size

/-- The end of a block is its start and its size. -/
@[simp] lemma Block.stop_mk (s n : Nat) : Block.stop ⟨s, n⟩ = s + n := rfl

/-- `x` is an address of the block. -/
def Block.Has (b : Block) (x : Nat) : Prop := b.start ≤ x ∧ x < b.stop

/-- What is left of a block when `n` bytes are taken off its front. -/
def Block.rest (b : Block) (n : Nat) : List Block := if b.size = n then [] else [⟨b.start + n, b.size - n⟩]

/-- Two blocks have no address in common. -/
def Block.Apart (b c : Block) : Prop := b.stop ≤ c.start ∨ c.stop ≤ b.start

instance : Std.Symm Block.Apart := ⟨fun _ _ h => h.symm⟩

/-- Total size of a list of blocks. -/
def total (l : List Block) : Nat := (l.map Block.size).sum

/-- No blocks have no size. -/
@[simp] lemma total_nil : total [] = 0 := rfl

/-- The first block adds its size to the total. -/
@[simp] lemma total_cons (b : Block) (l : List Block) : total (b :: l) = b.size + total l := by
  simp [total]

/-- The total of two lists is the sum of their totals. -/
@[simp] lemma total_append (l l' : List Block) : total (l ++ l') = total l + total l' := by
  simp [total]

/-- Each block ends before the next ones start. -/
def Ordered (l : List Block) : Prop := l.Pairwise (fun b c => b.stop ≤ c.start)

/-- No two blocks of an ordered list touch. -/
def Separated (l : List Block) : Prop := l.Pairwise (fun b c => b.stop < c.start)

/-- `l` covers exactly the addresses of `[lo, hi)`, each of them once. -/
def Tiles (lo hi : Nat) (l : List Block) : Prop :=
  l.Pairwise Block.Apart ∧ ∀ x, (lo ≤ x ∧ x < hi) ↔ ∃ b ∈ l, b.Has x

/-- The free and the used list share out `[lo, hi)`. -/
structure Layout (lo hi : Nat) (free used : List Block) : Prop where
  pos : ∀ b ∈ free ++ used, 0 < b.size
  within : ∀ b ∈ free ++ used, lo ≤ b.start ∧ b.stop ≤ hi
  free_ordered : Ordered free
  used_ordered : Ordered used
  apart : ∀ f ∈ free, ∀ u ∈ used, f.Apart u
  total_eq : lo + total free + total used = hi

/-- Ordered lists of non-empty blocks are strictly sorted by start. -/
lemma Ordered.starts_lt {l} (ord : Ordered l) (pos : ∀ b ∈ l, 0 < b.size) :
    (l.map Block.start).Pairwise (· < ·) := by
  rw [List.pairwise_map]
  refine List.Pairwise.imp_of_mem ?_ ord
  intro b c hb _ h
  have := pos b hb
  simp only [Block.stop] at h
  omega

/-- What it takes for a block to stand between two ordered lists. -/
lemma ordered_middle {p s q} :
    Ordered (p ++ s :: q) ↔
      Ordered (p ++ q) ∧ (∀ b ∈ p, b.stop ≤ s.start) ∧ ∀ b ∈ q, s.stop ≤ b.start := by
  simp only [Ordered, List.pairwise_append, List.pairwise_cons, List.mem_cons]
  constructor
  · rintro ⟨hp, ⟨hsq, hq⟩, h⟩
    exact ⟨⟨hp, hq, fun a ha b hb => h a ha b (.inr hb)⟩, fun b hb => h b hb s (.inl rfl), hsq⟩
  · rintro ⟨⟨hp, hq, h⟩, hps, hsq⟩
    refine ⟨hp, ⟨hsq, hq⟩, ?_⟩
    rintro a ha b (rfl | hb)
    · exact hps a ha
    · exact h a ha b hb

/-- The same for separation. -/
lemma separated_middle {p s q} :
    Separated (p ++ s :: q) ↔
      Separated (p ++ q) ∧ (∀ b ∈ p, b.stop < s.start) ∧ ∀ b ∈ q, s.stop < b.start := by
  simp only [Separated, List.pairwise_append, List.pairwise_cons, List.mem_cons]
  constructor
  · rintro ⟨hp, ⟨hsq, hq⟩, h⟩
    exact ⟨⟨hp, hq, fun a ha b hb => h a ha b (.inr hb)⟩, fun b hb => h b hb s (.inl rfl), hsq⟩
  · rintro ⟨⟨hp, hq, h⟩, hps, hsq⟩
    refine ⟨hp, ⟨hsq, hq⟩, ?_⟩
    rintro a ha b (rfl | hb)
    · exact hps a ha
    · exact h a ha b hb

/-- A block that is apart from an ordered list goes where its start says. -/
lemma ordered_insert {a s b} (ord : Ordered (a ++ b)) (pos : ∀ x ∈ a ++ b, 0 < x.size)
    (spos : 0 < s.size) (apart : ∀ x ∈ a ++ b, x.Apart s)
    (ha : ∀ x ∈ a, x.start < s.start) (hb : ∀ x, b.head? = some x → s.start ≤ x.start) :
    Ordered (a ++ s :: b) := by
  refine ordered_middle.2 ⟨ord, ?_, ?_⟩
  · intro x hx
    have := ha x hx
    rcases apart x (by simp [hx]) with h | h
    · exact h
    · simp only [Block.stop] at h; omega
  · cases b with
    | nil => simp
    | cons y b =>
      have hy : s.start ≤ y.start := hb y rfl
      have hsy : s.stop ≤ y.start := by
        have := pos y (by simp)
        rcases apart y (by simp) with h | h
        · simp only [Block.stop] at h; omega
        · exact h
      have hyb := (ordered_middle.1 ord).2.2
      intro x hx
      rcases List.mem_cons.1 hx with rfl | hx
      · exact hsy
      · have := hyb x hx
        simp only [Block.stop] at this
        omega

namespace Layout

variable {lo hi n : Nat} {s t : Block} {p q a b free used : List Block}

/-- Moving a free block to its place in the used list. -/
lemma take (ly : Layout lo hi (p ++ s :: q) (a ++ b))
    (ha : ∀ x ∈ a, x.start < s.start) (hb : ∀ x, b.head? = some x → s.start ≤ x.start) :
    Layout lo hi (p ++ q) (a ++ s :: b) where
  pos := by
    intro x hx
    apply ly.pos
    simp only [List.mem_append, List.mem_cons] at hx ⊢
    tauto
  within := by
    intro x hx
    apply ly.within
    simp only [List.mem_append, List.mem_cons] at hx ⊢
    tauto
  free_ordered := (ordered_middle.1 ly.free_ordered).1
  used_ordered := by
    apply ordered_insert ly.used_ordered _ (ly.pos s (by simp)) _ ha hb
    · exact fun x hx => ly.pos x (by simp only [List.mem_append] at hx ⊢; tauto)
    · intro x hx
      exact (ly.apart s (by simp) x hx).symm
  apart := by
    obtain ⟨-, hps, hsq⟩ := ordered_middle.1 ly.free_ordered
    intro f hf u hu
    simp only [List.mem_append, List.mem_cons] at hf hu
    rcases hu with hu | rfl | hu
    · exact ly.apart f (by simp; tauto) u (by simp [hu])
    · rcases hf with hf | hf
      · exact .inl (hps f hf)
      · exact .inr (hsq f hf)
    · exact ly.apart f (by simp; tauto) u (by simp [hu])
  total_eq := by
    have := ly.total_eq
    simp only [total_append, total_cons] at this ⊢
    omega

/-- Splitting a block of the free list in two. -/
lemma split (ly : Layout lo hi (p ++ s :: q) used) (h0 : 0 < n) (hn : n < s.size) :
    Layout lo hi (p ++ ⟨s.start, n⟩ :: ⟨s.start + n, s.size - n⟩ :: q) used := by
  obtain ⟨hpq, hps, hsq⟩ := ordered_middle.1 ly.free_ordered
  have hw := ly.within s (by simp)
  simp only [Block.stop] at hps hsq hw
  refine ⟨?_, ?_, ?_, ly.used_ordered, ?_, ?_⟩
  · intro x hx
    simp only [List.mem_append, List.mem_cons] at hx
    rcases hx with (hx | rfl | rfl | hx) | hx
    · exact ly.pos x (by simp [hx])
    · exact h0
    · exact Nat.sub_pos_of_lt hn
    · exact ly.pos x (by simp [hx])
    · exact ly.pos x (by simp [hx])
  · intro x hx
    simp only [List.mem_append, List.mem_cons] at hx
    rcases hx with (hx | rfl | rfl | hx) | hx
    · exact ly.within x (by simp [hx])
    · simp only [Block.stop]; omega
    · simp only [Block.stop]; omega
    · exact ly.within x (by simp [hx])
    · exact ly.within x (by simp [hx])
  · rw [ordered_middle, ordered_middle]
    refine ⟨⟨hpq, ?_, ?_⟩, ?_, ?_⟩
    · intro x hx
      have := hps x hx
      simp only [Block.stop]
      omega
    · intro x hx
      have := hsq x hx
      simp only [Block.stop]
      omega
    · exact hps
    · intro x hx
      rcases List.mem_cons.1 hx with rfl | hx
      · simp [Block.stop]
      · have := hsq x hx
        simp only [Block.stop]
        omega
  · intro f hf u hu
    simp only [List.mem_append, List.mem_cons] at hf
    have hsu := ly.apart s (by simp) u hu
    simp only [Block.Apart, Block.stop] at hsu
    rcases hf with hf | rfl | rfl | hf
    · exact ly.apart f (by simp [hf]) u hu
    · simp only [Block.Apart, Block.stop]; omega
    · simp only [Block.Apart, Block.stop]; omega
    · exact ly.apart f (by simp [hf]) u hu
  · have := ly.total_eq
    simp only [total_append, total_cons] at this ⊢
    omega

/-- The two lists play symmetric roles. -/
lemma symm (ly : Layout lo hi free used) : Layout lo hi used free where
  pos := by
    intro x hx
    apply ly.pos
    simp only [List.mem_append] at hx ⊢
    tauto
  within := by
    intro x hx
    apply ly.within
    simp only [List.mem_append] at hx ⊢
    tauto
  free_ordered := ly.used_ordered
  used_ordered := ly.free_ordered
  apart := fun u hu f hf => (ly.apart f hf u hu).symm
  total_eq := by
    have := ly.total_eq
    omega

/-- Moving a used block to its place in the free list. -/
lemma release (ly : Layout lo hi (p ++ q) (a ++ s :: b))
    (hp : ∀ x ∈ p, x.start < s.start) (hq : ∀ x, q.head? = some x → s.start ≤ x.start) :
    Layout lo hi (p ++ s :: q) (a ++ b) :=
  (ly.symm.take hp hq).symm

/-- Merging two free blocks that touch. -/
lemma join (ly : Layout lo hi (p ++ s :: t :: q) used) (h : s.stop = t.start) :
    Layout lo hi (p ++ ⟨s.start, s.size + t.size⟩ :: q) used := by
  have h' := h
  simp only [Block.stop] at h'
  obtain ⟨hptq, hps, hsq⟩ := ordered_middle.1 ly.free_ordered
  obtain ⟨hpq, hpt, htq⟩ := ordered_middle.1 hptq
  have hws := ly.within s (by simp)
  have hwt := ly.within t (by simp)
  have hs := ly.pos s (by simp)
  simp only [Block.stop] at htq hws hwt
  refine ⟨?_, ?_, ?_, ly.used_ordered, ?_, ?_⟩
  · intro x hx
    simp only [List.mem_append, List.mem_cons] at hx
    rcases hx with (hx | rfl | hx) | hx
    · exact ly.pos x (by simp [hx])
    · show 0 < s.size + t.size
      omega
    · exact ly.pos x (by simp [hx])
    · exact ly.pos x (by simp [hx])
  · intro x hx
    simp only [List.mem_append, List.mem_cons] at hx
    rcases hx with (hx | rfl | hx) | hx
    · exact ly.within x (by simp [hx])
    · simp only [Block.stop]; omega
    · exact ly.within x (by simp [hx])
    · exact ly.within x (by simp [hx])
  · refine ordered_middle.2 ⟨hpq, hps, ?_⟩
    intro x hx
    have := htq x hx
    simp only [Block.stop]
    omega
  · intro f hf u hu
    simp only [List.mem_append, List.mem_cons] at hf
    have hsu := ly.apart s (by simp) u hu
    have htu := ly.apart t (by simp) u hu
    have hu0 := ly.pos u (by simp [hu])
    simp only [Block.Apart, Block.stop] at hsu htu
    rcases hf with hf | rfl | hf
    · exact ly.apart f (by simp [hf]) u hu
    · simp only [Block.Apart, Block.stop]; omega
    · exact ly.apart f (by simp [hf]) u hu
  · have := ly.total_eq
    simp only [total_append, total_cons] at this ⊢
    omega

end Layout

/-- The blocks of a list moved down to follow one another from `lo` on. -/
def pack (lo : Nat) : List Block → List Block
  | [] => []
  | b :: l => ⟨lo, b.size⟩ :: pack (lo + b.size) l

/-- Packing does not change the total. -/
@[simp] lemma total_pack (lo : Nat) (l : List Block) : total (pack lo l) = total l := by
  induction l generalizing lo with
  | nil => rfl
  | cons b l ih => simp [pack, ih]

/-- A packed list stays within its total size. -/
lemma pack_within {lo l b} (hb : b ∈ pack lo l) : lo ≤ b.start ∧ b.stop ≤ lo + total l := by
  induction l generalizing lo with
  | nil => simp [pack] at hb
  | cons c l ih =>
    rcases List.mem_cons.1 hb with rfl | hb
    · simp [Block.stop]
    · have := ih hb
      simp only [total_cons]
      omega

/-- A packed list is ordered. -/
lemma pack_ordered (lo : Nat) (l : List Block) : Ordered (pack lo l) := by
  induction l generalizing lo with
  | nil => exact List.Pairwise.nil
  | cons b l ih =>
    refine List.pairwise_cons.2 ⟨?_, ih _⟩
    intro c hc
    exact (pack_within hc).1

/-- Packing keeps blocks non-empty. -/
lemma pack_pos {lo l} (pos : ∀ b ∈ l, 0 < b.size) : ∀ b ∈ pack lo l, 0 < b.size := by
  induction l generalizing lo with
  | nil => simp [pack]
  | cons c l ih =>
    intro b hb
    rcases List.mem_cons.1 hb with rfl | hb
    · exact pos c (by simp)
    · exact ih (fun b hb => pos b (by simp [hb])) b hb

/-- With the used blocks packed, the free space is one block at the end of the arena. -/
lemma Layout.pack {lo hi free used} (ly : Layout lo hi free used) (hf : free ≠ []) :
    Layout lo hi [⟨hi - total free, total free⟩] (pack lo used) := by
  have tot := ly.total_eq
  have pos : 0 < total free := by
    obtain ⟨f, l, rfl⟩ := List.exists_cons_of_ne_nil hf
    have := ly.pos f (by simp)
    simp only [total_cons]
    omega
  refine ⟨?_, ?_, List.pairwise_singleton _ _, pack_ordered lo used, ?_, ?_⟩
  · intro b hb
    rcases List.mem_append.1 hb with hb | hb
    · rw [List.mem_singleton.1 hb]
      exact pos
    · exact pack_pos (fun b hb => ly.pos b (by simp [hb])) b hb
  · intro b hb
    rcases List.mem_append.1 hb with hb | hb
    · rw [List.mem_singleton.1 hb]
      simp only [Block.stop]
      omega
    · have := pack_within hb
      omega
  · intro f hf u hu
    rw [List.mem_singleton.1 hf]
    have := pack_within hu
    refine .inr ?_
    simp only
    omega
  · simp only [total_cons, total_nil, total_pack]
    omega

/-- With no free space, packing keeps a full arena full. -/
lemma Layout.pack_full {lo hi used} (ly : Layout lo hi [] used) :
    Layout lo hi [] (Extent.pack lo used) := by
  have tot := ly.total_eq
  refine ⟨?_, ?_, List.Pairwise.nil, pack_ordered lo used, by simp, ?_⟩
  · exact pack_pos (fun b hb => ly.pos b (by simp [hb]))
  · intro b hb
    have := pack_within hb
    simp only [total_nil] at tot
    omega
  · simpa using tot

/-- Cutting the front off a block keeps it clear of its neighbours. -/
lemma Separated.carve {p s q n} (sep : Separated (p ++ s :: q)) (hn : n ≤ s.size) :
    Separated (p ++ ⟨s.start + n, s.size - n⟩ :: q) := by
  obtain ⟨hpq, hps, hsq⟩ := separated_middle.1 sep
  refine separated_middle.2 ⟨hpq, ?_, ?_⟩
  · intro b hb
    have := hps b hb
    simp only
    omega
  · intro b hb
    have := hsq b hb
    simp only [Block.stop] at this ⊢
    omega

/-- A block that touches neither of its neighbours keeps an ordered list separated. -/
lemma Separated.insert {p s q} (sep : Separated (p ++ q)) (ord : Ordered (p ++ s :: q))
    (hp : ∀ x, p.getLast? = some x → x.stop ≠ s.start)
    (hq : ∀ x, q.head? = some x → s.stop ≠ x.start) :
    Separated (p ++ s :: q) := by
  obtain ⟨-, hps, hsq⟩ := ordered_middle.1 ord
  refine separated_middle.2 ⟨sep, ?_, ?_⟩
  · -- only the last block of `p` can touch `s`: the others end before it starts
    induction p using List.reverseRecOn with
    | nil => simp
    | append_singleton p x _ =>
      have hx : x.stop < s.start := by
        have := hps x (by simp)
        have := hp x (by simp)
        omega
      have sep' : Separated (p ++ x :: q) := by simpa using sep
      have hpx := (separated_middle.1 sep').2.1
      intro b hb
      rcases List.mem_append.1 hb with hb | hb
      · have := hpx b hb
        simp only [Block.stop] at this hx ⊢
        omega
      · rw [List.mem_singleton.1 hb]
        exact hx
  · cases q with
    | nil => simp
    | cons x q =>
      have hx : s.stop < x.start := by
        have := hsq x (by simp)
        have := hq x rfl
        omega
      have hxq := (separated_middle.1 sep).2.2
      intro b hb
      rcases List.mem_cons.1 hb with rfl | hb
      · exact hx
      · have := hxq b hb
        simp only [Block.stop] at this
        omega

/-- In a separated list of non-empty blocks no block ends where another one starts. -/
lemma Separated.stop_ne_start {l} (sep : Separated l) (pos : ∀ b ∈ l, 0 < b.size) :
    ∀ b ∈ l, ∀ c ∈ l, b.stop ≠ c.start := by
  intro b hb c hc
  refine List.Pairwise.forall_of_forall_of_flip (R := fun b c => b.stop ≠ c.start) ?_ ?_ ?_ hb hc
  · intro x hx
    have := pos x hx
    simp only [Block.stop]
    omega
  · exact sep.imp (fun h => h.ne)
  · refine sep.imp ?_
    intro x y h
    simp only [flip, Block.stop] at h ⊢
    omega

/-- The addresses of a list of blocks. -/
def cover (l : List Block) : Finset Nat :=
  l.foldr (fun b s => Finset.Ico b.start b.stop ∪ s) ∅

/-- An address is covered if one of the blocks has it. -/
lemma mem_cover {l x} : x ∈ cover l ↔ ∃ b ∈ l, b.Has x := by
  induction l with
  | nil => simp [cover]
  | cons b l ih =>
    have e : cover (b :: l) = Finset.Ico b.start b.stop ∪ cover l := rfl
    simp [e, ih, Block.Has]

/-- Blocks without common addresses have as many addresses as their sizes say. -/
lemma card_cover {l} (ap : l.Pairwise Block.Apart) : (cover l).card = total l := by
  induction l with
  | nil => rfl
  | cons b l ih =>
    obtain ⟨hb, ap⟩ := List.pairwise_cons.1 ap
    have dj : Disjoint (Finset.Ico b.start b.stop) (cover l) := by
      rw [Finset.disjoint_left]
      intro x hx hl
      obtain ⟨c, hc, h⟩ := mem_cover.1 hl
      have hbc := hb c hc
      simp only [Finset.mem_Ico] at hx
      simp only [Block.Has] at h
      rcases hbc with h' | h' <;> omega
    have e : cover (b :: l) = Finset.Ico b.start b.stop ∪ cover l := rfl
    rw [e, Finset.card_union_of_disjoint dj, ih ap, Nat.card_Ico, total_cons]
    simp [Block.stop]

/-- A layout tiles its arena: blocks are apart, and their sizes leave no room for a gap. -/
lemma Layout.tiles {lo hi free used} (ly : Layout lo hi free used) :
    Tiles lo hi (free ++ used) := by
  have ap : (free ++ used).Pairwise Block.Apart := by
    refine List.pairwise_append.2 ⟨?_, ?_, ly.apart⟩
    · exact List.Pairwise.imp (fun h => .inl h) ly.free_ordered
    · exact List.Pairwise.imp (fun h => .inl h) ly.used_ordered
  have sub : cover (free ++ used) ⊆ Finset.Ico lo hi := by
    intro x hx
    obtain ⟨b, hb, h⟩ := mem_cover.1 hx
    have hw := ly.within b hb
    simp only [Block.Has] at h
    simp only [Finset.mem_Ico]
    omega
  have eq : cover (free ++ used) = Finset.Ico lo hi := by
    apply Finset.eq_of_subset_of_card_le sub
    have := ly.total_eq
    rw [card_cover ap, Nat.card_Ico, total_append]
    omega
  refine ⟨ap, ?_⟩
  intro x
  rw [← mem_cover, eq, Finset.mem_Ico]

/-- An ordered list of non-empty blocks is the only one with its members. -/
lemma Ordered.ext {l l' : List Block} (ord : Ordered l) (ord' : Ordered l') (pos : ∀ b ∈ l, 0 < b.size)
    (same : ∀ b, b ∈ l ↔ b ∈ l') : l = l' := by
  have pos' : ∀ b ∈ l', 0 < b.size := fun b hb => pos b ((same b).2 hb)
  have nodup := fun l (ord : Ordered l) (pos : ∀ b ∈ l, 0 < b.size) =>
    List.Nodup.of_map Block.start ((ord.starts_lt pos).imp Nat.ne_of_lt)
  refine List.Perm.eq_of_pairwise ?_ ord ord'
    ((List.perm_ext_iff_of_nodup (nodup l ord pos) (nodup l' ord' pos')).2 same)
  intro b c hb hc bc cb
  have := pos b hb
  simp only [Block.stop] at bc cb
  omega

/-- The first address that a separated list covers. -/
lemma Separated.start_le {b : Block} {l : List Block} (sep : Separated (b :: l)) {x : Nat}
    (h : x ∈ cover (b :: l)) : b.start ≤ x := by
  obtain ⟨c, hc, le, -⟩ := mem_cover.1 h
  cases List.mem_cons.1 hc with
  | inl e => rwa [e] at le
  | inr hc =>
    have lt := (List.pairwise_cons.1 sep).1 c hc
    simp only [Block.stop] at lt
    omega

/-- The first block of a separated list ends where an address is not covered. -/
lemma Separated.stop_notMem {b : Block} {l : List Block} (sep : Separated (b :: l)) :
    b.stop ∉ cover (b :: l) := by
  intro h
  obtain ⟨c, hc, le, lt⟩ := mem_cover.1 h
  cases List.mem_cons.1 hc with
  | inl e =>
    rw [e] at lt
    omega
  | inr hc =>
    have := (List.pairwise_cons.1 sep).1 c hc
    omega

/-- The addresses of the other blocks are those above the first one. -/
lemma Separated.mem_tail {b : Block} {l : List Block} (sep : Separated (b :: l)) (x : Nat) :
    x ∈ cover l ↔ x ∈ cover (b :: l) ∧ b.stop ≤ x := by
  simp only [mem_cover, List.mem_cons]
  constructor
  · rintro ⟨c, hc, has⟩
    have := (List.pairwise_cons.1 sep).1 c hc
    exact ⟨⟨c, .inr hc, has⟩, this.le.trans has.1⟩
  · rintro ⟨⟨c, rfl | hc, has⟩, le⟩
    · exact absurd has.2 (not_lt.2 le)
    · exact ⟨c, hc, has⟩

/-- A separated list of non-empty blocks is the only one that covers its addresses. -/
lemma Separated.ext {l l' : List Block} (sep : Separated l) (sep' : Separated l') (pos : ∀ b ∈ l, 0 < b.size)
    (pos' : ∀ b ∈ l', 0 < b.size) (same : cover l = cover l') : l = l' := by
  have first : ∀ (b : Block) (l : List Block), 0 < b.size → b.start ∈ cover (b :: l) := fun b l pos =>
    mem_cover.2 ⟨b, List.mem_cons_self, le_refl _, Nat.lt_add_of_pos_right pos⟩
  induction l generalizing l' with
  | nil =>
    cases l' with
    | nil => rfl
    | cons c l' =>
      have h := first c l' (pos' c List.mem_cons_self)
      rw [← same] at h
      cases h
  | cons b l ih =>
    have posb := pos b List.mem_cons_self
    have h := first b l posb
    cases l' with
    | nil =>
      rw [same] at h
      cases h
    | cons c l' =>
      have posc := pos' c List.mem_cons_self
      have h' := first c l' posc
      have start : b.start = c.start := by
        rw [same] at h
        rw [← same] at h'
        exact le_antisymm (sep.start_le h') (sep'.start_le h)
      have stop : b.stop = c.stop := by
        -- otherwise the end of the shorter block is an address of the other list only
        have nb := sep.stop_notMem
        have nc := sep'.stop_notMem
        rw [same, mem_cover] at nb
        rw [← same, mem_cover] at nc
        have no : ¬ c.Has b.stop := fun has => nb ⟨c, List.mem_cons_self, has⟩
        have no' : ¬ b.Has c.stop := fun has => nc ⟨b, List.mem_cons_self, has⟩
        simp only [Block.Has, Block.stop] at no no' ⊢
        omega
      have size : b.size = c.size := by
        simp only [Block.stop] at stop
        omega
      have eq : b = c := by
        cases b
        cases c
        cases start
        cases size
        rfl
      subst eq
      rw [ih (List.pairwise_cons.1 sep).2 (List.pairwise_cons.1 sep').2
        (fun d hd => pos d (List.mem_cons_of_mem _ hd)) (fun d hd => pos' d (List.mem_cons_of_mem _ hd)) ?_]
      ext x
      rw [sep.mem_tail, sep'.mem_tail, same]

/-- The free addresses of a layout are those that no used block has. -/
lemma Layout.mem_free {lo hi : Nat} {free used : List Block} (ly : Layout lo hi free used) (x : Nat) :
    x ∈ cover free ↔ (lo ≤ x ∧ x < hi) ∧ x ∉ cover used := by
  rw [ly.tiles.2, mem_cover, mem_cover]
  constructor
  · rintro ⟨f, hf, has⟩
    refine ⟨⟨f, List.mem_append_left _ hf, has⟩, ?_⟩
    rintro ⟨u, hu, has'⟩
    have apart := ly.apart f hf u hu
    simp only [Block.Has, Block.Apart] at has has' apart
    omega
  · rintro ⟨⟨b, hb, has⟩, none⟩
    cases List.mem_append.1 hb with
    | inl hf => exact ⟨b, hf, has⟩
    | inr hu => exact absurd ⟨b, hu, has⟩ none

/-- Two coalesced layouts of one arena with the same used blocks are the same. -/
lemma Layout.ext {lo hi : Nat} {free used free' used' : List Block} (ly : Layout lo hi free used)
    (ly' : Layout lo hi free' used') (sep : Separated free) (sep' : Separated free')
    (same : ∀ b, b ∈ used ↔ b ∈ used') : free = free' ∧ used = used' := by
  have eq : used = used' :=
    ly.used_ordered.ext ly'.used_ordered (fun b hb => ly.pos b (List.mem_append_right _ hb)) same
  refine ⟨?_, eq⟩
  refine sep.ext sep' (fun b hb => ly.pos b (List.mem_append_left _ hb))
    (fun b hb => ly'.pos b (List.mem_append_left _ hb)) ?_
  ext x
  rw [ly.mem_free, ly'.mem_free, eq]

end PDS.Extent
