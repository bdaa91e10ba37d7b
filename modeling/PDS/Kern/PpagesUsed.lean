import PDS.Kern.PpagesRun

/-!
# The page allocator as a set of used blocks

What the clients of the page allocator know about it: the blocks of `mem.used_blks` are page-aligned,
non-empty and pairwise disjoint, a successful `alloc_ppages` adds one that is apart from all the others,
and `free_ppages` takes the block at its argument away (`Booted.alloc`, `Booted.free`). The free list is
coalesced, so the used blocks determine both lists (`Kin.same`).
-/

namespace PDS.Kern.Vm
open Links Extent

/-- The states of a booted allocator. -/
def Booted (v : Vm) : Prop := ∃ fl ul lk, v.Ok fl ul lk

/-- The states that a sequence of calls reaches after boot. -/
def Reachable (v : Vm) : Prop := ∃ b v₀ ops, vmBoot b = .ok v₀ ∧ vmRun v₀ ops = .ok v

/-- `b` is a block of `mem.used_blks`. -/
def Used (v : Vm) (b : Block) : Prop := ∃ ul, Chain v.next v.usedBlks ul ∧ b ∈ ul.map v.blk

/-- A block of `mem.used_blks` starts at `a`. -/
def Holds (v : Vm) (a : Nat) : Prop := ∃ b, v.Used b ∧ b.start = a

variable {v v' : Vm} {fl ul lk : List Nat} {b c : Block}

/-- A state that is reached has booted. -/
lemma Reachable.booted (reach : v.Reachable) : v.Booted := by
  obtain ⟨b, v₀, ops, boot, run⟩ := reach
  obtain ⟨v₁, boot₁, ok₀⟩ := vmBoot_ok b
  rw [boot] at boot₁
  cases boot₁
  cases ok₀.run ops with
  | inl e =>
    rw [run] at e
    cases e
  | inr h =>
    obtain ⟨v₂, fl, ul, d, e, ok, -⟩ := h
    rw [run] at e
    cases e
    exact ⟨fl, ul, _, ok⟩

/-- The used blocks are those of the used list. -/
lemma Ok.used_iff (ok : v.Ok fl ul lk) : v.Used b ↔ b ∈ ul.map v.blk := by
  constructor
  · rintro ⟨ul', ch, hb⟩
    rwa [ch.unique ok.used_chain] at hb
  · exact fun hb => ⟨ul, ok.used_chain, hb⟩

/-- Used blocks have no page in common. -/
lemma Booted.used_apart (bt : v.Booted) (hb : v.Used b) (hc : v.Used c) : b = c ∨ b.Apart c := by
  obtain ⟨fl, ul, lk, ok⟩ := bt
  rw [ok.used_iff] at hb hc
  have apart := (List.pairwise_append.1 ok.lists.tiles.1).2.1
  by_cases e : b = c
  · exact .inl e
  · exact .inr (apart.forall hb hc e)

/-- Used blocks are made of whole pages below the kernel segment. -/
lemma Booted.used_pages (bt : v.Booted) (hb : v.Used b) :
    pageSize ∣ b.start ∧ 0 < b.start ∧ 0 < b.size ∧ b.stop ≤ kseg0 := by
  obtain ⟨fl, ul, lk, ok⟩ := bt
  rw [ok.used_iff] at hb
  obtain ⟨u, hu, rfl⟩ := List.mem_map.1 hb
  cases ok with
  | idle => cases hu
  | inv inv =>
    obtain ⟨pos, le, top⟩ := inv.within (List.mem_append_right fl hu)
    have al := (inv.pool.addr u (by simp [hu])).1
    refine ⟨al, lt_of_lt_of_le inv.start_pos le, Nat.mul_pos pos (by decide), ?_⟩
    exact top.trans inv.room

/-- The blocks of a list depend on its slots only. -/
lemma map_blk_congr {l : List Nat} (keep : ∀ i ∈ l, v'.blk i = v.blk i) : l.map v'.blk = l.map v.blk :=
  List.map_congr_left keep

/-- `alloc_ppages` fails and changes nothing, or adds a block. -/
lemma Booted.alloc (bt : v.Booted) {n a} (e : allocPpages v n = .ok (v', a)) :
    v'.Booted ∧ ((a = 0 ∧ v' = v) ∨
      (a ≠ 0 ∧ n ≠ 0 ∧ ¬ v.Holds a ∧ ∀ b, v'.Used b ↔ v.Used b ∨ b = ⟨a, n * pageSize⟩)) := by
  obtain ⟨fl, ul, lk, ok⟩ := bt
  rcases ok.alloc n with ⟨e', -⟩ | ⟨e', -⟩ | ⟨w, p, s, q, q', c, d, u, rfl, rfl, hn, hs, e', inv, bu, keep, -⟩
  · rw [e'] at e
    cases e
    exact ⟨⟨fl, ul, lk, ok⟩, .inl ⟨rfl, rfl⟩⟩
  · rw [e'] at e
    cases e
  · rw [e'] at e
    cases e
    have ok' : v'.Ok _ _ _ := .inv inv
    have used : ∀ b, v'.Used b ↔ v.Used b ∨ b = ⟨(v.slots s).addr, n * pageSize⟩ := by
      intro b
      rw [ok'.used_iff, ok.used_iff, ← map_blk_congr keep, ← bu]
      simp only [List.map_append, List.map_cons, List.mem_append, List.mem_cons]
      tauto
    have new : v'.Used ⟨(v.slots s).addr, n * pageSize⟩ := (used _).2 (.inr rfl)
    have bt' : v'.Booted := ⟨_, _, _, ok'⟩
    refine ⟨bt', .inr ⟨(bt'.used_pages new).2.1.ne', hn, ?_, used⟩⟩
    rintro ⟨b, hb, start⟩
    have apart : (v'.blk u :: (c ++ d).map v'.blk).Pairwise Block.Apart := by
      have tiled := (List.pairwise_append.1 ok'.lists.tiles.1).2.1
      refine (List.Perm.pairwise_iff (fun h => h.symm) ?_).1 tiled
      simp
    have posb := (bt'.used_pages ((used b).2 (.inl hb))).2.2.1
    have pos : 0 < n * pageSize := (bt'.used_pages new).2.2.1
    rw [ok.used_iff, ← map_blk_congr keep] at hb
    have apart := (List.pairwise_cons.1 apart).1 b hb
    simp only [bu, Block.Apart, Block.stop, start] at apart
    omega

/-- `free_ppages` takes the block at its argument away, if there is one. -/
lemma Booted.free (bt : v.Booted) {a} (e : freePpages v a = .ok v') :
    v'.Booted ∧ ∀ b, v'.Used b ↔ v.Used b ∧ b.start ≠ a := by
  obtain ⟨fl, ul, lk, ok⟩ := bt
  rcases ok.free a with ⟨e', none⟩ | ⟨w, fl', c, u, d, k, rfl, hu, e', inv, keep, -⟩
  · rw [e'] at e
    cases e
    refine ⟨⟨fl, ul, lk, ok⟩, ?_⟩
    intro b
    rw [ok.used_iff, iff_self_and]
    intro hb
    obtain ⟨i, hi, rfl⟩ := List.mem_map.1 hb
    exact none i hi
  · rw [e'] at e
    cases e
    have ok' : v'.Ok _ _ _ := .inv inv
    refine ⟨⟨_, _, _, ok'⟩, ?_⟩
    intro b
    rw [ok'.used_iff, ok.used_iff, map_blk_congr keep]
    have ne : ∀ i ∈ c ++ d, (v.slots i).addr ≠ a := by
      intro i hi h
      have eq : i = u := ok.used_inj (by simp at hi ⊢; tauto) (by simp) (h.trans hu.symm)
      have nodup : (c ++ u :: d).Nodup :=
        (List.nodup_append.1 (List.nodup_append.1 ok.pool.nodup).1).2.1
      rw [List.nodup_middle, List.nodup_cons] at nodup
      exact nodup.1 (eq ▸ hi)
    simp only [List.mem_map, List.mem_append, List.mem_cons] at ne ⊢
    constructor
    · rintro ⟨i, hi, rfl⟩
      exact ⟨⟨i, by tauto, rfl⟩, ne i hi⟩
    · rintro ⟨⟨i, hi, rfl⟩, h⟩
      refine ⟨i, ?_, rfl⟩
      rcases hi with hi | rfl | hi
      · exact .inl hi
      · exact absurd hu h
      · exact .inr hi

/-- One more address is held. -/
lemma holds_add {a n : Nat} (used : ∀ b, v'.Used b ↔ v.Used b ∨ b = ⟨a, n * pageSize⟩) (x : Nat) :
    v'.Holds x ↔ v.Holds x ∨ x = a := by
  simp only [Holds, used]
  constructor
  · rintro ⟨b, hb | rfl, rfl⟩
    · exact .inl ⟨b, hb, rfl⟩
    · exact .inr rfl
  · rintro (⟨b, hb, rfl⟩ | rfl)
    · exact ⟨b, .inl hb, rfl⟩
    · exact ⟨_, .inr rfl, rfl⟩

/-- One address is held no longer. -/
lemma holds_drop {a : Nat} (used : ∀ b, v'.Used b ↔ v.Used b ∧ b.start ≠ a) (x : Nat) :
    v'.Holds x ↔ v.Holds x ∧ x ≠ a := by
  simp only [Holds, used]
  constructor
  · rintro ⟨b, ⟨hb, ne⟩, rfl⟩
    exact ⟨⟨b, hb, rfl⟩, ne⟩
  · rintro ⟨⟨b, hb, rfl⟩, ne⟩
    exact ⟨b, ⟨hb, ne⟩, rfl⟩

/-- Address and number of pages of a node. -/
def content (v : Vm) (i : Nat) : Nat × Nat := ((v.slots i).addr, (v.slots i).pages)

/-- The two block lists, as sequences of addresses and numbers of pages, and `mem.free_pages` are the same. -/
structure SameLists (v v' : Vm) : Prop where
  free : ∃ l l', Chain v.next v.freeBlks l ∧ Chain v'.next v'.freeBlks l' ∧ l'.map v'.content = l.map v.content
  used : ∃ l l', Chain v.next v.usedBlks l ∧ Chain v'.next v'.usedBlks l' ∧ l'.map v'.content = l.map v.content
  freePages : v'.freePages = v.freePages

/-- `v'` is `v`, or both manage the same memory. -/
def Kin (v v' : Vm) : Prop :=
  v' = v ∨ ∃ fl ul lk fl' ul' lk', v.Inv fl ul lk ∧ v'.Inv fl' ul' lk' ∧ v'.start = v.start ∧ v'.pages = v.pages

/-- Nothing has changed. -/
lemma Booted.same (bt : v.Booted) : v.SameLists v := by
  obtain ⟨fl, ul, lk, ok⟩ := bt
  exact ⟨⟨fl, fl, ok.free_chain, ok.free_chain, rfl⟩, ⟨ul, ul, ok.used_chain, ok.used_chain, rfl⟩, rfl⟩

/-- Kinship over two steps. -/
lemma Kin.trans {w : Vm} (kin : v.Kin v') (kin' : v'.Kin w) : v.Kin w := by
  obtain rfl | ⟨fl, ul, lk, fl₁, ul₁, lk₁, inv, inv₁, start, pages⟩ := kin
  · exact kin'
  · obtain rfl | ⟨_, _, _, fl', ul', lk', -, inv', start', pages'⟩ := kin'
    · exact .inr ⟨fl, ul, lk, fl₁, ul₁, lk₁, inv, inv₁, start, pages⟩
    · exact .inr ⟨fl, ul, lk, fl', ul', lk', inv, inv', start'.trans start, pages'.trans pages⟩

/-- `alloc_ppages` returns unless the pool is exhausted. -/
lemma Booted.alloc_kin (bt : v.Booted) (n : Nat) :
    allocPpages v n = .error (.panic "Not enough memory for VM system!\n") ∨
      ∃ v' a, allocPpages v n = .ok (v', a) ∧ v.Kin v' := by
  obtain ⟨fl, ul, lk, ok⟩ := bt
  cases ok with
  | inv inv =>
    rcases inv.alloc n with ⟨e, -⟩ | ⟨e, -⟩ | ⟨v', p, s, q, q', a, b, u, -, -, -, -, e, inv', -, -, start, pages⟩
    · exact .inr ⟨v, 0, e, .inl rfl⟩
    · exact .inl e
    · exact .inr ⟨v', _, e, .inr ⟨_, _, _, _, _, _, inv, inv', start, pages⟩⟩
  | idle idle =>
    rcases (Ok.idle idle).alloc n with ⟨e, -⟩ | ⟨e, -⟩ | ⟨_, _, s, _, _, _, _, _, fl, -, nz, le, -⟩
    · exact .inr ⟨v, 0, e, .inl rfl⟩
    · exact .inl e
    · have mem : s ∈ [0] := by simp [fl]
      rw [List.mem_singleton.1 mem, idle.slot] at le
      exact absurd (Nat.le_zero.1 le) nz

/-- `free_ppages` returns. -/
lemma Booted.free_kin (bt : v.Booted) (a : Nat) : ∃ v', freePpages v a = .ok v' ∧ v.Kin v' := by
  obtain ⟨fl, ul, lk, ok⟩ := bt
  cases ok with
  | inv inv =>
    rcases inv.free a with ⟨e, -⟩ | ⟨v', fl', p, u, q, d, -, -, e, inv', -, -, -, start, pages⟩
    · exact ⟨v, e, .inl rfl⟩
    · exact ⟨v', e, .inr ⟨_, _, _, _, _, _, inv, inv', start, pages⟩⟩
  | idle idle =>
    rcases (Ok.idle idle).free a with ⟨e, -⟩ | ⟨_, _, p, u, q, _, nil, -⟩
    · exact ⟨v, e, .inl rfl⟩
    · simp at nil

/-- The contents of the same blocks. -/
lemma content_eq {l l' : List Nat} (eq : l.map v.blk = l'.map v'.blk) : l'.map v'.content = l.map v.content := by
  have content : ∀ (w : Vm) (i : Nat), w.content i = ((w.blk i).start, (w.blk i).size / pageSize) := by
    intro w i
    rw [blk_size, Nat.mul_div_cancel _ (by decide)]
    rfl
  have out : ∀ (w : Vm) (l : List Nat),
      l.map w.content = (l.map w.blk).map (fun b => (b.start, b.size / pageSize)) := by
    intro w l
    rw [List.map_map]
    exact List.map_congr_left (fun i _ => content w i)
  rw [out, out, eq]

/-- The lists are determined by the used blocks. -/
lemma Kin.same (kin : v.Kin v') (bt : v.Booted) (used : ∀ b, v'.Used b ↔ v.Used b) : v.SameLists v' := by
  obtain rfl | ⟨fl, ul, lk, fl', ul', lk', inv, inv', start, pages⟩ := kin
  · exact bt.same
  · have layout := inv'.arena.layout
    rw [start, pages] at layout
    have same : ∀ b, b ∈ ul.map v.blk ↔ b ∈ ul'.map v'.blk := by
      intro b
      rw [← (Ok.inv inv).used_iff, ← (Ok.inv inv').used_iff, used]
    obtain ⟨free_eq, used_eq⟩ := inv.arena.layout.ext layout inv.arena.separated inv'.arena.separated same
    refine ⟨⟨fl, fl', inv.arena.free, inv'.arena.free, content_eq free_eq⟩,
      ⟨ul, ul', inv.arena.used, inv'.arena.used, content_eq used_eq⟩, ?_⟩
    have count := inv'.freePages
    rw [show fl'.map v'.blk = fl.map v.blk from free_eq.symm, ← inv.freePages] at count
    exact Nat.eq_of_mul_eq_mul_right (by decide) count

end PDS.Kern.Vm
